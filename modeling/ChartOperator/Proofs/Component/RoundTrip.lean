import ChartOperator.Cluster.Request
import ChartOperator.Component.Json
import ChartOperator.Proofs.Component.Timestamps
import ChartOperator.Proofs.Json.Objects

set_option autoImplicit false

/-!
# Components are read as they are written

The cluster keeps components as JSON, and each write replaces the whole object. So nothing may get lost between
writing and reading: whatever its spec, its status and its metadata are, a component reads back from its text
(`Component.round_trip`). What is read is told by the fields of the object (`Component.Told`): each field that is
missing has its default, null stands for no text, and unknown fields say nothing. An object in which a known field
stands twice is not read (`Json.record?`).

`Component.Sound` is what the types of the cluster ensure: numbers have 64 bits, points in time have a year that can
be written, and labels and annotations are maps.
-/

namespace ChartOperator

variable {room : Nat}

/-! ## Specs -/

/-- The spec is told by these fields of an object. What is missing has its default, and null is no text. -/
structure ComponentSpec.Told (s : ComponentSpec) (o : Json) : Prop where
  «namespace» : o.field? "namespace" = some (.string s.namespace)
  name : o.field? "name" = some (.string s.name)
  version : (o.field? "version").getD (.string "") = .string s.version
  deployNamespace : (o.field? "deployNamespace").getD .null = .optional s.deployNamespace
  valuesOverlay : (o.field? "valuesYamlOverwrite").getD .null = .optional s.valuesOverlay

theorem ComponentSpec.ofJson?_eq_some_iff {j : Json} {s : ComponentSpec} :
    ofJson? j = some s ↔ ∃ o, j.record? fieldNames 2 = some o ∧ s.Told o := by
  have hversion : ∀ o : Json, o.default? "version" Json.string? "" = ((o.field? "version").getD (.string "")).string? :=
    fun o => Json.default?_eq rfl
  obtain ⟨space, name, version, deployNamespace, valuesOverlay⟩ := s
  simp only [ofJson?, Option.bind_eq_bind, Option.bind_eq_some_iff, Json.required?_string_iff, hversion,
    Json.string?_eq_some_iff, Json.optional?_string_iff]
  constructor
  · rintro ⟨o, ho, s, hs, n, hn, v, hv, d, hd, f, hf, hall⟩
    cases hall
    exact ⟨o, ho, hs, hn, hv, hd, hf⟩
  · rintro ⟨o, ho, hs, hn, hv, hd, hf⟩
    exact ⟨o, ho, _, hs, _, hn, _, hv, _, hd, _, hf, rfl⟩

theorem ComponentSpec.told_toJson (s : ComponentSpec) : s.Told s.toJson := by
  constructor <;> simp [toJson, Values.lookup_cons]
  · cases s.deployNamespace <;> rfl
  · cases s.valuesOverlay <;> rfl

/-- A spec is read as it is written. -/
theorem ComponentSpec.ofJson?_toJson (s : ComponentSpec) : ofJson? s.toJson = some s :=
  ofJson?_eq_some_iff.2 ⟨s.toJson, Json.record?_object _ _ _, s.told_toJson⟩

theorem ComponentSpec.writable_toJson (s : ComponentSpec) : Json.Writable (room + 1) s.toJson := by
  refine Json.writable_object (List.forall_mem_append.2 ⟨List.forall_mem_append.2 ⟨?_, Json.writable_fieldIf_string⟩,
    Json.writable_fieldIf_string⟩)
  simp [Json.writable_string]

/-! ## Statuses -/

/-- The status is told by these fields of an object. What is missing has its default, and null is no text. -/
structure ComponentStatus.Told (s : ComponentStatus) (o : Json) : Prop where
  lifecycle : ((o.field? "status").getD (.string "notInstalled")).word? = some s.lifecycle.text
  backoff : (o.field? "requeueTimeNanos").getD (.nat 0) = .nat s.backoffNanos
  word : s.backoffNanos < twoTo 64
  health : ((o.field? "health").getD (.string "pending")).word? = some s.health.text
  installedVersion : (o.field? "installedVersion").getD .null = .optional s.installedVersion

theorem Lifecycle.ofJson?_eq_some_iff {j : Json} {l : Lifecycle} : ofJson? j = some l ↔ j.word? = some l.text :=
  Json.bind_word?_eq_some_iff ofText?_text

theorem Health.ofJson?_eq_some_iff {j : Json} {v : Health} : ofJson? j = some v ↔ j.word? = some v.text :=
  Json.bind_word?_eq_some_iff ofText?_text

theorem ComponentStatus.ofJson?_eq_some_iff {j : Json} {s : ComponentStatus} :
    ofJson? j = some s ↔ ∃ o, j.record? fieldNames 0 = some o ∧ s.Told o := by
  have hlifecycle : ∀ o : Json, o.default? "status" Lifecycle.ofJson? .notInstalled =
      Lifecycle.ofJson? ((o.field? "status").getD (.string "notInstalled")) := fun o => Json.default?_eq rfl
  have hbackoff : ∀ o : Json, o.default? "requeueTimeNanos" (Json.nat? (twoTo 64)) 0 =
      ((o.field? "requeueTimeNanos").getD (.nat 0)).nat? (twoTo 64) := fun o => Json.default?_eq rfl
  have hhealth : ∀ o : Json, o.default? "health" Health.ofJson? .pending =
      Health.ofJson? ((o.field? "health").getD (.string "pending")) := fun o => Json.default?_eq rfl
  obtain ⟨lifecycle, backoffNanos, health, installedVersion⟩ := s
  simp only [ofJson?, Option.bind_eq_bind, Option.bind_eq_some_iff, hlifecycle, hbackoff, hhealth,
    Lifecycle.ofJson?_eq_some_iff, Health.ofJson?_eq_some_iff, Json.nat?_eq_some_iff, Json.optional?_string_iff]
  constructor
  · rintro ⟨o, ho, l, hl, n, ⟨hn, hword⟩, v, hv, i, hi, hall⟩
    cases hall
    exact ⟨o, ho, hl, hn, hword, hv, hi⟩
  · rintro ⟨o, ho, hl, hn, hword, hv, hi⟩
    exact ⟨o, ho, _, hl, _, ⟨hn, hword⟩, _, hv, _, hi, rfl⟩

/-- The status of a component is none if it is missing or null. -/
theorem ComponentStatus.optional?_iff {n : String} {o : Json} {status : Option ComponentStatus} :
    o.optional? n ofJson? = some status ↔ status = none ∧ (o.field? n).getD .null = .null ∨
      ∃ s v p, status = some s ∧ o.field? n = some v ∧ v.record? fieldNames 0 = some p ∧ s.Told p := by
  rw [Json.optional?_eq_some_iff]
  refine or_congr_right ⟨?_, ?_⟩
  · rintro ⟨s, v, hs, hv, -, hread⟩
    obtain ⟨p, hp, htold⟩ := ofJson?_eq_some_iff.1 hread
    exact ⟨s, v, p, hs, hv, hp, htold⟩
  · rintro ⟨s, v, p, hs, hv, hp, htold⟩
    refine ⟨s, v, hs, hv, ?_, ofJson?_eq_some_iff.2 ⟨p, hp, htold⟩⟩
    rintro rfl
    cases hp

theorem ComponentStatus.told_toJson {s : ComponentStatus} (h : s.backoffNanos < twoTo 64) : s.Told s.toJson := by
  constructor
  case word => exact h
  all_goals simp [toJson, Values.lookup_cons, Json.word?]
  cases s.installedVersion <;> rfl

/-- A status is read as it is written. -/
theorem ComponentStatus.ofJson?_toJson {s : ComponentStatus} (h : s.backoffNanos < twoTo 64) :
    ofJson? s.toJson = some s :=
  ofJson?_eq_some_iff.2 ⟨s.toJson, Json.record?_object _ _ _, told_toJson h⟩

theorem ComponentStatus.writable_toJson {s : ComponentStatus} (h : s.backoffNanos < twoTo 64) :
    Json.Writable (room + 1) s.toJson := by
  refine Json.writable_object (List.forall_mem_append.2 ⟨?_, Json.writable_fieldIf_string⟩)
  have hword : Json.Writable room (.nat s.backoffNanos) :=
    Json.writable_int.2 ⟨by omega, Int.ofNat_lt.2 h⟩
  simp [Json.writable_string, hword]

/-! ## Metadata -/

/-- The names stand in ascending order, each once. -/
def AscendingTexts (ts : List (String × String)) : Prop := ts.Pairwise (·.1 < ·.1)

namespace Json

/-- Items that are read as they are written make a list that is. -/
theorem mapM_map_eq_some {α β : Type} {write : α → β} {read : β → Option α} {as : List α}
    (h : ∀ a, read (write a) = some a) : (as.map write).mapM read = some as := by
  induction as with
  | nil => rfl
  | cons a as ih => rw [List.map_cons, List.mapM_cons, h, ih]; rfl

/-- Items that are read one by one keep what reading keeps of each. -/
theorem map_eq_of_mapM {α β γ : Type} {read : α → Option β} {f : α → γ} {g : β → γ}
    (h : ∀ a b, read a = some b → g b = f a) {as : List α} {bs : List β} (hbs : as.mapM read = some bs) :
    bs.map g = as.map f := by
  induction as generalizing bs with
  | nil =>
    cases hbs
    rfl
  | cons a as ih =>
    rw [List.mapM_cons] at hbs
    obtain ⟨b, hb, hbs⟩ := Option.bind_eq_some_iff.1 hbs
    obtain ⟨rest, hrest, hall⟩ := Option.bind_eq_some_iff.1 hbs
    cases hall
    rw [List.map_cons, List.map_cons, h a b hb, ih hrest]

theorem ascending_of_texts {ts : List (String × String)} (h : AscendingTexts ts) :
    Values.Ascending (ts.map fun (n, s) => (n, string s)) :=
  List.pairwise_map.2 h

theorem texts?_ofTexts {ts : List (String × String)} (h : AscendingTexts ts) : (ofTexts ts).texts? = some ts := by
  rw [ofTexts, object_of_ascending (ascending_of_texts h), texts?, entries?, Option.bind_some]
  exact mapM_map_eq_some fun _ => rfl

/-- Names with texts that are read stand in the order of the object. -/
theorem ascending_of_texts? {j : Json} {ts : List (String × String)} (hmapped : Mapped j) (h : j.texts? = some ts) :
    AscendingTexts ts := by
  obtain ⟨es, hes, hts⟩ := Option.bind_eq_some_iff.1 h
  obtain rfl : j = .fields es := by
    cases j <;> cases hes
    rfl
  have hnames : ts.map (·.1) = es.map (·.1) := by
    refine map_eq_of_mapM ?_ hts
    rintro ⟨n, v⟩ t ht
    obtain ⟨s, -, rfl⟩ := Option.map_eq_some_iff.1 ht
    rfl
  have hpairwise := List.pairwise_map.2 hmapped.fields.1
  rw [← hnames] at hpairwise
  exact List.pairwise_map.1 hpairwise

theorem listOf?_string (fs : List String) : (array (fs.map string)).listOf? string? = some fs := by
  rw [listOf?, items?, Option.bind_some]
  exact mapM_map_eq_some fun _ => rfl

end Json

/-- The metadata is as it can be in the cluster. -/
structure Metadata.Sound (m : Metadata) : Prop where
  labels : ∀ ts, m.labels = some ts → AscendingTexts ts
  annotations : ∀ ts, m.annotations = some ts → AscendingTexts ts
  generation : ∀ n, m.generation = some n → leastSigned 64 ≤ n ∧ n ≤ greatestSigned 64
  creationTimestamp : ∀ t, m.creationTimestamp = some t → t.Sound
  deletionTimestamp : ∀ t, m.deletionTimestamp = some t → t.Sound

theorem Metadata.sound_empty : Metadata.empty.Sound := by
  constructor <;> simp [empty]

/-- What metadata have is written under its name. -/
theorem Metadata.field?_toJson (m : Metadata) :
    (m.toJson.field? "annotations" = m.annotations.map Json.ofTexts ∧ m.toJson.field? "labels" = m.labels.map Json.ofTexts) ∧
    (m.toJson.field? "creationTimestamp" = m.creationTimestamp.map (fun t => .string t.text) ∧
      m.toJson.field? "deletionTimestamp" = m.deletionTimestamp.map (fun t => .string t.text)) ∧
    m.toJson.field? "finalizers" = m.finalizers.map (fun fs => .array (fs.map .string)) ∧
    m.toJson.field? "generation" = m.generation.map (fun n => .number (.int n)) ∧
    m.toJson.field? "generateName" = m.generateName.map .string ∧ m.toJson.field? "name" = m.name.map .string ∧
    m.toJson.field? "namespace" = m.namespace.map .string ∧
    m.toJson.field? "resourceVersion" = m.resourceVersion.map .string ∧ m.toJson.field? "uid" = m.uid.map .string := by
  simp [toJson]

theorem Metadata.writable_toJson {m : Metadata} (h : m.Sound) : Json.Writable (room + 2) m.toJson := by
  have htexts : ∀ ts : List (String × String), Json.Writable (room + 1) (Json.ofTexts ts) := fun ts =>
    Json.writable_object (List.forall_mem_map.2 fun t _ => Json.writable_string t.2)
  have hlist : ∀ fs : List String, Json.Writable (room + 1) (.array (fs.map .string)) := fun fs =>
    List.forall_mem_map.2 fun f _ => Json.writable_string f
  have hgeneration : ∀ k, m.generation = some k → Json.Writable (room + 1) (.number (.int k)) := fun k hk => by
    have hbounds := h.generation k hk
    have hword : greatestSigned 64 < twoTo 64 := by decide
    exact Json.writable_int.2 ⟨hbounds.1, Int.lt_of_le_of_lt hbounds.2 hword⟩
  refine Json.writable_object ?_
  simp only [List.forall_mem_append, Json.forall_mem_fieldIf, and_assoc]
  have htext : ∀ s, Json.Writable (room + 1) (.string s) := Json.writable_string
  exact ⟨fun ts _ => htexts ts, fun t _ => htext t.text, fun t _ => htext t.text, fun fs _ => hlist fs, fun s _ => htext s,
    hgeneration, fun ts _ => htexts ts, fun s _ => htext s, fun s _ => htext s, fun s _ => htext s, fun s _ => htext s⟩

/-- Metadata are read as they are written. -/
theorem Metadata.ofJson?_toJson {m : Metadata} (h : m.Sound) : ofJson? m.toJson = some m := by
  obtain ⟨⟨hannotations, hlabels⟩, ⟨hcreation, hdeletion⟩, hfinalizers, hgeneration, hgenerate, hname, hspace, hversion,
    huid⟩ := m.field?_toJson
  have htext : ∀ {n : String} {o : Option String}, m.toJson.field? n = o.map .string →
      m.toJson.optional? n Json.string? = some o :=
    fun hfield => Json.optional?_of_write hfield fun a _ => ⟨nofun, rfl⟩
  have htexts : ∀ {n : String} {o : Option (List (String × String))}, m.toJson.field? n = o.map Json.ofTexts →
      (∀ ts, o = some ts → AscendingTexts ts) → m.toJson.optional? n Json.texts? = some o :=
    fun hfield hsound => Json.optional?_of_write hfield fun ts hts => ⟨nofun, Json.texts?_ofTexts (hsound ts hts)⟩
  have htime : ∀ {n : String} {o : Option Timestamp}, m.toJson.field? n = o.map (fun t => .string t.text) →
      (∀ t, o = some t → t.Sound) →
      m.toJson.optional? n (fun v => v.string?.bind Timestamp.read?) = some o :=
    fun hfield hsound => Json.optional?_of_write hfield fun t ht => ⟨nofun, Timestamp.read?_text (hsound t ht)⟩
  have hnumber : m.toJson.optional? "generation" (Json.int? (leastSigned 64) (greatestSigned 64)) = some m.generation :=
    Json.optional?_of_write hgeneration fun n hn => ⟨nofun, if_pos (h.generation n hn)⟩
  have hlist : m.toJson.optional? "finalizers" (Json.listOf? Json.string?) = some m.finalizers :=
    Json.optional?_of_write hfinalizers fun fs _ => ⟨nofun, Json.listOf?_string fs⟩
  have hnormal : m.toJson.normal = m.toJson := Json.normal_of_writable 2 _ (writable_toJson h)
  obtain ⟨es, hes⟩ : ∃ es, m.toJson.entries? = some es := ⟨_, rfl⟩
  simp only [ofJson?, hnormal, hes, Option.bind_eq_bind, Option.bind_some, htext hname, htext hgenerate, htext hspace,
    htext huid, htext hversion, htexts hlabels h.labels, htexts hannotations h.annotations, hnumber, hlist,
    htime hcreation h.creationTimestamp, htime hdeletion h.deletionTimestamp]
  rfl

/-- Metadata that are read are as they can be in the cluster. -/
theorem Metadata.sound_of_ofJson? {j : Json} {m : Metadata} (h : ofJson? j = some m) : m.Sound := by
  simp only [ofJson?, Option.bind_eq_bind, Option.bind_eq_some_iff] at h
  obtain ⟨es, -, name, -, generateName, -, space, -, labels, hlabels, annotations, hannotations, uid, -, version, -,
    generation, hgeneration, finalizers, -, created, hcreated, deleted, hdeleted, hm⟩ := h
  cases hm
  have hmapped : j.normal.Mapped := ⟨j, rfl⟩
  have htexts : ∀ {n : String} {o : Option (List (String × String))}, j.normal.optional? n Json.texts? = some o →
      ∀ ts, o = some ts → AscendingTexts ts := by
    intro n o hread ts hts
    obtain ⟨v, hfield, hv⟩ := Json.read_of_optional? hread hts
    exact Json.ascending_of_texts? (hmapped.field? hfield) hv
  have htime : ∀ {n : String} {o : Option Timestamp},
      j.normal.optional? n (fun v => v.string?.bind Timestamp.read?) = some o → ∀ t, o = some t → t.Sound := by
    intro n o hread t ht
    obtain ⟨v, -, hv⟩ := Json.read_of_optional? hread ht
    obtain ⟨s, -, hs⟩ := Option.bind_eq_some_iff.1 hv
    exact Timestamp.sound_of_read? hs
  refine ⟨htexts hlabels, htexts hannotations, fun n hn => ?_, htime hcreated, htime hdeleted⟩
  obtain ⟨v, -, hv⟩ := Json.read_of_optional? hgeneration hn
  exact (Json.int?_eq_some_iff.1 hv).2

/-! ## Components -/

/-- The component is as it can be in the cluster: its backoff is a number of 64 bits. -/
structure Component.Sound (c : Component) : Prop where
  metadata : c.metadata.Sound
  backoff : ∀ s, c.status = some s → s.backoffNanos < twoTo 64

/-- The component is told by these fields of an object. A status that is missing or null is none. -/
structure Component.Told (c : Component) (o : Json) : Prop where
  metadata : (o.field? "metadata").bind Metadata.ofJson? = some c.metadata
  spec : ∃ v p, o.field? "spec" = some v ∧ v.record? ComponentSpec.fieldNames 2 = some p ∧ c.spec.Told p
  status : c.status = none ∧ (o.field? "status").getD .null = .null ∨
    ∃ s v p, c.status = some s ∧ o.field? "status" = some v ∧ v.record? ComponentStatus.fieldNames 0 = some p ∧ s.Told p

theorem Component.ofJson?_eq_some_iff {j : Json} {c : Component} :
    ofJson? j = some c ↔ ∃ o, j.record? fieldNames 3 = some o ∧ c.Told o := by
  have hspec : ∀ (o : Json) (spec : ComponentSpec), (o.field? "spec").bind ComponentSpec.ofJson? = some spec ↔
      ∃ v p, o.field? "spec" = some v ∧ v.record? ComponentSpec.fieldNames 2 = some p ∧ spec.Told p := by
    simp [Option.bind_eq_some_iff, ComponentSpec.ofJson?_eq_some_iff]
  obtain ⟨metadata, spec, status⟩ := c
  simp only [ofJson?, Json.required?, Option.bind_eq_bind]
  rw [Option.bind_eq_some_iff]
  refine exists_congr fun o => and_congr_right fun _ => ?_
  generalize hmetadata : (o.field? "metadata").bind Metadata.ofJson? = read
  generalize hread : (o.field? "spec").bind ComponentSpec.ofJson? = readSpec
  simp only [Option.bind_eq_some_iff]
  constructor
  · rintro ⟨m, rfl, sp, rfl, st, hst, hall⟩
    cases hall
    exact ⟨hmetadata, (hspec o _).1 hread, ComponentStatus.optional?_iff.1 hst⟩
  · rintro ⟨hm, hsp, hst⟩
    exact ⟨metadata, hmetadata.symm.trans hm, spec, hread.symm.trans ((hspec o spec).2 hsp), status,
      ComponentStatus.optional?_iff.2 hst, rfl⟩

theorem Component.ofJson?_toJson {c : Component} (h : c.Sound) : ofJson? c.toJson = some c := by
  have hmetadata : c.toJson.field? "metadata" = some c.metadata.toJson := by
    simp [toJson, Values.lookup_cons]
  have hspec : c.toJson.field? "spec" = some c.spec.toJson := by
    simp [toJson, Values.lookup_cons]
  have hfield : c.toJson.field? "status" = c.status.map ComponentStatus.toJson := by
    simp [toJson, Values.lookup_cons]
  have hstatus : c.toJson.optional? "status" ComponentStatus.ofJson? = some c.status :=
    Json.optional?_of_write hfield fun s hs => ⟨nofun, ComponentStatus.ofJson?_toJson (h.backoff s hs)⟩
  have hrecord : c.toJson.record? fieldNames 3 = some c.toJson := Json.record?_object _ _ _
  simp only [ofJson?, hrecord, Json.required?, hmetadata, hspec, hstatus, Option.bind_eq_bind, Option.bind_some,
    Metadata.ofJson?_toJson h.metadata, ComponentSpec.ofJson?_toJson]
  rfl

/-- A component can be written. -/
theorem Component.writable_toJson {c : Component} (h : c.Sound) : Json.Writable (room + 3) c.toJson := by
  refine Json.writable_object (List.forall_mem_append.2 ⟨?_, Json.forall_mem_fieldIf.2 fun s hs => ?_⟩)
  · simp [Json.writable_string, Metadata.writable_toJson h.metadata, ComponentSpec.writable_toJson]
  · exact ComponentStatus.writable_toJson (h.backoff s hs)

/-! ## Texts -/

/-- The text in which a component travels. -/
def Component.text (c : Component) : String := c.toJson.text

/-- Reads the text of a component. -/
def Component.read? (text : String) : Option Component := (Json.readWritten? text.toList).bind ofJson?

/-- Components are read as they are written. -/
theorem Component.read?_text {c : Component} (h : c.Sound) : read? c.text = some c := by
  have hwritable : Json.Writable 3 c.toJson := writable_toJson h
  rw [read?, text, Json.readWritten?_text hwritable (by decide), Option.bind_some, ofJson?_toJson h]

/-- A component that is read is as it can be in the cluster. -/
theorem Component.sound_of_read? {text : String} {c : Component} (h : read? text = some c) : c.Sound := by
  obtain ⟨j, -, hc⟩ := Option.bind_eq_some_iff.1 h
  obtain ⟨o, -, hmetadata, -, hstatus⟩ := ofJson?_eq_some_iff.1 hc
  obtain ⟨v, -, hread⟩ := Option.bind_eq_some_iff.1 hmetadata
  refine ⟨Metadata.sound_of_ofJson? hread, fun s hs => ?_⟩
  rcases hstatus with ⟨hnone, -⟩ | ⟨s', v, p, hs', -, -, htold⟩
  · cases hs.symm.trans hnone
  · cases hs.symm.trans hs'
    exact htold.word

/-- A component is read as it is written, and as the store gives it back that was sent it. A text is read as a
component by the fields that it has, and defaults for the others; what was read is written and read again as it is. -/
theorem Component.round_trip :
    (∀ c : Component, c.Sound → read? c.text = some c ∧ (Cluster.Response.answered 200 c.text).read ofJson? = .ok c) ∧
    ∀ text c, (read? text = some c ↔
        ∃ j o, Json.readWritten? text.toList = some j ∧ j.record? fieldNames 3 = some o ∧ c.Told o) ∧
      (read? text = some c → c.Sound ∧ read? c.text = some c) := by
  refine ⟨fun c hc => ⟨read?_text hc, ?_⟩, fun text c =>
    ⟨?_, fun h => ⟨sound_of_read? h, read?_text (sound_of_read? h)⟩⟩⟩
  · have hread := read?_text hc
    rw [read?] at hread
    have hbody : (Cluster.Response.answered 200 c.text).body = .ok c.text := rfl
    rw [Cluster.Response.read, hbody]
    simp only [bind, Except.bind, hread]
    rfl
  · simp only [read?, Option.bind_eq_some_iff, ofJson?_eq_some_iff]
    exact exists_congr fun j => exists_and_left.symm

/-- An object with an unknown field and little else, and a component with empty texts. -/
theorem Component.round_trip_sparse :
    let j : Json := .fields [("metadata", .fields []),
      ("spec", .fields [("colour", .nat 1), ("deployNamespace", .null), ("name", .string "dogu-op"),
        ("namespace", .string "k8s")]),
      ("status", .fields [])]
    let c : Component := ⟨.empty, ⟨"k8s", "dogu-op", "", none, none⟩, some .initial⟩
    let d : Component :=
      ⟨.empty, ⟨"k8s", "dogu-op", "", some "", some ""⟩, some ⟨.tryToUpgrade, twoTo 64 - 1, .unknown, some ""⟩⟩
    read? j.text = some c ∧ read? c.text = some c ∧ d.Sound ∧ read? d.text = some d := by
  intro j c d
  have hj : Json.Writable 2 j := by
    have hone : -(twoTo 63 : Int) ≤ 1 ∧ (1 : Int) < twoTo 64 := by decide
    have houter : (["metadata", "spec", "status"] : List String).Pairwise (· < ·) := by decide
    have hinner : (["colour", "deployNamespace", "name", "namespace"] : List String).Pairwise (· < ·) := by decide
    simp only [List.pairwise_cons, List.forall_mem_cons] at houter hinner
    simp only [j, Json.Writable, Values.Ascending, Json.nat, List.pairwise_cons, List.forall_mem_cons]
    simp [hone, houter, hinner]
  have htold : c.Told j := by
    refine ⟨rfl, ⟨_, _, rfl, rfl, rfl, rfl, rfl, rfl, rfl⟩, .inr ⟨_, _, _, rfl, rfl, rfl, rfl, rfl, ?_, rfl, rfl⟩⟩
    decide
  have hread : read? j.text = some c := (round_trip.2 j.text c).1.2 ⟨j, j, Json.readWritten?_text hj (by decide), rfl, htold⟩
  have hsound : d.Sound := by
    refine ⟨Metadata.sound_empty, ?_⟩
    rintro _ ⟨⟩
    decide
  exact ⟨hread, ((round_trip.2 j.text c).2 hread).2, hsound, (round_trip.1 d hsound).1⟩

end ChartOperator
