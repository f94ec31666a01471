import ChartOperator.Json.Fields
import ChartOperator.Proofs.Json.Written

set_option autoImplicit false

/-!
# Objects that are built and read

The object of a list of fields is a map, in which the last of equal names counts (`Json.field?_object`), and which
can be read as a record (`Json.record?_object`). Where all objects of a value are made maps (`Json.Mapped`), every
field of it is such a value again.
-/

namespace ChartOperator.Json

variable {name : String} {value j : Json} {entries rest : List (String × Json)} {room : Nat}

/-! ## Looking up fields -/

@[simp] theorem lookup_nil : lookup name [] = none := rfl

@[simp] theorem lookup_append : lookup name (entries ++ rest) = (lookup name entries).or (lookup name rest) := by
  rw [lookup, List.find?_append]
  cases h : entries.find? (·.1 == name) <;> simp [lookup, h]

/-- The last field with a name counts. -/
@[simp] theorem field?_object : (object entries).field? name = lookup name entries.reverse := by
  have hset : ∀ acc, lookup name (entries.foldl (fun acc e => setField e.1 e.2 acc) acc) =
      (lookup name entries.reverse).or (lookup name acc) := by
    induction entries with
    | nil => simp [lookup_nil]
    | cons e es ih =>
      intro acc
      rw [List.foldl_cons, ih, List.reverse_cons, lookup_append]
      by_cases hname : name = e.1
      · subst hname
        rw [lookup_setField_self, Values.lookup_cons, if_pos rfl]
        simp
      · rw [lookup_setField_ne hname, Values.lookup_cons, if_neg (Ne.symm hname), lookup_nil]
        simp
  rw [object, field?, hset []]
  simp [lookup_nil]

section Fields

variable {α : Type} {write : α → Json} {o : Option α} {n : String}

@[simp] theorem reverse_fieldIf : (fieldIf n write o).reverse = fieldIf n write o := by cases o <;> rfl

@[simp] theorem lookup_fieldIf : lookup name (fieldIf n write o) = if n = name then o.map write else none := by
  cases o with
  | none => simp [fieldIf, lookup_nil]
  | some a => simp [fieldIf, Values.lookup_cons, lookup_nil]

theorem forall_mem_fieldIf {P : String × Json → Prop} :
    (∀ e ∈ fieldIf n write o, P e) ↔ ∀ a, o = some a → P (n, write a) := by
  cases o <;> simp [fieldIf]

theorem writable_fieldIf_string {o : Option String} : ∀ e ∈ fieldIf n string o, Writable room e.2 :=
  forall_mem_fieldIf.2 fun a _ => writable_string a

end Fields

/-! ## Objects are maps -/

theorem mem_setField {e : String × Json} (h : e ∈ setField name value entries) : e = (name, value) ∨ e ∈ entries := by
  induction entries with
  | nil => exact .inl (List.mem_singleton.1 h)
  | cons d es ih =>
    obtain ⟨n, v⟩ := d
    rw [setField] at h
    split at h
    · exact (List.mem_cons.1 h).imp_right (List.mem_cons_of_mem _)
    · split at h
      · exact List.mem_cons.1 h
      · rcases List.mem_cons.1 h with rfl | h
        · exact .inr List.mem_cons_self
        · exact (ih h).imp_right (List.mem_cons_of_mem _)

theorem ascending_setField (h : Values.Ascending entries) : Values.Ascending (setField name value entries) := by
  induction entries with
  | nil => exact List.pairwise_singleton _ _
  | cons d es ih =>
    obtain ⟨n, v⟩ := d
    obtain ⟨hlt, hes⟩ := List.pairwise_cons.1 h
    rw [setField]
    split
    · next hname =>
      subst hname
      exact List.pairwise_cons.2 ⟨hlt, hes⟩
    · next hname =>
      split
      · next hbefore =>
        refine List.pairwise_cons.2 ⟨fun e he => ?_, h⟩
        rcases List.mem_cons.1 he with rfl | he
        · exact hbefore
        · exact Std.lt_trans hbefore (hlt e he)
      · next hbehind =>
        refine List.pairwise_cons.2 ⟨fun e he => ?_, ih hes⟩
        rcases mem_setField he with rfl | he
        · exact Std.lt_of_le_of_ne (Std.not_lt.1 hbehind) hname
        · exact hlt e he

/-- The object of fields is a map of some of them. -/
theorem object_eq_fields (entries : List (String × Json)) :
    ∃ es, object entries = fields es ∧ Values.Ascending es ∧ ∀ e ∈ es, e ∈ entries := by
  have hset : ∀ (later acc : List (String × Json)), Values.Ascending acc →
      Values.Ascending (later.foldl (fun acc e => setField e.1 e.2 acc) acc) ∧
        ∀ e ∈ later.foldl (fun acc e => setField e.1 e.2 acc) acc, e ∈ later ∨ e ∈ acc := by
    intro later
    induction later with
    | nil => exact fun acc h => ⟨h, fun e he => .inr he⟩
    | cons d later ih =>
      intro acc h
      obtain ⟨hascending, hmem⟩ := ih (setField d.1 d.2 acc) (ascending_setField h)
      refine ⟨hascending, fun e he => ?_⟩
      rcases hmem e he with he | he
      · exact .inl (List.mem_cons_of_mem _ he)
      · rcases mem_setField he with rfl | he
        · exact .inl List.mem_cons_self
        · exact .inr he
  obtain ⟨hascending, hmem⟩ := hset entries [] .nil
  exact ⟨_, rfl, hascending, fun e he => (hmem e he).resolve_right (List.not_mem_nil)⟩

theorem writable_object (h : ∀ e ∈ entries, Writable room e.2) : Writable (room + 1) (object entries) := by
  obtain ⟨es, hobject, hascending, hmem⟩ := object_eq_fields entries
  rw [hobject]
  exact ⟨hascending, fun e he => h e (hmem e he)⟩

/-! ## Values of which every object is a map -/

/-- The objects of the value are maps. -/
def Mapped (j : Json) : Prop := ∃ written, normal written = j

theorem mapped_of_mem_normalFields {e : String × Json} (h : e ∈ normalFields entries) : Mapped e.2 := by
  induction entries with
  | nil => cases h
  | cons d es ih =>
    obtain ⟨n, v⟩ := d
    rcases List.mem_cons.1 h with rfl | h
    · exact ⟨v, rfl⟩
    · exact ih h

theorem Mapped.fields (h : Mapped (.fields entries)) : Values.Ascending entries ∧ ∀ e ∈ entries, Mapped e.2 := by
  obtain ⟨written, hnormal⟩ := h
  cases written with
  | fields ws =>
    obtain ⟨es, hobject, hascending, hmem⟩ := object_eq_fields (normalFields ws)
    rw [normal, hobject] at hnormal
    cases hnormal
    exact ⟨hascending, fun e he => mapped_of_mem_normalFields (hmem e he)⟩
  | null | bool _ | number _ | string _ | array _ => cases hnormal

theorem mem_of_lookup (h : lookup name entries = some value) : (name, value) ∈ entries := by
  obtain ⟨⟨n, v⟩, hfound, rfl⟩ := Option.map_eq_some_iff.1 h
  obtain rfl : n = name := by simpa using List.find?_some hfound
  exact List.mem_of_find?_eq_some hfound

theorem Mapped.field? (h : Mapped j) (hfield : j.field? name = some value) : Mapped value := by
  cases j with
  | fields es => exact h.fields.2 _ (mem_of_lookup hfield)
  | null | bool _ | number _ | string _ | array _ => cases hfield

/-! ## Typed access -/

section Typed

variable {α : Type} {name text : String} {j x : Json} {read : Json → Option α} {default : α}

theorem string?_eq_some_iff : j.string? = some text ↔ j = .string text := by
  cases j <;> simp [string?]

theorem required?_string_iff : j.required? name string? = some text ↔ j.field? name = some (.string text) := by
  simp [required?, Option.bind_eq_some_iff, string?_eq_some_iff]

/-- A word is read as the one thing that is written so. -/
theorem bind_word?_eq_some_iff {all : List α} {write : α → String} {a : α}
    (hall : ∀ a, all.find? (write · == write a) = some a) :
    (j.word?.bind fun w => all.find? (write · == w)) = some a ↔ j.word? = some (write a) := by
  rw [Option.bind_eq_some_iff]
  constructor
  · rintro ⟨w, hw, hfound⟩
    have hwrite : write a = w := by simpa using List.find?_some hfound
    rw [hw, hwrite]
  · exact fun h => ⟨write a, h, hall a⟩

/-- A field with a default is read as if the default stood there. -/
theorem default?_eq (h : read x = some default) : j.default? name read default = read ((j.field? name).getD x) := by
  rw [default?]
  cases j.field? name with
  | none => exact h.symm
  | some v => rfl

theorem optional?_string_iff {o : Option String} :
    j.optional? name string? = some o ↔ (j.field? name).getD .null = .optional o := by
  rw [optional?]
  cases j.field? name with
  | none => cases o <;> simp [optional]
  | some v => cases v <;> cases o <;> simp [optional, string?]

theorem nat?_eq_some_iff {bound n : Nat} : j.nat? bound = some n ↔ j = .nat n ∧ n < bound := by
  cases j with
  | number k =>
    cases k with
    | int k =>
      simp only [nat?, nat]
      constructor
      · intro h
        split at h
        · cases h
          simp
          omega
        · cases h
      · rintro ⟨hk, hn⟩
        cases hk
        simp [hn]
    | real _ => simp [nat?, nat]
  | null | bool _ | string _ | array _ | fields _ => simp [nat?, nat]

theorem int?_eq_some_iff {lo hi n : Int} : j.int? lo hi = some n ↔ j = .number (.int n) ∧ lo ≤ n ∧ n ≤ hi := by
  cases j with
  | number k =>
    cases k with
    | int k =>
      simp only [int?]
      constructor
      · intro h
        split at h
        · next hk =>
          cases h
          exact ⟨rfl, hk⟩
        · cases h
      · rintro ⟨hk, hn⟩
        cases hk
        exact if_pos hn
    | real _ => simp [int?]
  | null | bool _ | string _ | array _ | fields _ => simp [int?]

/-- An optional field that is written if it has a value is read as it is written. -/
theorem optional?_of_write {write : α → Json} {o : Option α} (hfield : j.field? name = o.map write)
    (h : ∀ a, o = some a → write a ≠ .null ∧ read (write a) = some a) : j.optional? name read = some o := by
  rw [optional?, hfield]
  cases o with
  | none => rfl
  | some a =>
    obtain ⟨hnull, hread⟩ := h a rfl
    rw [Option.map_some]
    split
    · next heq => cases heq
    · next heq => exact absurd (Option.some.inj heq) hnull
    · next v _ heq =>
      cases heq
      rw [hread]
      rfl

theorem optional?_eq_some_iff {o : Option α} : j.optional? name read = some o ↔
    o = none ∧ (j.field? name).getD .null = .null ∨
      ∃ a v, o = some a ∧ j.field? name = some v ∧ v ≠ .null ∧ read v = some a := by
  rw [optional?]
  split
  · next hfield =>
    constructor
    · rintro ⟨⟩
      exact .inl ⟨rfl, by rw [hfield]; rfl⟩
    · rintro (⟨rfl, -⟩ | ⟨a, v, -, hv, -, -⟩)
      · rfl
      · cases hfield.symm.trans hv
  · next hfield =>
    constructor
    · rintro ⟨⟩
      exact .inl ⟨rfl, by rw [hfield]; rfl⟩
    · rintro (⟨rfl, -⟩ | ⟨a, v, -, hv, hnull, -⟩)
      · rfl
      · cases hfield.symm.trans hv
        exact absurd rfl hnull
  · next w hnull hfield =>
    constructor
    · intro h
      obtain ⟨a, hread, rfl⟩ := Option.map_eq_some_iff.1 h
      exact .inr ⟨a, w, rfl, hfield, hnull, hread⟩
    · rintro (⟨rfl, hmissing⟩ | ⟨a, v, rfl, hv, -, hread⟩)
      · rw [hfield] at hmissing
        exact absurd hmissing hnull
      · cases hfield.symm.trans hv
        rw [hread]
        rfl

theorem read_of_optional? {o : Option α} {a : α} (h : j.optional? name read = some o) (ho : o = some a) :
    ∃ v, j.field? name = some v ∧ read v = some a := by
  rcases optional?_eq_some_iff.1 h with ⟨rfl, -⟩ | ⟨b, v, hb, hfield, -, hread⟩
  · cases ho
  · cases ho.symm.trans hb
    exact ⟨v, hfield, hread⟩

end Typed

/-! ## Records -/

/-- No field of a map is written twice. -/
theorem isUnrepeated_of_ascending {names : List String} (h : Values.Ascending entries) :
    isUnrepeated names (.fields entries) = true := by
  refine List.all_eq_true.2 fun n _ => decide_eq_true ?_
  have hpairwise : (entries.filter fun e => e.1 == n).Pairwise (·.1 < ·.1) := h.filter _
  have hnamed : ∀ e ∈ entries.filter fun e => e.1 == n, e.1 = n := by simp
  cases hfilter : entries.filter fun e => e.1 == n with
  | nil => exact Nat.zero_le 1
  | cons d ds =>
    rw [hfilter] at hpairwise hnamed
    obtain ⟨hd, hds⟩ := List.forall_mem_cons.1 hnamed
    cases ds with
    | nil => exact Nat.le_refl 1
    | cons e es =>
      have hlt := (List.pairwise_cons.1 hpairwise).1 e List.mem_cons_self
      rw [hd, hds e List.mem_cons_self] at hlt
      exact absurd hlt Std.lt_irrefl

theorem record?_object (names : List String) (least : Nat) (entries : List (String × Json)) :
    (object entries).record? names least = some (object entries) := by
  obtain ⟨es, hobject, hascending, -⟩ := object_eq_fields entries
  rw [hobject, record?, if_pos (isUnrepeated_of_ascending hascending)]

end ChartOperator.Json
