import ChartOperator.World
import ChartOperator.Proofs.World.Stored

set_option autoImplicit false

/-!
# What a call does to a world

A call reads, writes or orders. Whatever faults it meets, a call that is no write leaves every stored object
as it is but for versions (`alike_perform`), a call that is no order leaves the releases
(`releases_perform`), and a write is either refused, which changes nothing but versions, or accepted, which
settles the one object that it is about (`store_cases`).

In a world without faults a call ends as the stores answer it (`perform_of_faultFree`).
-/

namespace ChartOperator

/-- What a write makes of the object that is stored: the object without its status, or the status. -/
def Write.onto (stored : Component) : Write → Component
  | .object c => { c with status := stored.status }
  | .status c => { stored with status := c.status }

namespace ComponentStore

variable {s s' s'' : ComponentStore} {x y : Component} {n : String}

/-! ## Stores that differ in versions alone -/

/-- The stores hold the same objects, apart from their versions. -/
def Alike (s s' : ComponentStore) : Prop :=
  ∀ n, (s'.find? n).map (withVersion · "") = (s.find? n).map (withVersion · "")

theorem Alike.refl (s : ComponentStore) : Alike s s := fun _ => rfl

theorem Alike.trans (h : Alike s s') (h' : Alike s' s'') : Alike s s'' := fun n => (h' n).trans (h n)

/-- Of an object in one store the other store holds a version. -/
theorem Alike.find? (h : Alike s s') (hx : s.find? n = some x) :
    ∃ y, s'.find? n = some y ∧
      ∀ {α : Type} {field : Component → α}, VersionFree field → field y = field x := by
  have hy := h n
  rw [hx, Option.map_some, Option.map_eq_some_iff] at hy
  obtain ⟨y, hy, he⟩ := hy
  refine ⟨y, hy, fun hf => ?_⟩
  rw [← hf y "", he, hf x ""]

theorem alike_touch (s : ComponentStore) (m : String) : Alike s (s.touch m) := by
  intro n
  rw [find?_touch]
  split
  · rw [Option.map_map]
    rfl
  · rfl

/-! ## Writes -/

/-- Makes a write. -/
def write (s : ComponentStore) : Write → Except Failure Component × ComponentStore
  | .object c => s.update c
  | .status c => s.updateStatus c

theorem examine_ok (h : s.examine x = (.ok y, s')) :
    s.find? x.name = some y ∧ y.metadata.resourceVersion = x.metadata.resourceVersion ∧ s' = s := by
  unfold examine at h
  split at h
  · cases h
  · split at h
    · cases h
    · split at h
      · cases h
      · next stored hs =>
        split at h
        · next hv =>
          cases h
          exact ⟨hs, hv, rfl⟩
        · cases h

theorem examine_error {e : Failure} (h : s.examine x = (.error e, s')) : s'.items = s.items := by
  unfold examine at h
  split at h
  · cases h; rfl
  · split at h
    · cases h; rfl
    · split at h
      · cases h; rfl
      · split at h
        · cases h
        · cases h; rfl

theorem accept_fst (s : ComponentStore) (x : Component) : (s.accept x).1 = (settled x).getD x := by
  unfold accept settled
  split <;> rfl

/-- A write is refused for what the store finds when it examines the copy. -/
theorem examine_of_write_error {wr : Write} {e : Failure} (h : s.write wr = (.error e, s')) :
    s.examine wr.component = (.error e, s') := by
  cases wr with
  | object x =>
    simp only [write, update] at h
    split at h
    · next he => cases h; exact he
    · cases h
  | status x =>
    simp only [write, updateStatus] at h
    split at h
    · next he => cases h; exact he
    · cases h

/-- A refused write changes no object. -/
theorem items_of_write_error {wr : Write} {e : Failure} (h : s.write wr = (.error e, s')) :
    s'.items = s.items :=
  examine_error (examine_of_write_error h)

theorem pendingConflicts_le_of_write_error {wr : Write} {e : Failure} (h : s.write wr = (.error e, s')) :
    s'.pendingConflicts ≤ s.pendingConflicts := by
  have hexamine := examine_of_write_error h
  unfold examine at hexamine
  split at hexamine
  · cases hexamine
    exact Nat.le_refl _
  · split at hexamine
    · cases hexamine
      exact Nat.sub_le _ _
    · split at hexamine
      · cases hexamine
        exact Nat.le_refl _
      · split at hexamine <;> cases hexamine
        exact Nat.le_refl _

@[simp] theorem pendingConflicts_touch (s : ComponentStore) (n : String) :
    (s.touch n).pendingConflicts = s.pendingConflicts := by
  unfold touch
  split <;> rfl

/-- A copy of what is stored loses a race only where the store was told to report one. -/
theorem pendingConflicts_of_write_error {wr : Write} {e : Failure} (hx : s.find? wr.component.name = some x)
    (hversion : wr.component.metadata.resourceVersion = x.metadata.resourceVersion)
    (h : s.write wr = (.error e, s')) (hlost : e.isConflict = true) :
    s'.pendingConflicts + 1 = s.pendingConflicts := by
  have hexamine := examine_of_write_error h
  unfold examine at hexamine
  split at hexamine
  · cases hexamine
    cases hlost
  · split at hexamine
    · next hpending =>
      cases hexamine
      exact Nat.sub_add_cancel hpending
    · rw [hx] at hexamine
      simp only [if_pos hversion.symm] at hexamine
      cases hexamine

/-- An accepted write found the version of its copy. It settles what it makes of the stored object, and
leaves the other objects alone. -/
theorem write_ok {wr : Write} (h : s.write wr = (.ok y, s')) :
    ∃ stored, s.find? wr.component.name = some stored ∧
      stored.metadata.resourceVersion = wr.component.metadata.resourceVersion ∧
      y = (settled (wr.onto stored)).getD (wr.onto stored) ∧
      ∀ n, s'.find? n = if n = wr.component.name then settled (wr.onto stored) else s.find? n := by
  cases wr with
  | object x =>
    simp only [write, update] at h
    split at h
    · cases h
    · next stored _ he =>
      obtain ⟨hs, hv, rfl⟩ := examine_ok he
      cases h
      exact ⟨stored, hs, hv, accept_fst _ _, fun n => find?_accept _ _ n⟩
  | status x =>
    simp only [write, updateStatus] at h
    split at h
    · cases h
    · next stored _ he =>
      obtain ⟨hs, hv, rfl⟩ := examine_ok he
      cases h
      have hname : ({ stored with status := x.status } : Component).name = x.name :=
        name_of_find? (c := stored) hs
      refine ⟨stored, hs, hv, accept_fst _ _, fun n => ?_⟩
      rw [find?_accept, hname]
      rfl

/-! ## What writes do to the rest of a store -/

theorem failures_examine (s : ComponentStore) (x : Component) :
    (s.examine x).2.readFailure = s.readFailure ∧ (s.examine x).2.writeFailure = s.writeFailure := by
  unfold examine
  split
  · exact ⟨rfl, rfl⟩
  · split
    · exact ⟨rfl, rfl⟩
    · split
      · exact ⟨rfl, rfl⟩
      · split <;> exact ⟨rfl, rfl⟩

theorem failures_accept (s : ComponentStore) (x : Component) :
    (s.accept x).2.readFailure = s.readFailure ∧ (s.accept x).2.writeFailure = s.writeFailure := by
  unfold accept
  split <;> exact ⟨rfl, rfl⟩

/-- No write decides whether a store fails. -/
theorem failures_write (s : ComponentStore) (wr : Write) :
    (s.write wr).2.readFailure = s.readFailure ∧ (s.write wr).2.writeFailure = s.writeFailure := by
  have hexamine := s.failures_examine wr.component
  cases wr with
  | object x =>
    simp only [write, update]
    rcases hres : s.examine x with ⟨e | stored, s'⟩
    · simp only [Write.component, hres] at hexamine
      exact hexamine
    · simp only [Write.component, hres] at hexamine
      exact ⟨(failures_accept _ _).1.trans hexamine.1, (failures_accept _ _).2.trans hexamine.2⟩
  | status x =>
    simp only [write, updateStatus]
    rcases hres : s.examine x with ⟨e | stored, s'⟩
    · simp only [Write.component, hres] at hexamine
      exact hexamine
    · simp only [Write.component, hres] at hexamine
      exact ⟨(failures_accept _ _).1.trans hexamine.1, (failures_accept _ _).2.trans hexamine.2⟩

/-- A write of what is stored fails for good only if the store was told to fail. -/
theorem writeFailure_of_write_error {wr : Write} {e : Failure} (h : s.write wr = (.error e, s'))
    (hx : s.find? wr.component.name = some x) (hdecided : e.isConflict = false) :
    ∃ text, s.writeFailure = some text ∧ e = .internal text := by
  have hexamine := examine_of_write_error h
  unfold examine at hexamine
  split at hexamine
  · next text htext =>
    cases hexamine
    exact ⟨text, htext, rfl⟩
  · split at hexamine
    · cases hexamine
      cases hdecided
    · rw [hx] at hexamine
      dsimp only at hexamine
      split at hexamine
      · cases hexamine
      · cases hexamine
        cases hdecided

theorem writeFailure_of_write_ok {wr : Write} (h : s.write wr = (.ok y, s')) : s.writeFailure = none := by
  have hexamine : ∃ stored s'', s.examine wr.component = (.ok stored, s'') := by
    cases hres : s.examine wr.component with
    | mk r s'' =>
      cases r with
      | ok stored => exact ⟨stored, s'', rfl⟩
      | error e =>
        cases wr with
        | object x =>
          simp only [write, update, show s.examine x = _ from hres] at h
          cases h
        | status x =>
          simp only [write, updateStatus, show s.examine x = _ from hres] at h
          cases h
  obtain ⟨stored, s'', hres⟩ := hexamine
  unfold examine at hres
  split at hres
  · cases hres
  · assumption

/-- How many writes were accepted. -/
def writes (s : ComponentStore) : Nat := s.updates + s.statusUpdates

theorem counters_accept (s : ComponentStore) (x : Component) :
    (s.accept x).2.updates = s.updates ∧ (s.accept x).2.statusUpdates = s.statusUpdates := by
  unfold accept
  split <;> exact ⟨rfl, rfl⟩

theorem counters_examine (s : ComponentStore) (x : Component) :
    (s.examine x).2.updates = s.updates ∧ (s.examine x).2.statusUpdates = s.statusUpdates := by
  unfold examine
  split
  · exact ⟨rfl, rfl⟩
  · split
    · exact ⟨rfl, rfl⟩
    · split
      · exact ⟨rfl, rfl⟩
      · split <;> exact ⟨rfl, rfl⟩

theorem counters_of_write_error {wr : Write} {e : Failure} (h : s.write wr = (.error e, s')) :
    s'.updates = s.updates ∧ s'.statusUpdates = s.statusUpdates := by
  have hcounters := s.counters_examine wr.component
  rw [examine_of_write_error h] at hcounters
  exact hcounters

theorem counters_of_object (h : s.write (.object x) = (.ok y, s')) :
    s'.updates = s.updates + 1 ∧ s'.statusUpdates = s.statusUpdates := by
  simp only [write, update] at h
  split at h
  · cases h
  · next stored _ he =>
    obtain ⟨-, -, rfl⟩ := examine_ok he
    cases h
    exact counters_accept _ _

theorem counters_of_status (h : s.write (.status x) = (.ok y, s')) :
    s'.updates = s.updates ∧ s'.statusUpdates = s.statusUpdates + 1 := by
  simp only [write, updateStatus] at h
  split at h
  · cases h
  · next stored _ he =>
    obtain ⟨-, -, rfl⟩ := examine_ok he
    cases h
    exact counters_accept _ _

theorem writes_of_write_error {wr : Write} {e : Failure} (h : s.write wr = (.error e, s')) :
    s'.writes = s.writes := by
  obtain ⟨hupdates, hstatus⟩ := counters_of_write_error h
  rw [writes, writes, hupdates, hstatus]

theorem writes_of_write_ok {wr : Write} (h : s.write wr = (.ok y, s')) : s'.writes = s.writes + 1 := by
  cases wr with
  | object x =>
    obtain ⟨hupdates, hstatus⟩ := counters_of_object h
    rw [writes, writes, hupdates, hstatus, Nat.add_right_comm]
  | status x =>
    obtain ⟨hupdates, hstatus⟩ := counters_of_status h
    rw [writes, writes, hupdates, hstatus, Nat.add_assoc]

end ComponentStore

/-! ## Calls and faults -/

/-- A call that writes a component. -/
def Call.isWrite : Call → Bool
  | .updateComponent _ | .updateStatus _ => true
  | _ => false

/-- A call that changes what is deployed. -/
def Call.isOrder : Call → Bool
  | .installOrUpgrade _ _ | .uninstall _ _ => true
  | _ => false

/-- A call that changes nothing of either. -/
def Call.IsQuery (c : Call) : Prop := c.isWrite = false ∧ c.isOrder = false

/-- A call that asks about workloads, or about what is deployed. -/
def Call.isInquiry : Call → Bool
  | .listWorkloads _ _ _ | .getWorkload _ _ _ | .listReleases | .releaseValues _ | .specValues _ => true
  | _ => false

theorem Call.isQuery_of_isInquiry {c : Call} (h : c.isInquiry = true) : c.IsQuery := by
  cases c <;> first | exact ⟨rfl, rfl⟩ | cases h

/-- A call that asks about components, workloads or what is deployed. -/
def Call.isRead : Call → Bool
  | .getComponent _ | .listComponents => true
  | c => c.isInquiry

theorem Call.isRead_of_isInquiry {c : Call} (h : c.isInquiry = true) : c.isRead = true := by
  cases c <;> first | rfl | cases h

namespace World

variable {w w' : World} {c : Call} {wr : Write} {y : Component}

/-- The stores are read, and stay as they are. -/
theorem serve_of_isRead (w : World) (h : c.isRead = true) : (w.serve c).2 = w := by
  cases c <;> first | rfl | cases h

theorem components_serve (w : World) (h : c.isWrite = false) : (w.serve c).2.components = w.components := by
  cases c <;> first | rfl | cases h

theorem releases_serve (w : World) (h : c.isOrder = false) :
    (w.serve c).2.charts.releases = w.charts.releases := by
  cases c with
  | checkDependencies spec =>
    simp only [serve, withCharts, ChartStore.checkDependencies]
    split <;> rfl
  | installOrUpgrade => cases h
  | uninstall => cases h
  | _ => rfl

theorem components_takeFault (w : World) (p : Channel) : (w.takeFault p).2.components = w.components := by
  unfold takeFault
  split <;> rfl

theorem charts_takeFault (w : World) (p : Channel) : (w.takeFault p).2.charts = w.charts := by
  unfold takeFault
  split <;> rfl

/-- The world in which another writer has just changed a component. -/
def touched (w : World) (n : String) : World := { w with components := w.components.touch n }

/-- A fault keeps a call from the stores, or lets it through, perhaps behind another writer. -/
theorem meet_cases (w : World) (c : Call) (f : Option Fault) :
    (w.meet c f).2 = w ∨ w.meet c f = (outcomeOf (w.serve c).1, (w.serve c).2) ∨
      ∃ n, w.meet c f = (outcomeOf ((w.touched n).serve c).1, ((w.touched n).serve c).2) := by
  match f with
  | none => exact .inr (.inl rfl)
  | some (.error e) => exact .inl rfl
  | some (.touch n) =>
    simp only [meet]
    split
    · exact .inr (.inr ⟨n, rfl⟩)
    · exact .inr (.inl rfl)
  | some .empty =>
    simp only [meet]
    split
    · exact .inl rfl
    · exact .inr (.inl rfl)
  | some .crash =>
    simp only [meet]
    split
    · exact .inr (.inl rfl)
    · exact .inl rfl

theorem alike_meet (w : World) (h : c.isWrite = false) (f : Option Fault) :
    w.components.Alike (w.meet c f).2.components := by
  rcases w.meet_cases c f with he | he | ⟨n, he⟩
  · rw [he]
    exact .refl _
  · rw [he]
    exact components_serve w h ▸ .refl _
  · rw [he]
    exact components_serve (w.touched n) h ▸ ComponentStore.alike_touch _ n

/-- A call that is no write leaves the objects as they are, apart from versions. -/
theorem alike_perform (w : World) (h : c.isWrite = false) :
    w.components.Alike (w.perform c).2.components := by
  have hmeet := alike_meet (w.takeFault c.channel).2 h (w.takeFault c.channel).1
  rw [components_takeFault] at hmeet
  exact hmeet

/-- A call that is no order leaves the releases as they are. -/
theorem releases_perform (w : World) (h : c.isOrder = false) :
    (w.perform c).2.charts.releases = w.charts.releases := by
  have hmeet : ((w.takeFault c.channel).2.meet c (w.takeFault c.channel).1).2.charts.releases =
      (w.takeFault c.channel).2.charts.releases := by
    rcases meet_cases (w.takeFault c.channel).2 c (w.takeFault c.channel).1 with he | he | ⟨n, he⟩
    · rw [he]
    · rw [he]
      exact releases_serve _ h
    · rw [he]
      exact releases_serve _ h
  rw [charts_takeFault] at hmeet
  exact hmeet

theorem ask_snd (w : World) (c : Call) : (w.ask c).2 = (w.perform c).2 := by
  unfold ask
  split
  · next h => rw [h]
  · next h => rw [h]

theorem ask_fst {a : c.Answer} (h : (w.perform c).1 = .answered a) : (w.ask c).1 = a := by
  unfold ask
  rcases hperf : w.perform c with ⟨o, w'⟩
  rw [hperf] at h
  cases h
  rfl

/-- A call leaves no notes. -/
theorem notes_perform (w : World) (c : Call) :
    (w.perform c).2.events = w.events ∧ (w.perform c).2.counts = w.counts := by
  have hserve : ∀ v : World, (v.serve c).2.events = v.events ∧ (v.serve c).2.counts = v.counts := by
    intro v
    cases c <;> exact ⟨rfl, rfl⟩
  have hmet : (w.takeFault c.channel).2.events = w.events ∧ (w.takeFault c.channel).2.counts = w.counts := by
    unfold takeFault
    split <;> exact ⟨rfl, rfl⟩
  have hmeet : ((w.takeFault c.channel).2.meet c (w.takeFault c.channel).1).2.events = w.events ∧
      ((w.takeFault c.channel).2.meet c (w.takeFault c.channel).1).2.counts = w.counts := by
    rcases meet_cases (w.takeFault c.channel).2 c (w.takeFault c.channel).1 with he | he | ⟨n, he⟩
    · rw [he]
      exact hmet
    · rw [he]
      exact ⟨(hserve _).1.trans hmet.1, (hserve _).2.trans hmet.2⟩
    · rw [he]
      exact ⟨(hserve _).1.trans hmet.1, (hserve _).2.trans hmet.2⟩
  exact hmeet

/-! ## Writes in a world -/

/-- A call on components fails instead of being answered, or is answered by the store, perhaps behind
another writer. -/
theorem meet_component (w : World) (hc : c.channel.ofComponents = true) (f : Option Fault) :
    (∃ e, f = some (.error e) ∧ w.meet c f = (.answered (.error e), w)) ∨
      w.meet c f = (outcomeOf (w.serve c).1, (w.serve c).2) ∨
      ∃ n, f = some (.touch n) ∧
        w.meet c f = (outcomeOf ((w.touched n).serve c).1, ((w.touched n).serve c).2) := by
  match f with
  | none => exact .inr (.inl rfl)
  | some (.error e) => exact .inl ⟨e, rfl, rfl⟩
  | some (.touch n) =>
    refine .inr (.inr ⟨n, rfl, ?_⟩)
    simp only [meet, if_pos hc]
    rfl
  | some .empty =>
    cases c with
    | listReleases => cases hc
    | _ => exact .inr (.inl rfl)
  | some .crash =>
    refine .inr (.inl ?_)
    simp only [meet, if_pos hc]

/-- A call on components is always answered. -/
theorem answered_perform (w : World) (hc : c.channel.ofComponents = true) :
    (w.perform c).1 = .answered (w.ask c).1 := by
  have hserve : ∀ v : World, ∃ a, (v.serve c).1 = some a := by
    intro v
    cases c with
    | installOrUpgrade => cases hc
    | _ => exact ⟨_, rfl⟩
  have hanswer : ∃ a, (w.perform c).1 = .answered a := by
    unfold perform
    rcases meet_component (w.takeFault c.channel).2 hc (w.takeFault c.channel).1 with
      ⟨e, -, he⟩ | he | ⟨n, -, he⟩
    · exact ⟨.error e, by simp only [he]⟩
    · obtain ⟨a, ha⟩ := hserve (w.takeFault c.channel).2
      exact ⟨a, by simp only [he, ha, outcomeOf]⟩
    · obtain ⟨a, ha⟩ := hserve ((w.takeFault c.channel).2.touched n)
      exact ⟨a, by simp only [he, ha, outcomeOf]⟩
  obtain ⟨a, ha⟩ := hanswer
  rw [ask_fst ha, ha]

theorem ofComponents_channel (wr : Write) : wr.call.channel.ofComponents = true := by cases wr <;> rfl

/-- The store that a write meets: that of the world, or the one that another writer has just changed. -/
theorem store_cases (w : World) (wr : Write) :
    ∃ s, (s = w.components ∨ ∃ n, s = w.components.touch n) ∧
      ((∃ e, (w.store wr).1 = .error e ∧ (w.store wr).2.components = s) ∨
        ((w.store wr).1 = (s.write wr).1 ∧ (w.store wr).2.components = (s.write wr).2)) := by
  have hmet := components_takeFault w wr.call.channel
  rcases hf : w.takeFault wr.call.channel with ⟨f, met⟩
  rw [hf] at hmet
  rw [← hmet]
  rcases met.meet_component (ofComponents_channel wr) f with ⟨e, -, he⟩ | he | ⟨n, -, he⟩
  · refine ⟨_, .inl rfl, .inl ⟨e, ?_⟩⟩
    cases wr <;> simp only [store, ask, perform, Write.call] at hf he ⊢ <;> rw [hf, he] <;> exact ⟨rfl, rfl⟩
  · refine ⟨_, .inl rfl, .inr ?_⟩
    cases wr <;> simp only [store, ask, perform, Write.call] at hf he ⊢ <;> rw [hf, he] <;> exact ⟨rfl, rfl⟩
  · refine ⟨_, .inr ⟨n, rfl⟩, .inr ?_⟩
    cases wr <;> simp only [store, ask, perform, Write.call] at hf he ⊢ <;> rw [hf, he] <;> exact ⟨rfl, rfl⟩

/-- A refused write changes nothing but versions. -/
theorem alike_store_error {e : Failure} (h : (w.store wr).1 = .error e) :
    w.components.Alike (w.store wr).2.components := by
  obtain ⟨s, hs, hres⟩ := w.store_cases wr
  have halike : w.components.Alike s := by
    rcases hs with rfl | ⟨n, rfl⟩
    · exact .refl _
    · exact ComponentStore.alike_touch _ n
  rcases hres with ⟨_, -, hafter⟩ | ⟨hfst, hafter⟩
  · rw [hafter]
    exact halike
  · rw [hafter]
    refine halike.trans fun n => ?_
    have hitems := ComponentStore.items_of_write_error (Prod.ext (hfst.symm.trans h) rfl)
    rw [ComponentStore.find?_congr hitems]

/-- The write of a copy of what is stored, if it is accepted, found that very object: a write of another
writer in between would have given it another version. -/
theorem store_ok {x : Component} (hx : w.components.find? x.name = some x)
    (hname : wr.component.name = x.name)
    (hversion : wr.component.metadata.resourceVersion = x.metadata.resourceVersion)
    (h : (w.store wr).1 = .ok y) :
    y = (ComponentStore.settled (wr.onto x)).getD (wr.onto x) ∧
      (w.store wr).2.components.find? x.name = ComponentStore.settled (wr.onto x) := by
  obtain ⟨s, hs, hres⟩ := w.store_cases wr
  rcases hres with ⟨e, he, -⟩ | ⟨hfst, hafter⟩
  · rw [he] at h
    cases h
  · obtain ⟨stored, hfound, hsame, hy, hfind⟩ := ComponentStore.write_ok (Prod.ext (hfst.symm.trans h) rfl)
    rw [hname] at hfound
    have hstored : stored = x := by
      rcases hs with rfl | ⟨n, rfl⟩
      · exact Option.some.inj (hfound.symm.trans hx)
      · rw [ComponentStore.find?_touch, hx] at hfound
        split at hfound
        · cases hfound
          exact absurd (hsame.trans hversion) (ComponentStore.resourceVersion_bump_ne x)
        · exact (Option.some.inj hfound).symm
    rw [hstored] at hy hfind
    refine ⟨hy, ?_⟩
    rw [hafter, hfind, if_pos hname.symm]

/-! ## Worlds without faults -/

/-- No call will meet a fault. -/
def FaultFree (w : World) : Prop := ∀ p, ∀ f ∈ w.faultsOf p, f = none

theorem faultsOf_setFaults (w : World) (p q : Channel) (fs : List (Option Fault)) :
    (w.setFaults p fs).faultsOf q = if q = p then fs else w.faultsOf q := by
  unfold setFaults faultsOf
  split
  · next h => simp [h]
  · next h =>
    have hfilter : ((w.faults.filter fun e => e.1 ≠ p).find? (·.1 == q)) = w.faults.find? (·.1 == q) := by
      rw [List.find?_filter]
      refine congrArg (fun t => w.faults.find? t) (funext fun e => ?_)
      by_cases he : e.1 = q
      · simp [he, h]
      · simp [he]
    have hne : (p == q) = false := beq_eq_false_iff_ne.2 (Ne.symm h)
    rw [List.find?_cons, hne, hfilter]

/-- What holds of all faults holds of the one that is taken, and of the others still. -/
theorem forall_takeFault {P : Channel → Option Fault → Prop} (h : ∀ q, ∀ f ∈ w.faultsOf q, P q f)
    (p : Channel) :
    ((w.takeFault p).1 = none ∨ P p (w.takeFault p).1) ∧ ∀ q, ∀ f ∈ (w.takeFault p).2.faultsOf q, P q f := by
  unfold takeFault
  split
  · exact ⟨.inl rfl, h⟩
  · next f fs hfs =>
    refine ⟨.inr (h p f (by rw [hfs]; exact List.mem_cons_self)), fun q g hg => ?_⟩
    rw [faultsOf_setFaults] at hg
    split at hg
    · next hq =>
      rw [hq]
      exact h p g (by rw [hfs]; exact List.mem_cons_of_mem _ hg)
    · exact h q g hg

theorem workloads_takeFault (w : World) (p : Channel) : (w.takeFault p).2.workloads = w.workloads := by
  unfold takeFault
  split <;> rfl

/-- What the stores answer depends on the stores alone. -/
theorem serve_congr (hcomp : w'.components = w.components) (hwork : w'.workloads = w.workloads)
    (hcharts : w'.charts = w.charts) (c : Call) :
    (w'.serve c).1 = (w.serve c).1 ∧ (w'.serve c).2.components = (w.serve c).2.components ∧
      (w'.serve c).2.workloads = (w.serve c).2.workloads ∧ (w'.serve c).2.charts = (w.serve c).2.charts := by
  cases c <;> simp only [serve, withComponents, withCharts, hcomp, hwork, hcharts] <;>
    exact ⟨trivial, trivial, trivial, trivial⟩

theorem faults_serve (w : World) (c : Call) : (w.serve c).2.faults = w.faults := by
  cases c <;> rfl

/-- No call decides whether the store of components fails. -/
theorem failures_serve (w : World) (c : Call) :
    (w.serve c).2.components.readFailure = w.components.readFailure ∧
      (w.serve c).2.components.writeFailure = w.components.writeFailure := by
  cases c with
  | updateComponent x => exact w.components.failures_write (.object x)
  | updateStatus x => exact w.components.failures_write (.status x)
  | _ => exact ⟨rfl, rfl⟩

/-- Without faults a call ends as the stores answer it. -/
theorem perform_of_faultFree (h : w.FaultFree) (c : Call) :
    (w.perform c).1 = outcomeOf (w.serve c).1 ∧ (w.perform c).2.components = (w.serve c).2.components ∧
      (w.perform c).2.workloads = (w.serve c).2.workloads ∧ (w.perform c).2.charts = (w.serve c).2.charts ∧
      (w.perform c).2.FaultFree := by
  obtain ⟨hnone, hfree⟩ := forall_takeFault (P := fun _ f => f = none) h c.channel
  obtain ⟨hans, hcomp, hwork, hcharts⟩ := serve_congr (components_takeFault w c.channel)
    (workloads_takeFault w c.channel) (charts_takeFault w c.channel) c
  have hmet : (w.takeFault c.channel).2.meet c (w.takeFault c.channel).1 =
      (outcomeOf ((w.takeFault c.channel).2.serve c).1, ((w.takeFault c.channel).2.serve c).2) := by
    rw [or_self_iff.1 hnone]
    rfl
  unfold perform
  simp only [hmet, hans]
  refine ⟨trivial, hcomp, hwork, hcharts, fun p f hf => hfree p f ?_⟩
  rw [faultsOf, faults_serve] at hf
  exact hf

/-- Without faults a call that the stores answer has their answer. -/
theorem FaultFree.answer (h : w.FaultFree) {a : c.Answer} (ha : (w.serve c).1 = some a) :
    w.perform c = (.answered a, (w.perform c).2) := by
  have hans := (perform_of_faultFree h c).1
  rw [ha] at hans
  exact Prod.ext hans rfl

theorem FaultFree.read (h : w.FaultFree) (n : String) :
    w.ask (.getComponent n) = (w.components.get n, (w.perform (.getComponent n)).2) :=
  Prod.ext (ask_fst (congrArg Prod.fst (h.answer rfl))) (w.ask_snd _)

end World

end ChartOperator
