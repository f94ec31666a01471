import ChartOperator.Proofs.Concurrency.HealthWriters
import ChartOperator.Proofs.Lifecycle.RecordedVersions

set_option autoImplicit false

/-!
# An installation among writers of the version

A component that asks for no version is being installed, and others write it meanwhile (`Recording`). They may set
the version that it asks for, and the pass records one: the version of the release that it ordered.

The pass decides to record by the copy that it read first, and the change that records does not look at the version
in the fresh copy that it edits. So what remains is the version that was set last (`version_of_last_setting`). A version
that others set stands only if the pass recorded before, or fails before it records; a pass that succeeds has recorded
once. `version_of_last_setting_lost` is a version that was set and is lost.

The argument takes what is left to do of the pass with it from turn to turn (`Task.Records`).
-/

namespace ChartOperator

open ComponentStore (settled bump)

/-! ## What a write records -/

namespace ComponentStore

variable {s s' : ComponentStore} {wr : Write} {x y : Component} {n : String}

/-- The version that an operation has recorded between two stores: the object was written, and its finalizers are
those that it had. -/
def recorded? (n : String) (s s' : ComponentStore) : Option String :=
  if s'.updates = s.updates then none
  else
    match s.find? n, s'.find? n with
    | some x, some y => if y.finalizers = x.finalizers then some y.spec.version else none
    | _, _ => none

theorem recorded?_of_updates (h : s'.updates = s.updates) : recorded? n s s' = none := if_pos h

/-- Any other edit records nothing. -/
theorem recorded?_of_sparing {e : Edit} (he : e.SparesVersion) (hedit : (e.mutation n).edit x = some wr)
    (hwrite : s.write wr = (.ok y, s')) (hx : s.find? n = some x) (hfind : s'.find? n = settled (e.apply x)) :
    recorded? n s s' = none := by
  have hother : (e.apply x).finalizers ≠ x.finalizers → recorded? n s s' = none := by
    intro hdiffers
    unfold recorded?
    split
    · rfl
    · cases hy : s'.find? n with
      | none => simp only [hx]
      | some z =>
        rw [hfind] at hy
        simp only [hx]
        rw [settled_eq_some hy]
        exact if_neg hdiffers
  cases e with
  | setVersion => exact he.elim
  | addFinalizer =>
    obtain ⟨hnot, -⟩ := Mutation.edit_addFinalizer hedit
    refine hother fun hsame => ?_
    have hhas := x.hasFinalizer_addFinalizer
    rw [Component.hasFinalizer, show x.addFinalizer.finalizers = x.finalizers from hsame] at hhas
    rw [Component.hasFinalizer, hhas] at hnot
    cases hnot
  | removeFinalizer =>
    obtain ⟨hhas, -⟩ := Mutation.edit_removeFinalizer hedit
    refine hother fun hsame => ?_
    have hnot := x.hasFinalizer_removeFinalizer
    rw [Component.hasFinalizer, show x.removeFinalizer.finalizers = x.finalizers from hsame] at hnot
    rw [Component.hasFinalizer, hnot] at hhas
    cases hhas
  | _ =>
    cases hedit
    exact recorded?_of_updates (counters_of_status hwrite).1

/-- The change that records a version does so, if the object remains. -/
theorem recorded?_of_setVersion {version : String} {z : Component}
    (hedit : (Mutation.setVersion n version).edit x = some wr) (hwrite : s.write wr = (.ok y, s'))
    (hx : s.find? n = some x) (hfind : s'.find? n = settled ((Edit.setVersion version).apply x))
    (hz : s'.find? n = some z) : recorded? n s s' = some version ∧ z.spec.version = version := by
  cases hedit
  have hmore : s'.updates ≠ s.updates := by
    rw [(counters_of_object hwrite).1]
    exact Nat.succ_ne_self _
  obtain rfl := settled_eq_some (hfind.symm.trans hz)
  refine ⟨?_, rfl⟩
  unfold recorded?
  rw [if_neg hmore, hx, hz]
  exact if_pos rfl

end ComponentStore

/-! ## Turns of a pass -/

section Turns

variable {α : Type} {n : String} {post : α → ChartStore → Option String → Prop} {k k' : Nat}
  {s s' : ComponentStore} {e : Edit} {stage : Stage} {deployed : ChartStore} {recorded : Option String} {w : World}
  {t : Task α}

/-- What a turn does to an object: it leaves alone the version that the object asks for, or records one. An object
that nobody deletes remains. -/
structure Affects (n : String) (s s' : ComponentStore) (recorded recorded' : Option String) : Prop where
  version : ∀ y, s'.find? n = some y → ∃ x, s.find? n = some x ∧
    ((recorded' = recorded ∧ ComponentStore.recorded? n s s' = none ∧ y.spec.version = x.spec.version) ∨
      ∃ v, recorded = none ∧ recorded' = some v ∧ ComponentStore.recorded? n s s' = some v ∧ y.spec.version = v)
  alive : ∀ x, s.find? n = some x → x.isBeingDeleted = false →
    ∃ y, s'.find? n = some y ∧ y.isBeingDeleted = false

theorem affects_of_unwritten (hfind : s'.find? n = s.find? n) (hupdates : s'.updates = s.updates) :
    Affects n s s' recorded recorded where
  version y hy := ⟨y, hfind ▸ hy, .inl ⟨rfl, ComponentStore.recorded?_of_updates hupdates, rfl⟩⟩
  alive x hx halive := ⟨x, hfind.trans hx, halive⟩

theorem affects_refl (n : String) (s : ComponentStore) (recorded : Option String) :
    Affects n s s recorded recorded :=
  affects_of_unwritten rfl rfl

/-- An edit leaves or sets the version. -/
theorem affects_of_edit {recorded' : Option String} {x : Component} (hx : s.find? n = some x)
    (hfind : s'.find? n = settled (e.apply x))
    (hversion : s'.find? n = some (bump (e.apply x)) →
      (recorded' = recorded ∧ ComponentStore.recorded? n s s' = none ∧ (e.apply x).spec.version = x.spec.version) ∨
        ∃ v, recorded = none ∧ recorded' = some v ∧ ComponentStore.recorded? n s s' = some v ∧
          (e.apply x).spec.version = v) : Affects n s s' recorded recorded' where
  version y hy := by
    obtain rfl := ComponentStore.settled_eq_some (hfind.symm.trans hy)
    exact ⟨x, hx, hversion hy⟩
  alive x' hx' halive := by
    obtain rfl := Option.some.inj (hx.symm.trans hx')
    have halive' : (e.apply x).isBeingDeleted = false := (e.isBeingDeleted_apply x).trans halive
    exact ⟨_, hfind.trans (ComponentStore.settled_of_not_deleted halive'), halive'⟩

/-- A change returns from its read only if there is nothing to write. -/
theorem Mutation.of_turn_reading {m : Mutation} {o : Option Component}
    (h : (m.turn s .reading).1 = .returned (.ok o)) :
    o = none ∧ (m.missingIsDone = true ∨ ∃ x, m.edit x = none) := by
  unfold Mutation.turn at h
  cases hget : s.get m.target with
  | error f =>
    simp only [hget] at h
    split at h
    · next hdone =>
      cases h
      exact ⟨rfl, .inl (Bool.and_eq_true_iff.1 hdone).1⟩
    · unfold Stage.failed at h
      split at h <;> cases h
  | ok x =>
    cases hedit : m.edit x with
    | none =>
      simp only [hget, hedit] at h
      cases h
      exact ⟨rfl, .inr ⟨x, hedit⟩⟩
    | some wr =>
      simp only [hget, hedit] at h
      cases h

/-- There is always a version to write. -/
theorem turn_setVersion_ne {version : String} (hopen : ∀ r, stage ≠ .returned r) :
    ((Mutation.setVersion n version).turn s stage).1 ≠ .returned (.ok none) := by
  intro h
  cases stage with
  | returned r => exact hopen r rfl
  | reading =>
    obtain ⟨-, hdone | ⟨x, hx⟩⟩ := Mutation.of_turn_reading h
    · cases hdone
    · cases hx
  | writing wr =>
    rcases hwrite : s.write wr with ⟨f | y, s'⟩ <;> simp only [Mutation.turn, hwrite] at h
    · unfold Stage.failed at h
      split at h <;> cases h
    · cases h

/-- A turn of a change writes nothing, or makes its edit of the object. -/
theorem Edit.turn_cases (hfresh : stage.Fresh (e.mutation n) k s) (hk : k < twoTo 64)
    (hopen : ∀ r, stage ≠ .returned r) :
    (((e.mutation n).turn s stage).2.find? n = s.find? n ∧ ((e.mutation n).turn s stage).2.updates = s.updates ∧
        ∀ y, ((e.mutation n).turn s stage).1 ≠ .returned (.ok (some y))) ∨
      ∃ x wr y, (e.mutation n).edit x = some wr ∧ s.write wr = (.ok y, ((e.mutation n).turn s stage).2) ∧
        ((e.mutation n).turn s stage).1 = .returned (.ok (some y)) ∧ s.find? n = some x ∧
        ((e.mutation n).turn s stage).2.find? n = settled (e.apply x) := by
  cases stage with
  | returned r => exact (hopen r rfl).elim
  | reading =>
    refine .inl ?_
    rw [(e.mutation n).turn_reading_snd s]
    refine ⟨rfl, rfl, fun y hy => ?_⟩
    cases (Mutation.of_turn_reading hy).1
  | writing wr =>
    obtain ⟨x, hedit, hname, htracks⟩ := hfresh wr rfl
    rcases hwrite : s.write wr with ⟨f | y, s'⟩ <;> simp only [Mutation.turn, hwrite]
    · obtain ⟨hupdates, -⟩ := ComponentStore.counters_of_write_error hwrite
      refine .inl ⟨(ComponentStore.moves_of_write_error hwrite).2 n, hupdates, ?_⟩
      intro y hy
      unfold Stage.failed at hy
      split at hy <;> cases hy
    · obtain ⟨hx, -, hfind⟩ := htracks.written (e.sound_mutation n) hk hedit hname hwrite
      rw [e.target_mutation n] at hx hfind
      refine .inr ⟨x, wr, y, hedit, hwrite, rfl, hx, ?_⟩
      rw [hfind, if_pos rfl, Edit.onto_of_edit hedit]

/-- What is left to do of a task records as `Program.Records` says, behind a copy that tracks the stored object. -/
inductive Task.Records (n : String) (post : α → ChartStore → Option String → Prop) (k : Nat) (s : ComponentStore)
    (deployed : ChartStore) : Option String → Task α → Prop
  | running {recorded p} (h : p.Records n post deployed recorded) : Records n post k s deployed recorded (.running p)
  | sparing {recorded next} {e : Edit} {stage : Stage} (he : e.SparesVersion) (hfresh : stage.Fresh (e.mutation n) k s)
    (hopen : ∀ r, stage ≠ .returned r) (hnext : ∀ r, (next r).Records n post deployed recorded) :
    Records n post k s deployed recorded (.changing (e.mutation n) stage next)
  | setting {version next} {stage : Stage} (hfresh : stage.Fresh (.setVersion n version) k s)
    (hopen : ∀ r, stage ≠ .returned r) (hok : ∀ o, (next (.ok o)).Records n post deployed (some version))
    (herror : ∀ f, (next (.error f)).Records n post deployed none) :
    Records n post k s deployed none (.changing (.setVersion n version) stage next)
  | returned {recorded m r next} (h : (next r).Records n post deployed recorded) :
    Records n post k s deployed recorded (.changing m (.returned r) next)
  | ended {recorded ending} (h : ∀ a, ending = .finished a → post a deployed recorded) :
    Records n post k s deployed recorded (.ended ending)

/-- Wherever the change is that spares the version. -/
theorem Task.records_sparing {next : Except Failure (Option Component) → Program α} (he : e.SparesVersion)
    (hfresh : stage.Fresh (e.mutation n) k s) (hnext : ∀ r, (next r).Records n post deployed recorded) :
    Task.Records n post k s deployed recorded (.changing (e.mutation n) stage next) := by
  by_cases hopen : ∀ r, stage ≠ .returned r
  · exact .sparing he hfresh hopen hnext
  · obtain ⟨r, hr⟩ := Classical.not_forall.1 hopen
    rw [Classical.not_not.1 hr]
    exact .returned (hnext r)

/-- Wherever the change is that records a version, unless it has succeeded. -/
theorem Task.records_setting {version : String} {next : Except Failure (Option Component) → Program α}
    (hfresh : stage.Fresh (.setVersion n version) k s) (hnot : ∀ o, stage ≠ .returned (.ok o))
    (hok : ∀ o, (next (.ok o)).Records n post deployed (some version))
    (herror : ∀ f, (next (.error f)).Records n post deployed none) :
    Task.Records n post k s deployed none (.changing (.setVersion n version) stage next) := by
  by_cases hopen : ∀ r, stage ≠ .returned r
  · exact .setting hfresh hopen hok herror
  · obtain ⟨r, hr⟩ := Classical.not_forall.1 hopen
    have hr := Classical.not_not.1 hr
    cases r with
    | ok o => exact absurd hr (hnot o)
    | error f =>
      rw [hr]
      exact .returned (herror f)

/-- Others may write, if it is counted how often. -/
theorem Task.Records.others (h : t.Records n post k s deployed recorded)
    (htracks : ∀ x, Tracks n x k s → Tracks n x k' s') : t.Records n post k' s' deployed recorded := by
  have hfresh : ∀ {e : Edit} {stage : Stage}, stage.Fresh (e.mutation n) k s → stage.Fresh (e.mutation n) k' s' := by
    intro e stage hfresh wr hwr
    obtain ⟨x, hedit, hname, hx⟩ := hfresh wr hwr
    rw [e.target_mutation n] at hx
    exact ⟨x, hedit, hname, (e.target_mutation n).symm ▸ htracks x hx⟩
  cases h with
  | running h => exact .running h
  | sparing he hf hopen hnext => exact .sparing he (hfresh hf) hopen hnext
  | @setting version _ _ hf hopen hok herror => exact .setting (hfresh (e := .setVersion version) hf) hopen hok herror
  | returned h => exact .returned h
  | ended h => exact .ended h

/-- A change that has not returned takes its turn. -/
theorem Task.Records.turn_changing {m : Mutation} {next : Except Failure (Option Component) → Program α}
    (h : (Task.changing m stage next).Records n post k w.components w.charts.deployed recorded)
    (hfree : w.FaultFree) (hk : k < twoTo 64) (hopen : ∀ r, stage ≠ .returned r) :
    ∃ recorded', Affects n w.components (w.turn m stage).2.components recorded recorded' ∧
      (w.turn m stage).2.FaultFree ∧
      (Task.changing m (w.turn m stage).1 next).Records n post k (w.turn m stage).2.components
        (w.turn m stage).2.charts.deployed recorded' := by
  obtain ⟨hstage, hcomponents, hbeside⟩ := World.turn_of_faultFree hfree m stage
  rw [hstage, hcomponents, hbeside.charts]
  have hfresh' := Stage.fresh_turn m k w.components stage
  cases h with
  | returned h => exact (hopen _ rfl).elim
  | @sparing _ _ e _ he hfresh _ hnext =>
    rcases Edit.turn_cases hfresh hk hopen with ⟨hfind, hupdates, -⟩ | ⟨x, wr, y, hedit, hwrite, hafter, hx, hfind⟩
    · exact ⟨recorded, affects_of_unwritten hfind hupdates, hbeside.free, Task.records_sparing he hfresh' hnext⟩
    · have hnone := ComponentStore.recorded?_of_sparing he hedit hwrite hx hfind
      refine ⟨recorded, affects_of_edit hx hfind fun _ => ?_, hbeside.free, hafter ▸ .returned (hnext _)⟩
      exact .inl ⟨rfl, hnone, e.version_apply he x⟩
  | @setting version _ _ hfresh _ hok herror =>
    rcases Edit.turn_cases (e := .setVersion version) hfresh hk hopen with
      ⟨hfind, hupdates, hunwritten⟩ | ⟨x, wr, y, hedit, hwrite, hafter, hx, hfind⟩
    · refine ⟨none, affects_of_unwritten hfind hupdates, hbeside.free, ?_⟩
      refine Task.records_setting hfresh' (fun o => ?_) hok herror
      cases o with
      | none => exact turn_setVersion_ne hopen
      | some y => exact hunwritten y
    · refine ⟨some version, affects_of_edit hx hfind fun hz => ?_, hbeside.free, ?_⟩
      · obtain ⟨hrecorded, hversion⟩ := ComponentStore.recorded?_of_setVersion hedit hwrite hx hfind hz
        exact .inr ⟨version, rfl, rfl, hrecorded, hversion⟩
      · have hafter : ((Mutation.setVersion n version).turn w.components stage).1 = _ := hafter
        rw [hafter]
        exact .returned (hok (some y))

/-- A turn of a task among others. -/
theorem Task.Records.turn (h : t.Records n post k w.components w.charts.deployed recorded) (hfree : w.FaultFree)
    (hk : k < twoTo 64) :
    ∃ recorded', Affects n w.components (t.turn w).2.components recorded recorded' ∧ (t.turn w).2.FaultFree ∧
      (t.turn w).1.Records n post k (t.turn w).2.components (t.turn w).2.charts.deployed recorded' := by
  have hrefl := affects_refl n w.components recorded
  cases t with
  | ended ending =>
    cases h with
    | ended h => exact ⟨recorded, hrefl, hfree, .ended h⟩
  | changing m stage next =>
    by_cases hopen : ∀ r, stage ≠ .returned r
    · rw [Task.turn_changing hopen]
      exact h.turn_changing hfree hk hopen
    · obtain ⟨r, hr⟩ := Classical.not_forall.1 hopen
      obtain rfl := Classical.not_not.1 hr
      cases h with
      | returned h => exact ⟨recorded, hrefl, hfree, .running h⟩
      | sparing _ _ hopen => exact (hopen r rfl).elim
      | setting _ hopen => exact (hopen r rfl).elim
  | running p =>
    obtain ⟨h⟩ := h
    cases p with
    | done a => exact ⟨recorded, hrefl, hfree, .ended fun b hb => World.Ending.finished.inj hb ▸ h⟩
    | note i next =>
      refine ⟨recorded, ?_, ?_, ?_⟩
      · cases i <;> exact hrefl
      · cases i <;> exact hfree
      · cases i <;> exact .running h
    | mutate m next =>
      have hfresh : Stage.reading.Fresh m k w.components := fun wr hwr => Stage.noConfusion hwr
      have hopen : ∀ r, Stage.reading ≠ .returned r := fun r hr => Stage.noConfusion hr
      obtain ⟨⟨e, he, rfl⟩, hnext⟩ | ⟨version, rfl, rfl, hok, herror⟩ := h
      · exact ⟨recorded, hrefl, hfree, Task.records_sparing he hfresh hnext⟩
      · exact ⟨none, hrefl, hfree, .setting hfresh hopen hok herror⟩
    | call d next =>
      obtain ⟨hd, hnext⟩ := h
      obtain ⟨hans, hcomponents, -, hcharts, hfree'⟩ := World.perform_of_faultFree hfree d
      rw [w.components_serve hd] at hcomponents
      rw [Task.turn_call, hans]
      refine ⟨recorded, ?_, hfree', ?_⟩
      · rw [hcomponents]
        exact hrefl
      · rw [hcharts]
        cases ha : (w.serve d).1 with
        | none => exact .ended nofun
        | some a => exact .running (hnext w rfl a ha)

/-- Left alone, what records comes to an end. -/
theorem Program.Records.ends {p : Program α} (h : p.Records n post deployed recorded) (hfree : w.FaultFree)
    (hdeployed : w.charts.deployed = deployed) : Task.Ends w (.running p) := by
  induction p generalizing w deployed recorded with
  | done a => exact .turn (.ended _ _)
  | note i next ih =>
    have hleft : (w.leave i).FaultFree ∧ (w.leave i).charts.deployed = deployed := by
      cases i <;> exact ⟨hfree, hdeployed⟩
    exact .turn (ih h hleft.1 hleft.2)
  | mutate m next ih =>
    have hsame : ∀ v, World.Beside w v → v.charts.deployed = deployed := fun v hv => hv.charts ▸ hdeployed
    refine .turn ?_
    obtain ⟨⟨e, -, rfl⟩, hnext⟩ | ⟨version, rfl, rfl, hok, herror⟩ := h
    · exact ends_changing (e.sound_mutation n) hfree .reading fun r v hv => ih r (hnext r) hv.free (hsame v hv)
    · refine ends_changing Mutation.sound_setVersion hfree .reading fun r v hv => ?_
      cases r with
      | ok o => exact ih _ (hok o) hv.free (hsame v hv)
      | error f => exact ih _ (herror f) hv.free (hsame v hv)
  | call d next ih =>
    obtain ⟨hans, -, -, hcharts, hfree'⟩ := World.perform_of_faultFree hfree d
    refine .turn ?_
    rw [Task.turn_call, hans]
    cases ha : (w.serve d).1 with
    | none => exact .ended _ _
    | some a => exact ih a (h.2 w hdeployed a ha) hfree' (hcharts ▸ rfl)

theorem Task.Records.ends (h : t.Records n post k s w.charts.deployed recorded) (hfree : w.FaultFree) :
    Task.Ends w t := by
  cases h with
  | running h => exact h.ends hfree rfl
  | returned h => exact .turn (h.ends hfree rfl)
  | ended => exact .ended _ _
  | @sparing _ _ e _ _ _ _ hnext =>
    exact ends_changing (e.sound_mutation n) hfree _ fun r v hv => (hnext r).ends hv.free (hv.charts ▸ rfl)
  | setting _ _ hok herror =>
    refine ends_changing Mutation.sound_setVersion hfree _ fun r v hv => ?_
    cases r with
    | ok o => exact (hok o).ends hv.free (hv.charts ▸ rfl)
    | error f => exact (herror f).ends hv.free (hv.charts ▸ rfl)

end Turns

/-! ## A pass among writers -/

/-- The version that a component asks for is set: others store it, or the pass records it. -/
inductive Setting
  | edit (version : String)
  | record (version : String)
  deriving DecidableEq

namespace Setting

def version : Setting → String
  | edit version => version
  | record version => version

/-- What the pass recorded. -/
def recorded? : Setting → Option String
  | edit _ => none
  | record version => some version

/-- The version that was set last; none at first. -/
def last (settings : List Setting) : String := ((settings.getLast?).map version).getD ""

end Setting

/-- A pass that takes turns with writers of components. -/
structure Recording where
  pass : Task (Except Failure NextPass)
  world : World
  /-- How the version was set that the component asks for, in this order. -/
  settings : List Setting := []

namespace Recording

/-- What may happen next. -/
inductive Step
  /-- The pass takes a turn. -/
  | turn
  /-- Somebody else writes a component, or tries to. -/
  | write (wr : Write)
  /-- Somebody else changes a component, of which only the version of the object is seen. -/
  | touch (name : String)
  | wait (d : Duration)

/-- A step of somebody else that may write. -/
def Step.isWrite : Step → Bool
  | .write _ | .touch _ => true
  | _ => false

/-- The step does not ask for the component to be removed. -/
def Step.Spares (n : String) : Step → Prop
  | .write (.object c) => c.name = n → c.isBeingDeleted = false
  | _ => True

/-- How an accepted write sets the version. -/
def edits (n : String) : Write → List Setting
  | .object c => if c.name = n then [.edit c.spec.version] else []
  | .status _ => []

/-- Takes a step. -/
def step (n : String) (r : Recording) : Step → Recording
  | .turn =>
    let (pass, world) := r.pass.turn r.world
    { pass, world,
      settings := r.settings ++
        ((ComponentStore.recorded? n r.world.components world.components).map Setting.record).toList }
  | .write wr =>
    match r.world.components.write wr with
    | (.ok _, components) =>
      { r with world := { r.world with components }, settings := r.settings ++ edits n wr }
    | (.error _, components) => { r with world := { r.world with components } }
  | .touch name => { r with world := { r.world with components := r.world.components.touch name } }
  | .wait d => { r with world := r.world.pass d }

/-- The pass has just read its component. -/
def start (config : Config) (n : String) (w : World) : Recording :=
  let (pass, world) := (Task.running (reconcile config n).run).turn w
  { pass, world }

/-- What becomes of a pass from there by these steps. -/
def run (config : Config) (n : String) (w : World) (steps : List Step) : Recording :=
  steps.foldl (step n) (start config n w)

end Recording

section Recordings

variable {config : Config} {n : String} {c : Component}
  {post : Except Failure NextPass → ChartStore → Option String → Prop} {stays : Prop} {k : Nat} {r : Recording}
  {w : World} {steps : List Recording.Step}

@[simp] theorem Setting.last_concat (settings : List Setting) (x : Setting) :
    Setting.last (settings ++ [x]) = x.version := by
  simp [Setting.last]

/-- What holds of a pass among writers between two steps: the object asks for the version that was set last. -/
structure Recording.Sound (n : String) (post : Except Failure NextPass → ChartStore → Option String → Prop)
    (stays : Prop) (k : Nat) (r : Recording) : Prop where
  free : r.world.FaultFree
  pass : ∃ recorded, r.pass.Records n post k r.world.components r.world.charts.deployed recorded ∧
    ∀ x, r.world.components.find? n = some x →
      x.spec.version = Setting.last r.settings ∧ r.settings.filterMap Setting.recorded? = recorded.toList
  alive : stays → ∃ x, r.world.components.find? n = some x ∧ x.isBeingDeleted = false

/-- A turn of the pass keeps that. -/
theorem Recording.Sound.turn (h : r.Sound n post stays k) (hk : k < twoTo 64) :
    (r.step n .turn).Sound n post stays k := by
  obtain ⟨recorded, hrecords, hsettings⟩ := h.pass
  obtain ⟨recorded', haffects, hfree, hrecords'⟩ := hrecords.turn h.free hk
  refine ⟨hfree, ⟨recorded', hrecords', fun y hy => ?_⟩, fun hstays => ?_⟩
  · obtain ⟨x, hx, ⟨rfl, hnone, hversion⟩ | ⟨v, rfl, rfl, hsome, hversion⟩⟩ := haffects.version y hy
    · obtain ⟨hlast, hfilter⟩ := hsettings x hx
      simp only [Recording.step, hnone, Option.map_none, Option.toList_none, List.append_nil]
      exact ⟨hversion.trans hlast, hfilter⟩
    · obtain ⟨-, hfilter⟩ := hsettings x hx
      simp only [Recording.step, hsome, Option.map_some, Option.toList_some, Setting.last_concat,
        List.filterMap_append, hfilter]
      exact ⟨hversion, rfl⟩
  · obtain ⟨x, hx, halive⟩ := h.alive hstays
    exact haffects.alive x hx halive

/-- A write that is accepted leaves the version alone that the object asks for, or it is an edit. -/
theorem edits_of_write {s s' : ComponentStore} {wr : Write} {x y : Component} (hwrite : s.write wr = (.ok y, s'))
    (hx : s'.find? n = some x) :
    ∃ z, s.find? n = some z ∧ ((Recording.edits n wr = [] ∧ x.spec.version = z.spec.version) ∨
      Recording.edits n wr = [.edit x.spec.version]) := by
  obtain ⟨stored, hstored, -, -, hfind⟩ := ComponentStore.write_ok hwrite
  rw [hfind] at hx
  split at hx
  · next hname =>
    obtain rfl := ComponentStore.settled_eq_some hx
    refine ⟨stored, hname ▸ hstored, ?_⟩
    cases wr with
    | object c => exact .inr (if_pos hname.symm)
    | status c => exact .inl ⟨rfl, rfl⟩
  · next hname =>
    refine ⟨x, hx, .inl ⟨?_, rfl⟩⟩
    cases wr with
    | object c => exact if_neg (Ne.symm hname)
    | status c => rfl

/-- A write that asks for nothing to be removed leaves an object that nobody deletes. -/
theorem alive_of_write {s s' : ComponentStore} {wr : Write} {x y : Component} (hwrite : s.write wr = (.ok y, s'))
    (hspares : (Recording.Step.write wr).Spares n) (hx : s.find? n = some x) (halive : x.isBeingDeleted = false) :
    ∃ z, s'.find? n = some z ∧ z.isBeingDeleted = false := by
  obtain ⟨stored, hstored, -, -, hfind⟩ := ComponentStore.write_ok hwrite
  by_cases hname : n = wr.component.name
  · obtain rfl : x = stored := Option.some.inj (hx.symm.trans (hname ▸ hstored))
    have halive' : (wr.onto x).isBeingDeleted = false := by
      cases wr with
      | object c => exact hspares hname.symm
      | status c => exact halive
    exact ⟨_, (hfind n).trans ((if_pos hname).trans (ComponentStore.settled_of_not_deleted halive')), halive'⟩
  · exact ⟨x, (hfind n).trans ((if_neg hname).trans hx), halive⟩

/-- So does a write of somebody else, which counts. -/
theorem Recording.Sound.write (h : r.Sound n post stays k) {wr : Write}
    (hspares : stays → (Step.write wr).Spares n) : (r.step n (.write wr)).Sound n post stays (k + 1) := by
  obtain ⟨recorded, hrecords, hsettings⟩ := h.pass
  rcases hwrite : r.world.components.write wr with ⟨f | y, s'⟩
  · simp only [Recording.step, hwrite]
    obtain ⟨hmoves, hfind⟩ := ComponentStore.moves_of_write_error hwrite
    refine ⟨h.free, ⟨recorded, hrecords.others fun x hx => ?_, fun x hx => ?_⟩, fun hstays => ?_⟩
    · exact (hmoves.tracks hx).mono (Nat.le_succ k)
    · exact hsettings x (hfind n ▸ hx)
    · obtain ⟨x, hx, halive⟩ := h.alive hstays
      exact ⟨x, (hfind n).trans hx, halive⟩
  · simp only [Recording.step, hwrite]
    refine ⟨h.free, ⟨recorded, hrecords.others fun x hx => hx.write hwrite, fun x hx => ?_⟩, fun hstays => ?_⟩
    · obtain ⟨z, hz, ⟨hnone, hversion⟩ | hedit⟩ := edits_of_write hwrite hx
      · obtain ⟨hlast, hfilter⟩ := hsettings z hz
        simp only [hnone, List.append_nil]
        exact ⟨hversion.trans hlast, hfilter⟩
      · obtain ⟨-, hfilter⟩ := hsettings z hz
        simp only [hedit, Setting.last_concat, List.filterMap_append, hfilter]
        exact ⟨rfl, List.append_nil _⟩
    · obtain ⟨x, hx, halive⟩ := h.alive hstays
      exact alive_of_write hwrite (hspares hstays) hx halive

/-- And so does every step. -/
theorem Recording.Sound.step {step : Recording.Step} (h : r.Sound n post stays k) (hk : k < twoTo 64)
    (hspares : stays → step.Spares n) :
    (r.step n step).Sound n post stays (k + if step.isWrite then 1 else 0) := by
  cases step with
  | turn => exact h.turn hk
  | write wr => exact h.write hspares
  | wait d => exact ⟨h.free, h.pass, h.alive⟩
  | touch name =>
    obtain ⟨recorded, hrecords, hsettings⟩ := h.pass
    have hfind := ComponentStore.find?_touch r.world.components name n
    refine ⟨h.free, ⟨recorded, hrecords.others fun x hx => hx.touch name, fun x hx => ?_⟩, fun hstays => ?_⟩
    · have hx : (r.world.components.touch name).find? n = some x := hx
      rw [hfind] at hx
      split at hx
      · obtain ⟨z, hz, rfl⟩ := Option.map_eq_some_iff.1 hx
        exact hsettings z hz
      · exact hsettings x hx
    · obtain ⟨x, hx, halive⟩ := h.alive hstays
      by_cases hname : n = name
      · exact ⟨bump x, by rw [Recording.step, hfind, if_pos hname, hx, Option.map_some], halive⟩
      · exact ⟨x, by rw [Recording.step, hfind, if_neg hname, hx], halive⟩

/-- Whatever steps follow. -/
theorem Recording.Sound.foldl (h : r.Sound n post stays k) (hwrites : k + steps.countP Step.isWrite < twoTo 64)
    (hspares : stays → ∀ step ∈ steps, step.Spares n) :
    (steps.foldl (Recording.step n) r).Sound n post stays (k + steps.countP Step.isWrite) := by
  induction steps generalizing r k with
  | nil => exact h
  | cons step steps ih =>
    have hcount : k + (step :: steps).countP Step.isWrite =
        (k + if step.isWrite then 1 else 0) + steps.countP Step.isWrite := by
      rw [List.countP_cons, Nat.add_assoc, Nat.add_comm (steps.countP _)]
    rw [hcount] at hwrites ⊢
    have hk : k < twoTo 64 := by omega
    have hstep := h.step hk fun hstays => hspares hstays step List.mem_cons_self
    exact ih hstep hwrites fun hstays s hs => hspares hstays s (List.mem_cons_of_mem _ hs)

/-- A pass that installs a component which asks for no version has read it, and nobody deletes it. -/
theorem Recording.sound_start (hfree : w.FaultFree) (hempty : c.spec.version = "")
    (hchosen : chosen? config n w = some (c, .install)) :
    (Recording.start config n w).Sound n (Records.Passes c (w.charts.releaseOf (chartSpecOf config c))) stays 0 := by
  obtain ⟨w₁, w₂, hread, hchoice, -⟩ := exists_choice hchosen
  obtain ⟨-, hcomponents, hbeside⟩ := World.read_of_faultFree hfree n
  rw [hread] at hcomponents hbeside
  have hc : w₁.components.find? n = some c := World.find?_of_ask hread
  have hstart : Recording.start config n w = { pass := .running (do
      let op ← requiredOperation c (chartSpecOf config c)
      Errand.count (.reconciliations op.text)
      dispatch config c op : Errand NextPass).run, world := w₁ } := by
    change (let (pass, world) := (Task.running (.call (.getComponent n) _)).turn w; { pass, world : Recording }) = _
    rw [Task.turn_call, perform_of_ask hread]
    rfl
  rw [hstart]
  refine ⟨hbeside.free, ⟨none, .running ?_, fun x hx => ?_⟩, fun _ => ⟨c, hc, ?_⟩⟩
  · rw [hbeside.charts]
    exact records_pass hfree hempty hchosen
  · obtain rfl := Option.some.inj (hc.symm.trans hx)
    exact ⟨hempty, rfl⟩
  · cases suits_of_run hbeside.free rfl hchoice with
    | install halive => exact halive

/-- Where nothing is edited, all is recorded. -/
theorem Setting.eq_records {settings : List Setting} (h : ∀ u, .edit u ∉ settings) :
    settings = (settings.filterMap recorded?).map record := by
  induction settings with
  | nil => rfl
  | cons x settings ih =>
    have hrest := ih fun u hu => h u (List.mem_cons_of_mem _ hu)
    cases x with
    | edit u => exact (h u List.mem_cons_self).elim
    | record v => exact congrArg (record v :: ·) hrest

/-- Behind the last edit a pass that records once at most has recorded nothing, or its version. -/
theorem Setting.behind_edit {earlier later : List Setting} {v : String} {recorded : Option String}
    (hlater : ∀ u, .edit u ∉ later)
    (hrecorded : (earlier ++ .edit v :: later).filterMap Setting.recorded? = recorded.toList) :
    later = [] ∨ ∃ a, recorded = some a ∧ later = [.record a] := by
  have hrecords := eq_records hlater
  rw [List.filterMap_append] at hrecorded
  change earlier.filterMap recorded? ++ later.filterMap recorded? = recorded.toList at hrecorded
  cases recorded with
  | none =>
    rw [(List.append_eq_nil_iff.1 hrecorded).2] at hrecords
    exact .inl hrecords
  | some a =>
    rcases List.append_eq_singleton_iff.1 hrecorded with ⟨-, hone⟩ | ⟨-, hnone⟩
    · rw [hone] at hrecords
      exact .inr ⟨a, rfl, hrecords⟩
    · rw [hnone] at hrecords
      exact .inl hrecords

/-- What becomes of the version that a component asks for, if it asks for none when a pass installs it, and others write
it meanwhile. The pass comes to an end. If others do not remove the component, it is still there, and asks for the
version that was set last. The pass records the version of the release that it ordered, once at most, and if it
succeeds, once. So the version that others set last stands if and only if the pass did not record behind it, or recorded
the same. If others set none and the pass succeeds, it is the version of the release. -/
theorem version_of_last_setting (hfree : w.FaultFree) (hempty : c.spec.version = "")
    (hchosen : chosen? config n w = some (c, .install)) (hwrites : steps.countP Recording.Step.isWrite < twoTo 64)
    (hrun : Recording.run config n w steps = r) :
    Task.Ends r.world r.pass ∧ ((∀ step ∈ steps, step.Spares n) → ∃ x, r.world.components.find? n = some x) ∧
      ∀ result x, r.pass = .ended (.finished result) → r.world.components.find? n = some x →
        let release := w.charts.releaseOf (chartSpecOf config c)
        x.spec.version = Setting.last r.settings ∧
        ((r.settings.filterMap Setting.recorded? = [] ∧ result ≠ .ok .onChange) ∨
          (r.settings.filterMap Setting.recorded? = [release.appVersion] ∧
            releaseOf? c r.world.charts.releases = some release)) ∧
        (∀ earlier v later, r.settings = earlier ++ .edit v :: later → (∀ u, .edit u ∉ later) →
          (x.spec.version = v ↔ later = [] ∨ v = release.appVersion)) ∧
        ((∀ u, .edit u ∉ r.settings) → result = .ok .onChange → x.spec.version = release.appVersion) := by
  have hsound : (Recording.run config n w steps).Sound n
      (Records.Passes c (w.charts.releaseOf (chartSpecOf config c))) (∀ step ∈ steps, step.Spares n)
      (0 + steps.countP Recording.Step.isWrite) :=
    (Recording.sound_start hfree hempty hchosen).foldl (by rwa [Nat.zero_add]) id
  rw [hrun] at hsound
  obtain ⟨recorded, hrecords, hsettings⟩ := hsound.pass
  refine ⟨hrecords.ends hsound.free, fun hspares => (hsound.alive hspares).imp fun _ h => h.1, ?_⟩
  intro result x hended hx release
  rw [hended] at hrecords
  obtain ⟨hrecorded, hsuccess⟩ : Records.Passes c release result r.world.charts.deployed recorded := by
    cases hrecords with
    | ended h => exact h result rfl
  obtain ⟨hlast, hfilter⟩ := hsettings x hx
  refine ⟨hlast, ?_, fun earlier v later hsplit hlater => ?_, fun hunedited hok => ?_⟩
  · rw [hfilter]
    cases recorded with
    | none => exact .inl ⟨rfl, fun hok => nomatch hsuccess hok⟩
    | some a =>
      obtain ⟨rfl, hdeployed⟩ := hrecorded a rfl
      exact .inr ⟨rfl, hdeployed⟩
  · rw [hlast]
    rw [hsplit] at hfilter ⊢
    rcases Setting.behind_edit hlater hfilter with rfl | ⟨a, ha, rfl⟩
    · exact iff_of_true (Setting.last_concat _ _) (.inl rfl)
    · obtain ⟨rfl, -⟩ := hrecorded a ha
      rw [List.append_cons, Setting.last_concat]
      constructor
      · exact fun hsame => .inr hsame.symm
      · rintro (hnone | hsame)
        · cases hnone
        · exact hsame.symm
  · rw [hlast, Setting.eq_records hunedited, hfilter, hsuccess hok]
    rfl

/-- While a pass installs a component without a version, somebody asks for one. The pass succeeds, and records another
one instead. -/
theorem version_of_last_setting_lost :
    let start := sampleWorld (sampleComponent "" .notInstalled []) []
    let steps : List Recording.Step :=
      .write (.object (sampleComponent "0.2.0" .notInstalled [])) :: List.replicate 40 .turn
    ∃ r x, Recording.run {} "dogu-op" start steps = r ∧ r.pass = .ended (.finished (.ok .onChange)) ∧
      r.settings = [.edit "0.2.0", .record "1.0.0"] ∧ r.world.components.find? "dogu-op" = some x ∧
      x.spec.version = "1.0.0" ∧ x.spec.version ≠ "0.2.0" := by
  intro start steps
  have hchosen : chosen? {} "dogu-op" start = some (sampleComponent "" .notInstalled [], .install) := by decide +kernel
  obtain ⟨r, hrun⟩ : ∃ r, Recording.run {} "dogu-op" start steps = r := ⟨_, rfl⟩
  have hsettings : r.settings = [.edit "0.2.0", .record "1.0.0"] := hrun ▸ by decide +kernel
  have hended := Task.eq_of_succeedsWith (a := NextPass.onChange) (t := r.pass) (hrun ▸ by decide +kernel)
  obtain ⟨-, hstays, hends⟩ := version_of_last_setting (faultFree_sampleWorld _ _) rfl hchosen (by decide) hrun
  obtain ⟨x, hx⟩ := hstays fun step hstep => by
    rcases List.mem_cons.1 hstep with rfl | hturn
    · exact fun _ => rfl
    · rw [List.eq_of_mem_replicate hturn]
      trivial
  obtain ⟨hlast, -, hedited, -⟩ := hends _ x hended hx
  have hlost := mt (hedited [] "0.2.0" [.record "1.0.0"] hsettings (by simp)).1 (by decide)
  exact ⟨r, x, hrun, hended, hsettings, hx, by rw [hlast, hsettings]; rfl, hlost⟩

end Recordings

end ChartOperator
