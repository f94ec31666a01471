import ChartOperator.Health.Update
import ChartOperator.Proofs.Concurrency.Tasks
import ChartOperator.Proofs.Lifecycle.Outcomes

set_option autoImplicit false

/-!
# Writers of health

Health is written when a workload changes, for all components at fixed intervals, and for all of them when the
operator stops. Such a writer asks, sets the health of components, and counts verdicts (`harmless_errand`). A
turn of it spares the core of an object, unless that object is one that any write removes (`Harmless.turn`).
-/

namespace ChartOperator

open ComponentStore (settled)
open Errand

/-- What writes health beside a pass. -/
inductive HealthWriter
  /-- Updates the health of one component. -/
  | update (component «namespace» : String)
  /-- Updates the health of the component that a seen workload belongs to. -/
  | refresh (seen : Workload)
  /-- Updates the health of every component. -/
  | sync
  /-- Marks the health of every component as no longer observed. -/
  | sweep

/-- What a writer does. -/
def HealthWriter.errand (config : Config) : HealthWriter → Errand Unit
  | update component space => discard (updateHealth component space none)
  | refresh seen => refreshSeen seen
  | sync => updateAllHealth config
  | sweep => stopHealth config

/-- The change sets a health verdict. -/
def Mutation.SetsHealth (m : Mutation) : Prop := ∃ n verdict, m = (Edit.setHealth verdict none).mutation n

/-- The change stores a verdict on workloads. -/
def Mutation.StoresVerdict (m : Mutation) : Prop := ∃ n ws, m = .setHealth n (Workload.verdict ws) none

/-- The program asks, sets the health of components, and counts verdicts. -/
def Program.Harmless {α : Type} (p : Program α) : Prop :=
  p.Confined (fun c => c.isRead = true) Mutation.SetsHealth ∧ p.Discreet

section Writers

variable {α β : Type} {t : Errand α} {f : α → Errand β}

/-- The errand asks, sets the health of components, and counts verdicts. -/
abbrev Harmless (t : Errand α) : Prop := t.run.Harmless

theorem harmless_bind (h : Harmless t) (hf : ∀ a, Harmless (f a)) : Harmless (t >>= f) :=
  ⟨confined_bind h.1 fun a => (hf a).1, discreet_bind h.2 fun a => (hf a).2⟩

theorem harmless_discard (h : Harmless t) : Harmless (discard t) :=
  ⟨confined_discard h.1, discreet_discard h.2⟩

theorem harmless_forAll {ι : Type} {t : ι → Errand α} (h : ∀ i, Harmless (t i)) (items : List ι) :
    Harmless (forAll items t) :=
  ⟨confined_forAll (fun i => (h i).1) items, discreet_forAll (fun i => (h i).2) items⟩

theorem harmless_persistHealth (n : String) (verdict : Health) : Harmless (persistHealth n verdict none) :=
  ⟨confined_mapFailure (confined_change ⟨n, verdict, rfl⟩), discreet_mapFailure (discreet_change _)⟩

/-- The health of a component is set to a verdict on workloads. -/
theorem confined_updateHealth (n space : String) :
    Confined (fun c => c.isRead = true) Mutation.StoresVerdict (updateHealth n space none) := by
  have hfind := inquires_findWorkloads n space
  refine confined_bind (hfind.mono (fun _ => Call.isRead_of_isInquiry) nofun) fun ws => ?_
  refine confined_bind (confined_discard (confined_mapFailure (confined_change ⟨n, ws, rfl⟩))) fun _ => ?_
  exact confined_bind (confined_count _) fun _ => confined_pure _

theorem confined_updateOwner (w : Workload) :
    Confined (fun c => c.isRead = true) Mutation.StoresVerdict (updateOwner w) := by
  unfold updateOwner
  split
  · exact confined_pure _
  · exact confined_discard (confined_updateHealth _ _)

theorem confined_refreshSeen (seen : Workload) :
    Confined (fun c => c.isRead = true) Mutation.StoresVerdict (refreshSeen seen) := by
  refine confined_bind (confined_bind (confined_outcome (confined_ask rfl)) fun found => ?_) fun current => ?_
  · cases found with
    | ok w => exact confined_pure _
    | error e =>
      show Confined _ _ (if e.isNotFound then pure none else throw _ : Errand (Option Workload))
      split
      · exact confined_pure _
      · exact confined_throw _
  · cases current with
    | none => exact confined_updateOwner seen
    | some w => exact confined_updateOwner w

theorem discreet_updateOwner (w : Workload) : Discreet (updateOwner w) := by
  unfold updateOwner
  split
  · exact discreet_pure _
  · exact discreet_discard (discreet_updateHealth _ _ none)

theorem discreet_refreshSeen (seen : Workload) : Discreet (refreshSeen seen) := by
  refine discreet_bind (discreet_bind (discreet_outcome (discreet_ask _)) fun found => ?_) fun current => ?_
  · cases found with
    | ok w => exact discreet_pure _
    | error e =>
      show Discreet (if e.isNotFound then pure none else throw _ : Errand (Option Workload))
      split
      · exact discreet_pure _
      · exact discreet_throw _
  · cases current with
    | none => exact discreet_updateOwner seen
    | some w => exact discreet_updateOwner w

/-- What stores verdicts and is discreet is harmless. -/
theorem harmless_of_verdicts (h : Confined (fun c => c.isRead = true) Mutation.StoresVerdict t) (ht : Discreet t) :
    Harmless t := by
  refine ⟨h.mono (fun _ h => h) ?_, ht⟩
  rintro _ ⟨n, ws, rfl⟩
  exact ⟨n, _, rfl⟩

theorem harmless_updateHealth (n space : String) : Harmless (updateHealth n space none) :=
  harmless_of_verdicts (confined_updateHealth n space) (discreet_updateHealth n space none)

theorem harmless_refreshSeen (seen : Workload) : Harmless (refreshSeen seen) :=
  harmless_of_verdicts (confined_refreshSeen seen) (discreet_refreshSeen seen)

theorem harmless_listing {context : String} : Harmless ((ask .listComponents).inContext context) :=
  ⟨confined_mapFailure (confined_ask rfl), discreet_mapFailure (discreet_ask _)⟩

theorem harmless_updateAllHealth (config : Config) : Harmless (updateAllHealth config) := by
  refine harmless_bind harmless_listing fun components => ?_
  exact harmless_forAll (fun c : Component => harmless_updateHealth c.name config.namespace) components

theorem harmless_stopHealth (config : Config) : Harmless (stopHealth config) := by
  refine harmless_bind harmless_listing fun components => ?_
  exact harmless_forAll (fun c : Component => harmless_persistHealth c.name (lastVerdict config c.name)) components

/-- Writers of health are harmless. -/
theorem harmless_errand (config : Config) (writer : HealthWriter) : Harmless (writer.errand config) := by
  cases writer with
  | update n space => exact harmless_discard (harmless_updateHealth n space)
  | refresh seen => exact harmless_refreshSeen seen
  | sync => exact harmless_updateAllHealth config
  | sweep => exact harmless_stopHealth config

end Writers

/-! ## What a turn spares -/

section Spares

variable {n : String} {K j : Nat} {s s' : ComponentStore} {m : Mutation} {stage : Stage}

/-- The object of a name, if it is stored, is none that any write removes. -/
def ComponentStore.Firm (s : ComponentStore) (n : String) : Prop := ∀ x, s.find? n = some x → settled x ≠ none

/-- The store moved on by so many accepted writes, and they spared the core of an object. -/
structure ComponentStore.Spares (n : String) (j : Nat) (s s' : ComponentStore) : Prop where
  moves : s.Moves s' j
  readFailure : s'.readFailure = s.readFailure
  writeFailure : s'.writeFailure = s.writeFailure
  core : (s'.find? n).map Component.core = (s.find? n).map Component.core

theorem ComponentStore.Spares.refl (n : String) (s : ComponentStore) : Spares n 0 s s := ⟨.refl s, rfl, rfl, rfl⟩

theorem ComponentStore.Spares.firm (h : Spares n j s s') (hfirm : s.Firm n) : s'.Firm n := by
  intro y hy hgone
  have hcore := h.core
  rw [hy, Option.map_some, eq_comm, Option.map_eq_some_iff] at hcore
  obtain ⟨x, hx, hxy⟩ := hcore
  have hsettled := Component.map_core_settled hxy
  rw [hgone, Option.map_none, Option.map_eq_none_iff] at hsettled
  exact hfirm x hx hsettled

/-- A copy that is about to be written tracks the stored object. -/
def Stage.Fresh (m : Mutation) (K : Nat) (s : ComponentStore) (stage : Stage) : Prop :=
  ∀ wr, stage = .writing wr → ∃ x, m.edit x = some wr ∧ x.name = m.target ∧ Tracks m.target x K s

theorem Stage.Fresh.others (h : stage.Fresh m K s) (hmoves : s.Moves s' j) : stage.Fresh m (K + j) s' := by
  intro wr hwr
  obtain ⟨x, hedit, hname, htracks⟩ := h wr hwr
  exact ⟨x, hedit, hname, hmoves.tracks htracks⟩

theorem Stage.fresh_failed (e : Failure) : (Stage.failed e).Fresh m K s := by
  unfold failed
  split <;> exact fun wr h => Stage.noConfusion h

/-- Behind a turn a copy is about to be written only if it was just read. -/
theorem Stage.fresh_turn (m : Mutation) (K : Nat) (s : ComponentStore) (stage : Stage) :
    (m.turn s stage).1.Fresh m K (m.turn s stage).2 := by
  have hclosed : ∀ r s', (Stage.returned r).Fresh m K s' := fun r s' wr h => Stage.noConfusion h
  cases stage with
  | returned r => exact hclosed r s
  | writing wr =>
    rcases hwrite : s.write wr with ⟨e | y, s'⟩ <;> simp only [Mutation.turn, hwrite]
    · exact fresh_failed e
    · exact hclosed _ s'
  | reading =>
    unfold Mutation.turn
    cases hget : s.get m.target with
    | error e =>
      dsimp only
      split
      · exact hclosed _ s
      · exact fresh_failed e
    | ok x =>
      have hx := ComponentStore.find?_of_get hget
      dsimp only
      cases hedit : m.edit x with
      | none => exact hclosed _ s
      | some wr =>
        rintro _ ⟨⟩
        exact ⟨x, hedit, ComponentStore.name_of_find? hx, tracks_self hx⟩

/-- A verdict that is stored spares the cores of all objects that remain. -/
theorem core_of_setsHealth {wr : Write} {y : Component} (hm : m.SetsHealth)
    (hfresh : (Stage.writing wr).Fresh m K s) (hK : K < twoTo 64) (hfirm : s.Firm n)
    (hwrite : s.write wr = (.ok y, s')) :
    (s'.find? n).map Component.core = (s.find? n).map Component.core := by
  obtain ⟨n', verdict, rfl⟩ := hm
  obtain ⟨x, hedit, hname, htracks⟩ := hfresh wr rfl
  have hsound := (Edit.setHealth verdict none).sound_mutation n'
  obtain ⟨hx, -, hfind⟩ := htracks.written hsound hK hedit hname hwrite
  rw [Edit.target_mutation] at hx hfind
  rw [hfind]
  by_cases hn : n = n'
  · -- What is stored again has the core that it had.
    subst hn
    obtain ⟨z, hz⟩ := Option.ne_none_iff_exists'.1 (hfirm x hx)
    rw [if_pos rfl, hx, Edit.onto_of_edit hedit]
    rw [Component.map_core_settled (Component.core_setHealth verdict x)]
    rw [hz, ComponentStore.settled_eq_some hz]
    rfl
  · rw [if_neg hn]

/-- A turn that sets health spares the cores of all objects that remain. -/
theorem spares_turn (hm : m.SetsHealth) (hfresh : stage.Fresh m K s) (hK : K < twoTo 64) (hfirm : s.Firm n) :
    ∃ j, ComponentStore.Spares n j s (m.turn s stage).2 := by
  cases stage with
  | reading =>
    rw [m.turn_reading_snd s]
    exact ⟨0, .refl n s⟩
  | returned r => exact ⟨0, .refl n s⟩
  | writing wr =>
    rw [m.turn_writing_snd s]
    have hfailures := s.failures_write wr
    rcases hwrite : s.write wr with ⟨e | y, s'⟩
    · rw [hwrite] at hfailures
      obtain ⟨hmoves, hfind⟩ := ComponentStore.moves_of_write_error hwrite
      exact ⟨0, hmoves, hfailures.1, hfailures.2, by rw [hfind]⟩
    · rw [hwrite] at hfailures
      have hcore := core_of_setsHealth hm hfresh hK hfirm hwrite
      have hmoves : s.Moves s' 1 := ⟨ComponentStore.writes_of_write_ok hwrite, fun h => h.write hwrite⟩
      exact ⟨1, hmoves, hfailures.1, hfailures.2, hcore⟩

end Spares

/-! ## Turns of a writer -/

namespace Task

variable {α : Type} {n : String} {K j : Nat} {s s' : ComponentStore} {t : Task α} {w : World}

/-- The task asks, sets the health of components, and counts verdicts. -/
def Harmless (K : Nat) (s : ComponentStore) : Task α → Prop
  | running p => p.Harmless
  | changing m stage next => m.SetsHealth ∧ stage.Fresh m K s ∧ ∀ r, (next r).Harmless
  | ended _ => True

theorem Harmless.others (h : t.Harmless K s) (hmoves : s.Moves s' j) : t.Harmless (K + j) s' := by
  cases t with
  | changing m stage next => exact ⟨h.1, h.2.1.others hmoves, h.2.2⟩
  | _ => exact h

/-- A turn of a harmless task spares the core of an object, and all that is beside the components. -/
theorem Harmless.turn (h : t.Harmless K w.components) (hfree : w.FaultFree) (hK : K < twoTo 64)
    (hfirm : w.components.Firm n) :
    ∃ j, ComponentStore.Spares n j w.components (t.turn w).2.components ∧ w.Beside (t.turn w).2 ∧
      (t.turn w).1.Harmless (K + j) (t.turn w).2.components := by
  have hself : w.Beside w := ⟨rfl, rfl, rfl, hfree⟩
  have hspares := ComponentStore.Spares.refl n w.components
  cases t with
  | ended ending => exact ⟨0, hspares, hself, trivial⟩
  | running p =>
    cases p with
    | done a => exact ⟨0, hspares, hself, trivial⟩
    | note i next =>
      obtain ⟨hconfined, ⟨verdict, rfl⟩, hdiscreet⟩ := h
      exact ⟨0, hspares, ⟨rfl, rfl, rfl, hfree⟩, hconfined, hdiscreet⟩
    | mutate m next =>
      obtain ⟨⟨hm, hconfined⟩, hdiscreet⟩ := h
      exact ⟨0, hspares, hself, hm, fun wr h => Stage.noConfusion h, fun r => ⟨hconfined r, hdiscreet r⟩⟩
    | call c next =>
      obtain ⟨⟨hc, hconfined⟩, hdiscreet⟩ := h
      have hserve := w.serve_of_isRead hc
      have hbeside : w.Beside (w.perform c).2 :=
        World.beside_perform hfree (by rw [hserve]) (by rw [hserve])
      have hcomponents : (w.perform c).2.components = w.components := by
        rw [(World.perform_of_faultFree hfree c).2.1, hserve]
      rw [turn_call]
      refine ⟨0, ?_, hbeside, ?_⟩
      · rw [hcomponents]
        exact hspares
      · cases (w.perform c).1 with
        | answered a => exact ⟨hconfined a, hdiscreet a⟩
        | crashed => trivial
        | held => trivial
  | changing m stage next =>
    obtain ⟨hm, hfresh, hnext⟩ := h
    by_cases hopen : ∀ r, stage ≠ .returned r
    · obtain ⟨hstage, hcomponents, hbeside⟩ := World.turn_of_faultFree hfree m stage
      obtain ⟨j, hspared⟩ := spares_turn hm hfresh hK hfirm
      rw [turn_changing hopen]
      refine ⟨j, ?_, hbeside, hm, ?_, hnext⟩
      · rw [hcomponents]
        exact hspared
      · rw [hstage, hcomponents]
        exact Stage.fresh_turn m _ _ stage
    · obtain ⟨r, hr⟩ := Classical.not_forall.1 hopen
      obtain rfl := Classical.not_not.1 hr
      exact ⟨0, hspares, hself, hnext r⟩

end Task

end ChartOperator
