import ChartOperator.Health.Update
import ChartOperator.Proofs.Concurrency.HealthWriters
import ChartOperator.Proofs.World.Dialogues

set_option autoImplicit false

/-!
# Verdicts and what they are found from

The workloads of a component are those with its label in its namespace (`WorkloadStore.belonging`). They are
listed kind by kind, by a selector that picks the label out, since no name of a component contains a comma
(`matchesSelector_selectorOf`). Whoever answers the three lists from one store gets the verdict on that store
(`verdict_of_comes`).

A verdict that is stored is the health of its component, and other components stay as they are
(`ComponentStore.Judges`). The copy that is written holds the verdict from its read on (`Stage.Carries`), so
this is so whatever other writers do between the turns of the change.
-/

namespace ChartOperator

open ComponentStore (settled)

/-! ## The workloads of a component -/

namespace Workload

theorem splitOn_of_not_mem {mark : Char} {cs : List Char} (h : mark ∉ cs) : splitOn mark cs = [cs] := by
  induction cs with
  | nil => rfl
  | cons c cs ih =>
    obtain ⟨hc, hcs⟩ := not_or.1 (mt List.mem_cons.2 h)
    rw [splitOn, if_neg (Ne.symm hc), ih hcs]

/-- The selector of a component picks the workloads with its label. -/
theorem matchesSelector_selectorOf (w : Workload) {n : String} (h : ',' ∉ n.toList) :
    w.matchesSelector (selectorOf n) = (w.component == some n) := by
  have htext : (selectorOf n).toList = Component.nameLabel.toList ++ '=' :: n.toList := by
    simp [selectorOf]
  have hlabel : ∀ c ∈ Component.nameLabel.toList, (c != ',' && c != '=') = true := by
    have hall : (Component.nameLabel.toList.all fun c => c != ',' && c != '=') = true := by decide
    exact List.all_eq_true.1 hall
  have hcomma : ',' ∉ (selectorOf n).toList := by
    rw [htext, List.mem_append, List.mem_cons]
    rintro (hmem | hequals | hmem)
    · cases hlabel ',' hmem
    · cases hequals
    · exact h hmem
  have hequal : ∀ c ∈ Component.nameLabel.toList, (c != '=') = true := fun c hc =>
    (Bool.and_eq_true_iff.1 (hlabel c hc)).2
  have hempty : (Component.nameLabel.toList ++ '=' :: n.toList).isEmpty = false := by simp
  have hequals : (Component.nameLabel.toList ++ '=' :: n.toList).contains '=' = true := by simp
  rw [matchesSelector, splitOn_of_not_mem hcomma, List.all_cons, List.all_nil, Bool.and_true, htext, matchesTerm,
    if_neg (Bool.eq_false_iff.1 hempty), if_pos hequals]
  rw [List.takeWhile_append_of_pos hequal, List.dropWhile_append_of_pos hequal]
  simp

/-- A verdict depends on which workloads there are alone. -/
theorem verdict_congr {as bs : List Workload} (h : ∀ w, w ∈ as ↔ w ∈ bs) : verdict as = verdict bs := by
  unfold verdict
  have hall : as.all isAvailable = bs.all isAvailable := by
    rw [Bool.eq_iff_iff, List.all_eq_true, List.all_eq_true]
    exact forall_congr' fun w => imp_congr (h w) Iff.rfl
  rw [hall]

end Workload

/-- The workloads of a component in a namespace. -/
def WorkloadStore.belonging (s : WorkloadStore) (n «namespace» : String) : List Workload :=
  s.items.filter fun w => w.namespace == «namespace» && w.component == some n

section Finding

variable {replies : Replies} {s : WorkloadStore} {n space : String} {calls : List Call}

theorem mem_belonging {w : Workload} :
    w ∈ s.belonging n space ↔ w ∈ s.items ∧ w.namespace = space ∧ w.component = some n := by
  simp [WorkloadStore.belonging]

/-- A list of the workloads of a component by their kind. -/
theorem mem_of_list {kind : WorkloadKind} {ws : List Workload} (hname : ',' ∉ n.toList)
    (h : s.list kind space (Workload.selectorOf n) = .ok ws) (w : Workload) :
    w ∈ ws ↔ w.kind = kind ∧ w ∈ s.belonging n space := by
  unfold WorkloadStore.list at h
  split at h
  · cases h
  · cases h
    rw [List.mem_filter, w.matchesSelector_selectorOf hname, mem_belonging]
    simp only [Bool.and_eq_true, beq_iff_eq, and_assoc]
    exact and_left_comm

/-- Lists of workloads are answered from a store. -/
def WorkloadStore.Lists (s : WorkloadStore) : Replies
  | .listWorkloads kind space selector, a => a = s.list kind space selector
  | _, _ => True

theorem lists_of_served {w : World} {d : Call} {a : d.Answer} (h : w.Served d a) : w.workloads.Lists d a := by
  cases d with
  | listWorkloads => exact (Option.some.inj h).symm
  | _ => trivial

theorem onlyCalls_findWorkloads (n space : String) : Errand.OnlyCalls (findWorkloads n space) := by
  have hkinds : ∀ kinds, Errand.OnlyCalls (listKinds n space kinds) := by
    intro kinds
    induction kinds with
    | nil => trivial
    | cons kind kinds ih =>
      refine Errand.onlyCalls_bind (Errand.onlyCalls_outcome fun _ => trivial) fun found => ?_
      refine Errand.onlyCalls_bind ih fun ⟨ws, failures⟩ => ?_
      cases found <;> trivial
  refine Errand.onlyCalls_bind (hkinds _) fun ⟨found, failures⟩ => ?_
  exact Errand.onlyCalls_bind (t := liftM (Failure.join failures)) trivial fun _ => trivial

/-- A list of some kinds is complete unless one of them could not be listed. -/
theorem mem_of_comes_listKinds {kinds : List WorkloadKind} {r : Except Failure (List Workload × List Failure)}
    (hname : ',' ∉ n.toList) (h : Errand.Comes s.Lists (listKinds n space kinds) calls r) :
    ∃ ws failures, r = .ok (ws, failures) ∧ (s.failing = [] → failures = []) ∧
      (failures = [] → ∀ w, w ∈ ws ↔ w.kind ∈ kinds ∧ w ∈ s.belonging n space) := by
  induction kinds generalizing calls r with
  | nil =>
    cases h
    exact ⟨[], [], rfl, fun _ => rfl, fun _ w => by simp⟩
  | cons kind kinds ih =>
    obtain ⟨e, hasked, -⟩ | ⟨found, first, rest, hasked, hrest, -⟩ := Errand.comes_of_bind h
    · obtain ⟨o, -, hnot⟩ := Errand.comes_of_outcome hasked
      cases hnot
    obtain ⟨_, hfound, ⟨⟩⟩ := Errand.comes_of_outcome hasked
    have hlist : found = s.list kind space (Workload.selectorOf n) := Errand.comes_of_ask hfound
    obtain ⟨e, hothers, -⟩ | ⟨⟨ws, failures⟩, _, _, hothers, hjoined, -⟩ := Errand.comes_of_bind hrest
    · obtain ⟨_, _, hnot, -⟩ := ih hothers
      cases hnot
    obtain ⟨_, _, ⟨⟩, hfine, hcomplete⟩ := ih hothers
    cases found with
    | error e =>
      obtain ⟨-, rfl⟩ := Errand.comes_pure_iff.1 hjoined
      refine ⟨_, _, rfl, fun hfailing => ?_, nofun⟩
      rw [WorkloadStore.list, hfailing] at hlist
      cases hlist
    | ok more =>
      obtain ⟨-, rfl⟩ := Errand.comes_pure_iff.1 hjoined
      refine ⟨_, _, rfl, hfine, fun hnone w => ?_⟩
      rw [List.mem_append, mem_of_list hname hlist.symm, hcomplete hnone, List.mem_cons, or_and_right]

/-- What is found in one store gives the verdict on the workloads that belong to the component. -/
theorem verdict_of_comes {r : Except Failure (List Workload)} (hname : ',' ∉ n.toList)
    (h : Errand.Comes s.Lists (findWorkloads n space) calls r) :
    (∀ ws, r = .ok ws → Workload.verdict ws = Workload.verdict (s.belonging n space)) ∧
      (s.failing = [] → ∃ ws, r = .ok ws) := by
  unfold findWorkloads at h
  obtain ⟨e, hlisted, -⟩ | ⟨⟨found, failures⟩, _, _, hlisted, hjoined, -⟩ := Errand.comes_of_bind h
  · obtain ⟨_, _, hnot, -⟩ := mem_of_comes_listKinds hname hlisted
    cases hnot
  obtain ⟨_, _, ⟨⟩, hfine, hcomplete⟩ := mem_of_comes_listKinds hname hlisted
  cases failures with
  | nil =>
    obtain ⟨-, rfl⟩ := Errand.comes_pure_iff.1 ((Errand.comes_lift_bind_ok rfl).1 hjoined)
    refine ⟨?_, fun _ => ⟨found, rfl⟩⟩
    rintro _ ⟨⟩
    exact Workload.verdict_congr fun w => (hcomplete rfl w).trans (and_iff_right (WorkloadKind.mem_all _))
  | cons e es =>
    have hfails : ∃ f, Failure.join (e :: es) = .error f := by
      cases es <;> exact ⟨_, rfl⟩
    obtain ⟨f, hf⟩ := hfails
    obtain ⟨-, rfl⟩ := (Errand.comes_lift_bind_error hf).1 hjoined
    exact ⟨nofun, fun hfailing => absurd (hfine hfailing) (List.cons_ne_nil _ _)⟩

end Finding

/-! ## Verdicts that are stored -/

/-- The health of a component was set, and every other component is as it was. -/
structure ComponentStore.Judges (n : String) (verdict : Health) (s s' : ComponentStore) : Prop where
  stored : ∃ x y, s.find? n = some x ∧ y.metadata = x.metadata ∧ y.health = verdict ∧ s'.find? n = settled y
  others : ∀ k, k ≠ n → s'.find? k = s.find? k

/-- Every component that is stored, and that no write removes, is stored in the other store as well. -/
def ComponentStore.Stays (s s' : ComponentStore) : Prop :=
  ∀ n x, s.find? n = some x → settled x ≠ none → ∃ y, s'.find? n = some y ∧ settled y ≠ none

/-- A copy that is about to be written is one of the component, with the verdict. -/
def Stage.Carries (n : String) (verdict : Health) (stage : Stage) : Prop :=
  ∀ wr, stage = .writing wr → ∃ c : Component, wr = .status c ∧ c.name = n ∧ c.health = verdict

/-- The store was told to fail neither reads nor writes. -/
structure ComponentStore.Working (s : ComponentStore) : Prop where
  readable : s.readFailure = none
  writable : s.writeFailure = none

theorem ComponentStore.Working.turn {s : ComponentStore} (h : s.Working) (m : Mutation) (stage : Stage) :
    (m.turn s stage).2.Working := by
  cases stage with
  | reading => exact (m.turn_reading_snd s).symm ▸ h
  | returned r => exact h
  | writing wr =>
    rw [m.turn_writing_snd s]
    obtain ⟨hread, hwrite⟩ := s.failures_write wr
    exact ⟨hread.trans h.readable, hwrite.trans h.writable⟩

section Storing

variable {n k : String} {verdict : Health} {installed : Option String} {start s s' : ComponentStore}
  {stage stage' : Stage}

namespace ComponentStore

theorem Judges.health (h : Judges n verdict s s') {z : Component} (hz : s'.find? n = some z) :
    z.health = verdict := by
  obtain ⟨x, y, -, -, rfl, hsettled⟩ := h.stored
  rw [hsettled] at hz
  rw [settled_eq_some hz]
  rfl

/-- A component that no write removes is there behind the write. -/
theorem Judges.present (h : Judges n verdict s s') (hfirm : s.Firm n) : ∃ z, s'.find? n = some z := by
  obtain ⟨x, y, hx, hmetadata, -, hsettled⟩ := h.stored
  have hstays := hfirm x hx
  rw [hsettled]
  unfold settled Component.isBeingDeleted Component.finalizers at hstays ⊢
  rw [hmetadata]
  split
  · next hgone => exact (hstays (if_pos hgone)).elim
  · exact ⟨_, rfl⟩

theorem Judges.firm (h : Judges n verdict s s') (hfirm : s.Firm k) : s'.Firm k := by
  intro z hz
  by_cases hk : k = n
  · obtain ⟨x, y, -, -, -, hsettled⟩ := h.stored
    rw [hk, hsettled] at hz
    exact Component.settled_of_settled hz
  · rw [h.others k hk] at hz
    exact hfirm z hz

theorem Stays.same (h : start.Stays s) (hitems : s'.items = s.items) : start.Stays s' := by
  intro k x hx hstays
  rw [find?_congr hitems]
  exact h k x hx hstays

theorem Stays.judges (h : start.Stays s) (hjudges : Judges n verdict s s') : start.Stays s' := by
  intro k x hx hstays
  obtain ⟨y, hy, hfirm⟩ := h k x hx hstays
  by_cases hk : k = n
  · subst hk
    have hkept : s.Firm k := fun z hz => Option.some.inj (hy.symm.trans hz) ▸ hfirm
    obtain ⟨z, hz⟩ := hjudges.present hkept
    exact ⟨z, hz, hjudges.firm hkept z hz⟩
  · exact ⟨y, (hjudges.others k hk).trans hy, hfirm⟩

/-- An accepted write of the verdict stores it. -/
theorem judges_of_write {wr : Write} {y : Component} (h : (Stage.writing wr).Carries n verdict)
    (hwrite : s.write wr = (.ok y, s')) : Judges n verdict s s' := by
  obtain ⟨c, rfl, rfl, rfl⟩ := h wr rfl
  obtain ⟨x, hx, -, -, hfind⟩ := write_ok hwrite
  exact ⟨⟨x, { x with status := c.status }, hx, rfl, rfl, (hfind c.name).trans (if_pos rfl)⟩,
    fun k hk => (hfind k).trans (if_neg hk)⟩

end ComponentStore

theorem Stage.carries_failed (e : Failure) : (Stage.failed e).Carries n verdict := by
  unfold failed
  split <;> exact fun wr h => Stage.noConfusion h

/-- A turn of a change that sets health leaves the components as they are, or stores the verdict. Then the
change has returned. It gives up without that only where a store fails or the component is missing. -/
theorem Stage.Carries.turn (h : stage.Carries n verdict) (hopen : ∀ r, stage ≠ .returned r)
    (hturn : (Mutation.setHealth n verdict installed).turn s stage = (stage', s')) :
    (s'.items = s.items ∧ s'.writes = s.writes ∧ stage'.Carries n verdict ∧
        (∀ o, stage' ≠ .returned (.ok o)) ∧
        (s.Working → ∀ e, stage' = .returned (.error e) → s.find? n = none)) ∨
      (ComponentStore.Judges n verdict s s' ∧ s'.writes = s.writes + 1 ∧
        ∃ y, stage' = .returned (.ok (some y))) := by
  have hfailed : ∀ e o, Stage.failed e ≠ .returned (.ok o) := by
    intro e o
    unfold failed
    split <;> nofun
  cases stage with
  | returned r => exact (hopen r rfl).elim
  | reading =>
    have hget : s.get (Mutation.setHealth n verdict installed).target = s.get n := rfl
    simp only [Mutation.turn, hget] at hturn
    cases hread : s.get n with
    | error e =>
      rw [hread] at hturn
      cases hturn
      refine .inl ⟨rfl, rfl, carries_failed e, hfailed e, fun hworking _ _ => ?_⟩
      refine Option.eq_none_iff_forall_ne_some.2 fun x hx => ?_
      rw [ComponentStore.get_of_find? hworking.readable hx] at hread
      cases hread
    | ok x =>
      have hname : x.name = n := ComponentStore.name_of_find? (ComponentStore.find?_of_get hread)
      rw [hread] at hturn
      cases hturn
      refine .inl ⟨rfl, rfl, ?_, fun o h => Stage.noConfusion h, fun _ e h => Stage.noConfusion h⟩
      rintro _ ⟨⟩
      exact ⟨_, rfl, hname, rfl⟩
  | writing wr =>
    rcases hwrite : s.write wr with ⟨e | y, s''⟩ <;> simp only [Mutation.turn, hwrite] at hturn <;> cases hturn
    · refine .inl ⟨ComponentStore.items_of_write_error hwrite, ComponentStore.writes_of_write_error hwrite,
        carries_failed e, hfailed e, fun hworking f hf => ?_⟩
      obtain ⟨c, rfl, rfl, -⟩ := h wr rfl
      -- A lost race would have led back to the read.
      have hdecided : e.isConflict = false := by
        refine Bool.eq_false_iff.2 fun hlost => ?_
        rw [failed_of_lost hlost] at hf
        cases hf
      refine Option.eq_none_iff_forall_ne_some.2 fun x hx => ?_
      obtain ⟨text, htext, -⟩ := ComponentStore.writeFailure_of_write_error hwrite hx hdecided
      rw [hworking.writable] at htext
      cases htext
    · exact .inr ⟨ComponentStore.judges_of_write h hwrite, ComponentStore.writes_of_write_ok hwrite, y, rfl⟩

end Storing

/-! ## Turns of tasks that find and store verdicts -/

section Turns

variable {α : Type} {n : String} {verdict : Health} {w : World}

/-- The workloads are the same, and calls meet no faults. -/
structure World.KeepsWorkloads (w w' : World) : Prop where
  workloads : w'.workloads = w.workloads
  free : w'.FaultFree

theorem World.Beside.keepsWorkloads {w' : World} (h : w.Beside w') : w.KeepsWorkloads w' := ⟨h.workloads, h.free⟩

theorem World.keepsWorkloads_leave (hfree : w.FaultFree) (i : Note) :
    w.KeepsWorkloads (w.leave i) ∧ (w.leave i).components = w.components := by
  cases i <;> exact ⟨⟨rfl, hfree⟩, rfl⟩

theorem World.serve_read (w : World) {d : Call} (h : d.isRead = true) : ∃ a, (w.serve d).1 = some a := by
  cases d <;> first | exact ⟨_, rfl⟩ | cases h

/-- A read is answered by the stores, which stay as they are. -/
theorem Task.turn_read {d : Call} (hd : d.isRead = true) (next : d.Answer → Program α) (hfree : w.FaultFree) :
    ∃ a w', w.Served d a ∧ (Task.running (.call d next)).turn w = (.running (next a), w') ∧
      w.Beside w' ∧ w'.components = w.components := by
  have hserve := w.serve_of_isRead hd
  obtain ⟨a, ha⟩ := w.serve_read hd
  refine ⟨a, (w.perform d).2, ha, ?_, World.beside_perform hfree (by rw [hserve]) (by rw [hserve]), ?_⟩
  · rw [turn_call, hfree.answer ha]
    rfl
  · rw [(World.perform_of_faultFree hfree d).2.1, hserve]

/-- In a world a change that sets health leaves the components as they are for a turn, or stores the verdict. -/
theorem Task.turn_setHealth {stage : Stage} (installed : Option String) (h : stage.Carries n verdict)
    (hopen : ∀ r, stage ≠ .returned r) (next : Except Failure (Option Component) → Program α) (hfree : w.FaultFree) :
    ∃ stage' w', (Task.changing (.setHealth n verdict installed) stage next).turn w =
        (.changing (.setHealth n verdict installed) stage' next, w') ∧ w.Beside w' ∧
      (w.components.Working → w'.components.Working) ∧
      ((w'.components.items = w.components.items ∧ w'.components.writes = w.components.writes ∧
          stage'.Carries n verdict ∧ (∀ o, stage' ≠ .returned (.ok o)) ∧
          (w.components.Working → ∀ e, stage' = .returned (.error e) → w.components.find? n = none)) ∨
        (ComponentStore.Judges n verdict w.components w'.components ∧
          w'.components.writes = w.components.writes + 1 ∧ ∃ y, stage' = .returned (.ok (some y)))) := by
  obtain ⟨hstage, hcomponents, hbeside⟩ := World.turn_of_faultFree hfree (.setHealth n verdict installed) stage
  refine ⟨_, _, turn_changing hopen, hbeside, fun hworking => ?_, ?_⟩
  · rw [hcomponents]
    exact hworking.turn _ stage
  · exact h.turn hopen (Prod.ext hstage.symm hcomponents.symm)

end Turns

end ChartOperator
