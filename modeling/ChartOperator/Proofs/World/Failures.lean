import ChartOperator.Proofs.Lifecycle.Edits
import ChartOperator.Proofs.World.Dialogues
import ChartOperator.Proofs.World.Optimistic

set_option autoImplicit false

/-!
# Failures of single calls

Which calls of a run failed, and with what (`Moment.failure?`), tells how a run ends that reports them. A list of
workloads is made by the store unless it fails or crashes (`perform_listWorkloads`).

What becomes of a component that a call does not write is what other writers make of it: nothing, or a new version
(`World.Keeps`).
-/

namespace ChartOperator

open ComponentStore (bump withVersion)

namespace Moment

variable {m : Moment} {n : String} {e : Failure}

/-- The failure of the call, if it failed. -/
def failure? (m : Moment) : Option Failure :=
  match m.outcome with
  | .answered (.error e) => some e
  | _ => none

theorem failure?_of_error (h : m.outcome = .answered (.error e)) : m.failure? = some e := by
  rw [failure?, h]

theorem failure?_of_ok {a : m.call.Result} (h : m.outcome = .answered (.ok a)) : m.failure? = none := by
  rw [failure?, h]

/-- A call on components fails with its answer. -/
theorem failure?_of_ask (w : World) {c : Call} (hc : c.channel.ofComponents = true) :
    failure? ⟨w, c⟩ = match (w.ask c).1 with
      | .ok _ => none
      | .error e => some e := by
  rw [failure?, outcome, w.answered_perform hc]
  cases (w.ask c).1 <;> rfl

theorem failure?_of_store (w : World) (wr : Write) :
    failure? ⟨w, wr.call⟩ = match (w.store wr).1 with
      | .ok _ => none
      | .error e => some e := by
  cases wr with
  | object x =>
    refine (failure?_of_ask (c := .updateComponent x) w rfl).trans ?_
    unfold World.store
    cases (w.ask (.updateComponent x)).1 <;> rfl
  | status x =>
    refine (failure?_of_ask (c := .updateStatus x) w rfl).trans ?_
    unfold World.store
    cases (w.ask (.updateStatus x)).1 <;> rfl

theorem Fails.failure? (h : m.Fails n e) : m.failure? = some e := by
  obtain ⟨before, call⟩ := m
  rcases h with ⟨hcall, hanswer⟩ | ⟨wr, -, hcall, hstore⟩
  · obtain rfl : call = .getComponent n := hcall
    exact failure?_of_error hanswer
  · obtain rfl : call = wr.call := hcall
    rw [failure?_of_store, hstore]

end Moment

namespace World

variable {w w' w'' : World} {c : Call} {m : Mutation} {k : String}

/-- A list of workloads fails, is the store's, or crashes. -/
theorem perform_listWorkloads (w : World) (kind : WorkloadKind) (space selector : String) :
    (∃ e, (w.perform (.listWorkloads kind space selector)).1 = .answered (.error e)) ∨
      (w.perform (.listWorkloads kind space selector)).1 =
        .answered (w.workloads.list kind space selector) ∨
      (w.perform (.listWorkloads kind space selector)).1 = .crashed ∧
        some .crash ∈ w.faultsOf .workloadList := by
  have htaken := (forall_takeFault (P := fun p f => f ∈ w.faultsOf p) (fun _ _ hf => hf) .workloadList).1
  have hstore := w.workloads_takeFault .workloadList
  unfold perform
  rcases hfault : w.takeFault (Call.listWorkloads kind space selector).channel with ⟨fault, met⟩
  have htaken' : w.takeFault .workloadList = (fault, met) := hfault
  rw [htaken'] at htaken hstore
  rw [← hstore]
  match fault with
  | none | some (.touch _) | some .empty => exact .inr (.inl rfl)
  | some (.error e) => exact .inl ⟨e, rfl⟩
  | some .crash => exact .inr (.inr ⟨rfl, htaken.resolve_left nofun⟩)

theorem list_of_answered {kind : WorkloadKind} {space selector : String} {ws : List Workload}
    (h : (w.perform (.listWorkloads kind space selector)).1 = .answered (.ok ws)) :
    w.workloads.list kind space selector = .ok ws := by
  rcases w.perform_listWorkloads kind space selector with ⟨e, he⟩ | hlist | ⟨hcrashed, -⟩
  · cases h.symm.trans he
  · exact Outcome.answered.inj (hlist.symm.trans h)
  · cases h.symm.trans hcrashed

theorem crash_of_crashed {kind : WorkloadKind} {space selector : String}
    (h : (w.perform (.listWorkloads kind space selector)).1 = .crashed) :
    some .crash ∈ w.faultsOf .workloadList := by
  rcases w.perform_listWorkloads kind space selector with ⟨e, he⟩ | hlist | ⟨-, hcrash⟩
  · cases h.symm.trans he
  · cases h.symm.trans hlist
  · exact hcrash

/-- What calls and notes keep holds behind a run, however it ends. -/
theorem keeps_run {α : Type} {P : World → Prop} (hcall : ∀ v c, P v → P (v.perform c).2)
    (hleave : ∀ v note, P v → P (v.leave note)) (p : Program α) (hw : P w) : P (w.run p).2 := by
  induction p generalizing w with
  | done a => exact hw
  | call c next ih =>
    have hafter := hcall w c hw
    rw [run_call]
    cases (w.perform c).1 with
    | answered a => exact ih a hafter
    | crashed => exact hafter
    | held => exact hafter
  | mutate m next ih =>
    have hchange : Errand.Obeys (fun _ _ => True) (fun _ _ v => P v) (Errand.change m) [] w :=
      Errand.obeys_change_of_perform (fun _ _ _ => trivial) (fun _ v c _ hv => hcall v c hv) hw
    exact ih _ (hchange.ending (w.change m).1 (w.change m).2 rfl)
  | note n next ih => exact ih (hleave w n hw)

/-- What holds of all faults that calls will meet holds of those that a run leaves. -/
theorem forall_run {α : Type} {P : Channel → Option Fault → Prop} (h : ∀ q, ∀ f ∈ w.faultsOf q, P q f)
    (p : Program α) : ∀ q, ∀ f ∈ (w.run p).2.faultsOf q, P q f :=
  keeps_run (P := fun v => ∀ q, ∀ f ∈ v.faultsOf q, P q f) (fun _ c hv => forall_perform hv c)
    (fun _ note hv => by cases note <;> exact hv) p h

theorem workloads_perform (w : World) (c : Call) : (w.perform c).2.workloads = w.workloads := by
  have hserve : ∀ v : World, (v.serve c).2.workloads = v.workloads := by
    intro v
    cases c <;> rfl
  rw [← w.workloads_takeFault c.channel]
  show ((w.takeFault c.channel).2.meet c (w.takeFault c.channel).1).2.workloads = _
  rcases meet_cases (w.takeFault c.channel).2 c (w.takeFault c.channel).1 with he | he | ⟨n, he⟩
  · rw [he]
  · rw [he]
    exact hserve _
  · rw [he]
    exact hserve _

/-- No program changes workloads. -/
theorem workloads_run {α : Type} (w : World) (p : Program α) : (w.run p).2.workloads = w.workloads :=
  keeps_run (P := fun v => v.workloads = w.workloads) (fun v c hv => (v.workloads_perform c).trans hv)
    (fun _ note hv => by cases note <;> exact hv) p rfl

/-! ## Components that are not written -/

/-- No other writer is about to change the component. -/
def Calm (k : String) (w : World) : Prop := ∀ p, ∀ f ∈ w.faultsOf p, f ≠ some (.touch k)

/-- A component is stored as it was, but for the versions that other writers gave it. -/
structure Keeps (k : String) (w w' : World) : Prop where
  alike : w'.Holds k (w.components.find? k)
  same : w.Calm k → w'.components.find? k = w.components.find? k ∧ w'.Calm k

theorem Keeps.refl (k : String) (w : World) : Keeps k w w := ⟨rfl, fun hcalm => ⟨rfl, hcalm⟩⟩

theorem Keeps.trans (h : Keeps k w w') (h' : Keeps k w' w'') : Keeps k w w'' where
  alike := h'.alike.trans h.alike
  same hcalm := by
    obtain ⟨hfirst, hcalm'⟩ := h.same hcalm
    obtain ⟨hlater, hcalm''⟩ := h'.same hcalm'
    exact ⟨hlater.trans hfirst, hcalm''⟩

/-- A run that changes nothing keeps everything. -/
theorem keeps_of_unchanged {α : Type} (p : Program α) (h : w.Unchanged (w.run p).2) : Keeps k w (w.run p).2 where
  alike := by rw [Holds, h.components]
  same hcalm := ⟨by rw [h.components], forall_run hcalm p⟩

theorem keeps_leave (k : String) (w : World) (note : Note) : Keeps k w (w.leave note) := by
  cases note <;> exact ⟨rfl, fun hcalm => ⟨rfl, hcalm⟩⟩

/-- The call writes no component of this name. -/
def Avoids (k : String) (c : Call) : Prop := ∀ wr : Write, c = wr.call → wr.component.name ≠ k

theorem find?_serve (w : World) (hc : Avoids k c) : (w.serve c).2.components.find? k = w.components.find? k := by
  cases c with
  | updateComponent x => exact w.components.write_others (.object x) (hc (.object x) rfl).symm
  | updateStatus x => exact w.components.write_others (.status x) (hc (.status x) rfl).symm
  | _ => rfl

/-- A call on components keeps those that it does not write. -/
theorem keeps_perform (w : World) (hcomponents : c.channel.ofComponents = true) (hc : Avoids k c) :
    Keeps k w (w.perform c).2 := by
  have htaken := (forall_takeFault (P := fun p f => f ∈ w.faultsOf p) (fun _ _ hf => hf) c.channel).1
  have hmet := w.components_takeFault c.channel
  have hcases : (w.perform c).2.components.find? k = w.components.find? k ∨
      some (.touch k) ∈ w.faultsOf c.channel ∧
        (w.perform c).2.components.find? k = (w.components.find? k).map bump := by
    unfold perform
    generalize w.takeFault c.channel = taken at htaken hmet
    obtain ⟨fault, met⟩ := taken
    dsimp only at htaken hmet ⊢
    rw [← hmet]
    rcases met.meet_component hcomponents fault with ⟨e, -, he⟩ | he | ⟨n, rfl, he⟩
    · exact .inl (by rw [he])
    · exact .inl (by rw [he]; exact met.find?_serve hc)
    · have hserved : (met.meet c (some (.touch n))).2.components.find? k = (met.components.touch n).find? k := by
        rw [he]
        exact (met.touched n).find?_serve hc
      rw [ComponentStore.find?_touch] at hserved
      split at hserved
      · next hname => exact .inr ⟨hname ▸ htaken.resolve_left nofun, hserved⟩
      · exact .inl hserved
  constructor
  · show ((w.perform c).2.components.find? k).map (withVersion · "") = (w.components.find? k).map (withVersion · "")
    rcases hcases with hsame | ⟨-, hbumped⟩
    · rw [hsame]
    · rw [hbumped, Option.map_map]
      rfl
  · intro hcalm
    refine ⟨hcases.resolve_right fun htouched => hcalm _ _ htouched.1 rfl, ?_⟩
    exact forall_perform (P := fun _ f => f ≠ some (.touch k)) hcalm c

/-- A change keeps all components but its own. -/
theorem keeps_change (w : World) (hm : m.Sound) (hk : k ≠ m.target) : Keeps k w (w.change m).2 := by
  have hkept : Errand.Obeys (fun _ _ => True) (fun _ _ w' => Keeps k w w') (Errand.change m) [] w := by
    refine Errand.obeys_change_kept (fun _ _ _ _ _ => trivial) ?_ ?_ (.refl k w)
    · intro _ v r v' hv hread
      obtain rfl : (v.ask (.getComponent m.target)).2 = v' := congrArg Prod.snd hread
      rw [ask_snd]
      refine hv.trans (v.keeps_perform rfl ?_)
      intro wr hwr
      cases wr <;> cases hwr
    · intro _ v fresh wr hv hfresh hedit
      rw [store_snd]
      refine hv.trans (v.keeps_perform (ofComponents_channel wr) ?_)
      intro wr' hwr'
      obtain rfl : wr = wr' := by
        cases wr <;> cases wr' <;> cases hwr' <;> rfl
      rw [hm.name hedit, ComponentStore.name_of_find? hfresh]
      exact hk.symm
  exact hkept.ending _ _ rfl

end World

end ChartOperator
