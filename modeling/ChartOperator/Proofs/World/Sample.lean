import ChartOperator.Proofs.World.Assurances

set_option autoImplicit false

/-!
# A world to try passes in

One component of the chart `dogu-op`, what is deployed, and no faults or a single one. `sampleComponent` and
`sampleRelease` leave open what passes depend on: the wanted and the deployed versions, the lifecycle status
and the finalizers.
-/

namespace ChartOperator

/-- A component of the chart `dogu-op`. -/
def sampleComponent (version : String) (status : Lifecycle) (finalizers : List String) : Component where
  metadata := { Metadata.empty with
    name := some "dogu-op", «namespace» := some "ecosystem", resourceVersion := some "1",
    finalizers := some finalizers }
  spec := { «namespace» := "k8s", name := "dogu-op", version, deployNamespace := none, valuesOverlay := none }
  status := some { ComponentStatus.initial with lifecycle := status }

/-- The component, which somebody asked to be removed. -/
def Component.toBeRemoved (c : Component) : Component :=
  { c with metadata := { c.metadata with deletionTimestamp := some { seconds := 0 } } }

/-- A release of the chart `dogu-op`. -/
def sampleRelease («namespace» version : String) : Release :=
  ⟨"dogu-op", «namespace», "dogu-op", version, version⟩

/-- A workload of the component of the chart `dogu-op`, with the one replica that is wanted or without it. -/
def sampleWorkload (kind : WorkloadKind) (name : String) (up : Bool) : Workload :=
  ⟨kind, name, "ecosystem", some "dogu-op", ⟨1, 1, 1, if up then 1 else 0⟩⟩

/-- A world of one component, in which no call meets a fault. -/
def sampleWorld (c : Component) (releases : List Release) : World where
  components := { «namespace» := "ecosystem", items := [c], ascending := List.pairwise_singleton _ _ }
  charts := { releases }

/-- The world in which the next call on a channel fails. -/
def World.failing (w : World) (p : Channel) : World :=
  { w with faults := [(p, [some (.error (.internal "unavailable"))])] }

theorem World.failsWith_failing {P : Failure → Prop} (w : World) (p : Channel) (h : P (.internal "unavailable")) :
    (w.failing p).FailsWith P := by
  intro q f hf e he
  have hfault : f = some (.error (.internal "unavailable")) := by
    unfold faultsOf failing at hf
    by_cases hq : p = q
    · simpa [hq] using hf
    · simp [hq] at hf
  cases hfault.symm.trans he
  exact h

theorem World.honest_failing (w : World) (p : Channel) : (w.failing p).Honest :=
  failsWith_failing (P := fun e => e.isNotFound = false) w p rfl

/-- Whether a run succeeded with this result. -/
def World.Ending.succeedsWith {α : Type} [DecidableEq α] (a : α) : Ending (Except Failure α) → Bool
  | .finished (.ok b) => decide (b = a)
  | _ => false

theorem World.run_of_succeedsWith {α : Type} [DecidableEq α] {w : World} {t : Errand α} {a : α}
    (h : (w.run t.run).1.succeedsWith a = true) : w.run t.run = (.finished (.ok a), (w.run t.run).2) := by
  refine Prod.ext ?_ rfl
  unfold Ending.succeedsWith at h
  split at h
  · next b hrun => rw [hrun, of_decide_eq_true h]
  · cases h

/-- In a world in which no faults are left no call meets one. -/
theorem World.faultFree_of_all {w : World} (h : (w.faults.all fun e => e.2.all Option.isNone) = true) :
    w.FaultFree := by
  intro p f hf
  unfold faultsOf at hf
  cases hfound : w.faults.find? (·.1 == p) with
  | none =>
    rw [hfound] at hf
    cases hf
  | some e =>
    rw [hfound] at hf
    have hnone := List.all_eq_true.1 h e (List.mem_of_find?_eq_some hfound)
    exact Option.isNone_iff_eq_none.1 (List.all_eq_true.1 hnone f hf)

theorem faultFree_sampleWorld (c : Component) (releases : List Release) :
    (sampleWorld c releases).FaultFree := by
  intro p f hf
  cases hf

theorem find?_sampleWorld (c : Component) (releases : List Release) :
    (sampleWorld c releases).components.find? c.name = some c := by
  simp [sampleWorld, ComponentStore.find?]

end ChartOperator
