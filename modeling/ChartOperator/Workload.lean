import ChartOperator.Component

set_option autoImplicit false

/-!
# Workloads and the health verdict

What a component deployed runs as workloads of three kinds. Of each only four counters matter: how
many replicas are wanted, scheduled, of the current revision, and available. A workload is available
when its rollout is complete and every replica of the current revision is available; a component is
available when all its workloads are, which `verdict_available_iff` states. The verdict does not depend
on the order in which the workloads are listed (`verdict_append_comm`).
-/

namespace ChartOperator

/-- The kinds of workloads. -/
inductive WorkloadKind
  | deployment | statefulSet | daemonSet
  deriving DecidableEq, Repr, Inhabited

namespace WorkloadKind

/-- Every kind, in the order in which they are listed. -/
def all : List WorkloadKind := [deployment, statefulSet, daemonSet]

/-- The name of a kind. -/
def text : WorkloadKind → String
  | deployment => "Deployment"
  | statefulSet => "StatefulSet"
  | daemonSet => "DaemonSet"

/-- The kind with a name. -/
def ofText? (s : String) : Option WorkloadKind := all.find? (·.text == s)

theorem ofText?_text (k : WorkloadKind) : ofText? k.text = some k := by cases k <;> decide

theorem mem_all (k : WorkloadKind) : k ∈ all := by cases k <;> decide

end WorkloadKind

/-- The replica counters of a workload. -/
structure Replicas where
  desired : Int
  scheduled : Int
  updated : Int
  available : Int
  deriving DecidableEq, Repr, Inhabited

/-- The rollout is complete, no replica of an old revision is left, and those of the current one are
available. Nothing wanted is nothing available. -/
def Replicas.isAvailable (r : Replicas) : Bool :=
  decide (1 ≤ r.desired) && decide (r.desired ≤ r.updated) && decide (r.scheduled ≤ r.updated) &&
    decide (r.updated ≤ r.available)

/-- A workload as it was seen at one moment. -/
structure Workload where
  kind : WorkloadKind
  name : String
  «namespace» : String
  /-- The component that its label names. -/
  component : Option String
  replicas : Replicas
  deriving DecidableEq, Repr, Inhabited

namespace Workload

/-- The workload does what it is there for. -/
def isAvailable (w : Workload) : Bool := w.replicas.isAvailable

/-- The verdict on a component with the given workloads; without any it is available. -/
def verdict (ws : List Workload) : Health :=
  if ws.all isAvailable then .available else .unavailable

theorem verdict_available_iff (ws : List Workload) :
    verdict ws = .available ↔ ∀ w ∈ ws, w.isAvailable = true := by
  simp [verdict]

theorem verdict_append_comm (as bs : List Workload) : verdict (as ++ bs) = verdict (bs ++ as) := by
  simp [verdict, Bool.and_comm]

/-- The selector of the workloads of a component. -/
def selectorOf (component : String) : String := Component.nameLabel ++ "=" ++ component

/-- Whether one term of a selector matches: a label with its value, or a label that is present. Only
the component's name is known of a workload's labels. -/
def matchesTerm (w : Workload) (term : List Char) : Bool :=
  if term.isEmpty then true
  else if term.contains '=' then
    term.takeWhile (· != '=') == Component.nameLabel.toList &&
      w.component == some (String.ofList ((term.dropWhile (· != '=')).drop 1))
  else term == Component.nameLabel.toList && w.component.isSome

/-- The parts of a text between a mark. -/
def splitOn (mark : Char) : List Char → List (List Char)
  | [] => [[]]
  | c :: cs =>
    if c = mark then [] :: splitOn mark cs
    else match splitOn mark cs with
      | [] => [[c]]
      | part :: parts => (c :: part) :: parts

/-- Whether a workload matches every term of a selector, separated by commas. -/
def matchesSelector (w : Workload) (selector : String) : Bool :=
  (splitOn ',' selector.toList).all w.matchesTerm

end Workload

end ChartOperator
