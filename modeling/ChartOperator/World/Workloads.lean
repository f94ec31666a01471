import ChartOperator.Failure
import ChartOperator.Workload

set_option autoImplicit false

/-!
# A store of workloads

Workloads in the order in which they were stored last. The store can be told to fail for a kind.
-/

namespace ChartOperator

/-- A store of workloads. -/
structure WorkloadStore where
  items : List Workload := []
  failing : List WorkloadKind := []
  deriving Repr, Inhabited

namespace WorkloadStore

/-- Whether a workload has a kind, namespace and name. -/
def isAt (kind : WorkloadKind) («namespace» name : String) (w : Workload) : Bool :=
  w.kind == kind && w.namespace == «namespace» && w.name == name

/-- Removes a workload. -/
def erase (s : WorkloadStore) (kind : WorkloadKind) («namespace» name : String) : WorkloadStore :=
  { s with items := s.items.filter fun w => !isAt kind «namespace» name w }

/-- Stores a workload behind the others. -/
def put (s : WorkloadStore) (w : Workload) : WorkloadStore :=
  let s := s.erase w.kind w.namespace w.name
  { s with items := s.items ++ [w] }

/-- Makes a kind fail. -/
def fail (s : WorkloadStore) (kind : WorkloadKind) : WorkloadStore := { s with failing := kind :: s.failing }

/-- The failure of a kind. -/
def kindFailure (kind : WorkloadKind) : Failure := .internal ("failed to list " ++ kind.text ++ "s")

/-- The workloads of a kind in a namespace that a selector matches. -/
def list (s : WorkloadStore) (kind : WorkloadKind) («namespace» selector : String) :
    Except Failure (List Workload) :=
  if s.failing.contains kind then .error (kindFailure kind)
  else .ok (s.items.filter fun w =>
    w.kind == kind && w.namespace == «namespace» && w.matchesSelector selector)

/-- A single workload. -/
def get (s : WorkloadStore) (kind : WorkloadKind) («namespace» name : String) : Except Failure Workload :=
  if s.failing.contains kind then .error (kindFailure kind)
  else match s.items.find? (isAt kind «namespace» name) with
    | some w => .ok w
    | none => .error (.notFound kind.text name)

end WorkloadStore

end ChartOperator
