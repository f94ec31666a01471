import ChartOperator.Chart
import ChartOperator.Workload

set_option autoImplicit false

/-!
# What the operator asks of its surroundings

A `Call` is one question or order to the store of components, the store of workloads or the chart client;
`Call.Result` is the type of its answer. Beside calls the operator leaves `Note`s, which have no answer:
events for people to read, and counts.
-/

namespace ChartOperator

/-- A call on the surroundings. -/
inductive Call
  | getComponent (name : String)
  | listComponents
  /-- Writes metadata and spec. -/
  | updateComponent (c : Component)
  /-- Writes the status. -/
  | updateStatus (c : Component)
  | listWorkloads (kind : WorkloadKind) («namespace» selector : String)
  | getWorkload (kind : WorkloadKind) («namespace» name : String)
  /-- A detached order goes on when its sender is dropped, and answers a failure when it crashes. -/
  | installOrUpgrade (spec : ChartSpec) (detached : Bool)
  | uninstall (release «namespace» : String)
  | listReleases
  | checkDependencies (spec : ChartSpec)
  | releaseValues (release : Release)
  | specValues (spec : ChartSpec)
  deriving DecidableEq, Repr

/-- The type of the answer to a call. -/
def Call.Result : Call → Type
  | getComponent _ => Component
  | listComponents => List Component
  | updateComponent _ => Component
  | updateStatus _ => Component
  | listWorkloads _ _ _ => List Workload
  | getWorkload _ _ _ => Workload
  | installOrUpgrade _ _ => Unit
  | uninstall _ _ => Unit
  | listReleases => List Release
  | checkDependencies _ => Unit
  | releaseValues _ => Values
  | specValues _ => Values

/-- The answer to a call. -/
abbrev Call.Answer (c : Call) : Type := Except Failure c.Result

/-- The weight of an event. -/
inductive Severity
  | normal | warning
  deriving DecidableEq, Repr, Inhabited

/-- The word for a severity. -/
def Severity.text : Severity → String
  | normal => "Normal"
  | warning => "Warning"

/-- The severity with a word. -/
def Severity.ofText? (s : String) : Option Severity :=
  [normal, warning].find? (·.text == s)

/-- What is counted. -/
inductive Metric
  /-- The passes, by the operation chosen. -/
  | reconciliations (operation : String)
  /-- The failed operations. -/
  | failures (operation : String)
  /-- The health verdicts written. -/
  | health (verdict : Health)
  | requeues
  deriving DecidableEq, Repr

/-- The name of a count. -/
def Metric.text : Metric → String
  | reconciliations op => "reconciliations." ++ op
  | failures op => "failures." ++ op
  | health h => "health." ++ h.text
  | requeues => "requeues"

/-- An event about a component. -/
structure Event where
  component : Component
  severity : Severity
  reason : String
  message : String
  deriving DecidableEq, Repr

/-- What is left behind without an answer. -/
inductive Note
  | event (e : Event)
  | count (m : Metric)
  deriving DecidableEq, Repr

end ChartOperator
