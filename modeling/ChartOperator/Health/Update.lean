import ChartOperator.Config
import ChartOperator.Lifecycle.Status

set_option autoImplicit false

/-!
# The health of a component

The verdict on a component is folded from its workloads of the three kinds. All kinds are listed even if
one cannot be, so that every failure is reported. Sweeps update every component and let none keep the
others from being updated.
-/

namespace ChartOperator

/-- Lists the workloads of a component by kind; what could not be listed comes second. -/
def listKinds (component «namespace» : String) : List WorkloadKind → Errand (List Workload × List Failure)
  | [] => return ([], [])
  | kind :: kinds => do
    let found : Except Failure (List Workload) ←
      (Errand.ask (.listWorkloads kind «namespace» (Workload.selectorOf component))).outcome
    let (ws, failures) ← listKinds component «namespace» kinds
    match found with
    | .ok more => return (more ++ ws, failures)
    | .error e =>
      return (ws, .context ("failed to list " ++ kind.text ++ "s of component " ++ component) e :: failures)

/-- The workloads of a component. -/
def findWorkloads (component «namespace» : String) : Errand (List Workload) := do
  let (found, failures) ← listKinds component «namespace» WorkloadKind.all
  Failure.join failures
  return found

/-- Persists a health verdict, and the installed version if one is given. -/
def persistHealth (component : String) (verdict : Health) (installed : Option String) :
    Errand (Option Component) :=
  (Errand.change (.setHealth component verdict installed)).inContext
    ("failed to update health of component " ++ component)

/-- Finds the verdict on a component and persists it. -/
def updateHealth (component «namespace» : String) (installed : Option String) : Errand Health := do
  let verdict := Workload.verdict (← findWorkloads component «namespace»)
  discard (persistHealth component verdict installed)
  Errand.count (.health verdict)
  return verdict

/-- Updates the health of every component. -/
def updateAllHealth (config : Config) : Errand Unit := do
  let components ← (Errand.ask .listComponents).inContext "failed to list components for health sync"
  Errand.forAll components fun c => updateHealth c.name config.namespace none

/-- Updates the health of every component when the operator starts. -/
def startHealth (config : Config) : Errand Unit :=
  (updateAllHealth config).inContext "failed to update component health on startup"

/-- The verdict that remains when the operator stops: its own component is gone with it, and of the
others nothing is known. -/
def lastVerdict (config : Config) (component : String) : Health :=
  if component = config.operatorComponent then .unavailable else .unknown

/-- Marks the health of every component as no longer observed. -/
def stopHealth (config : Config) : Errand Unit := do
  let components ← (Errand.ask .listComponents).inContext "failed to list components on shutdown"
  Errand.forAll components fun c => persistHealth c.name (lastVerdict config c.name) none

/-- What remains to be done when the periodic updates end. -/
def endSync (config : Config) : Errand Unit := (stopHealth config).inContext "failed to handle shutdown"

/-! ## Changes of workloads -/

/-- The workload as it is now, if it still exists. -/
def currentWorkload (kind : WorkloadKind) («namespace» name : String) : Errand (Option Workload) := do
  let found : Except Failure Workload ← (Errand.ask (.getWorkload kind «namespace» name)).outcome
  match found with
  | .ok w => return some w
  | .error e =>
    if e.isNotFound then return none
    throw (.context ("failed to get " ++ kind.text ++ " " ++ «namespace» ++ "/" ++ name) e)

/-- Updates the health of the component that a workload names. -/
def updateOwner (w : Workload) : Errand Unit :=
  match w.component with
  | none => return ()
  | some component => discard (updateHealth component w.namespace none)

/-- Updates the health of the component that a workload with a name names now. One that is gone names
none. -/
def refreshNamed (kind : WorkloadKind) («namespace» name : String) : Errand Unit := do
  match ← currentWorkload kind «namespace» name with
  | some w => updateOwner w
  | none => return ()

/-- Updates the health of the component that a seen workload names now, or named when it was seen. -/
def refreshSeen (seen : Workload) : Errand Unit := do
  match ← currentWorkload seen.kind seen.namespace seen.name with
  | some w => updateOwner w
  | none => updateOwner seen

end ChartOperator
