import ChartOperator.Lifecycle.Managers

set_option autoImplicit false

/-!
# A pass over a component

A pass reads the component, chooses the operation that it requires, and carries it out. `settle` deals
with the outcome: a failed step persists the status to fall back to and the backoff before the next
attempt, and any other outcome clears the backoff.
-/

namespace ChartOperator

/-- What happens to a component after a pass: nothing until it changes, or another pass after a time. -/
inductive NextPass
  | onChange
  | after (delay : Duration)
  deriving DecidableEq, Repr, Inhabited

/-- The text of a decision. -/
def NextPass.text : NextPass → String
  | onChange => "Action \x7b requeue_after: None \x7d"
  | after d => "Action \x7b requeue_after: Some(" ++ d.text ++ ") \x7d"

/-- What follows on the failure of a pass. -/
def NextPass.ofFailure (config : Config) (e : Failure) : NextPass :=
  match e.action with
  | .wait => onChange
  | .retryAfter d => after d
  | .retryAfterBackoff => after config.backoff

/-- The reasons of events. -/
def installReason : String := "Installation"
def upgradeReason : String := "Upgrade"
def deleteReason : String := "Deinstallation"
def downgradeReason : String := "Downgrade"
def requeueReason : String := "Requeue"
def validationReason : String := "FailedNameValidation"

/-- The backoff before the next attempt. -/
def nextBackoff (_previous configured : Duration) : Duration := configured

/-- Clears a persisted backoff. -/
def clearBackoff (c : Component) : Errand Unit := do
  if c.backoff.isZero then return ()
  discard ((Errand.change (.clearBackoff c.name)).inContext
    ("failed to reset requeue backoff of component " ++ c.name))

/-- Deals with the outcome of an operation on a component. -/
def settle (config : Config) (outcome : Except Failure Unit) (c : Component) (fallback : Lifecycle) :
    Errand NextPass := do
  match outcome with
  | .ok () =>
    clearBackoff c
    return .onChange
  | .error (.requeueable _ _) =>
    let backoff := nextBackoff c.backoff config.backoff
    discard ((Errand.change (.fallBack c.name fallback backoff)).inContext
      ("failed to update requeue status of component " ++ c.name))
    Errand.announce c .normal requeueReason
      ("Falling back to component status " ++ fallback.text ++ " and retrying in " ++ backoff.text)
    Errand.count .requeues
    return .after backoff
  | .error e =>
    clearBackoff c
    throw e

/-- The name of the object must be the name of its chart. -/
def validateName (c : Component) : Errand Unit := do
  if c.name = c.spec.name then return ()
  let e := Failure.nameMismatch c.name c.spec.name
  Errand.announce c .warning validationReason e.message
  throw e

/-- Carries out an operation on a component, with events about its start and its outcome. -/
def carryOut (config : Config) (c : Component) (op : Operation) (operation : Errand Unit) (reason : String)
    (fallback : Lifecycle) : Errand NextPass := do
  validateName c
  Errand.announce c .normal reason ("Starting " ++ op.text ++ "...")
  let outcome ← operation.outcome
  match outcome with
  | .ok () => Errand.announce c .normal reason (op.capitalText ++ " successful.")
  | .error e =>
    Errand.count (.failures op.text)
    Errand.announce c .warning reason (op.capitalText ++ " failed. Reason: " ++ e.message ++ ".")
  settle config outcome c fallback

/-- Acts on the operation that a component requires. -/
def dispatch (config : Config) (c : Component) : Operation → Errand NextPass
  | .ignore => return .onChange
  | .downgrade installed requested => do
    let e := Failure.downgrade c.name installed requested
    Errand.announce c .warning downgradeReason e.message
    throw e
  | .install => carryOut config c .install (install config c) installReason .tryToInstall
  | .upgrade => carryOut config c .upgrade (upgrade config c) upgradeReason .tryToUpgrade
  | .delete => carryOut config c .delete (delete c) deleteReason .tryToDelete

/-- One pass over the component with a name. A component that is gone needs none. -/
def reconcile (config : Config) (name : String) : Errand NextPass := do
  let found : Except Failure Component ← (Errand.ask (.getComponent name)).outcome
  match found with
  | .error e => if e.isNotFound then return .onChange else throw e
  | .ok c =>
    let op ← requiredOperation c (chartSpecOf config c)
    Errand.count (.reconciliations op.text)
    dispatch config c op

end ChartOperator
