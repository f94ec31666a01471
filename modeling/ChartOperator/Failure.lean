import ChartOperator.Duration
import ChartOperator.Text.Quoted

set_option autoImplicit false

/-!
# Failures

Everything that can go wrong while a component is looked after, as causes with their data. Three of
them wrap another failure: `context` and `requeueable` say which step failed, `evaluation` that no
operation could be chosen. The wording is in one function, `Failure.message`, and so is the policy,
`Failure.action`: a lost race is retried at once, data that only a person can mend is not retried,
and all else waits for the configured backoff.

`core` is what remains without the wrappers. `isConflict` and `isNotFound` look through them, which
`isConflict_core` and `isNotFound_core` state; a list of joined failures is opaque to both.
-/

namespace ChartOperator

/-- The answer of the cluster's API server to a request that it refuses. -/
structure ApiStatus where
  status : String
  message : String
  reason : String
  code : Nat
  deriving DecidableEq, Repr

/-- The fields of a refusal, named and quoted. -/
def ApiStatus.fieldsText (s : ApiStatus) : String :=
  "ErrorResponse \x7b status: " ++ Text.quote s.status ++ ", message: " ++ Text.quote s.message ++
    ", reason: " ++ Text.quote s.reason ++ ", code: " ++ Text.decimal s.code ++ " \x7d"

/-- Why a request to the cluster brought no result. -/
inductive ClusterError
  /-- The server refused it. -/
  | api (status : ApiStatus)
  /-- It did not reach the server. -/
  | transport (message : String)
  /-- The answer is not what was asked for. -/
  | unreadable
  /-- The connection has to be encrypted, and nothing here can do that. -/
  | tlsRequired
  /-- The request could not be written down. -/
  | malformed (message : String)
  deriving DecidableEq, Repr

/-- The wording of a failed request. -/
def ClusterError.message : ClusterError → String
  | .api s => "ApiError: " ++ s.message ++ ": " ++ s.reason ++ " (" ++ s.fieldsText ++ ")"
  | .transport m => "ServiceError: " ++ m
  | .unreadable => "Error deserializing response"
  | .tlsRequired => "TLS required but no TLS stack selected"
  | .malformed m => m

/-- What can go wrong. -/
inductive Failure
  | internal (message : String)
  | configuration (message : String)
  /-- A failure with the step in which it arose. -/
  | context (message : String) (source : Failure)
  | cluster (error : ClusterError)
  | notFound (kind name : String)
  /-- Another writer was faster. -/
  | conflict (kind name : String)
  /-- A failed step of a lifecycle operation, to be taken up again later. -/
  | requeueable (message : String) (source : Failure)
  /-- No operation could be chosen for a component. -/
  | evaluation (component : String) (source : Failure)
  | versionParse (version reason : String)
  | namespaceMismatch (component actual requested : String)
  | downgrade (component installed requested : String)
  | nameMismatch (objectName specName : String)
  | helmCommand (command reason : String)
  | chartClient (message : String)
  | unsatisfiedDependencies (chart reason : String)
  /-- Several failures of independent parts. -/
  | joined (failures : List Failure)
  | jsonParse (detail : String)
  | yamlParse (detail : String)
  | io (message : String)
  deriving Repr, Inhabited

namespace Failure

/-- The wording of a failure. -/
def message : Failure → String
  | internal m => "Internal error: " ++ m
  | configuration m => "Configuration error: " ++ m
  | context m source => m ++ ": " ++ source.message
  | cluster e => "Kubernetes API error: " ++ e.message
  | notFound kind name => "Resource not found: " ++ kind ++ "/" ++ name
  | conflict kind name => "Resource version conflict: " ++ kind ++ "/" ++ name
  | requeueable m source => m ++ ": " ++ source.message
  | evaluation component source =>
    "failed to evaluate required operation for component " ++ component ++ ": " ++ source.message
  | versionParse version reason =>
    "failed to parse component version " ++ Text.quote version ++ ": " ++ reason
  | namespaceMismatch component actual requested =>
    "deploy namespace mismatch for component " ++ component ++ ": release is deployed to " ++
      Text.quote actual ++ ", spec requests " ++ Text.quote requested ++
      "; the deploy namespace can only be set at install time"
  | downgrade component installed requested =>
    "downgrades are not allowed: component " ++ component ++ " is installed in version " ++ installed ++
      ", requested " ++ requested
  | nameMismatch objectName specName =>
    "component resource name " ++ Text.quote objectName ++ " does not match spec name " ++
      Text.quote specName
  | helmCommand command reason => "helm command failed: " ++ command ++ " - " ++ reason
  | chartClient m => "Chart client error: " ++ m
  | unsatisfiedDependencies chart reason =>
    "unsatisfied dependencies for chart " ++ chart ++ ": " ++ reason
  | joined failures => "; ".intercalate (failures.map message)
  | jsonParse detail => "JSON parse error: " ++ detail
  | yamlParse detail => "YAML parse error: " ++ detail
  | io m => "IO error: " ++ m

/-- What remains of a failure without the steps in which it arose. -/
def core : Failure → Failure
  | context _ source => source.core
  | requeueable _ source => source.core
  | evaluation _ source => source.core
  | e => e

/-- A lost race against another writer. -/
def isConflict : Failure → Bool
  | conflict _ _ => true
  | context _ source => source.isConflict
  | evaluation _ source => source.isConflict
  | requeueable _ source => source.isConflict
  | cluster (.api s) => s.code == 409
  | _ => false

/-- The object does not exist. -/
def isNotFound : Failure → Bool
  | notFound _ _ => true
  | context _ source => source.isNotFound
  | evaluation _ source => source.isNotFound
  | requeueable _ source => source.isNotFound
  | cluster (.api s) => s.code == 404
  | _ => false

/-- A failed step that is taken up again later. -/
def isRequeueable : Failure → Bool
  | requeueable _ _ => true
  | _ => false

/-- What is done about a failure. -/
inductive Action
  /-- Nothing, until somebody changes the object. -/
  | wait
  /-- A new attempt after a fixed time. -/
  | retryAfter (delay : Duration)
  /-- A new attempt after the configured backoff. -/
  | retryAfterBackoff
  deriving DecidableEq, Repr

/-- The time until a lost race is run again. -/
def conflictDelay : Duration := .ofSeconds 1

/-- What is done about a failure: a lost race first, whatever it is wrapped in. -/
def action (e : Failure) : Action :=
  if e.isConflict then .retryAfter conflictDelay else
  match e with
  | evaluation _ _ | versionParse _ _ | namespaceMismatch _ _ _ | downgrade _ _ _ | nameMismatch _ _
  | configuration _ => .wait
  | _ => .retryAfterBackoff

/-- A new attempt is worth while. -/
def isRetryable (e : Failure) : Bool := e.action != .wait

/-- No failure is success, one is itself, and several are joined in order. -/
def join : List Failure → Except Failure Unit
  | [] => .ok ()
  | [e] => .error e
  | es => .error (joined es)

theorem isConflict_core (e : Failure) : e.core.isConflict = e.isConflict := by
  fun_induction core e with
  | case1 _ _ ih => simpa [isConflict] using ih
  | case2 _ _ ih => simpa [isConflict] using ih
  | case3 _ _ ih => simpa [isConflict] using ih
  | case4 => rfl

theorem isNotFound_core (e : Failure) : e.core.isNotFound = e.isNotFound := by
  fun_induction core e with
  | case1 _ _ ih => simpa [isNotFound] using ih
  | case2 _ _ ih => simpa [isNotFound] using ih
  | case3 _ _ ih => simpa [isNotFound] using ih
  | case4 => rfl

end Failure

end ChartOperator
