import ChartOperator.Program
import ChartOperator.Version.Reader

set_option autoImplicit false

/-!
# The operation that a component requires

`requiredOperation` compares what a component asks for with what is deployed. An operation in flight is
left alone, and what is being deleted is deleted; a failed installation is installed again. Otherwise the
deployed release decides: without one the component is installed, a newer version is an upgrade, an older
one is refused as a downgrade, and of equal versions the values decide.

`verdict` is the decision of the last part, once everything is known.
-/

namespace ChartOperator

/-- An operation on a component. -/
inductive Operation
  | install
  | upgrade
  | delete
  /-- The wanted version is older than the deployed one. -/
  | downgrade (installed requested : String)
  | ignore
  deriving DecidableEq, Repr, Inhabited

namespace Operation

/-- The word for an operation. -/
def text : Operation → String
  | install => "install"
  | upgrade => "upgrade"
  | delete => "delete"
  | downgrade _ _ => "downgrade"
  | ignore => "ignore"

/-- The word for an operation at the start of a sentence. -/
def capitalText : Operation → String
  | install => "Install"
  | upgrade => "Upgrade"
  | delete => "Delete"
  | downgrade _ _ => "Downgrade"
  | ignore => "Ignore"

end Operation

/-- The version that a text gives; blanks around it and leading `v`s do not belong to it. -/
def readVersion (text : String) : Except Failure Version :=
  match Version.ofChars ((Text.trim text).toList.dropWhile (· == 'v')) with
  | .ok v => .ok v
  | .error e => .error (.versionParse text e.message)

/-- The version that a component asks for: its own, or that of its release if it names none. -/
def requestedVersion (c : Component) (r : Release) : String :=
  if c.spec.version.isEmpty then r.appVersion else c.spec.version

/-- The release is deployed to another namespace than the component asks for. -/
def namespaceMismatch? (c : Component) (r : Release) : Option Failure :=
  match c.spec.deployNamespace with
  | none => none
  | some wanted =>
    if wanted.isEmpty ∨ wanted = r.namespace then none
    else some (.namespaceMismatch c.name r.namespace wanted)

/-- The release of a component among those that are deployed. -/
def releaseOf? (c : Component) (releases : List Release) : Option Release :=
  releases.find? (·.name == c.spec.name)

/-- The operation of a comparison of versions; none where the values decide. -/
def verdict (c : Component) (r : Release) : Except Failure (Option Operation) := do
  let inContext (e : Failure) : Failure := .evaluation c.name e
  let installed ← (readVersion r.appVersion).mapError inContext
  let requested ← (readVersion (requestedVersion c r)).mapError inContext
  match namespaceMismatch? c r with
  | some e => throw e
  | none =>
    match requested.order installed with
    | .lt => return some (.downgrade r.appVersion (requestedVersion c r))
    | .gt => return some .upgrade
    | .eq => return none

/-- The operation that a component requires. -/
def requiredOperation (c : Component) (chart : ChartSpec) : Errand Operation := do
  if c.lifecycle.isInFlight then return .ignore
  if c.isBeingDeleted then return .delete
  if c.lifecycle = .tryToInstall then return .install
  let inContext (e : Failure) : Failure := .evaluation c.name e
  let releases ← (Errand.ask .listReleases).mapFailure inContext
  match releaseOf? c releases with
  | none => return .install
  | some r =>
    match ← (verdict c r : Except Failure (Option Operation)) with
    | some op => return op
    | none =>
      let deployed ← (Errand.ask (.releaseValues r)).mapFailure inContext
      let desired ← (Errand.ask (.specValues chart)).mapFailure inContext
      return if Values.same deployed desired then .ignore else .upgrade

end ChartOperator
