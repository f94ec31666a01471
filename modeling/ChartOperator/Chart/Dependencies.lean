import ChartOperator.Chart
import ChartOperator.Version.Requirement

set_option autoImplicit false

/-!
# Chart references and dependencies

A chart names the components that it depends on in annotations: the key is `dependencyPrefix` and the
name, the value a requirement on the version. `checkDependencies` holds them against the deployed
releases, and lists every one that is not met.

`splitReference` takes a chart's name and version apart, which helm joins by a dash: the version is the
longest one behind a dash.
-/

namespace ChartOperator

/-- Stands before the name of a component in the key of an annotation that declares a dependency. -/
def dependencyPrefix : String := "k8s.cloudogu.com/ces-dependency/"

/-- Whether a text is a version. -/
def isVersion (cs : List Char) : Bool :=
  match Version.ofChars cs with
  | .ok _ => true
  | .error _ => false

/-- Finds the first dash behind which a version stands; `before` holds the characters before, last first. -/
def splitReferenceFrom (before : List Char) : List Char → Option (List Char × List Char)
  | [] => none
  | c :: rest =>
    if c = '-' ∧ isVersion rest then some (before.reverse, rest)
    else splitReferenceFrom (c :: before) rest

/-- The name and the version of a chart; the version is empty if there is none. -/
def splitReference (reference : String) : String × String :=
  match splitReferenceFrom [] reference.toList with
  | some (name, version) => (String.ofList name, String.ofList version)
  | none => (reference, "")

/-- The component that the key of an annotation names as a dependency. -/
def dependencyOf? (key : String) : Option String :=
  if dependencyPrefix.toList.isPrefixOf key.toList then
    some (String.ofList (key.toList.drop dependencyPrefix.toList.length))
  else none

/-- The version of a deployed release, as it is compared with requirements. -/
def deployedVersion (r : Release) : String := String.ofList (r.appVersion.toList.dropWhile (· == 'v'))

/-- Why a dependency is not met, if it is not. -/
def unmet? (dependency : String) (requirement : Requirement) (releases : List Release) : Option String :=
  match releases.find? (·.name == dependency) with
  | none => some (dependency ++ " is not installed")
  | some r =>
    let text := deployedVersion r
    match Version.read text with
    | .error e => some (dependency ++ " has unparsable version " ++ Text.quote text ++ ": " ++ e.message)
    | .ok v =>
      if requirement.holds v then none
      else some (dependency ++ " is installed in version " ++ v.text ++ ", requires " ++ requirement.text)

/-- The reasons why dependencies are not met, in the order of the annotations. A requirement that cannot
be read ends the search. -/
def unmetReasons (chart : String) (releases : List Release) :
    List (String × String) → Except Failure (List String)
  | [] => .ok []
  | (key, wanted) :: rest =>
    match dependencyOf? key with
    | none => unmetReasons chart releases rest
    | some dependency =>
      match Requirement.read wanted with
      | .error e =>
        .error (.unsatisfiedDependencies chart
          ("invalid requirement " ++ Text.quote wanted ++ " for " ++ dependency ++ ": " ++ e.message))
      | .ok requirement => do
        let reasons ← unmetReasons chart releases rest
        return (unmet? dependency requirement releases).toList ++ reasons

/-- Fails unless a deployed release meets every dependency that the annotations of a chart declare. -/
def checkDependencies (chart : String) (annotations : List (String × String)) (releases : List Release) :
    Except Failure Unit := do
  let reasons ← unmetReasons chart releases annotations
  if reasons.isEmpty then return ()
  throw (.unsatisfiedDependencies chart (", ".intercalate reasons))

end ChartOperator
