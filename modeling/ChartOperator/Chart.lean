import ChartOperator.Component
import ChartOperator.Failure
import ChartOperator.Json.Writer
import ChartOperator.Text.Blank
import ChartOperator.Yaml

set_option autoImplicit false

/-!
# Charts and releases

A `ChartSpec` is an order to install or upgrade a release of a chart, and a `Release` is what is
deployed. `ChartSpec.forComponent` says what a component orders, and `Values.ofOverlay` what its
overlay of values means: a YAML mapping, or nothing.
-/

namespace ChartOperator

/-- The values of a chart: the fields of a JSON object. -/
abbrev Values := List (String × Json)

/-- An order to install or upgrade a release. -/
structure ChartSpec where
  releaseName : String
  /-- The chart with its repository. -/
  chartName : String
  «namespace» : String
  /-- The wanted version of the chart; the latest if empty. -/
  version : String
  /-- Values laid over those of the chart, as YAML. -/
  valuesOverlay : Option String
  /-- A failed operation is rolled back. -/
  atomic : Bool
  /-- The namespace is made if it is missing. -/
  createNamespace : Bool
  timeout : Duration
  deriving DecidableEq, Repr, Inhabited

/-- A release as it is deployed. -/
structure Release where
  name : String
  «namespace» : String
  chartName : String
  chartVersion : String
  /-- The version of the application that the chart deploys. -/
  appVersion : String
  deriving DecidableEq, Repr, Inhabited

/-- A repository without the slashes at its end. -/
def trimRepository (repository : String) : String :=
  String.ofList (repository.toList.reverse.dropWhile (· == '/')).reverse

namespace ChartSpec

/-- What a component orders. -/
def forComponent (c : Component) (repository : String) (timeout : Duration) : ChartSpec where
  releaseName := c.spec.name
  chartName := trimRepository repository ++ "/" ++ c.spec.namespace ++ "/" ++ c.spec.name
  «namespace» := c.deployNamespace
  version := c.spec.version
  valuesOverlay := c.spec.valuesOverlay
  atomic := true
  createNamespace := true
  timeout := timeout

end ChartSpec

namespace Values

/-- Equality of values, numbers as they compare. -/
def same (a b : Values) : Bool := Json.sameFields a b

/-- The values that a read overlay holds. -/
def ofJson : Json → Except Failure Values
  | .fields entries => .ok entries
  | .null => .ok []
  | j => .error (.configuration ("values overlay must be a mapping, got " ++ j.text))

/-- The values of an overlay: none if it is unset or blank. White space around the text does not belong
to it. -/
def ofOverlay : Option String → Except Failure Values
  | none => .ok []
  | some overlay =>
    let text := Text.trim overlay
    if text.isEmpty then .ok [] else
    match Yaml.read? text.toList with
    | none => .error (.yamlParse "the values overlay")
    | some j => ofJson j

end Values

end ChartOperator
