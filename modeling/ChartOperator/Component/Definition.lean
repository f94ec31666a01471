import ChartOperator.Component
import ChartOperator.Yaml.Block

set_option autoImplicit false

/-!
# The definition of components

What a cluster is told so that it stores components: their names, the columns of their tables, and the
schema of their fields.
-/

namespace ChartOperator

open Yaml

/-- A field of a schema. -/
structure SchemaField where
  name : String
  type : String
  description : String
  /-- The value of a field that is left out. -/
  default : Option Block := none
  /-- The only values that the field may have; none if it may have any. -/
  choices : List String := []
  format : Option String := none
  minimum : Option String := none
  nullable : Bool := false

namespace SchemaField

/-- An entry that is left out if there is nothing to write. -/
def entry? (name : String) (b : Option Block) : List (String × Block) :=
  match b with
  | some b => [(name, b)]
  | none => []

/-- A field with its name. -/
def block (f : SchemaField) : String × Block :=
  (f.name, .fields (
    entry? "default" f.default ++
    [("description", .ofText f.description)] ++
    entry? "enum" (if f.choices.isEmpty then none else some (.ofTexts f.choices)) ++
    entry? "format" (f.format.map .ofText) ++
    entry? "minimum" (f.minimum.map .scalar) ++
    entry? "nullable" (if f.nullable then some (.ofBool true) else none) ++
    [("type", .ofText f.type)]))

end SchemaField

namespace Component

/-- The fields of a specification. -/
def specFields : List SchemaField := [
  { name := "deployNamespace", type := "string", nullable := true
    description := "Namespace to deploy the release into; may only be set at install time" },
  { name := "name", type := "string", description := "Chart name; also the release name" },
  { name := "namespace", type := "string"
    description := "Namespace of the chart inside the Helm repository (e.g. \"k8s\")" },
  { name := "valuesYamlOverwrite", type := "string", nullable := true
    description := "Raw YAML overlay applied on top of the chart's values" },
  { name := "version", type := "string", default := some (.ofText "")
    description := "Desired chart version; empty means the version the chart currently renders" }]

/-- The fields of a specification that may not be left out. -/
def requiredSpecFields : List String := ["name", "namespace"]

/-- The fields of a status. -/
def statusFields : List SchemaField := [
  { name := "health", type := "string", description := "Aggregated workload health"
    default := some (.ofText ComponentStatus.initial.health.text), choices := Health.all.map Health.text },
  { name := "installedVersion", type := "string", description := "Last successfully installed version"
    nullable := true },
  { name := "requeueTimeNanos", type := "integer", default := some (.scalar "0"), format := some "uint64"
    minimum := some "0.0", description := "Backoff before the next retry, in nanoseconds" },
  { name := "status", type := "string", description := "Lifecycle status"
    default := some (.ofText ComponentStatus.initial.lifecycle.text), choices := Lifecycle.all.map Lifecycle.text }]

/-- A column of the tables of components: where its value is, its name and its type. -/
def column (path name type : String) : Block :=
  .fields [("jsonPath", .ofText path), ("name", .ofText name), ("type", .ofText type)]

/-- The columns of the tables of components. -/
def columns : List Block := [
  column ".spec.version" "Spec-Version" "string",
  column ".status.installedVersion" "Installed-Version" "string",
  column ".status.health" "Health" "string",
  column ".status.status" "Status" "string",
  column ".metadata.creationTimestamp" "Age" "date"]

/-- The group of components and the version of their definition. -/
def group : String := "k8s.cloudogu.com"
def definitionVersion : String := "v1"

theorem apiVersion_eq : apiVersion = group ++ "/" ++ definitionVersion := rfl

/-- The schema of components. -/
def schema : Block := .fields [
  ("description", .ofText "Auto-generated derived type for ComponentSpec via `CustomResource`"),
  ("properties", .fields [
    ("spec", .fields [
      ("description", .ofText "Component is the managed resource describing a desired Helm release."),
      ("properties", .fields (specFields.map SchemaField.block)),
      ("required", .ofTexts requiredSpecFields),
      ("type", .ofText "object")]),
    ("status", .fields [
      ("description", .ofText "Status of the Component"),
      ("nullable", .ofBool true),
      ("properties", .fields (statusFields.map SchemaField.block)),
      ("type", .ofText "object")])]),
  ("required", .ofTexts ["spec"]),
  ("title", .ofText kind),
  ("type", .ofText "object")]

/-- The definition of components. -/
def definition : Block := .fields [
  ("apiVersion", .ofText "apiextensions.k8s.io/v1"),
  ("kind", .ofText "CustomResourceDefinition"),
  ("metadata", .fields [("name", .ofText ("components." ++ group))]),
  ("spec", .fields [
    ("group", .ofText group),
    ("names", .fields [
      ("categories", .items []),
      ("kind", .ofText kind),
      ("plural", .ofText "components"),
      ("shortNames", .ofTexts ["comp"]),
      ("singular", .ofText "component")]),
    ("scope", .ofText "Namespaced"),
    ("versions", .items [.fields [
      ("additionalPrinterColumns", .items columns),
      ("name", .ofText definitionVersion),
      ("schema", .fields [("openAPIV3Schema", schema)]),
      ("served", .ofBool true),
      ("storage", .ofBool true),
      ("subresources", .fields [("status", .fields [])])]])])]

end Component

end ChartOperator
