import ChartOperator.Component
import ChartOperator.Json.Fields
import ChartOperator.Json.Reader

set_option autoImplicit false

/-!
# Components as JSON

The form in which components travel. Absent optional parts are left out, unknown fields are ignored,
and the version of a spec and every field of a status have a default. What is read may be as it was written, with
fields in any order and repeated: no field of a component, its spec or its status may be, and of metadata the last
one counts.
-/

namespace ChartOperator

/-- A spec as an object. -/
def ComponentSpec.toJson (s : ComponentSpec) : Json :=
  .object (
    [("namespace", .string s.namespace), ("name", .string s.name), ("version", .string s.version)] ++
    Json.fieldIf "deployNamespace" .string s.deployNamespace ++
    Json.fieldIf "valuesYamlOverwrite" .string s.valuesOverlay)

/-- The fields of a spec. -/
def ComponentSpec.fieldNames : List String := ["namespace", "name", "version", "deployNamespace", "valuesYamlOverwrite"]

/-- Reads a spec. -/
def ComponentSpec.ofJson? (j : Json) : Option ComponentSpec := do
  let j ← j.record? fieldNames 2
  return {
    «namespace» := ← j.required? "namespace" Json.string?
    name := ← j.required? "name" Json.string?
    version := ← j.default? "version" Json.string? ""
    deployNamespace := ← j.optional? "deployNamespace" Json.string?
    valuesOverlay := ← j.optional? "valuesYamlOverwrite" Json.string? }

/-- Reads a lifecycle status. -/
def Lifecycle.ofJson? (j : Json) : Option Lifecycle := j.word?.bind ofText?

/-- Reads a health verdict. -/
def Health.ofJson? (j : Json) : Option Health := j.word?.bind ofText?

/-- A status as an object. -/
def ComponentStatus.toJson (s : ComponentStatus) : Json :=
  .object (
    [("status", .string s.lifecycle.text), ("requeueTimeNanos", .nat s.backoffNanos),
      ("health", .string s.health.text)] ++
    Json.fieldIf "installedVersion" .string s.installedVersion)

/-- The fields of a status. -/
def ComponentStatus.fieldNames : List String := ["status", "requeueTimeNanos", "health", "installedVersion"]

/-- Reads a status. -/
def ComponentStatus.ofJson? (j : Json) : Option ComponentStatus := do
  let j ← j.record? fieldNames 0
  return {
    lifecycle := ← j.default? "status" Lifecycle.ofJson? .notInstalled
    backoffNanos := ← j.default? "requeueTimeNanos" (Json.nat? (twoTo 64)) 0
    health := ← j.default? "health" Health.ofJson? .pending
    installedVersion := ← j.optional? "installedVersion" Json.string? }

/-- Names with texts as an object. -/
def Json.ofTexts (ts : List (String × String)) : Json := .object (ts.map fun (n, s) => (n, .string s))

/-- Metadata as an object. -/
def Metadata.toJson (m : Metadata) : Json :=
  .object (
    Json.fieldIf "annotations" Json.ofTexts m.annotations ++
    Json.fieldIf "creationTimestamp" (fun t => .string (Timestamp.text t)) m.creationTimestamp ++
    Json.fieldIf "deletionTimestamp" (fun t => .string (Timestamp.text t)) m.deletionTimestamp ++
    Json.fieldIf "finalizers" (fun fs => .array (fs.map .string)) m.finalizers ++
    Json.fieldIf "generateName" .string m.generateName ++
    Json.fieldIf "generation" (fun n => .number (.int n)) m.generation ++
    Json.fieldIf "labels" Json.ofTexts m.labels ++
    Json.fieldIf "name" .string m.name ++
    Json.fieldIf "namespace" .string m.namespace ++
    Json.fieldIf "resourceVersion" .string m.resourceVersion ++
    Json.fieldIf "uid" .string m.uid)

/-- Reads metadata. -/
def Metadata.ofJson? (j : Json) : Option Metadata := do
  let j := j.normal
  let _ ← j.entries?
  let time (v : Json) : Option Timestamp := v.string?.bind Timestamp.read?
  return {
    name := ← j.optional? "name" Json.string?
    generateName := ← j.optional? "generateName" Json.string?
    «namespace» := ← j.optional? "namespace" Json.string?
    labels := ← j.optional? "labels" Json.texts?
    annotations := ← j.optional? "annotations" Json.texts?
    uid := ← j.optional? "uid" Json.string?
    resourceVersion := ← j.optional? "resourceVersion" Json.string?
    generation := ← j.optional? "generation" (Json.int? (leastSigned 64) (greatestSigned 64))
    finalizers := ← j.optional? "finalizers" (Json.listOf? Json.string?)
    creationTimestamp := ← j.optional? "creationTimestamp" time
    deletionTimestamp := ← j.optional? "deletionTimestamp" time }

/-- A component as an object. -/
def Component.toJson (c : Component) : Json :=
  .object (
    [("apiVersion", .string apiVersion), ("kind", .string kind), ("metadata", c.metadata.toJson),
      ("spec", c.spec.toJson)] ++
    Json.fieldIf "status" ComponentStatus.toJson c.status)

/-- The fields of a component. -/
def Component.fieldNames : List String := ["metadata", "spec", "status"]

/-- Reads a component. -/
def Component.ofJson? (j : Json) : Option Component := do
  let j ← j.record? fieldNames 3
  return {
    metadata := ← j.required? "metadata" Metadata.ofJson?
    spec := ← j.required? "spec" ComponentSpec.ofJson?
    status := ← j.optional? "status" ComponentStatus.ofJson? }

end ChartOperator
