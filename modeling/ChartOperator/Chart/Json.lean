import ChartOperator.Chart
import ChartOperator.Json.Fields

set_option autoImplicit false

/-!
# Charts and releases as JSON

The timeout of an order is written in whole seconds. An unset overlay is written as null, and null and
absence are both read as unset.
-/

namespace ChartOperator

/-- An order as JSON. -/
def ChartSpec.toJson (s : ChartSpec) : Json := .object [
  ("releaseName", .string s.releaseName),
  ("chartName", .string s.chartName),
  ("namespace", .string s.namespace),
  ("version", .string s.version),
  ("valuesYaml", .optional s.valuesOverlay),
  ("atomic", .bool s.atomic),
  ("createNamespace", .bool s.createNamespace),
  ("timeout", .nat s.timeout.seconds)]

/-- Reads an order. -/
def ChartSpec.ofJson? (j : Json) : Option ChartSpec := do
  return {
    releaseName := ← j.required? "releaseName" Json.string?
    chartName := ← j.required? "chartName" Json.string?
    «namespace» := ← j.required? "namespace" Json.string?
    version := ← j.required? "version" Json.string?
    valuesOverlay := ← j.optional? "valuesYaml" Json.string?
    atomic := ← j.required? "atomic" Json.bool?
    createNamespace := ← j.required? "createNamespace" Json.bool?
    timeout := .ofSeconds (← j.required? "timeout" (Json.nat? (twoTo 64))) }

/-- A release as JSON. -/
def Release.toJson (r : Release) : Json := .object [
  ("name", .string r.name),
  ("namespace", .string r.namespace),
  ("chartName", .string r.chartName),
  ("chartVersion", .string r.chartVersion),
  ("appVersion", .string r.appVersion)]

/-- Reads a release. -/
def Release.ofJson? (j : Json) : Option Release := do
  return {
    name := ← j.required? "name" Json.string?
    «namespace» := ← j.required? "namespace" Json.string?
    chartName := ← j.required? "chartName" Json.string?
    chartVersion := ← j.required? "chartVersion" Json.string?
    appVersion := ← j.required? "appVersion" Json.string? }

end ChartOperator
