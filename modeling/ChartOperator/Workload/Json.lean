import ChartOperator.Workload
import ChartOperator.Component.Json

set_option autoImplicit false

/-!
# Workloads as JSON

Reading the objects that the cluster keeps for workloads. Every field is optional, and null is the
same as absence; a field of the wrong type makes the whole object unreadable, and the last of equal names counts. Where a counter is not
given it is zero, but a Deployment and a StatefulSet want one replica unless they say otherwise.
-/

namespace ChartOperator

/-- The bounds of the counters. -/
def Replicas.counter? : Json → Option Int := Json.int? (leastSigned 32) (greatestSigned 32)

/-- Counters as JSON. -/
def Replicas.toJson (r : Replicas) : Json := .object [
  ("desired", .number (.int r.desired)), ("scheduled", .number (.int r.scheduled)),
  ("updated", .number (.int r.updated)), ("available", .number (.int r.available))]

/-- Reads counters: an object, or the four numbers in their order. -/
def Replicas.ofJson? (j : Json) : Option Replicas :=
  match j with
  | .array items => do
    match ← items.mapM counter? with
    | [desired, scheduled, updated, available] => some ⟨desired, scheduled, updated, available⟩
    | _ => none
  | j => do
    return ⟨← j.required? "desired" counter?, ← j.required? "scheduled" counter?,
      ← j.required? "updated" counter?, ← j.required? "available" counter?⟩

/-- A kind of workloads by its name. -/
def WorkloadKind.ofJson? (j : Json) : Option WorkloadKind := j.word?.bind ofText?

/-- A seen workload as JSON. -/
def Workload.toJson (w : Workload) : Json := .object [
  ("kind", .string w.kind.text), ("name", .string w.name), ("namespace", .string w.namespace),
  ("component", .optional w.component), ("replicas", w.replicas.toJson)]

/-- Reads a seen workload. -/
def Workload.ofJson? (j : Json) : Option Workload := do
  return {
    kind := ← j.required? "kind" WorkloadKind.ofJson?
    name := ← j.required? "name" Json.string?
    «namespace» := ← j.required? "namespace" Json.string?
    component := ← j.optional? "component" Json.string?
    replicas := ← j.required? "replicas" Replicas.ofJson? }

namespace WorkloadKind

/-- What a field may hold. -/
inductive FieldType
  | counter | generation | flag | text | object | list
  deriving DecidableEq, Repr

/-- Whether a value has a type; null stands for absence and fits every type. -/
def FieldType.admits (t : FieldType) (j : Json) : Bool :=
  match j with
  | .null => true
  | j =>
    match t with
    | counter => (Replicas.counter? j).isSome
    | generation => (j.int? (leastSigned 64) (greatestSigned 64)).isSome
    | flag => j.bool?.isSome
    | text => j.string?.isSome
    | object => j.entries?.isSome
    | list => j.items?.isSome

/-- The fields of a spec that the kinds share. -/
def commonSpec : List (String × FieldType) :=
  [("minReadySeconds", .counter), ("revisionHistoryLimit", .counter), ("selector", .object),
    ("template", .object)]

/-- The fields of a kind's spec. -/
def specFields : WorkloadKind → List (String × FieldType)
  | deployment => commonSpec ++
    [("paused", .flag), ("progressDeadlineSeconds", .counter), ("replicas", .counter), ("strategy", .object)]
  | statefulSet => commonSpec ++
    [("ordinals", .object), ("persistentVolumeClaimRetentionPolicy", .object),
      ("podManagementPolicy", .text), ("replicas", .counter), ("serviceName", .text),
      ("updateStrategy", .object), ("volumeClaimTemplates", .list)]
  | daemonSet => commonSpec ++ [("updateStrategy", .object)]

/-- The fields of a kind's status. -/
def statusFields : WorkloadKind → List (String × FieldType)
  | deployment =>
    [("availableReplicas", .counter), ("collisionCount", .counter), ("conditions", .list),
      ("observedGeneration", .generation), ("readyReplicas", .counter), ("replicas", .counter),
      ("unavailableReplicas", .counter), ("updatedReplicas", .counter)]
  | statefulSet =>
    [("availableReplicas", .counter), ("collisionCount", .counter), ("conditions", .list),
      ("currentReplicas", .counter), ("currentRevision", .text), ("observedGeneration", .generation),
      ("readyReplicas", .counter), ("replicas", .counter), ("updateRevision", .text),
      ("updatedReplicas", .counter)]
  | daemonSet =>
    [("collisionCount", .counter), ("conditions", .list), ("currentNumberScheduled", .counter),
      ("desiredNumberScheduled", .counter), ("numberAvailable", .counter), ("numberMisscheduled", .counter),
      ("numberReady", .counter), ("numberUnavailable", .counter), ("observedGeneration", .generation),
      ("updatedNumberScheduled", .counter)]

/-- The names of the counters in a kind's status: scheduled, updated and available. -/
def counterNames : WorkloadKind → String × String × String
  | deployment | statefulSet => ("replicas", "updatedReplicas", "availableReplicas")
  | daemonSet => ("currentNumberScheduled", "updatedNumberScheduled", "numberAvailable")

/-- A part of an object, empty if it is absent, whose fields have their types. -/
def part? (types : List (String × FieldType)) (name : String) (j : Json) : Option Json := do
  let part := match j.field? name with
    | none | some .null => Json.fields []
    | some p => p
  let _ ← part.entries?
  if types.all fun (n, t) => ((part.field? n).map t.admits).getD true then some part else none

/-- A counter of a part, with what its absence means. -/
def counter (name : String) (absent : Int) (part : Json) : Int :=
  ((part.field? name).bind Replicas.counter?).getD absent

/-- The object says nothing else about its type. -/
def fits (k : WorkloadKind) (j : Json) : Bool :=
  let is (name value : String) : Bool :=
    match j.field? name with
    | none => true
    | some v => v.string? == some value
  is "apiVersion" "apps/v1" && is "kind" k.text

end WorkloadKind

namespace Workload

/-- Reads the object of a workload of a known kind. -/
def ofObject? (k : WorkloadKind) (j : Json) : Option Workload := do
  let j := j.normal
  let _ ← j.entries?
  if !k.fits j then none
  let metadata ← match j.field? "metadata" with
    | none | some .null => some Metadata.empty
    | some m => Metadata.ofJson? m
  let spec ← WorkloadKind.part? k.specFields "spec" j
  let status ← WorkloadKind.part? k.statusFields "status" j
  let (scheduled, updated, available) := k.counterNames
  let desired := match k with
    | .deployment | .statefulSet => WorkloadKind.counter "replicas" 1 spec
    | .daemonSet => WorkloadKind.counter "desiredNumberScheduled" 0 status
  return {
    kind := k
    name := metadata.anyName
    «namespace» := metadata.namespace.getD ""
    component := (metadata.labels.getD []).lookup Component.nameLabel
    replicas := {
      desired
      scheduled := WorkloadKind.counter scheduled 0 status
      updated := WorkloadKind.counter updated 0 status
      available := WorkloadKind.counter available 0 status } }

end Workload

end ChartOperator
