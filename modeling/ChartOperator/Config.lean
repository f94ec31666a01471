import ChartOperator.Failure

set_option autoImplicit false

/-!
# Configuration

What the operator is told when it starts. `Config.validate` refuses what it cannot run with.
-/

namespace ChartOperator

/-- The name and the version of the operator. -/
def operatorName : String := "component-operator"
def operatorVersion : String := "0.2.0"

/-- The configuration of the operator. -/
structure Config where
  /-- The namespace of the components and their workloads. -/
  «namespace» : String := "ecosystem"
  /-- The name of the component that deployed the operator itself. -/
  operatorComponent : String := "k8s-component-operator"
  /-- The repository of the charts. -/
  repository : String := "oci://registry.cloudogu.com"
  /-- The helm program. -/
  helmBinary : String := "helm"
  /-- The time that an installation or upgrade may take. -/
  helmTimeout : Duration := .ofSeconds 300
  /-- The time until a failed operation is tried again. -/
  backoff : Duration := .ofSeconds 60
  /-- The time between two rounds over the health of all components. -/
  syncInterval : Duration := .ofSeconds 180
  deriving DecidableEq, Repr, Inhabited

namespace Config

/-- Refuses a configuration that the operator cannot run with, naming the first fault. -/
def validate (c : Config) : Except Failure Unit :=
  if c.namespace.isEmpty then .error (.configuration "namespace must not be empty")
  else if c.repository.isEmpty then .error (.configuration "helm repository must not be empty")
  else if c.backoff.isZero then .error (.configuration "requeue backoff must be positive")
  else if c.syncInterval.isZero then .error (.configuration "health sync interval must be positive")
  else .ok ()

/-- Every field with its value. -/
def fieldsText (c : Config) : String :=
  "OperatorConfig \x7b namespace: " ++ Text.quote c.namespace ++
    ", operator_component: " ++ Text.quote c.operatorComponent ++
    ", helm_repository: " ++ Text.quote c.repository ++
    ", helm_binary: " ++ Text.quote c.helmBinary ++
    ", helm_timeout: " ++ c.helmTimeout.text ++
    ", requeue_backoff: " ++ c.backoff.text ++
    ", health_sync_interval: " ++ c.syncInterval.text ++ " \x7d"

theorem backoff_pos_of_validate {c : Config} (h : c.validate = .ok ()) : 0 < c.backoff.nanoseconds := by
  unfold validate at h
  split at h
  · cases h
  · split at h
    · cases h
    · split at h
      · cases h
      · rename_i hz
        rw [Duration.isZero_iff] at hz
        omega

end Config

end ChartOperator
