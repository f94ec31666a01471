import ChartOperator.Duration
import ChartOperator.Timestamp

set_option autoImplicit false

/-!
# Components

A component is an object of the cluster that asks for a chart to be deployed as a release of the same
name. Its spec says what is wanted, its status what was done about it: the lifecycle status, the
backoff before the next attempt, the health of its workloads and the version that was installed.

The operations on components change one thing each. For the own finalizer, which keeps a component
from being removed while its release may still be deployed, `hasFinalizer_addFinalizer` and
`hasFinalizer_removeFinalizer` say so.
-/

namespace ChartOperator

/-- How far the operation on a component has come. -/
inductive Lifecycle
  | notInstalled | installing | upgrading | deleting | installed | tryToInstall | tryToUpgrade | tryToDelete
  deriving DecidableEq, Repr, Inhabited

namespace Lifecycle

/-- Every lifecycle status. -/
def all : List Lifecycle :=
  [notInstalled, installing, upgrading, deleting, installed, tryToInstall, tryToUpgrade, tryToDelete]

/-- The word for a lifecycle status. -/
def text : Lifecycle → String
  | notInstalled => "notInstalled"
  | installing => "installing"
  | upgrading => "upgrading"
  | deleting => "deleting"
  | installed => "installed"
  | tryToInstall => "tryToInstall"
  | tryToUpgrade => "tryToUpgrade"
  | tryToDelete => "tryToDelete"

/-- The lifecycle status with a word. -/
def ofText? (s : String) : Option Lifecycle := all.find? (·.text == s)

/-- An operation on the component is being carried out. -/
def isInFlight : Lifecycle → Bool
  | installing | upgrading | deleting => true
  | _ => false

theorem ofText?_text (l : Lifecycle) : ofText? l.text = some l := by cases l <;> decide

end Lifecycle

/-- The health of a component's workloads, taken together. -/
inductive Health
  | pending | available | unavailable | unknown
  deriving DecidableEq, Repr, Inhabited

namespace Health

/-- Every health verdict. -/
def all : List Health := [pending, available, unavailable, unknown]

/-- The word for a verdict. -/
def text : Health → String
  | pending => "pending"
  | available => "available"
  | unavailable => "unavailable"
  | unknown => "unknown"

/-- The verdict with a word. -/
def ofText? (s : String) : Option Health := all.find? (·.text == s)

theorem ofText?_text (h : Health) : ofText? h.text = some h := by cases h <;> decide

end Health

/-- What is asked for. -/
structure ComponentSpec where
  /-- The chart's folder in the repository. -/
  «namespace» : String
  /-- The name of the chart and of its release. -/
  name : String
  /-- The wanted version; none if empty. -/
  version : String
  /-- The namespace to deploy to, if it is not the component's own. -/
  deployNamespace : Option String
  /-- Values laid over those of the chart, as YAML. -/
  valuesOverlay : Option String
  deriving DecidableEq, Repr, Inhabited

/-- What was done. -/
structure ComponentStatus where
  lifecycle : Lifecycle
  /-- The backoff before the next attempt, a number of 64 bits. -/
  backoffNanos : Nat
  health : Health
  installedVersion : Option String
  deriving DecidableEq, Repr

namespace ComponentStatus

/-- The status of a component on which nothing was written yet. -/
def initial : ComponentStatus := ⟨.notInstalled, 0, .pending, none⟩

end ComponentStatus

instance : Inhabited ComponentStatus := ⟨.initial⟩

/-- What the cluster keeps about every object. Names stand in ascending order in labels and
annotations, each once. -/
structure Metadata where
  name : Option String
  generateName : Option String
  «namespace» : Option String
  labels : Option (List (String × String))
  annotations : Option (List (String × String))
  uid : Option String
  resourceVersion : Option String
  generation : Option Int
  finalizers : Option (List String)
  creationTimestamp : Option Timestamp
  deletionTimestamp : Option Timestamp
  deriving DecidableEq, Repr

namespace Metadata

/-- Metadata without content. -/
def empty : Metadata := ⟨none, none, none, none, none, none, none, none, none, none, none⟩

/-- The name of an object: its own, else the one it is generated from, else none at all. -/
def anyName (m : Metadata) : String := m.name.getD (m.generateName.getD "")

end Metadata

instance : Inhabited Metadata := ⟨.empty⟩

/-- A component as the cluster stores it. -/
structure Component where
  metadata : Metadata
  spec : ComponentSpec
  status : Option ComponentStatus
  deriving DecidableEq, Repr, Inhabited

namespace Component

/-- The finalizer that keeps a component while its release may still be deployed. -/
def finalizerName : String := "component-finalizer"

/-- The label by which workloads name the component that deployed them. -/
def nameLabel : String := "k8s.cloudogu.com/component.name"

/-- The API group and version of components. -/
def apiVersion : String := "k8s.cloudogu.com/v1"

/-- The kind of components. -/
def kind : String := "Component"

/-- The object's name. -/
def name (c : Component) : String := c.metadata.anyName

/-- The object's namespace, empty if it has none. -/
def namespaceName (c : Component) : String := c.metadata.namespace.getD ""

/-- The lifecycle status. -/
def lifecycle (c : Component) : Lifecycle := (c.status.getD .initial).lifecycle

/-- The persisted backoff. -/
def backoff (c : Component) : Duration := ⟨(c.status.getD .initial).backoffNanos⟩

/-- The last health verdict. -/
def health (c : Component) : Health := (c.status.getD .initial).health

/-- The version that was installed last. -/
def installedVersion (c : Component) : Option String := (c.status.getD .initial).installedVersion

/-- Somebody asked for the component to be removed. -/
def isBeingDeleted (c : Component) : Bool := c.metadata.deletionTimestamp.isSome

/-- The names that keep the object from being removed. -/
def finalizers (c : Component) : List String := c.metadata.finalizers.getD []

/-- The component has the own finalizer. -/
def hasFinalizer (c : Component) : Bool := c.finalizers.any (· == finalizerName)

/-- The component with other finalizers. -/
def withFinalizers (c : Component) (fs : List String) : Component :=
  { c with metadata := { c.metadata with finalizers := some fs } }

/-- The component with the own finalizer, behind those it has. -/
def addFinalizer (c : Component) : Component :=
  if c.hasFinalizer then c else c.withFinalizers (c.finalizers ++ [finalizerName])

/-- The component without the own finalizer. -/
def removeFinalizer (c : Component) : Component :=
  c.withFinalizers (c.finalizers.filter (· != finalizerName))

/-- The namespace of the release: the one that the spec names, else the component's own. -/
def deployNamespace (c : Component) : String :=
  match c.spec.deployNamespace with
  | some ns => if ns.isEmpty then c.namespaceName else ns
  | none => c.namespaceName

/-- The component with a status, the initial one if none was written yet. -/
def withStatus (c : Component) : Component := { c with status := some (c.status.getD .initial) }

/-- The component with its status changed. -/
def mapStatus (c : Component) (f : ComponentStatus → ComponentStatus) : Component :=
  { c with status := some (f (c.status.getD .initial)) }

/-- Namespace and name. -/
def key (c : Component) : String := c.namespaceName ++ "/" ++ c.name

theorem hasFinalizer_addFinalizer (c : Component) : c.addFinalizer.hasFinalizer = true := by
  by_cases h : c.hasFinalizer
  · simp [addFinalizer, h]
  · rw [addFinalizer, if_neg h]
    simp [withFinalizers, hasFinalizer, finalizers]

theorem hasFinalizer_removeFinalizer (c : Component) : c.removeFinalizer.hasFinalizer = false := by
  simp [removeFinalizer, withFinalizers, hasFinalizer, finalizers]

end Component

end ChartOperator
