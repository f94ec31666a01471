import ChartOperator.Cluster.Request
import ChartOperator.Component.Json
import ChartOperator.Program.Call
import ChartOperator.Workload.Json

set_option autoImplicit false

/-!
# Components and workloads in the cluster

Reads and writes components, reads workloads and publishes events through the API server. An object that
does not exist and a lost race are failures of their own; every other refusal is passed on.

The operations are written for any monad in which requests can be sent.
-/

namespace ChartOperator.Cluster

/-- The path of the components of a namespace. -/
def componentsPath («namespace» : String) : String :=
  "/apis/" ++ Component.apiVersion ++ "/namespaces/" ++ «namespace» ++ "/components"

/-- The word for a kind of workloads in paths. -/
def pluralOf : WorkloadKind → String
  | .deployment => "deployments"
  | .statefulSet => "statefulsets"
  | .daemonSet => "daemonsets"

/-- The path of the workloads of a kind in a namespace. -/
def workloadsPath (kind : WorkloadKind) («namespace» : String) : String :=
  "/apis/apps/v1/namespaces/" ++ «namespace» ++ "/" ++ pluralOf kind

/-- The path of the events of a namespace. -/
def eventsPath («namespace» : String) : String :=
  "/apis/events.k8s.io/v1/namespaces/" ++ «namespace» ++ "/events"

/-- The failure of a request about an object. -/
def objectFailure (kind name : String) (e : ClusterError) : Failure :=
  match e with
  | .api s =>
    if s.code = 404 then .notFound kind name
    else if s.code = 409 then .conflict kind name
    else .cluster e
  | e => .cluster e

section

variable {m : Type → Type} [Monad m] (send : Request → m Response)

/-- Sends a request, if its target is one. -/
def request {α : Type} (method : Method) (target : String) (body : Option Json) (read : Json → Option α) :
    ExceptT ClusterError m α :=
  match checkTarget target with
  | .error e => throw e
  | .ok target => do (← send ⟨method, target, body⟩ : Response).read read

/-- Sends a request about an object, which must have a name. `suffix` follows the name in the target. -/
def objectRequest {α : Type} (method : Method) (path name suffix : String) (body : Option Json) (kind : String)
    (read : Json → Option α) : ExceptT Failure m α :=
  ExceptT.mk do
    let r ←
      if name.isEmpty then pure (.error missingName)
      else (request send method (path ++ "/" ++ name ++ suffix) body read).run
    return r.mapError (objectFailure kind name)

/-- Reads a component. -/
def getComponent («namespace» name : String) : ExceptT Failure m Component :=
  objectRequest send .get (componentsPath «namespace») name "" none Component.kind Component.ofJson?

/-- Reads all components. -/
def listComponents («namespace» : String) : ExceptT Failure m (List Component) :=
  ExceptT.mk do
    let r ← (request send .get (componentsPath «namespace» ++ "?") none (page? Component.ofJson?)).run
    return (r.mapError Failure.cluster).map Page.items

/-- Writes metadata and spec of a component. -/
def updateComponent («namespace» : String) (c : Component) : ExceptT Failure m Component :=
  objectRequest send .put (componentsPath «namespace») c.name "?" (some c.toJson) Component.kind
    Component.ofJson?

/-- Writes the status of a component. -/
def updateStatus («namespace» : String) (c : Component) : ExceptT Failure m Component :=
  objectRequest send .put (componentsPath «namespace») c.name "/status?" (some c.toJson) Component.kind
    Component.ofJson?

/-- Reads the workloads that a selector matches. -/
def listWorkloads (kind : WorkloadKind) («namespace» selector : String) : ExceptT Failure m (List Workload) :=
  ExceptT.mk do
    let target := workloadsPath kind «namespace» ++ "?&labelSelector=" ++ queryText selector
    let r ← (request send .get target none (page? (Workload.ofObject? kind))).run
    return (r.mapError Failure.cluster).map Page.items

/-- Reads a workload. -/
def getWorkload (kind : WorkloadKind) («namespace» name : String) : ExceptT Failure m Workload :=
  objectRequest send .get (workloadsPath kind «namespace») name "" none kind.text (Workload.ofObject? kind)

end

/-! ## Events -/

/-- Who publishes events: the controller, and the instance of it if that has a name of its own. -/
structure Reporter where
  controller : String
  instanceName : Option String
  deriving DecidableEq, Repr

/-- What an event is about. -/
def regarding (c : Component) : Json := .object (
  [("apiVersion", Json.string Component.apiVersion), ("kind", .string Component.kind)] ++
  Json.fieldIf "name" .string c.metadata.name ++
  Json.fieldIf "namespace" .string c.metadata.namespace ++
  Json.fieldIf "uid" .string c.metadata.uid)

/-- An event as the cluster stores it. -/
def eventObject (r : Reporter) (e : Event) (time : String) : Json := .object [
  ("apiVersion", .string "events.k8s.io/v1"),
  ("kind", .string "Event"),
  ("metadata", .object (
    ("generateName", .string (r.controller ++ "-")) ::
      Json.fieldIf "namespace" .string e.component.metadata.namespace)),
  ("action", .string e.reason),
  ("reason", .string e.reason),
  ("note", .string e.message),
  ("type", .string e.severity.text),
  ("eventTime", .string time),
  ("regarding", regarding e.component),
  ("reportingController", .string r.controller),
  ("reportingInstance", .string (r.instanceName.getD r.controller))]

/-- The namespace for events about what has none. -/
def fallbackNamespace : String := "kube-system"

/-- Publishes an event. It does not matter whether that succeeds. -/
def publish {m : Type → Type} [Monad m] (send : Request → m Response) (r : Reporter) (e : Event)
    (time : String) : m Unit := do
  let space := e.component.metadata.namespace.getD fallbackNamespace
  let read (_ : Json) : Option Unit := some ()
  discard (request send .post (eventsPath space ++ "?") (some (eventObject r e time)) read).run

end ChartOperator.Cluster
