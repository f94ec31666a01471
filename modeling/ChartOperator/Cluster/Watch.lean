import ChartOperator.Cluster.Request

set_option autoImplicit false

/-!
# Watching objects

A watch lists all objects of a kind and then follows their changes line by line from the version of the
list. When the connection ends it goes on from the last version seen; when that version has expired, or an
object comes without one, it starts with a new list. The state of a `Watcher` changes by one answer at a
time, and each change may yield a `Report`.
-/

namespace ChartOperator.Cluster

/-- The objects that are watched: where they are, the label that they must have, and how they are read. -/
structure Subject (α : Type) where
  path : String
  label : Option String
  read : Json → Option α

namespace Subject

variable {α : Type}

/-- The part of a target that asks for a label. -/
def labelQuery (s : Subject α) : String :=
  match s.label with
  | some l => "&labelSelector=" ++ queryText l
  | none => ""

/-- The greatest number of objects in one answer to a list request. -/
def pageLimit : Nat := 500

/-- After so many seconds the server ends a watch. -/
def watchSeconds : Nat := 290

/-- The target of a list request, which may go on with an earlier list. -/
def listTarget (s : Subject α) (continueAt : Option String) : String :=
  s.path ++ "?" ++ s.labelQuery ++ "&limit=" ++ Text.decimal pageLimit ++
    (match continueAt with
      | some t => "&continue=" ++ queryText t
      | none => "")

/-- The target of a watch request. -/
def watchTarget (s : Subject α) (version : String) : String :=
  s.path ++ "?&watch=true&timeoutSeconds=" ++ Text.decimal watchSeconds ++ s.labelQuery ++
    "&allowWatchBookmarks=true&resourceVersion=" ++ queryText version

end Subject

/-- What a line of a watch says. -/
inductive Notice (α : Type)
  | applied (object : α) (version : String)
  | deleted (object : α) (version : String)
  /-- Only the version has changed. -/
  | bookmark (version : String)
  | error (status : ApiStatus)

/-- The metadata of an object: a field, or the first item if it is written as an array. -/
def metadataOf? : Json → Option Json
  | .array js => js.head?
  | j => j.field? "metadata"

/-- The version of an object, empty if it has none. -/
def versionOf (j : Json) : String :=
  (((metadataOf? j.normal).bind (Json.field? "resourceVersion")).bind Json.string?).getD ""

/-- The version that a bookmark holds. -/
def bookmark? (j : Json) : Option String := do
  if !j.isUnrepeated ["apiVersion", "kind", "metadata"] then none
  let _ ← j.required? "apiVersion" Json.string?
  let _ ← j.required? "kind" Json.string?
  let metadata ← (← j.field? "metadata").record? ["resourceVersion"] 1
  metadata.required? "resourceVersion" Json.string?

/-- Reads a line of a watch. -/
def notice? {α : Type} (read : Json → Option α) (j : Json) : Option (Notice α) := do
  let j ← j.record? ["type", "object"] 2
  let object ← j.field? "object"
  match ← j.required? "type" Json.string? with
  | "ADDED" | "MODIFIED" => return .applied (← read object) (versionOf object)
  | "DELETED" => return .deleted (← read object) (versionOf object)
  | "BOOKMARK" => return .bookmark (← bookmark? object)
  | "ERROR" => return .error (← apiStatus? object)
  | _ => none

/-- What a watch reports. -/
inductive Report (α : Type)
  /-- All objects, after a start or an interruption. -/
  | restarted (objects : List α)
  | applied (object : α)
  | deleted (object : α)
  | failed

/-- How far a watch has come. -/
inductive Watcher (α : Type)
  /-- A list is to be asked for; part of it may be there. -/
  | listing (continueAt : Option String) (objects : List α)
  /-- The changes since a version are to be asked for. -/
  | listed (version : String)
  /-- Changes are being followed. -/
  | following (version : String)

namespace Watcher

variable {α : Type}

/-- A watch at its start. -/
def start : Watcher α := .listing none []

/-- A text that is there and not empty. -/
def given (s : Option String) : Option String := s.filter fun t => !t.isEmpty

/-- After the answer to a list request, with the objects listed before. -/
def afterList (objects : List α) : Except ClusterError (Page α) → Option (Report α) × Watcher α
  | .error _ => (some .failed, start)
  | .ok page =>
    let all := objects ++ page.items
    match given page.continueAt, given page.version with
    | some t, _ => (none, .listing (some t) all)
    | none, some v => (some (.restarted all), .listed v)
    | none, none => (some .failed, start)

/-- After the attempt to follow the changes since a version. -/
def afterOpen (version : String) (opened : Bool) : Option (Report α) × Watcher α :=
  if opened then (none, .following version) else (some .failed, .listed version)

/-- The code of a version that has expired. -/
def expired : Nat := 410

/-- After a line, which may not be readable. -/
def afterLine (version : String) : Option (Notice α) → Option (Report α) × Watcher α
  | none => (some .failed, .following version)
  | some (.applied o v) => if v.isEmpty then (some .failed, start) else (some (.applied o), .following v)
  | some (.deleted o v) => if v.isEmpty then (some .failed, start) else (some (.deleted o), .following v)
  | some (.bookmark v) => (none, .following v)
  | some (.error s) => (some .failed, if s.code = expired then start else .following version)

end Watcher

/-- How long a watch pauses after so many failures in a row. -/
def pauseAfter (failures : Nat) : Duration :=
  ⟨min (800000000 * twoTo (min failures 6)) (30 * Duration.perSecond)⟩

end ChartOperator.Cluster
