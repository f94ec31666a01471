import ChartOperator.Failure
import ChartOperator.Json.Fields
import ChartOperator.Json.Reader

set_option autoImplicit false

/-!
# Requests to the cluster

A `Request` to the API server of the cluster and the `Response` to it. The target of a request is a path
with an optional query; not every character may stand in one, and what follows a number sign is dropped.
A response with an error status carries a description of the error, or else any text.
-/

namespace ChartOperator.Cluster

/-- The methods of requests. -/
inductive Method
  | get | put | post
  deriving DecidableEq, Repr

/-- The word for a method. -/
def Method.text : Method → String
  | get => "GET"
  | put => "PUT"
  | post => "POST"

/-- A request. -/
structure Request where
  method : Method
  target : String
  body : Option Json

/-- How a request was answered. -/
inductive Response
  | answered (status : Nat) (body : String)
  /-- The request did not reach the server. -/
  | lost (reason : String)
  deriving Repr

/-! ## Targets -/

/-- Whether a code lies between two others, both included. -/
def isBetween (lo hi n : Nat) : Bool := decide (lo ≤ n) && decide (n ≤ hi)

/-- A character that may stand in a path. -/
def isPathChar (c : Char) : Bool :=
  let n := c.toNat
  n == 0x21 || isBetween 0x24 0x3B n || n == 0x3D || isBetween 0x40 0x5F n || isBetween 0x61 0x7A n ||
  n == 0x7C || n == 0x7E || c == '"' || c == '\x7b' || c == '\x7d'

/-- A character that may stand in a query. -/
def isQueryChar (c : Char) : Bool :=
  let n := c.toNat
  n == 0x21 || isBetween 0x24 0x3B n || n == 0x3D || isBetween 0x3F 0x7E n

/-- The greatest number of bytes in a target. -/
def targetLimit : Nat := 65534

/-- The failure of a target that no request can have. -/
def badTarget (reason : String) : ClusterError :=
  .malformed ("Failed to build request: failed to build request: " ++ reason)

/-- Checks a path and a query, without what follows a number sign. -/
def checkTarget (target : String) : Except ClusterError String :=
  let all := target.toList
  let path := all.takeWhile fun c => c ≠ '?' ∧ c ≠ '#'
  let query := (all.drop path.length).takeWhile (· ≠ '#')
  if targetLimit < target.utf8ByteSize then .error (badTarget "uri too long")
  else if path.all isPathChar && (query.drop 1).all isQueryChar then .ok (String.ofList (path ++ query))
  else .error (badTarget "invalid uri character")

/-- The failure of a request for an object without a name. -/
def missingName : ClusterError :=
  .malformed "Failed to build request: failed to validate request: A non-empty name is required"

/-- A byte as it is written in a query, with a space as a plus sign. -/
def queryByte (b : UInt8) : List Char :=
  let c := Char.ofNat b.toNat
  if c.isAlphanum || c == '*' || c == '-' || c == '.' || c == '_' then [c]
  else if c == ' ' then ['+']
  else
    let digit (n : Nat) : Char := ("0123456789ABCDEF".toList[n]?).getD '0'
    ['%', digit (b.toNat / 16), digit (b.toNat % 16)]

/-- A text as it is written in a query. -/
def queryText (s : String) : String := String.ofList (s.toUTF8.toList.flatMap queryByte)

/-! ## Responses -/

/-- The texts of error statuses. -/
def statusNames : List (Nat × String) := [
  (400, "Bad Request"), (401, "Unauthorized"), (402, "Payment Required"), (403, "Forbidden"),
  (404, "Not Found"), (405, "Method Not Allowed"), (406, "Not Acceptable"),
  (407, "Proxy Authentication Required"), (408, "Request Timeout"), (409, "Conflict"), (410, "Gone"),
  (411, "Length Required"), (412, "Precondition Failed"), (413, "Payload Too Large"), (414, "URI Too Long"),
  (415, "Unsupported Media Type"), (416, "Range Not Satisfiable"), (417, "Expectation Failed"),
  (418, "I'm a teapot"), (421, "Misdirected Request"), (422, "Unprocessable Entity"), (423, "Locked"),
  (424, "Failed Dependency"), (426, "Upgrade Required"), (428, "Precondition Required"),
  (429, "Too Many Requests"), (431, "Request Header Fields Too Large"),
  (451, "Unavailable For Legal Reasons"), (500, "Internal Server Error"), (501, "Not Implemented"),
  (502, "Bad Gateway"), (503, "Service Unavailable"), (504, "Gateway Timeout"),
  (505, "HTTP Version Not Supported"), (506, "Variant Also Negotiates"), (507, "Insufficient Storage"),
  (508, "Loop Detected"), (510, "Not Extended"), (511, "Network Authentication Required")]

/-- A status with its text. -/
def statusText (status : Nat) : String :=
  Text.decimal status ++ " " ++ (statusNames.lookup status).getD "<unknown status code>"

/-- The description of an error that a body holds. -/
def apiStatus? (j : Json) : Option ApiStatus := do
  let j ← j.record? ["status", "message", "reason", "code"] 4
  return {
    status := ← j.required? "status" Json.string?
    message := ← j.default? "message" Json.string? ""
    reason := ← j.default? "reason" Json.string? ""
    code := ← j.required? "code" (Json.nat? (twoTo 16)) }

/-- The error of a response with an error status. -/
def refusal (status : Nat) (body : String) : ApiStatus :=
  match (Json.readWritten? body.toList).bind apiStatus? with
  | some s => s
  | none => ⟨statusText status, Text.quote body, "Failed to parse error data", status⟩

/-- The body of a response that is no error. -/
def Response.body : Response → Except ClusterError String
  | lost reason => .error (.transport reason)
  | answered status body =>
    if 400 ≤ status ∧ status < 600 then .error (.api (refusal status body)) else .ok body

/-- What a response says. -/
def Response.read {α : Type} (r : Response) (read : Json → Option α) : Except ClusterError α := do
  let body ← r.body
  match (Json.readWritten? body.toList).bind read with
  | some a => return a
  | none => throw .unreadable

/-- A list of objects, with the version of the list and where it goes on. -/
structure Page (α : Type) where
  items : List α
  version : Option String
  continueAt : Option String

/-- Reads a list of objects. The items may be null, and the metadata absent. -/
def page? {α : Type} (read : Json → Option α) (j : Json) : Option (Page α) := do
  if !j.isUnrepeated ["metadata", "items"] then none
  let items ← match ← j.field? "items" with
    | .null => some []
    | js => js.listOf? read
  let metadata := ((j.field? "metadata").getD (.fields [])).normal
  let _ ← metadata.entries?
  return {
    items
    version := ← metadata.optional? "resourceVersion" Json.string?
    continueAt := ← metadata.optional? "continue" Json.string? }

example : queryByte 0x28 = ['%', '2', '8'] := by decide
example : isPathChar ' ' = false ∧ isQueryChar '?' = true := by decide

end ChartOperator.Cluster
