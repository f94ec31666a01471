import ChartOperator.Json

set_option autoImplicit false

/-!
# Fields of JSON objects

Typed access to the parts of a value. A field is required, has a default that stands for its absence,
or is optional: then null stands for its absence too.
-/

namespace ChartOperator.Json

/-- The text of a string. -/
def string? : Json → Option String
  | string s => some s
  | _ => none

/-- The truth value. -/
def bool? : Json → Option Bool
  | bool b => some b
  | _ => none

/-- An integer within bounds, both included. -/
def int? (lo hi : Int) : Json → Option Int
  | number (.int n) => if lo ≤ n ∧ n ≤ hi then some n else none
  | _ => none

/-- A natural number below a bound. -/
def nat? (bound : Nat) : Json → Option Nat
  | number (.int n) => if 0 ≤ n ∧ n < bound then some n.toNat else none
  | _ => none

/-- The items of an array. -/
def items? : Json → Option (List Json)
  | array js => some js
  | _ => none

/-- The fields of an object. -/
def entries? : Json → Option (List (String × Json))
  | fields es => some es
  | _ => none

/-- Whether no field of the given names is written twice in an object. -/
def isUnrepeated (names : List String) : Json → Bool
  | fields es => names.all fun n => (es.filter fun e => e.1 == n).length ≤ 1
  | _ => true

/-- A record with these fields: an object in which none of them is written twice, or an array of the values of the
fields in their order, `least` of them or more. -/
def record? (names : List String) (least : Nat) : Json → Option Json
  | fields es => if isUnrepeated names (fields es) then some (fields es) else none
  | array js => if least ≤ js.length ∧ js.length ≤ names.length then some (object (names.zip js)) else none
  | _ => none

/-- A list of which every item is read. -/
def listOf? {α : Type} (read : Json → Option α) (j : Json) : Option (List α) :=
  j.items?.bind (·.mapM read)

/-- Names with texts. -/
def texts? (j : Json) : Option (List (String × String)) :=
  j.entries?.bind (·.mapM fun (n, v) => v.string?.map (n, ·))

/-- A word of a fixed vocabulary. It may also be written as an object with the word as its only name
and null as its value. -/
def word? : Json → Option String
  | string s => some s
  | fields [(s, null)] => some s
  | _ => none

/-- A field that must be there. -/
def required? {α : Type} (name : String) (read : Json → Option α) (j : Json) : Option α :=
  (j.field? name).bind read

/-- A field whose absence stands for a default. -/
def default? {α : Type} (name : String) (read : Json → Option α) (default : α) (j : Json) : Option α :=
  match j.field? name with
  | none => some default
  | some v => read v

/-- A field that may be absent or null. -/
def optional? {α : Type} (name : String) (read : Json → Option α) (j : Json) : Option (Option α) :=
  match j.field? name with
  | none => some none
  | some null => some none
  | some v => (read v).map some

/-- A field that is written only when it has a value. -/
def fieldIf {α : Type} (name : String) (write : α → Json) : Option α → List (String × Json)
  | none => []
  | some v => [(name, write v)]

end ChartOperator.Json
