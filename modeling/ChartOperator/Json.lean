import ChartOperator.Number

set_option autoImplicit false

/-!
# JSON values

Values with objects as finite maps: the fields of an object are kept in the order of their names, each
name once, so that two objects with the same fields are the same value. `Json.object` builds an object
from any list of fields, of which the last with a name counts.

`Json.same` is equality with doubles compared as numbers; `same_self` says that it is reflexive.
-/

namespace ChartOperator

/-- A JSON value. -/
inductive Json
  | null
  | bool (value : Bool)
  | number (value : Number)
  | string (value : String)
  | array (items : List Json)
  /-- Fields in ascending order of their names, without repetition. -/
  | fields (entries : List (String × Json))
  deriving Repr, Inhabited

namespace Json

/-- Sets a field in an ordered list of fields. -/
def setField (name : String) (value : Json) : List (String × Json) → List (String × Json)
  | [] => [(name, value)]
  | (n, v) :: rest =>
    if n = name then (name, value) :: rest
    else if name < n then (name, value) :: (n, v) :: rest
    else (n, v) :: setField name value rest

/-- The object with given fields; the last of equal names counts. -/
def object (entries : List (String × Json)) : Json :=
  fields (entries.foldl (fun acc e => setField e.1 e.2 acc) [])

/-- The value of a field in a list of fields. -/
def lookup (name : String) (entries : List (String × Json)) : Option Json :=
  (entries.find? (·.1 == name)).map (·.2)

/-- The value of an object's field; a value that is no object has none. -/
def field? (name : String) : Json → Option Json
  | fields entries => lookup name entries
  | _ => none

/-- A natural number as a value. -/
def nat (n : Nat) : Json := number (.int n)

/-- A text or null. -/
def optional : Option String → Json
  | some s => string s
  | none => null

mutual
/-- Equality of values. -/
def same : Json → Json → Bool
  | null, null => true
  | bool a, bool b => a == b
  | number a, number b => a.same b
  | string a, string b => a == b
  | array as, array bs => sameItems as bs
  | fields as, fields bs => sameFields as bs
  | _, _ => false
/-- Equality of lists of values. -/
def sameItems : List Json → List Json → Bool
  | [], [] => true
  | a :: as, b :: bs => same a b && sameItems as bs
  | _, _ => false
/-- Equality of lists of fields. -/
def sameFields : List (String × Json) → List (String × Json) → Bool
  | [], [] => true
  | (n, a) :: as, (m, b) :: bs => n == m && same a b && sameFields as bs
  | _, _ => false
end

mutual
theorem same_self : ∀ j : Json, same j j = true
  | null => rfl
  | bool b => by simp [same]
  | number n => by simp [same, Number.same_self]
  | string s => by simp [same]
  | array items => by simpa [same] using sameItems_self items
  | fields entries => by simpa [same] using sameFields_self entries
theorem sameItems_self : ∀ js : List Json, sameItems js js = true
  | [] => rfl
  | j :: js => by simp [sameItems, same_self j, sameItems_self js]
theorem sameFields_self : ∀ es : List (String × Json), sameFields es es = true
  | [] => rfl
  | (n, j) :: es => by simp [sameFields, same_self j, sameFields_self es]
end

theorem lookup_setField_self (name : String) (value : Json) (entries : List (String × Json)) :
    lookup name (setField name value entries) = some value := by
  induction entries with
  | nil => simp [setField, lookup]
  | cons e rest ih =>
    obtain ⟨n, v⟩ := e
    by_cases h : n = name
    · simp [setField, lookup, h]
    · by_cases lt : name < n
      · simp [setField, lookup, h, lt]
      · simp only [lookup, Option.map_eq_some_iff] at ih
        simpa [setField, lookup, h, lt] using ih

theorem lookup_setField_ne {name other : String} (hn : other ≠ name) (value : Json)
    (entries : List (String × Json)) :
    lookup other (setField name value entries) = lookup other entries := by
  induction entries with
  | nil => simp [setField, lookup, Ne.symm hn]
  | cons e rest ih =>
    obtain ⟨n, v⟩ := e
    by_cases h : n = name
    · subst h
      simp [setField, lookup, Ne.symm hn]
    · by_cases lt : name < n
      · simp [setField, lookup, h, lt, Ne.symm hn]
      · rw [setField, if_neg h, if_neg lt]
        simp only [lookup, List.find?_cons] at ih ⊢
        split
        · rfl
        · exact ih

end Json

end ChartOperator
