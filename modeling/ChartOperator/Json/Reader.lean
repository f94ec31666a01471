import ChartOperator.Json

set_option autoImplicit false

/-!
# Reading JSON

A text is first cut into tokens, character by character, and the tokens are then put together by a
stack of open arrays and objects. Both steps are folds over their input. Reading fails on anything
that is not exactly one value between blanks, on strings with controls or with halves of surrogate
pairs, on numbers beyond the finite doubles and on values nested deeper than `depthLimit`.
-/

namespace ChartOperator.Json

/-- A token of a JSON text. -/
inductive Token
  | openObject | closeObject | openArray | closeArray | comma | colon
  | text (value : String)
  | scalar (value : Json)
  deriving Repr

/-- Where in a token the text stands. Characters that were read are kept in reverse. -/
inductive Mode
  | between
  | inString (read : List Char)
  | escape (read : List Char)
  /-- Digits of an escaped code point are expected; `high` is the first half of a pair. -/
  | codePoint (read : List Char) (missing value : Nat) (high : Option Nat)
  /-- The second half of a pair is expected: first its backslash, then its letter. -/
  | pairSlash (read : List Char) (high : Nat)
  | pairLetter (read : List Char) (high : Nat)
  | inNumber (read : List Char)
  | inWord (read : List Char)
  deriving Repr

/-- The blanks of JSON. -/
def isJsonBlank (c : Char) : Bool := c == ' ' || c == '\n' || c == '\t' || c == '\r'

/-- The characters of numbers. -/
def isNumberChar (c : Char) : Bool :=
  Text.isDigit c || c == '-' || c == '+' || c == '.' || c == 'e' || c == 'E'

/-- The characters of the three words. -/
def isWordChar (c : Char) : Bool := decide ('a' ≤ c) && decide (c ≤ 'z')

/-- A token at its first character: the mode behind it and the token, if it is complete. -/
def startToken (c : Char) : Option (Mode × Option Token) :=
  if isJsonBlank c then some (.between, none)
  else if c = '\x7b' then some (.between, some .openObject)
  else if c = '\x7d' then some (.between, some .closeObject)
  else if c = '[' then some (.between, some .openArray)
  else if c = ']' then some (.between, some .closeArray)
  else if c = ',' then some (.between, some .comma)
  else if c = ':' then some (.between, some .colon)
  else if c = '"' then some (.inString [], none)
  else if c = '-' || Text.isDigit c then some (.inNumber [c], none)
  else if isWordChar c then some (.inWord [c], none)
  else none

/-- The value of a word. -/
def wordValue? (cs : List Char) : Option Json :=
  if cs = ['n', 'u', 'l', 'l'] then some null
  else if cs = ['t', 'r', 'u', 'e'] then some (bool true)
  else if cs = ['f', 'a', 'l', 's', 'e'] then some (bool false)
  else none

/-- The character that an escape by letter stands for. -/
def escaped? (c : Char) : Option Char :=
  if c = '"' ∨ c = '\\' ∨ c = '/' then some c
  else if c = 'b' then some '\x08'
  else if c = 'f' then some '\x0c'
  else if c = 'n' then some '\n'
  else if c = 'r' then some '\r'
  else if c = 't' then some '\t'
  else none

/-- The value of a digit in base sixteen. -/
def hexValue? (c : Char) : Option Nat :=
  if Text.isDigit c then some (Text.digitValue c)
  else if 'a' ≤ c ∧ c ≤ 'f' then some (c.toNat - 'a'.toNat + 10)
  else if 'A' ≤ c ∧ c ≤ 'F' then some (c.toNat - 'A'.toNat + 10)
  else none

/-- What an escaped code point adds to a string: a character, the first half of a pair, or, after
such a half, the character of both. -/
def codePointMode? (read : List Char) (value : Nat) : Option Nat → Option Mode
  | none =>
    if 0xdc00 ≤ value ∧ value < 0xe000 then none
    else if 0xd800 ≤ value ∧ value < 0xdc00 then some (.pairSlash read value)
    else some (.inString (Char.ofNat value :: read))
  | some high =>
    if 0xdc00 ≤ value ∧ value < 0xe000 then
      some (.inString (Char.ofNat (0x10000 + (high - 0xd800) * 0x400 + (value - 0xdc00)) :: read))
    else none

/-- The tokens of a text, `done` being those before it in reverse. -/
def scan (done : List Token) : Mode → List Char → Option (List Token)
  | .between, [] => some done.reverse
  | .inNumber read, [] => (Number.read? read.reverse).map fun n => (.scalar (number n) :: done).reverse
  | .inWord read, [] => (wordValue? read.reverse).map fun v => (.scalar v :: done).reverse
  | _, [] => none
  | .between, c :: cs => do
    let (mode, token?) ← startToken c
    scan (token?.toList ++ done) mode cs
  | .inNumber read, c :: cs =>
    if isNumberChar c then scan done (.inNumber (c :: read)) cs
    else do
      let n ← Number.read? read.reverse
      let (mode, token?) ← startToken c
      scan (token?.toList ++ .scalar (number n) :: done) mode cs
  | .inWord read, c :: cs =>
    if isWordChar c then scan done (.inWord (c :: read)) cs
    else do
      let v ← wordValue? read.reverse
      let (mode, token?) ← startToken c
      scan (token?.toList ++ .scalar v :: done) mode cs
  | .inString read, c :: cs =>
    if c = '"' then scan (.text (String.ofList read.reverse) :: done) .between cs
    else if c = '\\' then scan done (.escape read) cs
    else if c.toNat < 0x20 then none
    else scan done (.inString (c :: read)) cs
  | .escape read, c :: cs =>
    if c = 'u' then scan done (.codePoint read 4 0 none) cs
    else do scan done (.inString ((← escaped? c) :: read)) cs
  | .codePoint read missing value high, c :: cs => do
    let value := 16 * value + (← hexValue? c)
    if missing ≤ 1 then scan done (← codePointMode? read value high) cs
    else scan done (.codePoint read (missing - 1) value high) cs
  | .pairSlash read high, c :: cs => if c = '\\' then scan done (.pairLetter read high) cs else none
  | .pairLetter read high, c :: cs =>
    if c = 'u' then scan done (.codePoint read 4 0 (some high)) cs else none

/-- An array or object that is still open, with what it holds so far in reverse. -/
inductive Frame
  | items (read : List Json)
  /-- The name of the next field is set once it was read. -/
  | members (read : List (String × Json)) (name : Option String)
  deriving Repr

/-- What may come next. -/
inductive Expected
  | value
  /-- A value or the end of an array that was just opened. -/
  | valueOrEnd
  | name
  /-- A name or the end of an object that was just opened. -/
  | nameOrEnd
  | colon
  | commaOrEnd
  deriving DecidableEq, Repr

/-- A value that is being put together: the open frames, innermost first, what may come next, and the
whole value once it is complete. -/
structure Builder where
  frames : List Frame
  expected : Expected
  whole : Option Json
  deriving Repr

/-- Values may be nested in fewer arrays and objects than this. -/
def depthLimit : Nat := 128

/-- Puts a complete value where it belongs. -/
def Builder.put (b : Builder) (v : Json) : Option Builder :=
  match b.frames with
  | [] => some { b with whole := some v, expected := .commaOrEnd }
  | .items read :: rest => some { b with frames := .items (v :: read) :: rest, expected := .commaOrEnd }
  | .members read (some name) :: rest =>
    some { b with frames := .members ((name, v) :: read) none :: rest, expected := .commaOrEnd }
  | .members _ none :: _ => none

/-- Opens an array or object. -/
def Builder.enter (b : Builder) (f : Frame) (expected : Expected) : Option Builder :=
  if depthLimit ≤ b.frames.length + 1 then none else some { b with frames := f :: b.frames, expected }

/-- Takes one token. -/
def Builder.take (b : Builder) (t : Token) : Option Builder :=
  if b.whole.isSome then none else
  match t with
  | .scalar v => if b.expected = .value ∨ b.expected = .valueOrEnd then b.put v else none
  | .text s =>
    if b.expected = .value ∨ b.expected = .valueOrEnd then b.put (string s)
    else if b.expected = .name ∨ b.expected = .nameOrEnd then
      match b.frames with
      | .members read _ :: rest =>
        some { b with frames := .members read (some s) :: rest, expected := .colon }
      | _ => none
    else none
  | .openArray =>
    if b.expected = .value ∨ b.expected = .valueOrEnd then b.enter (.items []) .valueOrEnd else none
  | .openObject =>
    if b.expected = .value ∨ b.expected = .valueOrEnd then b.enter (.members [] none) .nameOrEnd else none
  | .colon => if b.expected = .colon then some { b with expected := .value } else none
  | .comma =>
    if b.expected = .commaOrEnd then
      match b.frames with
      | .items _ :: _ => some { b with expected := .value }
      | .members _ _ :: _ => some { b with expected := .name }
      | [] => none
    else none
  | .closeArray =>
    if b.expected = .commaOrEnd ∨ b.expected = .valueOrEnd then
      match b.frames with
      | .items read :: rest => { b with frames := rest }.put (array read.reverse)
      | _ => none
    else none
  | .closeObject =>
    if b.expected = .commaOrEnd ∨ b.expected = .nameOrEnd then
      match b.frames with
      | .members read _ :: rest => { b with frames := rest }.put (fields read.reverse)
      | _ => none
    else none

/-- Reads a JSON text with the fields of its objects as they are written, in their order and with
repetitions. -/
def readWritten? (cs : List Char) : Option Json := do
  let tokens ← scan [] .between cs
  let b ← tokens.foldlM Builder.take { frames := [], expected := .value, whole := none }
  b.whole

mutual
/-- A value with its objects made maps. -/
def normal : Json → Json
  | array items => array (normalItems items)
  | fields entries => object (normalFields entries)
  | j => j
/-- The items of an array with their objects made maps. -/
def normalItems : List Json → List Json
  | [] => []
  | j :: js => normal j :: normalItems js
/-- The fields of an object with the objects in them made maps. -/
def normalFields : List (String × Json) → List (String × Json)
  | [] => []
  | (n, j) :: es => (n, normal j) :: normalFields es
end

/-- Reads a JSON text. -/
def read? (cs : List Char) : Option Json := (readWritten? cs).map normal

/-- Whether a text is made of whole tokens that begin a value without ending it. -/
def begins (cs : List Char) : Bool :=
  match (scan [] .between cs).bind (List.foldlM Builder.take ⟨[], .value, none⟩) with
  | some b => b.whole.isNone
  | none => false

/-- Texts that end a token that was begun. -/
def tokenEnds : List String :=
  ["", "\"", "n\"", "0000\"", "000\"", "00\"", "0\"", "0", "rue", "ue", "e", "alse", "lse", "se", "ull", "ll", "l"]

/-- Whether a text is a value that was cut off. -/
def isCut (cs : List Char) : Bool := tokenEnds.any fun t => begins (cs ++ t.toList)

end ChartOperator.Json
