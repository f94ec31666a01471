import ChartOperator.Yaml.Node
import ChartOperator.Json

set_option autoImplicit false

/-!
# Reading YAML as data

`Yaml.read?` gives the value of a YAML text as JSON data. A scalar in plain style is resolved by its
spelling: nothing, `null` and `~` are null, and there are booleans, integers and numbers; all else is
text. A tag of the YAML core overrides the spelling, and a local tag is refused.

A mapping keeps the last of equal keys, and a key is the text of a scalar, whatever its spelling means.
An infinite number and one that is no number become null. Collections nest up to `depthLimit` levels.
-/

namespace ChartOperator.Yaml

/-! ## Plain scalars -/

/-- The spellings of null. -/
def isNull (s : String) : Bool := s == "null" || s == "Null" || s == "NULL" || s == "~"

/-- The boolean that a text spells. -/
def boolean? (s : String) : Option Bool :=
  if s == "true" || s == "True" || s == "TRUE" then some true
  else if s == "false" || s == "False" || s == "FALSE" then some false
  else none

/-- Digits behind a leading zero: a text, not a number. -/
def isPaddedNumber (cs : List Char) : Bool :=
  let ds := match cs with
    | '-' :: r => r
    | '+' :: r => r
    | cs => cs
  match ds with
  | '0' :: d :: r => (d :: r).all Text.isDigit
  | _ => false

/-- The number that digits of a base write. -/
def inBase? (base : Nat) (cs : List Char) : Option Nat :=
  if cs.isEmpty then none else
  cs.foldl (fun n? c => do
    let n ← n?
    let d ← Json.hexValue? c
    if d < base then some (n * base + d) else none) (some 0)

/-- The number behind the mark of base sixteen, eight or two. -/
def marked? : List Char → Option Nat
  | '0' :: 'x' :: r => inBase? 16 r
  | '0' :: 'o' :: r => inBase? 8 r
  | '0' :: 'b' :: r => inBase? 2 r
  | _ => none

/-- The integer that a text spells, of any size. -/
def integer? (cs : List Char) : Option Int :=
  let (negative, rest) := match cs with
    | '-' :: r => (true, r)
    | '+' :: r => (false, r)
    | cs => (false, cs)
  let value := match marked? rest with
    | some n => some n
    | none => if isPaddedNumber cs then none else inBase? 10 rest
  value.map fun n => if negative then -(n : Int) else n

/-- What the spelling of an integer yields: nothing where it spells none, or one that no 128 bits hold,
an error where 64 bits do not hold it. -/
def integerValue? (cs : List Char) : Option (Option Json) :=
  match integer? cs with
  | none => none
  | some n =>
    if leastSigned 64 ≤ n ∧ n < (twoTo 64 : Nat) then some (some (.number (.int n)))
    else if leastSigned 128 ≤ n ∧ n < (twoTo 128 : Nat) then some none
    else none

/-- The parts of a decimal number without its sign: its digits, as one number, and its power of ten. -/
def decimal? (cs : List Char) : Option (Nat × Int) := do
  let whole := cs.takeWhile Text.isDigit
  let rest := cs.dropWhile Text.isDigit
  let (fraction, rest) := match rest with
    | '.' :: r => (r.takeWhile Text.isDigit, r.dropWhile Text.isDigit)
    | r => ([], r)
  if whole.isEmpty && fraction.isEmpty then none else
  let power ← match rest with
    | [] => some (0 : Int)
    | e :: r =>
      if e = 'e' ∨ e = 'E' then
        let (down, ds) := match r with
          | '-' :: ds => (true, ds)
          | '+' :: ds => (false, ds)
          | ds => (false, ds)
        (Text.readNat? ds).map fun n => if down then -(n : Int) else n
      else none
  return (Text.ofDigits (whole ++ fraction), power - (fraction.length : Int))

/-- The greatest power of ten that need be looked at; a number beyond it is infinite or zero. -/
def powerLimit (digits : Nat) : Int := 400 + (Text.digits digits).length

/-- The finite double of a decimal text. -/
def finite? (cs : List Char) : Option Double := do
  let (negative, rest) := match cs with
    | '-' :: r => (true, r)
    | '+' :: r => (false, r)
    | cs => (false, cs)
  let (digits, power) ← decimal? rest
  if digits = 0 then return Double.zero negative
  if powerLimit digits < power then none
  else if power < -(powerLimit digits) then return Double.zero negative
  else Double.ofDecimal? negative digits power

/-- The value of the spelling of a number that is no integer: a finite one, or null for the others. -/
def realValue? (s : String) : Option Json :=
  if [".inf", ".Inf", ".INF", "+.inf", "+.Inf", "+.INF", "-.inf", "-.Inf", "-.INF", ".nan", ".NaN",
      ".NAN"].contains s then
    some .null
  else (finite? s.toList).map fun x => .number (.real x)

/-- The value that a plain scalar spells; none for an integer that is out of range. -/
def plainValue? (s : String) : Option Json :=
  if s.isEmpty || isNull s then some .null else
  match boolean? s with
  | some b => some (.bool b)
  | none =>
    match integerValue? s.toList with
    | some v => v
    | none =>
      if isPaddedNumber s.toList then some (.string s)
      else some ((realValue? s).getD (.string s))

/-! ## Tags -/

/-- The full name of a tag of the YAML core. -/
def coreTag (name : String) : String := "tag:yaml.org,2002:" ++ name

/-- A tag that names a type of the program that wrote the text. -/
def isLocalTag : Option String → Bool
  | some t => t.toList.head? == some '!'
  | none => false

/-- The value of a scalar. -/
def scalarValue? (tag : Option String) (s : String) (isPlain : Bool) : Option Json :=
  match tag with
  | none => if isPlain then plainValue? s else some (.string s)
  | some t =>
    if t == coreTag "bool" then (boolean? s).map .bool
    else if t == coreTag "int" then (integerValue? s.toList).join
    else if t == coreTag "float" then realValue? s
    else if t == coreTag "null" then (if isNull s then some .null else none)
    else if isLocalTag tag then none
    else some (.string s)

/-! ## Documents -/

/-- How deep collections may nest. -/
def depthLimit : Nat := 128

/-- How often aliases may be followed for each thing that a document holds. -/
def aliasLimit : Nat := 100

/-- Reading with a count of the aliases that were followed. -/
abbrev Reading := StateT Nat Option

/-- The node that an alias stands for; any other node stands for itself. -/
def follow (d : Document) (n : Node) : Reading Node :=
  match n with
  | .alias number => do
    let followed ← get
    if aliasLimit * d.events < followed + 1 then failure
    set (followed + 1)
    d.anchors.node? number
  | n => pure n

/-- The text of a key, which must be a scalar. -/
def keyText (d : Document) (n : Node) : Reading String := do
  match ← follow d n with
  | .scalar _ s _ => pure s
  | _ => failure

/-- The value of a node with room for some levels below it. -/
def value (d : Document) : (depth : Nat) → Node → Reading Json
  | 0, n => do
    match ← follow d n with
    | .scalar tag s isPlain => scalarValue? tag s isPlain
    | _ => failure
  | depth + 1, n => do
    match ← follow d n with
    | .scalar tag s isPlain => scalarValue? tag s isPlain
    | .sequence tag items =>
      if isLocalTag tag then failure
      return .array (← items.mapM (value d depth))
    | .mapping tag entries =>
      if isLocalTag tag then failure
      return .object (← entries.mapM fun (k, v) => do return (← keyText d k, ← value d depth v))
    | .alias _ => failure

/-- The value of a YAML text; none if it cannot be read. -/
def read? (cs : List Char) : Option Json := do
  let d ← Document.read? cs
  match d.root with
  | none => return .null
  | some n => (value d depthLimit n).run' 0

end ChartOperator.Yaml
