import ChartOperator.Yaml.Scalar

set_option autoImplicit false

/-!
# The tokens of a YAML text

The indentation of a text becomes explicit marks: a block collection opens with `sequenceStart` or
`mappingStart` and closes with `blockEnd`. A scalar or bracketed collection is known to be a key only
when the colon behind it is seen, so the `Scanner` remembers where a key may have begun and puts the
marks in front of it afterwards.
-/

namespace ChartOperator.Yaml

/-- A token of a text. -/
inductive Token
  | version (major minor : Nat)
  | tagPrefix (handle start : List Char)
  | documentStart
  | documentEnd
  | sequenceStart
  | mappingStart
  | blockEnd
  | openSequence
  | closeSequence
  | openMapping
  | closeMapping
  | item
  | comma
  | key
  | value
  | alias (name : List Char)
  | anchor (name : List Char)
  | tag (handle suffix : List Char)
  | scalar (text : List Char) (isPlain : Bool)
  deriving DecidableEq, Repr, Inhabited

/-! ## Names, tags and directives -/

/-- What may follow the name of an anchor. -/
def endsName (c : Char) : Bool :=
  isBlankOrEnd c || c == '?' || c == ':' || c == ',' || c == ']' || c == '}' || c == '%' || c == '@' || c == '`'

/-- The name of an anchor or alias. -/
def anchorName? (rest : List Spot) : Option (List Char × List Spot) :=
  let name := takeChars isNameChar rest
  let rest := dropChars isNameChar rest
  if name.isEmpty || !endsName (front rest) then none else some (name, rest)

/-- A character that a tag may hold; inside angle brackets also the comma and the square brackets. -/
def isTagChar (bracketed : Bool) (c : Char) : Bool :=
  isNameChar c || ";/?:@&=+$.%!~*'()".toList.contains c || (bracketed && (c == ',' || c == '[' || c == ']'))

/-- How many bytes a character takes whose first byte is given; zero if no character begins so. -/
def byteCount (first : Nat) : Nat :=
  if first < 0x80 then 1
  else if first / 0x20 = 6 then 2
  else if first / 0x10 = 14 then 3
  else if first / 0x08 = 30 then 4
  else 0

/-- One escaped byte: a percent sign and two hexadecimal digits. -/
def escapedByte? : List Char → Option (Nat × List Char)
  | '%' :: a :: b :: r => do return (16 * (← Json.hexValue? a) + (← Json.hexValue? b), r)
  | _ => none

/-- The bytes behind the first one of an escaped character. -/
def laterBytes? : (count : Nat) → (value : Nat) → List Char → Option (Nat × List Char)
  | 0, value, cs => some (value, cs)
  | count + 1, value, cs => do
    let (b, cs) ← escapedByte? cs
    if b / 0x40 ≠ 2 then none else laterBytes? count (0x40 * value + b % 0x40) cs

/-- One character of a tag, escaped or not. -/
def tagChar? : List Char → Option (Char × List Char)
  | [] => none
  | '%' :: cs => do
    let (first, rest) ← escapedByte? ('%' :: cs)
    let count := byteCount first
    if count = 0 then none else do
    let (code, rest) ← laterBytes? (count - 1) (if count = 1 then first else first % twoTo (7 - count)) rest
    return ((charOfCode? code).getD '\uFFFD', rest)
  | c :: cs => some (c, cs)

/-- The characters of a tag with its escapes undone. -/
def unescapeTag? : (room : Nat) → List Char → Option (List Char)
  | _, [] => some []
  | 0, _ => none
  | room + 1, cs => do
    let (c, rest) ← tagChar? cs
    return c :: (← unescapeTag? room rest)

/-- The body of a tag. -/
def tagBody? (bracketed : Bool) (rest : List Spot) : Option (List Char × List Spot) := do
  let raw := takeChars (isTagChar bracketed) rest
  return (← unescapeTag? raw.length raw, dropChars (isTagChar bracketed) rest)

/-- The handle of a tag: an exclamation mark, a name, and a second mark if there is one. -/
def tagHandle? (rest : List Spot) : Option (List Char × List Spot) :=
  if front rest ≠ '!' then none else
  let name := takeChars isNameChar (rest.drop 1)
  let rest := dropChars isNameChar (rest.drop 1)
  if front rest = '!' then some ('!' :: name ++ ['!'], rest.drop 1) else some ('!' :: name, rest)

/-- A tag in front of a node: in angle brackets, with a handle of two marks, or local. -/
def tag? (flow : Bool) (rest : List Spot) : Option (Token × List Spot) := do
  let (token, rest) ←
    if ahead rest 1 = '<' then do
      let (body, rest) ← tagBody? true (rest.drop 2)
      if body.isEmpty || front rest != '>' then none else some (Token.tag [] body, rest.drop 1)
    else do
      let (handle, rest) ← tagHandle? rest
      let (body, rest) ← tagBody? false rest
      if 1 < handle.length ∧ handle.getLast? = some '!' then
        if body.isEmpty then none else some (Token.tag handle body, rest)
      else
        let suffix := handle.drop 1 ++ body
        some (if suffix.isEmpty then Token.tag [] ['!'] else Token.tag ['!'] suffix, rest)
  let c := front rest
  if isBlankOrEnd c || (flow && c == ',') then return (token, rest) else none

/-- A number of at most nine digits. -/
def shortNumber? (rest : List Spot) : Option (Nat × List Spot) :=
  let ds := takeChars Text.isDigit rest
  if ds.isEmpty || decide (9 < ds.length) then none
  else some (Text.ofDigits ds, dropChars Text.isDigit rest)

/-- A directive, from behind its percent sign to the end of its line. -/
def directive? (rest : List Spot) : Option (Token × List Spot) := do
  let name := takeChars isNameChar rest
  let rest := dropChars isNameChar rest
  if !isBlankOrEnd (front rest) then none else
  let body := dropChars isBlank rest
  let (token, rest) ←
    if name = "YAML".toList then do
      let (major, rest) ← shortNumber? body
      if front rest ≠ '.' then none else
      let (minor, rest) ← shortNumber? (rest.drop 1)
      some (Token.version major minor, rest)
    else if name = "TAG".toList then do
      let (handle, rest) ← tagHandle? body
      if handle.getLast? ≠ some '!' || !isBlank (front rest) then none else
      let (start, rest) ← tagBody? true (dropChars isBlank rest)
      if start.isEmpty || !isBlankOrEnd (front rest) then none else
      some (Token.tagPrefix handle start, rest)
    else none
  return (token, ← endOfLine? rest)

/-! ## The scanner -/

/-- A place where a key may have begun: how many tokens precede it, and whether it must be a key, since
it stands where the next key of a block belongs. -/
structure PossibleKey where
  before : Nat
  required : Bool
  spot : Spot

/-- A text that is read up to `rest`. The tokens are kept last first. `keys` has one entry for each open
bracket, innermost first, and one outside of all. -/
structure Scanner where
  rest : List Spot
  tokens : List Token := []
  count : Nat := 0
  indent : Int := -1
  indents : List Int := []
  keyAllowed : Bool := true
  keys : List (Option PossibleKey) := [none]

namespace Scanner

/-- Whether the text stands inside brackets. -/
def inFlow (s : Scanner) : Bool := decide (1 < s.keys.length)

/-- Adds a token. -/
def push (s : Scanner) (t : Token) : Scanner := { s with tokens := t :: s.tokens, count := s.count + 1 }

/-- Puts a token in front of those read since there were `before` of them. -/
def insert (s : Scanner) (before : Nat) (t : Token) : Scanner :=
  let later := s.count - before
  { s with tokens := s.tokens.take later ++ t :: s.tokens.drop later, count := s.count + 1 }

/-- Skips white space and comments. A line break outside of brackets permits a key; a tab is white space
only where no key may start. -/
def skipBlanks (flow : Bool) : (keyAllowed : Bool) → (comment : Bool) → List Spot → Bool × List Spot
  | allowed, _, [] => (allowed, [])
  | allowed, comment, s :: r =>
    if isBreak s.char then skipBlanks flow (allowed || !flow) false r
    else if comment then skipBlanks flow allowed true r
    else if s.char == ' ' || (s.char == '\t' && (flow || !allowed)) ||
        (s.index == 0 && s.char == byteOrderMark) then skipBlanks flow allowed false r
    else if s.char == '#' then skipBlanks flow allowed true r
    else (allowed, s :: r)

/-- The greatest length of a key that is not marked as one. -/
def keyLimit : Nat := 1024

/-- Forgets the places of keys that lie too far back, or on an earlier line. -/
def dropStale (here : Spot) : List (Option PossibleKey) → Option (List (Option PossibleKey))
  | [] => some []
  | none :: ks => (dropStale here ks).map (none :: ·)
  | some k :: ks =>
    if k.spot.line < here.line ∨ k.spot.index + keyLimit < here.index then
      if k.required then none else (dropStale here ks).map (none :: ·)
    else (dropStale here ks).map (some k :: ·)

/-- Forgets the place of a key at this depth. -/
def dropKey (s : Scanner) : Option Scanner :=
  match s.keys with
  | some k :: ks => if k.required then none else some { s with keys := none :: ks }
  | _ => some s

/-- Notes that a key may begin here. -/
def noteKey (s : Scanner) (here : Spot) : Option Scanner :=
  if !s.keyAllowed then some s else do
  let s ← s.dropKey
  let required := !s.inFlow && s.indent == (here.column : Int)
  return { s with keys := some ⟨s.count, required, here⟩ :: s.keys.tail }

/-- Closes the blocks that are indented by more than `column` columns. -/
def closeBlocks (column : Int) (tokens : List Token) (count : Nat) (indent : Int) :
    List Int → List Token × Nat × Int × List Int
  | [] => if column < indent then (.blockEnd :: tokens, count + 1, -1, []) else (tokens, count, indent, [])
  | i :: is =>
    if column < indent then closeBlocks column (.blockEnd :: tokens) (count + 1) i is
    else (tokens, count, indent, i :: is)

/-- Closes the blocks that a column leaves. -/
def leave (s : Scanner) (column : Int) : Scanner :=
  if s.inFlow then s else
  let (tokens, count, indent, indents) := closeBlocks column s.tokens s.count s.indent s.indents
  { s with tokens, count, indent, indents }

/-- Opens a block at a column that is deeper than the indentation. -/
def enter (s : Scanner) (column : Nat) (before : Nat) (t : Token) : Scanner :=
  if s.inFlow || decide ((column : Int) ≤ s.indent) then s
  else { s.insert before t with indent := column, indents := s.indent :: s.indents }

/-- Goes on behind a token that is no possible key. -/
def past (s : Scanner) (t : Token) (keyAllowed : Bool) (rest : List Spot) : Option Scanner := do
  let s ← s.dropKey
  return { s.push t with keyAllowed, rest }

/-- Goes on behind a token with which a key may begin. -/
def pastKey (s : Scanner) (here : Spot) (t : Token) (rest : List Spot) : Option Scanner := do
  let s ← s.noteKey here
  return { s.push t with keyAllowed := false, rest }

/-- Opens a bracket. -/
def openBracket (s : Scanner) (here : Spot) (t : Token) (rest : List Spot) : Option Scanner := do
  let s ← s.noteKey here
  return { s.push t with keyAllowed := true, keys := none :: s.keys, rest }

/-- Closes a bracket. -/
def closeBracket (s : Scanner) (t : Token) (rest : List Spot) : Option Scanner := do
  let s ← s.past t false rest
  return if s.inFlow then { s with keys := s.keys.tail } else s

/-- The dash of a sequence. -/
def item (s : Scanner) (here : Spot) (rest : List Spot) : Option Scanner :=
  if s.inFlow then s.past .item true rest
  else if !s.keyAllowed then none
  else (s.enter here.column s.count .sequenceStart).past .item true rest

/-- The question mark in front of a key. -/
def markedKey (s : Scanner) (here : Spot) (rest : List Spot) : Option Scanner :=
  if s.inFlow then s.past .key false rest
  else if !s.keyAllowed then none
  else (s.enter here.column s.count .mappingStart).past .key true rest

/-- The colon in front of a value. What was noted as a possible key becomes one. -/
def value (s : Scanner) (here : Spot) (rest : List Spot) : Option Scanner :=
  match s.keys with
  | some k :: ks =>
    let s := ({ s with keys := none :: ks }.insert k.before .key).enter k.spot.column k.before .mappingStart
    some { s.push .value with keyAllowed := false, rest }
  | _ =>
    if s.inFlow then some { s.push .value with keyAllowed := false, rest }
    else if !s.keyAllowed then none
    else some { (s.enter here.column s.count .mappingStart).push .value with keyAllowed := true, rest }

/-- A plain scalar. -/
def plainScalar (s : Scanner) (here : Spot) (all : List Spot) : Option Scanner := do
  let x ← plain s.inFlow (s.indent + 1) [] {} all
  let s ← s.pastKey here (.scalar x.text true) x.rest
  return if x.brokeLine then { s with keyAllowed := true } else s

/-- A character with which no plain scalar starts, unless another one follows closely. -/
def isIndicator (c : Char) : Bool := "-?:,[]{}#&*!|>'\"%@`".toList.contains c

/-- Reads the token at the front. -/
def take (s : Scanner) (here : Spot) (r : List Spot) : Option Scanner :=
  let all := here :: r
  let c := here.char
  let next := front r
  if here.column = 0 ∧ c = '%' then do
    let (t, rest) ← directive? r
    (s.leave (-1)).past t false rest
  else if isMarker '-' all then (s.leave (-1)).past .documentStart false (r.drop 2)
  else if isMarker '.' all then (s.leave (-1)).past .documentEnd false (r.drop 2)
  else if c = '[' then s.openBracket here .openSequence r
  else if c = '{' then s.openBracket here .openMapping r
  else if c = ']' then s.closeBracket .closeSequence r
  else if c = '}' then s.closeBracket .closeMapping r
  else if c = ',' then s.past .comma true r
  else if c = '-' ∧ isBlankOrEnd next then s.item here r
  else if c = '?' ∧ (s.inFlow ∨ isBlankOrEnd next) then s.markedKey here r
  else if c = ':' ∧ (s.inFlow ∨ isBlankOrEnd next) then s.value here r
  else if c = '*' then do
    let (name, rest) ← anchorName? r
    s.pastKey here (.alias name) rest
  else if c = '&' then do
    let (name, rest) ← anchorName? r
    s.pastKey here (.anchor name) rest
  else if c = '!' then do
    let (t, rest) ← tag? s.inFlow all
    s.pastKey here t rest
  else if (c = '|' ∨ c = '>') ∧ !s.inFlow then do
    let x ← block (c == '|') s.indent r
    s.past (.scalar x.text false) true x.rest
  else if c = '\'' then do
    let x ← singleQuoted [] {} r
    s.pastKey here (.scalar x.text false) x.rest
  else if c = '"' then do
    let x ← doubleQuoted [] {} none r
    s.pastKey here (.scalar x.text false) x.rest
  else if !isIndicator c && !isBlank c then s.plainScalar here all
  else if c = '-' ∧ !isBlank next then s.plainScalar here all
  else if (c = '?' ∨ c = ':') ∧ !s.inFlow then s.plainScalar here all
  else none

/-- Reads tokens to the end of the text. Each takes a character at least. -/
def run : (room : Nat) → Scanner → Option (List Token)
  | 0, _ => none
  | room + 1, s =>
    let (keyAllowed, rest) := skipBlanks s.inFlow s.keyAllowed false s.rest
    let s := { s with keyAllowed, rest }
    match rest with
    | [] => (s.leave (-1)).dropKey.map fun s => s.tokens.reverse
    | here :: r => do
      let keys ← dropStale here s.keys
      run room (← ({ s with keys }.leave here.column).take here r)

end Scanner

/-- Drops the mark that may open a text. -/
def dropByteOrderMark : List Char → List Char
  | [] => []
  | c :: cs => if c = byteOrderMark then cs else c :: cs

/-- The tokens of a text. -/
def tokens? (cs : List Char) : Option (List Token) :=
  let ss := spots (unifyBreaks (dropByteOrderMark cs))
  if !cs.all isAllowed then none else Scanner.run (ss.length + 1) { rest := ss }

end ChartOperator.Yaml
