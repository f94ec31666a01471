import ChartOperator.Text.Digits

set_option autoImplicit false

/-!
# The characters of a YAML text

The layout of YAML depends on lines and columns, so a text is read as a list of *spots*: each
character with its place. The line breaks are made one character each beforehand, and the null
character, which no text may hold, stands for the end of the text.
-/

namespace ChartOperator.Yaml

/-- A character that a text may hold: tab, line breaks and printable characters. -/
def isAllowed (c : Char) : Bool :=
  let n := c.toNat
  n == 0x09 || n == 0x0A || n == 0x0D || (decide (0x20 ≤ n) && decide (n ≤ 0x7E)) || n == 0x85 ||
  (decide (0xA0 ≤ n) && decide (n ≤ 0xD7FF)) || (decide (0xE000 ≤ n) && decide (n ≤ 0xFFFD)) ||
  decide (0x10000 ≤ n)

/-- The mark that may open a text. -/
def byteOrderMark : Char := '\uFEFF'

/-- Stands for the end of the text. -/
def endChar : Char := '\x00'

/-- A space or a tab. -/
def isBlank (c : Char) : Bool := c == ' ' || c == '\t'

/-- A character that ends a line, once the line breaks are made one character each. -/
def isBreak (c : Char) : Bool := c == '\n' || c == '\u2028' || c == '\u2029'

/-- A line break or the end of the text. -/
def isBreakOrEnd (c : Char) : Bool := isBreak c || c == endChar

/-- White space or the end of the text. -/
def isBlankOrEnd (c : Char) : Bool := isBlank c || isBreakOrEnd c

/-- A character of names: a letter, a digit, `_` or `-`. -/
def isNameChar (c : Char) : Bool := c.isAlphanum || c == '_' || c == '-'

/-- One of the brackets and the comma, which have a meaning inside a bracketed collection. -/
def isFlowIndicator (c : Char) : Bool := c == ',' || c == '[' || c == ']' || c == '{' || c == '}'

/-- Makes the line breaks one character each: a carriage return, alone or before a line feed, and the
next-line character become a line feed. -/
def unifyBreaks : List Char → List Char
  | [] => []
  | '\r' :: '\n' :: r => '\n' :: unifyBreaks r
  | '\r' :: r => '\n' :: unifyBreaks r
  | '\x85' :: r => '\n' :: unifyBreaks r
  | c :: r => c :: unifyBreaks r

/-- A character with its place: how many characters, lines and columns precede it. -/
structure Spot where
  char : Char
  index : Nat
  line : Nat
  column : Nat
  deriving Repr, Inhabited

/-- The spots of a text that starts at a place. -/
def spotsFrom (index line column : Nat) : List Char → List Spot
  | [] => []
  | c :: r =>
    ⟨c, index, line, column⟩ ::
      (if isBreak c then spotsFrom (index + 1) (line + 1) 0 r
       else spotsFrom (index + 1) line (column + 1) r)

/-- The spots of a text. -/
def spots (cs : List Char) : List Spot := spotsFrom 0 0 0 cs

/-- The character a number of places ahead. -/
def ahead (rest : List Spot) (n : Nat) : Char := ((rest[n]?).map Spot.char).getD endChar

/-- The character at the front. -/
def front (rest : List Spot) : Char := ahead rest 0

/-- The text of spots. -/
def chars (ss : List Spot) : List Char := ss.map Spot.char

/-- Drops the spots at the front whose characters have a property. -/
def dropChars (p : Char → Bool) (rest : List Spot) : List Spot := rest.dropWhile fun s => p s.char

/-- The characters at the front that have a property. -/
def takeChars (p : Char → Bool) (rest : List Spot) : List Char := chars (rest.takeWhile fun s => p s.char)

/-- A mark of three equal characters at the start of a line, followed by white space. -/
def isMarker (c : Char) (rest : List Spot) : Bool :=
  match rest with
  | s :: _ => s.column == 0 && s.char == c && ahead rest 1 == c && ahead rest 2 == c && isBlankOrEnd (ahead rest 3)
  | [] => false

/-- The start or the end of a document. -/
def isDocumentMarker (rest : List Spot) : Bool := isMarker '-' rest || isMarker '.' rest

/-- Drops a comment, if one stands at the front. -/
def dropComment (rest : List Spot) : List Spot :=
  if front rest == '#' then dropChars (fun c => !isBreak c) rest else rest

/-- Drops the blanks and the comment behind something, which must be all that its line holds. -/
def endOfLine? (rest : List Spot) : Option (List Spot) :=
  match dropComment (dropChars isBlank rest) with
  | [] => some []
  | s :: r => if isBreak s.char then some r else none

end ChartOperator.Yaml
