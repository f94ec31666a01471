import ChartOperator.Yaml.Spot
import ChartOperator.Json.Reader

set_option autoImplicit false

/-!
# Scalars of a YAML text

The five spellings of a scalar: plain, in single quotes, in double quotes, and the literal and the
folded block. In the first three a run of white space between words is a `Gap`: blanks are kept, but
a gap that holds a line break is folded, to one space or to the empty lines that it holds.
-/

namespace ChartOperator.Yaml

/-- What a scalar leaves: its text, whether a line break was passed behind it, and the rest. -/
structure Scalar where
  text : List Char
  brokeLine : Bool
  rest : List Spot

/-- White space inside a scalar: the blanks of a gap without line break, else its first line break, if
it counts, and the ones that follow. -/
structure Gap where
  blanks : List Char := []
  broken : Bool := false
  first : List Char := []
  later : List Char := []

namespace Gap

/-- A gap grows by a blank. -/
def space (g : Gap) (c : Char) : Gap := if g.broken then g else { g with blanks := g.blanks ++ [c] }

/-- A gap grows by a line break. -/
def newline (g : Gap) (c : Char) : Gap :=
  if g.broken then { g with later := g.later ++ [c] } else { broken := true, first := [c] }

/-- The gap of an escaped line break, which itself leaves nothing. -/
def escaped : Gap := { broken := true }

/-- What a gap leaves in the text. -/
def folded (g : Gap) : List Char :=
  if !g.broken then g.blanks
  else if g.first == ['\n'] then (if g.later.isEmpty then [' '] else g.later)
  else g.first ++ g.later

end Gap

/-- Reads a plain scalar inside a bracketed collection or not, on lines whose indentation is at least
`indent`. `done` holds the characters read, last first. -/
def plain (flow : Bool) (indent : Int) (done : List Char) (gap : Gap) : List Spot → Option Scalar
  | [] => some ⟨done.reverse, gap.broken, []⟩
  | s :: r =>
    let c := s.char
    let next := front r
    if isBreak c then plain flow indent done (gap.newline c) r
    else if isBlank c then
      if gap.broken && decide ((s.column : Int) < indent) && c == '\t' then none
      else plain flow indent done (gap.space c) r
    else
      let resumes := gap.broken || !gap.blanks.isEmpty
      if resumes && ((!flow && decide ((s.column : Int) < indent)) || isDocumentMarker (s :: r) || c == '#') then
        some ⟨done.reverse, gap.broken, s :: r⟩
      else if flow && c == ':' && (isFlowIndicator next || next == '?') then none
      else if (c == ':' && isBlankOrEnd next) || (flow && isFlowIndicator c) then
        some ⟨done.reverse, gap.broken, s :: r⟩
      else plain flow indent (c :: (gap.folded.reverse ++ done)) {} r

/-- Reads a scalar in single quotes, from behind the opening one. -/
def singleQuoted (done : List Char) (gap : Gap) : List Spot → Option Scalar
  | [] => none
  | s :: r =>
    let c := s.char
    if isDocumentMarker (s :: r) then none
    else if isBreak c then singleQuoted done (gap.newline c) r
    else if isBlank c then singleQuoted done (gap.space c) r
    else
      let done := gap.folded.reverse ++ done
      if c != '\'' then singleQuoted (c :: done) {} r
      else match r with
        | q :: r' => if q.char == '\'' then singleQuoted ('\'' :: done) {} r' else some ⟨done.reverse, false, q :: r'⟩
        | [] => some ⟨done.reverse, false, []⟩

/-- The character that a letter stands for behind a backslash. -/
def escapedChar? : Char → Option Char
  | '0' => some '\x00'
  | 'a' => some '\x07'
  | 'b' => some '\x08'
  | 't' => some '\t'
  | '\t' => some '\t'
  | 'n' => some '\n'
  | 'v' => some '\x0b'
  | 'f' => some '\x0c'
  | 'r' => some '\r'
  | 'e' => some '\x1b'
  | ' ' => some ' '
  | '"' => some '"'
  | '/' => some '/'
  | '\\' => some '\\'
  | 'N' => some '\x85'
  | '_' => some '\xa0'
  | 'L' => some '\u2028'
  | 'P' => some '\u2029'
  | _ => none

/-- How many hexadecimal digits follow a letter behind a backslash. -/
def escapeWidth? : Char → Option Nat
  | 'x' => some 2
  | 'u' => some 4
  | 'U' => some 8
  | _ => none

/-- The character of a code point, unless it is one half of a surrogate pair or out of range. -/
def charOfCode? (n : Nat) : Option Char := if n.isValidChar then some (Char.ofNat n) else none

/-- Reads a scalar in double quotes, from behind the opening one. `code` holds how many hexadecimal
digits of a character are still to come, and the value of those read. -/
def doubleQuoted (done : List Char) (gap : Gap) (code : Option (Nat × Nat)) : List Spot → Option Scalar
  | [] => none
  | s :: r =>
    let c := s.char
    match code with
    | some (left, value) =>
      match Json.hexValue? c with
      | none => none
      | some d =>
        let value := 16 * value + d
        if 1 < left then doubleQuoted done {} (some (left - 1, value)) r
        else match charOfCode? value with
          | none => none
          | some c => doubleQuoted (c :: done) {} none r
    | none =>
      if isDocumentMarker (s :: r) then none
      else if isBreak c then doubleQuoted done (gap.newline c) none r
      else if isBlank c then doubleQuoted done (gap.space c) none r
      else
        let done := gap.folded.reverse ++ done
        if c == '"' then some ⟨done.reverse, false, r⟩
        else if c != '\\' then doubleQuoted (c :: done) {} none r
        else match r with
          | [] => none
          | e :: r' =>
            if isBreak e.char then doubleQuoted done Gap.escaped none r'
            else match escapeWidth? e.char with
              | some n => doubleQuoted done {} (some (n, 0)) r'
              | none => match escapedChar? e.char with
                | some c => doubleQuoted (c :: done) {} none r'
                | none => none

/-! ## Blocks -/

/-- What becomes of the line breaks at the end of a block. -/
inductive Chomping
  | strip | clip | keep
  deriving DecidableEq, Repr

/-- The two marks behind the opening of a block, in either order: chomping and indentation. -/
def blockHeader? (rest : List Spot) : Option (Chomping × Nat × List Spot) :=
  let chomping? (c : Char) : Option Chomping :=
    if c == '+' then some .keep else if c == '-' then some .strip else none
  let indent? (rest : List Spot) : Option (Nat × List Spot) :=
    let c := front rest
    if !Text.isDigit c then some (0, rest)
    else if c == '0' then none
    else some (Text.digitValue c, rest.drop 1)
  match chomping? (front rest) with
  | some k => (indent? (rest.drop 1)).map fun (n, r) => (k, n, r)
  | none => (indent? rest).map fun (n, r) =>
    if n = 0 then (.clip, 0, r)
    else match chomping? (front r) with
      | some k => (k, n, r.drop 1)
      | none => (.clip, n, r)

/-- Empty lines and indentation: the line breaks, the greatest column reached, and the rest. A zero
`indent` is one that is still to be found. -/
def blankLines (indent deepest : Nat) (breaks : List Char) : List Spot → Option (List Char × Nat × List Spot)
  | [] => some (breaks, deepest, [])
  | s :: r =>
    let inside := indent == 0 || decide (s.column < indent)
    if s.char == ' ' && inside then blankLines indent deepest breaks r
    else
      let deepest := max deepest s.column
      if s.char == '\t' && inside then none
      else if isBreak s.char then blankLines indent deepest (breaks ++ [s.char]) r
      else some (breaks, deepest, s :: r)

/-- The lines of a block of a found indentation. `text` is what was read; `leading` is the line break
before the line at hand, `trailing` the empty lines behind it, and `afterBlank` says that the line
before began with a blank, which keeps its break from being folded. -/
def blockLines (literal : Bool) (indent : Nat) :
    (room : Nat) → (text leading trailing : List Char) → (afterBlank : Bool) → List Spot →
      Option (List Char × List Char × List Char × List Spot)
  | 0, text, leading, trailing, _, rest => some (text, leading, trailing, rest)
  | room + 1, text, leading, trailing, afterBlank, rest =>
    match rest with
    | [] => some (text, leading, trailing, [])
    | s :: _ =>
      if s.column ≠ indent then some (text, leading, trailing, rest) else
      let blank := isBlank s.char
      let joint :=
        if !literal && leading == ['\n'] && !afterBlank && !blank then
          (if trailing.isEmpty then [' '] else trailing)
        else leading ++ trailing
      let line := takeChars (fun c => !isBreak c) rest
      let rest := dropChars (fun c => !isBreak c) rest
      let leading := (rest.take 1).map Spot.char
      match blankLines indent 0 [] (rest.drop 1) with
      | none => none
      | some (trailing, _, rest) =>
        blockLines literal indent room (text ++ joint ++ line) leading trailing blank rest

/-- Reads a block, from behind its opening mark, inside a collection indented by `parent` columns (`-1`
outside of all). -/
def block (literal : Bool) (parent : Int) (rest : List Spot) : Option Scalar := do
  let (chomping, given, rest) ← blockHeader? rest
  let rest ← endOfLine? rest
  let given := if given = 0 then 0 else parent.toNat + given
  let (trailing, deepest, rest) ← blankLines given 0 [] rest
  let indent := if given = 0 then max deepest (max (parent + 1).toNat 1) else given
  let (text, leading, trailing, rest) ← blockLines literal indent rest.length [] [] trailing false rest
  let ending := match chomping with
    | .strip => []
    | .clip => leading
    | .keep => leading ++ trailing
  return ⟨text ++ ending, false, rest⟩

end ChartOperator.Yaml
