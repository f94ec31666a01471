import ChartOperator.Number.Power
import ChartOperator.Version
import ChartOperator.Text.Quoted

set_option autoImplicit false

/-!
# Reading versions

A version text is `major.minor.patch`, then `-` and a pre-release, then `+` and build metadata, both
optional. Numbers have no leading zeros and fit 64 bits; numeric identifiers of a pre-release have no
leading zeros either. Every refusal names the part that was being read.
-/

namespace ChartOperator

/-- The parts of a version text, as messages name them. -/
inductive VersionPart
  | major | minor | patch | pre | build
  deriving DecidableEq, Repr

/-- The name of a part in a message. -/
def VersionPart.text : VersionPart → String
  | .major => "major version number"
  | .minor => "minor version number"
  | .patch => "patch version number"
  | .pre => "pre-release identifier"
  | .build => "build metadata"

/-- Why a text is no version, or no requirement on versions. -/
inductive VersionError
  | empty
  | unexpectedEnd (part : VersionPart)
  | unexpectedCharacter (part : VersionPart) (found : Char)
  | unexpectedAfter (part : VersionPart) (found : Char)
  | expectedComma (part : VersionPart) (found : Char)
  | leadingZero (part : VersionPart)
  | overflow (part : VersionPart)
  | emptySegment (part : VersionPart)
  | wildcardNotAlone (wildcard : Char)
  | unexpectedAfterWildcard
  | tooManyComparators
  deriving DecidableEq, Repr

/-- The wording of a refusal. -/
def VersionError.message : VersionError → String
  | .empty => "empty string, expected a semver version"
  | .unexpectedEnd p => "unexpected end of input while parsing " ++ p.text
  | .unexpectedCharacter p c => "unexpected character " ++ Text.quoteChar c ++ " while parsing " ++ p.text
  | .unexpectedAfter p c => "unexpected character " ++ Text.quoteChar c ++ " after " ++ p.text
  | .expectedComma p c => "expected comma after " ++ p.text ++ ", found " ++ Text.quoteChar c
  | .leadingZero p => "invalid leading zero in " ++ p.text
  | .overflow p => "value of " ++ p.text ++ " exceeds u64::MAX"
  | .emptySegment p => "empty identifier segment in " ++ p.text
  | .wildcardNotAlone c =>
    "wildcard req (" ++ String.singleton c ++ ") must be the only comparator in the version req"
  | .unexpectedAfterWildcard => "unexpected character after wildcard in version req"
  | .tooManyComparators => "excessive number of version comparators"

namespace Version

/-- The digits of a number behind `value`, which holds those before them; `started` tells whether
there was one. -/
def numberFrom (part : VersionPart) : Nat → Bool → List Char → Except VersionError (Nat × List Char)
  | value, true, [] => .ok (value, [])
  | _, false, [] => .error (.unexpectedEnd part)
  | value, started, c :: rest =>
    if Text.isDigit c then
      if started && value == 0 then .error (.leadingZero part)
      else
        let next := 10 * value + Text.digitValue c
        if next < twoTo 64 then numberFrom part next true rest else .error (.overflow part)
    else if started then .ok (value, c :: rest)
    else .error (.unexpectedCharacter part c)

/-- A number of a version and the text behind it. -/
def number (part : VersionPart) (cs : List Char) : Except VersionError (Nat × List Char) :=
  numberFrom part 0 false cs

/-- The text behind the dot that has to follow a number. -/
def afterDot (part : VersionPart) : List Char → Except VersionError (List Char)
  | '.' :: rest => .ok rest
  | c :: _ => .error (.unexpectedAfter part c)
  | [] => .error (.unexpectedEnd part)

/-- A character of an identifier. -/
def isIdentifierChar (c : Char) : Bool :=
  Text.isDigit c || (decide ('A' ≤ c) && decide (c ≤ 'Z')) || (decide ('a' ≤ c) && decide (c ≤ 'z')) || c == '-'

/-- A pre-release number with a zero in front. -/
def hasLeadingZero (part : VersionPart) (i : Identifier) : Bool :=
  part == .pre && i.isNumeric && decide (1 < i.length) && i.head? == some '0'

/-- Dot-separated identifiers. `done` are those already complete, `current` the characters of the one
being read, both reversed. Nothing at all is an empty list; a dot needs an identifier on both sides. -/
def identifiersFrom (part : VersionPart) (done : List Identifier) (current : List Char) :
    List Char → Except VersionError (List Identifier × List Char)
  | c :: rest =>
    if isIdentifierChar c then identifiersFrom part done (c :: current) rest
    else if current.isEmpty then
      if done.isEmpty && c != '.' then .ok ([], c :: rest) else .error (.emptySegment part)
    else if hasLeadingZero part current.reverse then .error (.leadingZero part)
    else if c == '.' then identifiersFrom part (current.reverse :: done) [] rest
    else .ok ((current.reverse :: done).reverse, c :: rest)
  | [] =>
    if current.isEmpty then
      if done.isEmpty then .ok ([], []) else .error (.emptySegment part)
    else if hasLeadingZero part current.reverse then .error (.leadingZero part)
    else .ok ((current.reverse :: done).reverse, [])

/-- The identifiers behind `mark`, of which there must be one; without the mark there are none. -/
def marked (mark : Char) (part : VersionPart) (cs : List Char) :
    Except VersionError (List Identifier × List Char) :=
  match cs with
  | c :: rest =>
    if c = mark then do
      let (ids, rest) ← identifiersFrom part [] [] rest
      if ids.isEmpty then .error (.emptySegment part) else .ok (ids, rest)
    else .ok ([], cs)
  | [] => .ok ([], [])

/-- The part that ends a version text, for the message about what follows it. -/
def lastPart (pre build : List Identifier) : VersionPart :=
  if !build.isEmpty then .build else if !pre.isEmpty then .pre else .patch

/-- Reads a version. -/
def ofChars (cs : List Char) : Except VersionError Version := do
  if cs.isEmpty then throw .empty
  let (major, rest) ← number .major cs
  let rest ← afterDot .major rest
  let (minor, rest) ← number .minor rest
  let rest ← afterDot .minor rest
  let (patch, rest) ← number .patch rest
  let (pre, rest) ← marked '-' .pre rest
  let (build, rest) ← marked '+' .build rest
  match rest with
  | [] => return { major, minor, patch, pre, build }
  | c :: _ => throw (.unexpectedAfter (lastPart pre build) c)

/-- Reads a version text. -/
def read (s : String) : Except VersionError Version := ofChars s.toList

-- Each of these versions is below those behind it.
example : (["0.9.10", "1.0.0-alpha", "1.0.0-alpha.1", "1.0.0-alpha.beta", "1.0.0-beta.2", "1.0.0-beta.11", "1.0.0",
    "1.0.0+1", "1.0.1"].mapM read).map (fun vs => decide (vs.Pairwise fun v v' => v.order v' = .lt)) = .ok true :=
  rfl

example : read "1.02.3" = .error (.leadingZero .minor) := rfl
example : read "18446744073709551616.0.0" = .error (.overflow .major) := rfl
example : read "1.2.3-rc.01" = .error (.leadingZero .pre) := rfl

end Version

end ChartOperator
