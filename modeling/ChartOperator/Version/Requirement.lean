import ChartOperator.Version.Reader

set_option autoImplicit false

/-!
# Requirements on versions

A requirement is a list of comparators that a version must all satisfy; the empty list, written `*`,
is satisfied by every release. A pre-release satisfies a requirement only if some comparator names a
pre-release of the very same three numbers.
-/

namespace ChartOperator

/-- The relation that a comparator asks for. -/
inductive Relation
  | exact | greater | greaterEq | less | lessEq | tilde | caret | wildcard
  deriving DecidableEq, Repr

/-- A relation as it is written in front of a version. -/
def Relation.text : Relation → String
  | .exact => "="
  | .greater => ">"
  | .greaterEq => ">="
  | .less => "<"
  | .lessEq => "<="
  | .tilde => "~"
  | .caret => "^"
  | .wildcard => ""

/-- A relation to a version whose minor and patch numbers may be left open. -/
structure Comparator where
  relation : Relation
  major : Nat
  minor : Option Nat
  patch : Option Nat
  pre : List Identifier
  deriving DecidableEq, Repr

namespace Comparator

/-- A number behind a dot; the wildcard writes a star for one that is open. -/
def numberText (relation : Relation) : Option Nat → List Char
  | some n => '.' :: Text.digits n
  | none => if relation = .wildcard then ['.', '*'] else []

/-- The normalized text of a comparator. -/
def text (c : Comparator) : String :=
  c.relation.text ++ String.ofList (Text.digits c.major ++ numberText c.relation c.minor ++
    (if c.minor.isNone then [] else
      numberText c.relation c.patch ++
        (if c.patch.isNone || c.pre.isEmpty then [] else '-' :: Identifier.join c.pre)))

/-- An open number fits every number. -/
def fits (wanted : Option Nat) (n : Nat) : Bool :=
  match wanted with
  | none => true
  | some m => n == m

/-- The numbers that are given agree, and so does the pre-release. -/
def isExact (c : Comparator) (v : Version) : Bool :=
  v.major == c.major && fits c.minor v.minor && fits c.patch v.patch && v.pre == c.pre

/-- Above every version that the comparator's numbers leave open. -/
def isAbove (c : Comparator) (v : Version) : Bool :=
  if v.major != c.major then decide (c.major < v.major) else
  match c.minor with
  | none => false
  | some minor =>
    if v.minor != minor then decide (minor < v.minor) else
    match c.patch with
    | none => false
    | some patch =>
      if v.patch != patch then decide (patch < v.patch) else Version.comparePre v.pre c.pre == .gt

/-- Below every version that the comparator's numbers leave open. -/
def isBelow (c : Comparator) (v : Version) : Bool :=
  if v.major != c.major then decide (v.major < c.major) else
  match c.minor with
  | none => false
  | some minor =>
    if v.minor != minor then decide (v.minor < minor) else
    match c.patch with
    | none => false
    | some patch =>
      if v.patch != patch then decide (v.patch < patch) else Version.comparePre v.pre c.pre == .lt

/-- The same major and minor number, and a patch that is no lower. -/
def isTilde (c : Comparator) (v : Version) : Bool :=
  if v.major != c.major then false else
  if !fits c.minor v.minor then false else
  match c.patch with
  | none => Version.comparePre v.pre c.pre != .lt
  | some patch =>
    if v.patch != patch then decide (patch < v.patch) else Version.comparePre v.pre c.pre != .lt

/-- No lower, and the leftmost number other than zero is the same. -/
def isCaret (c : Comparator) (v : Version) : Bool :=
  if v.major != c.major then false else
  match c.minor with
  | none => true
  | some minor =>
    match c.patch with
    | none => if 0 < c.major then decide (minor ≤ v.minor) else v.minor == minor
    | some patch =>
      if 0 < c.major then
        if v.minor != minor then decide (minor < v.minor)
        else if v.patch != patch then decide (patch < v.patch)
        else Version.comparePre v.pre c.pre != .lt
      else if 0 < minor then
        if v.minor != minor then false
        else if v.patch != patch then decide (patch < v.patch)
        else Version.comparePre v.pre c.pre != .lt
      else if v.minor != minor || v.patch != patch then false
      else Version.comparePre v.pre c.pre != .lt

/-- Whether a version stands in the comparator's relation. -/
def holds (c : Comparator) (v : Version) : Bool :=
  match c.relation with
  | .exact | .wildcard => c.isExact v
  | .greater => c.isAbove v
  | .greaterEq => c.isExact v || c.isAbove v
  | .less => c.isBelow v
  | .lessEq => c.isExact v || c.isBelow v
  | .tilde => c.isTilde v
  | .caret => c.isCaret v

/-- The comparator names a pre-release of the version's own three numbers. -/
def admitsPre (c : Comparator) (v : Version) : Bool :=
  c.major == v.major && c.minor == some v.minor && c.patch == some v.patch && !c.pre.isEmpty

end Comparator

/-- Comparators that have to hold together. -/
structure Requirement where
  comparators : List Comparator
  deriving DecidableEq, Repr

namespace Requirement

/-- The normalized text of a requirement. -/
def text (r : Requirement) : String :=
  if r.comparators.isEmpty then "*" else ", ".intercalate (r.comparators.map Comparator.text)

/-- Whether a version satisfies a requirement. -/
def holds (r : Requirement) (v : Version) : Bool :=
  r.comparators.all (·.holds v) && (v.pre.isEmpty || r.comparators.any (·.admitsPre v))

/-! ## Reading -/

/-- Text without its leading spaces; no other blank is skipped in a requirement. -/
def skipSpaces (cs : List Char) : List Char := cs.dropWhile (· == ' ')

/-- A character that stands for any number. -/
def wildcard? : List Char → Option (Char × List Char)
  | c :: rest => if c = '*' ∨ c = 'x' ∨ c = 'X' then some (c, rest) else none
  | [] => none

/-- The relation in front of a version, `none` when it is left out. -/
def relation? : List Char → Option Relation × List Char
  | '=' :: rest => (some .exact, rest)
  | '>' :: '=' :: rest => (some .greaterEq, rest)
  | '>' :: rest => (some .greater, rest)
  | '<' :: '=' :: rest => (some .lessEq, rest)
  | '<' :: rest => (some .less, rest)
  | '~' :: rest => (some .tilde, rest)
  | '^' :: rest => (some .caret, rest)
  | cs => (none, cs)

/-- The number behind an optional dot: absent, a wildcard, or given. -/
inductive Place
  | absent
  | wild
  | given (n : Nat)
  deriving DecidableEq, Repr

/-- The number at a place, if it is given. -/
def Place.number? : Place → Option Nat
  | .given n => some n
  | _ => none

/-- A further number of a comparator. Behind a wildcard only another wildcard may follow. -/
def place (part : VersionPart) (afterWild : Bool) :
    List Char → Except VersionError (Place × List Char)
  | '.' :: rest =>
    match wildcard? rest with
    | some (_, rest) => .ok (.wild, rest)
    | none =>
      if afterWild then .error .unexpectedAfterWildcard
      else do
        let (n, rest) ← Version.number part rest
        .ok (.given n, rest)
  | cs => .ok (.absent, cs)

/-- The last part of a comparator that was read. -/
def partRead (minor patch : Place) (pre build : List Identifier) : VersionPart :=
  if !build.isEmpty then .build
  else if !pre.isEmpty then .pre
  else if patch ≠ .absent then .patch
  else if minor ≠ .absent then .minor
  else .major

/-- One comparator, the part that it ends with, and the text behind it and its spaces. Build metadata
is read and forgotten. -/
def comparator (cs : List Char) : Except VersionError (Comparator × VersionPart × List Char) := do
  let (written, rest) := relation? cs
  let (major, rest) ← Version.number .major (skipSpaces rest)
  let (minor, rest) ← place .minor false rest
  -- a missing minor number leaves no place for a patch, so its dot is looked at where the minor's was
  let (patch, rest) ← place .patch (minor == .wild) rest
  let named := patch.number?.isSome
  let (pre, rest) ← if named then Version.marked '-' .pre rest else pure ([], rest)
  let (build, rest) ← if named then Version.marked '+' .build rest else pure ([], rest)
  let wild := minor == .wild || patch == .wild
  let relation := written.getD (if wild then .wildcard else .caret)
  return ({ relation, major, minor := minor.number?, patch := patch.number?, pre },
    partRead minor patch pre build, skipSpaces rest)

/-- A wildcard in a list of comparators is refused for what it is. -/
def explain (cs : List Char) (e : VersionError) : VersionError :=
  match wildcard? cs with
  | some (c, rest) =>
    match skipSpaces rest with
    | [] | ',' :: _ => .wildcardNotAlone c
    | _ => e
  | none => e

/-- At most so many comparators are read, `room` being left. -/
def conjunction : (room : Nat) → List Char → Except VersionError (List Comparator)
  | 0, _ => .error .tooManyComparators
  | room + 1, cs => do
    match comparator cs with
    | .error e => throw (explain cs e)
    | .ok (c, _, []) => return [c]
    | .ok (c, part, d :: rest) =>
      if d = ',' then
        let more ← conjunction room (skipSpaces rest)
        return c :: more
      else throw (.expectedComma part d)

/-- Reads a requirement. -/
def ofChars (cs : List Char) : Except VersionError Requirement := do
  let cs := skipSpaces cs
  match wildcard? cs with
  | some (c, rest) =>
    match skipSpaces rest with
    | [] => return ⟨[]⟩
    | ',' :: _ => throw (.wildcardNotAlone c)
    | _ => throw .unexpectedAfterWildcard
  | none => return ⟨← conjunction 32 cs⟩

/-- Reads the text of a requirement. -/
def read (s : String) : Except VersionError Requirement := ofChars s.toList

end Requirement

end ChartOperator
