import ChartOperator.Text.Digits

set_option autoImplicit false

/-!
# Semantic versions

A version is three numbers, a list of pre-release identifiers and a list of build identifiers. They
order by the numbers, then by the pre-release (a release stands above its own pre-releases) and last
by the build, so that two versions compare equal only when they are the same text.

Identifiers are kept as they were written: build identifiers may have leading zeros, which tell two
builds of equal value apart.
-/

namespace ChartOperator

/-- A dot-separated part of a pre-release or of build metadata. -/
abbrev Identifier := List Char

namespace Identifier

/-- An identifier of digits alone. The identifier without characters counts as one. -/
def isNumeric (i : Identifier) : Bool := i.all Text.isDigit

/-- Comparison of two texts, character by character. -/
def compareText : List Char → List Char → Ordering
  | [], [] => .eq
  | [], _ :: _ => .lt
  | _ :: _, [] => .gt
  | a :: as, b :: bs => if a < b then .lt else if b < a then .gt else compareText as bs

/-- Pre-release identifiers: numbers by value and below words, words by their characters. -/
def comparePre (a b : Identifier) : Ordering :=
  match a.isNumeric, b.isNumeric with
  | false, true => .gt
  | true, false => .lt
  | false, false => compareText a b
  | true, true => (compare a.length b.length).then (compareText a b)

/-- A number without the zeros in front of it. -/
def significant (i : Identifier) : Identifier := i.dropWhile (· == '0')

/-- Build identifiers: as those of a pre-release, with equal numbers told apart by their leading
zeros, the shorter first. -/
def compareBuild (a b : Identifier) : Ordering :=
  match a.isNumeric, b.isNumeric with
  | false, true => .gt
  | true, false => .lt
  | false, false => compareText a b
  | true, true =>
    ((compare a.significant.length b.significant.length).then
      (compareText a.significant b.significant)).then (compare a.length b.length)

/-- Lists of identifiers, position by position; a list that goes on is above one that ends. -/
def compareLists (one : Identifier → Identifier → Ordering) : List Identifier → List Identifier → Ordering
  | [], [] => .eq
  | [], _ :: _ => .lt
  | _ :: _, [] => .gt
  | a :: as, b :: bs => (one a b).then (compareLists one as bs)

/-- Identifiers joined by dots. -/
def join : List Identifier → List Char
  | [] => []
  | [i] => i
  | i :: rest => i ++ '.' :: join rest

end Identifier

/-- A semantic version. Without a pre-release it is a release. -/
structure Version where
  major : Nat
  minor : Nat
  patch : Nat
  pre : List Identifier := []
  build : List Identifier := []
  deriving DecidableEq, Repr, Inhabited

namespace Version

/-- Pre-releases: that of a release is none at all, and stands above every other. -/
def comparePre : List Identifier → List Identifier → Ordering
  | [], [] => .eq
  | [], _ :: _ => .gt
  | _ :: _, [] => .lt
  | as, bs => Identifier.compareLists Identifier.comparePre as bs

/-- The total order of versions. -/
def order (a b : Version) : Ordering :=
  (compare a.major b.major).then <| (compare a.minor b.minor).then <| (compare a.patch b.patch).then <|
    (comparePre a.pre b.pre).then (Identifier.compareLists Identifier.compareBuild a.build b.build)

/-- The text of a version. -/
def text (v : Version) : String :=
  String.ofList (Text.digits v.major ++ '.' :: Text.digits v.minor ++ '.' :: Text.digits v.patch ++
    (if v.pre.isEmpty then [] else '-' :: Identifier.join v.pre) ++
    (if v.build.isEmpty then [] else '+' :: Identifier.join v.build))

end Version

end ChartOperator
