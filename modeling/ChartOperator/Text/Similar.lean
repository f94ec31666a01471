set_option autoImplicit false

/-!
# Similar words

How alike two words are, after Jaro: characters match when they are equal and not too far apart, and the
matching characters of both words are compared in their order. The measure is an exact fraction between
zero and one.
-/

namespace ChartOperator.Text

/-- A fraction. -/
structure Ratio where
  numerator : Nat
  denominator : Nat
  deriving DecidableEq, Repr

namespace Ratio

/-- The first fraction is at most the second; denominators are positive. -/
def atMost (a b : Ratio) : Bool := decide (a.numerator * b.denominator ≤ b.numerator * a.denominator)

end Ratio

/-- Marks the first unmarked occurrence of a character between two places, `place` being that of the first
character. -/
def mark? (c : Char) (low high place : Nat) : List (Char × Bool) → Option (List (Char × Bool))
  | [] => none
  | (x, marked) :: rest =>
    if high < place then none
    else if low ≤ place ∧ x = c ∧ !marked then some ((x, true) :: rest)
    else (mark? c low high (place + 1) rest).map ((x, marked) :: ·)

/-- The matching characters of the first word, and the second word with its matches marked. -/
def matching (reach : Nat) : (place : Nat) → List Char → List (Char × Bool) → List Char × List (Char × Bool)
  | _, [], bs => ([], bs)
  | place, a :: as, bs =>
    match mark? a (place - reach) (place + reach) 0 bs with
    | none => matching reach (place + 1) as bs
    | some bs =>
      let (found, bs) := matching reach (place + 1) as bs
      (a :: found, bs)

/-- How alike two words are. -/
def likeness (a b : String) : Ratio :=
  let as := a.toList
  let bs := b.toList
  let (left, marked) := matching (max as.length bs.length / 2 - 1) 0 as (bs.map (·, false))
  let right := (marked.filter (·.2)).map (·.1)
  let swapped := ((left.zip right).filter fun (x, y) => x ≠ y).length / 2
  let (m, n, k) := (left.length, as.length, bs.length)
  if n = 0 ∧ k = 0 then ⟨1, 1⟩
  else if m = 0 then ⟨0, 1⟩
  else ⟨m * k * m + m * n * m + (m - swapped) * n * k, 3 * n * k * m⟩

/-- Words that are no more alike than this are not similar. -/
def similarity : Ratio := ⟨7, 10⟩

/-- The word most like a given one, if it is similar; the last of several. -/
def mostSimilar? (word : String) (words : List String) : Option String :=
  (words.foldl (fun best w =>
    let r := likeness word w
    if r.atMost similarity then best
    else
      match best with
      | none => some (w, r)
      | some (_, s) => if s.atMost r then some (w, r) else best) none).map (·.1)

end ChartOperator.Text
