import ChartOperator.Number.Double
import ChartOperator.Text.Digits

set_option autoImplicit false

/-!
# The shortest decimal of a double

The fewest digits that read back to the same number, and among those of that length the nearest. A
number is tried on the decimal grids of 1, 2, … 17 digits: its two neighbours on a grid are the only
candidates, since any point of the grid that reads back lies beyond none of them.
-/

namespace ChartOperator.Double

/-- A decimal `digits · 10 ^ power`. -/
structure Decimal where
  digits : Nat
  power : Int
  deriving DecidableEq, Repr

/-- A decimal as a quotient. -/
def Decimal.ratio (d : Decimal) : Nat × Nat :=
  if 0 ≤ d.power then (d.digits * tenTo d.power.toNat, 1) else (d.digits, tenTo (-d.power).toNat)

/-- The order of two quotients. -/
def ratioLe (x y : Nat × Nat) : Bool := decide (x.1 * y.2 ≤ y.1 * x.2)

/-- A number of quarter units in the last place of `x`, as a quotient. -/
def quarters (x : Double) (n : Nat) : Nat × Nat :=
  let e := x.exponent - 2
  if 0 ≤ e then (n * twoTo e.toNat, 1) else (n, twoTo (-e).toNat)

/-- The number below `x` is only half as far away as the number above it. -/
def isLowerGapNarrow (x : Double) : Bool := x.significand == twoTo 52 && decide (minExponent < x.exponent)

/-- A quotient that rounds to `x`. The ends of the interval do if the significand is even. -/
def readsBack (x : Double) (q : Nat × Nat) : Bool :=
  let low := x.quarters (4 * x.significand - (if x.isLowerGapNarrow then 1 else 2))
  let high := x.quarters (4 * x.significand + 2)
  if x.significand % 2 = 0 then ratioLe low q && ratioLe q high
  else !ratioLe q low && !ratioLe high q

/-- The distance of two quotients, as a quotient. -/
def distance (x y : Nat × Nat) : Nat × Nat :=
  let a := x.1 * y.2
  let b := y.1 * x.2
  (if a ≤ b then b - a else a - b, x.2 * y.2)

/-- The number of places, `count` being counted already, by which `num` has to be shifted to reach
`den`. Doubles need fewer than the `room` that is given. -/
def placesToReach (den : Nat) : (room : Nat) → (count : Nat) → (num : Nat) → Nat
  | 0, count, _ => count
  | room + 1, count, num =>
    if den ≤ num then count else placesToReach den room (count + 1) (num * 10)

/-- The power of ten of the first digit of a quotient that is not zero. -/
def leadingPower (q : Nat × Nat) : Int :=
  if q.2 ≤ q.1 then (Nat.toDigits 10 (q.1 / q.2)).length - 1
  else -(placesToReach q.2 1100 0 q.1 : Int)

/-- The neighbour of `x` on the grid of a power of ten that reads back, the nearer of two. -/
def onGrid? (x : Double) (power : Int) : Option Decimal :=
  let (n, d) := x.ratio
  let below := if 0 ≤ power then n / (d * tenTo power.toNat) else n * tenTo (-power).toNat / d
  let candidate (c : Nat) : Option Decimal :=
    let t : Decimal := ⟨c, power⟩
    if x.readsBack t.ratio then some t else none
  match candidate below, candidate (below + 1) with
  | some a, some b =>
    let da := distance a.ratio (n, d)
    let db := distance b.ratio (n, d)
    if ratioLe da db then (if ratioLe db da && below % 2 = 1 then some b else some a) else some b
  | some a, none => some a
  | none, r => r

/-- The first grid from `count` digits on that holds a candidate; `room` grids are left. -/
def firstGrid (x : Double) (lead : Int) : (room : Nat) → (count : Nat) → Decimal
  | 0, _ => ⟨x.significand, 0⟩
  | room + 1, count =>
    match x.onGrid? (lead - count + 1) with
    | some d => d
    | none => firstGrid x lead room (count + 1)

/-- A decimal without zeros at its end. -/
def Decimal.trimmed (d : Decimal) : List Char × Int :=
  let ds := Text.digits d.digits
  let kept := (ds.reverse.dropWhile (· == '0')).reverse
  (kept, d.power + (ds.length - kept.length : Nat))

/-- The digits of the shortest decimal and the power of ten of the last. -/
def shortest (x : Double) : List Char × Int := (firstGrid x (leadingPower x.ratio) 17 1).trimmed

/-- How a decimal is laid out: the positions of the point that are written without an exponent. -/
structure Layout where
  /-- Up to so many places before the point. -/
  maxWhole : Int
  /-- Fewer than so many zeros behind it. -/
  maxZeros : Int
  deriving Repr

/-- The layout of numbers in data files: positional below `10 ^ 16` and from `10 ^ -5` on. -/
def dataLayout : Layout := ⟨16, 5⟩

/-- An exponent behind its mark, signed only when it is negative. -/
def exponentText (e : Int) : List Char := 'e' :: (Text.signedDecimal e).toList

/-- The text of a magnitude in a layout. A whole number ends in `.0`. -/
def layOut (l : Layout) (ds : List Char) (power : Int) : List Char :=
  let point := ds.length + power
  if 0 ≤ power ∧ point ≤ l.maxWhole then ds ++ List.replicate power.toNat '0' ++ ['.', '0']
  else if 0 < point ∧ point ≤ l.maxWhole then ds.take point.toNat ++ '.' :: ds.drop point.toNat
  else if -l.maxZeros < point ∧ point ≤ 0 then '0' :: '.' :: (List.replicate (-point).toNat '0' ++ ds)
  else
    (match ds with
      | [d] => [d]
      | d :: rest => d :: '.' :: rest
      | [] => ['0']) ++ exponentText (point - 1)

/-- The text of a number. -/
def text (x : Double) : String :=
  let magnitude :=
    if x.isZero then ['0', '.', '0']
    else
      let (ds, power) := x.shortest
      layOut dataLayout ds power
  String.ofList (if x.negative then '-' :: magnitude else magnitude)

end ChartOperator.Double
