import ChartOperator.Number.Shortest

set_option autoImplicit false

/-!
# Numbers in data files

A number is an integer of 64 bits, signed or not, or a double. The two kinds are kept apart: `1` and
`1.0` are different numbers.

`Number.read?` takes the decimal text that JSON allows. A whole number that fits is an integer; any
other text becomes a double in two steps, each of which rounds: as many leading digits as fit 64 bits
are taken as the significand, and the significand is multiplied or divided by a power of ten.
-/

namespace ChartOperator

/-- A number of a data file. -/
inductive Number
  | int (value : Int)
  | real (value : Double)
  deriving DecidableEq, Repr, Inhabited

namespace Number

/-- The text of a number. -/
def text : Number → String
  | int n => Text.signedDecimal n
  | real x => x.text

/-- Equality of numbers: integers by value, doubles as doubles compare, never across. -/
def same : Number → Number → Bool
  | int a, int b => a == b
  | real a, real b => a.same b
  | _, _ => false

theorem same_self (n : Number) : n.same n = true := by
  cases n with
  | int a => simp [same]
  | real a => exact a.same_self

/-! ## Reading -/

/-- The unsigned numbers of 64 bits. -/
def wordLimit : Nat := twoTo 64

/-- The parts of a decimal text. -/
structure Parts where
  negative : Bool
  whole : List Char
  fraction : Option (List Char)
  exponent : Option (Bool × List Char)
  deriving Repr

/-- The exponent behind its mark: a sign, if any, and at least one digit. -/
def exponentPart? : List Char → Option (Bool × List Char)
  | '+' :: ds => if ds.isEmpty || !ds.all Text.isDigit then none else some (false, ds)
  | '-' :: ds => if ds.isEmpty || !ds.all Text.isDigit then none else some (true, ds)
  | ds => if ds.isEmpty || !ds.all Text.isDigit then none else some (false, ds)

/-- What follows the whole part: nothing, a fraction, an exponent, or both. -/
def tail? (cs : List Char) : Option (Option (List Char) × Option (Bool × List Char)) :=
  let (fraction?, rest) : Option (List Char) × List Char :=
    match cs with
    | '.' :: ds => (some (ds.takeWhile Text.isDigit), ds.dropWhile Text.isDigit)
    | cs => (none, cs)
  if fraction? == some [] then none else
  match rest with
  | [] => some (fraction?, none)
  | m :: rest =>
    if m = 'e' ∨ m = 'E' then (exponentPart? rest).map fun e => (fraction?, some e) else none

/-- Splits a decimal text. The whole part has a leading zero only when it is zero. -/
def parts? (cs : List Char) : Option Parts :=
  let (negative, cs) := match cs with
    | '-' :: rest => (true, rest)
    | cs => (false, cs)
  let whole := cs.takeWhile Text.isDigit
  if whole.isEmpty || (whole.head? == some '0' && decide (1 < whole.length)) then none else
  (tail? (cs.dropWhile Text.isDigit)).map fun (fraction, exponent) => ⟨negative, whole, fraction, exponent⟩

/-- Adds digits to a significand while it fits 64 bits, and gives the digits that were left out. -/
def absorb (significand : Nat) : List Char → Nat × List Char
  | [] => (significand, [])
  | d :: ds =>
    let next := 10 * significand + Text.digitValue d
    if next < wordLimit then absorb next ds else (significand, d :: ds)

/-- A power of ten, rounded. -/
def powerOfTen? (n : Nat) : Option Double := Double.ofDecimal? false 1 n

/-- The greatest power of ten that is finite. -/
def maxPower : Nat := 308

/-- A magnitude times a power of ten. Below the range of powers the magnitude is divided in steps;
after `room` steps it is zero. -/
def scale : (room : Nat) → Double → Int → Option Double
  | 0, x, _ => if x.isZero then some x else none
  | room + 1, x, power =>
    if power.natAbs ≤ maxPower then do
      let p ← powerOfTen? power.natAbs
      if 0 ≤ power then x.mul? p else x.div? p
    else if x.isZero then some x
    else if 0 ≤ power then none
    else do
      let p ← powerOfTen? maxPower
      scale room (← x.div? p) (power + maxPower)

/-- The greatest exponent that is looked at. -/
def exponentLimit : Nat := twoTo 31

/-- The double of a significand and a power of ten. -/
def ofSignificand? (negative : Bool) (significand : Nat) (power : Int) : Option Number := do
  let x ← scale 4 (← Double.ofNat? significand) power
  return real (x.withSign negative)

/-- The double that the parts of a text write, if it is finite. -/
def realOfParts? (p : Parts) : Option Number :=
  let (s, dropped) := absorb 0 p.whole
  let fraction := p.fraction.getD []
  let (s, left) := absorb s fraction
  let power : Int := (dropped.length : Int) - (fraction.length - left.length : Nat)
  match p.exponent with
  | none => ofSignificand? p.negative s power
  | some (down, ds) =>
    let e := Text.ofDigits ds
    if exponentLimit ≤ e then
      if s ≠ 0 ∧ !down then none else some (real (Double.zero p.negative))
    else ofSignificand? p.negative s (if down then power - e else power + e)

/-- Reads the decimal text of a number. -/
def read? (cs : List Char) : Option Number := do
  let p ← parts? cs
  if p.fraction.isNone && p.exponent.isNone then
    let n := Text.ofDigits p.whole
    if !p.negative && decide (n < wordLimit) then return int n
    if p.negative && decide (0 < n ∧ n ≤ twoTo 63) then return int (-n)
  realOfParts? p

end Number

end ChartOperator
