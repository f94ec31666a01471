import ChartOperator.Number.Power

set_option autoImplicit false

/-!
# Double precision numbers

The finite numbers `± significand · 2 ^ exponent` with 53 bits of precision, kept exactly. `ofRatio?`
rounds a quotient of natural numbers to the nearest of them, a tie to the one with the even
significand; a quotient beyond the largest is refused. Products and quotients of two numbers are the
rounded exact ones.
-/

namespace ChartOperator

/-- A quotient rounded to the nearest natural number, a half to the even neighbour. -/
def roundQuotient (num den : Nat) : Nat :=
  let q := num / den
  let r := num % den
  if 2 * r < den then q
  else if den < 2 * r then q + 1
  else if q % 2 = 0 then q else q + 1

/-- A finite number of double precision. The exponent is the least possible one, so that the
significand fills its 53 bits unless the exponent is the least of all. -/
structure Double where
  negative : Bool
  significand : Nat
  exponent : Int
  deriving DecidableEq, Repr, Inhabited

namespace Double

/-- The least exponent. -/
def minExponent : Int := -1074

/-- The greatest exponent. -/
def maxExponent : Int := 971

/-- Zero, with its sign. -/
def zero (negative : Bool) : Double := ⟨negative, 0, minExponent⟩

/-- Either zero. -/
def isZero (x : Double) : Bool := x.significand == 0

/-- Numbers that compare equal: the two zeros do. -/
def same (x y : Double) : Bool := x == y || (x.isZero && y.isZero)

/-- A quotient in units of two to the power of an exponent. -/
def scaled (num den : Nat) (exponent : Int) : Nat × Nat :=
  if 0 ≤ exponent then (num, den * twoTo exponent.toNat) else (num * twoTo (-exponent).toNat, den)

/-- The exponent for which a quotient in its units lies between `2 ^ 52` and `2 ^ 53`. -/
def exponentOf (num den : Nat) : Int :=
  let guess : Int := (Nat.log2 num : Int) - Nat.log2 den - 52
  let (n, d) := scaled num den guess
  if n / d < twoTo 52 then guess - 1 else if twoTo 53 ≤ n / d then guess + 1 else guess

/-- The nearest number to a quotient, if there is a finite one. -/
def ofRatio? (negative : Bool) (num den : Nat) : Option Double :=
  if num = 0 then some (zero negative) else
  let e := max minExponent (exponentOf num den)
  let (n, d) := scaled num den e
  let m := roundQuotient n d
  let (m, e) := if m = twoTo 53 then (twoTo 52, e + 1) else (m, e)
  if maxExponent < e then none else some ⟨negative, m, e⟩

/-- The magnitude as a quotient. -/
def ratio (x : Double) : Nat × Nat :=
  if 0 ≤ x.exponent then (x.significand * twoTo x.exponent.toNat, 1)
  else (x.significand, twoTo (-x.exponent).toNat)

/-- The nearest number to a natural number. -/
def ofNat? (n : Nat) : Option Double := ofRatio? false n 1

/-- The rounded product. -/
def mul? (x y : Double) : Option Double :=
  let (a, b) := x.ratio
  let (c, d) := y.ratio
  ofRatio? (x.negative != y.negative) (a * c) (b * d)

/-- The rounded quotient; nothing is divided by zero. -/
def div? (x y : Double) : Option Double :=
  if y.isZero then none else
  let (a, b) := x.ratio
  let (c, d) := y.ratio
  ofRatio? (x.negative != y.negative) (a * d) (b * c)

/-- The same magnitude with a given sign. -/
def withSign (negative : Bool) (x : Double) : Double := { x with negative }

/-- The number nearest to `± digits · 10 ^ power`, with one rounding. -/
def ofDecimal? (negative : Bool) (digits : Nat) (power : Int) : Option Double :=
  if digits = 0 then some (zero negative)
  else if 400 < power then none
  else if power + (Nat.toDigits 10 digits).length < -400 then some (zero negative)
  else if 0 ≤ power then ofRatio? negative (digits * tenTo power.toNat) 1
  else ofRatio? negative digits (tenTo (-power).toNat)

theorem same_self (x : Double) : x.same x = true := by simp [same]

end Double

end ChartOperator
