import ChartOperator.Number.Power
import ChartOperator.Text.Digits

set_option autoImplicit false

/-!
# Durations

A span of time counted in nanoseconds, and its text: the largest of the units s, ms, µs and ns whose
whole part is at least one, with decimals but without trailing zeros.
-/

namespace ChartOperator

/-- A span of time. -/
structure Duration where
  nanoseconds : Nat
  deriving DecidableEq, Repr, Inhabited

namespace Duration

/-- The number of nanoseconds in a second. -/
def perSecond : Nat := 1000000000

/-- So many whole seconds. -/
def ofSeconds (n : Nat) : Duration := ⟨n * perSecond⟩

/-- So many whole milliseconds. -/
def ofMilliseconds (n : Nat) : Duration := ⟨n * 1000000⟩

/-- The whole seconds of a duration; a started second does not count. -/
def seconds (d : Duration) : Nat := d.nanoseconds / perSecond

/-- The empty span. -/
def isZero (d : Duration) : Bool := d.nanoseconds == 0

/-- The longest duration: the seconds fill 64 bits, and the nanoseconds stay below a second. -/
def limit : Nat := twoTo 64 * perSecond

/-- A whole part and a fraction of `width` decimal places, without trailing zeros. -/
def fixedPoint (whole fraction width : Nat) : List Char :=
  let places := ((Text.paddedDigits width fraction).reverse.dropWhile (· == '0')).reverse
  Text.digits whole ++ (if places.isEmpty then [] else '.' :: places)

/-- The text of a duration. -/
def text (d : Duration) : String :=
  let n := d.nanoseconds
  if perSecond ≤ n then String.ofList (fixedPoint (n / perSecond) (n % perSecond) 9) ++ "s"
  else if 1000000 ≤ n then String.ofList (fixedPoint (n / 1000000) (n % 1000000) 6) ++ "ms"
  else if 1000 ≤ n then String.ofList (fixedPoint (n / 1000) (n % 1000) 3) ++ "µs"
  else String.ofList (Text.digits n) ++ "ns"

theorem seconds_ofSeconds (n : Nat) : (ofSeconds n).seconds = n := by
  simp [seconds, ofSeconds, perSecond]

theorem isZero_iff (d : Duration) : d.isZero = true ↔ d.nanoseconds = 0 := by
  simp [isZero]

example : (Duration.mk 90000000001).text = "90.000000001s" := by decide
example : (Duration.mk 1500000).text = "1.5ms" := by decide

end Duration

end ChartOperator
