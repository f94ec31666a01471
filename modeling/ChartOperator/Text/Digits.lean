set_option autoImplicit false

/-!
# Decimal digits

Reading and writing natural numbers in base ten over lists of characters. The text of a number reads
back (`readNat?_decimal`).
-/

namespace ChartOperator.Text

/-- One of the ten ASCII digits. -/
def isDigit (c : Char) : Bool := decide ('0' ≤ c) && decide (c ≤ '9')

/-- The value of a digit. -/
def digitValue (c : Char) : Nat := c.toNat - '0'.toNat

/-- The number that a list of digits writes, most significant first. -/
def ofDigits (cs : List Char) : Nat := cs.foldl (fun n c => 10 * n + digitValue c) 0

/-- The digits of a number, without leading zeros. -/
def digits (n : Nat) : List Char := Nat.toDigits 10 n

/-- The digits of a number with zeros in front, at least `width` of them. -/
def paddedDigits (width n : Nat) : List Char :=
  let ds := digits n
  List.replicate (width - ds.length) '0' ++ ds

/-- The text of a number. -/
def decimal (n : Nat) : String := String.ofList (digits n)

/-- The text of an integer, with a sign only in front of a negative one. -/
def signedDecimal (n : Int) : String :=
  match n with
  | .ofNat m => decimal m
  | .negSucc m => "-" ++ decimal (m + 1)

/-- The number that a non-empty text of digits writes; anything else is not a number. -/
def readNat? (cs : List Char) : Option Nat :=
  if cs.isEmpty || !cs.all isDigit then none else some (ofDigits cs)

/-- The digits of a number write it. -/
theorem ofDigits_digits (n : Nat) : ofDigits (digits n) = n := by
  rw [ofDigits, digits]
  exact Nat.ofDigitChars_eq_foldl.symm.trans Nat.ofDigitChars_ten_toDigits

theorem isDigit_of_mem_digits {n : Nat} {c : Char} (h : c ∈ digits n) : isDigit c = true :=
  Nat.isDigit_of_mem_toDigits (by omega) (by omega) h

/-- The text of a number reads back. -/
theorem readNat?_decimal (n : Nat) : readNat? (decimal n).toList = some n := by
  have hall : (digits n).all isDigit = true := List.all_eq_true.2 fun _ => isDigit_of_mem_digits
  have hne : (digits n).isEmpty = false := List.isEmpty_eq_false_iff.2 Nat.toDigits_ne_nil
  simp [readNat?, decimal, hall, hne, ofDigits_digits]

end ChartOperator.Text
