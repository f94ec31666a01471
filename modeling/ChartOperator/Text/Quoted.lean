import ChartOperator.Text.Printable

set_option autoImplicit false

/-!
# Quoted text

The form in which messages show a foreign text: between quotation marks, with the mark and the
backslash escaped, the common controls by letter and every other hidden character by its code point.
-/

namespace ChartOperator.Text

/-- The digit of a value below sixteen, in lower case. -/
def hexDigit (n : Nat) : Char :=
  if n < 10 then Char.ofNat ('0'.toNat + n) else Char.ofNat ('a'.toNat + (n - 10))

/-- A number in base sixteen, without leading zeros. -/
def hex (n : Nat) : List Char := (Nat.toDigits 16 n)

/-- One character inside quotation marks of the kind `mark`. -/
def quotedChar (mark : Char) (c : Char) : List Char :=
  if c = '\x00' then ['\\', '0']
  else if c = '\t' then ['\\', 't']
  else if c = '\r' then ['\\', 'r']
  else if c = '\n' then ['\\', 'n']
  else if c = '\\' ∨ c = mark then ['\\', c]
  else if isHidden c then ['\\', 'u', '\x7b'] ++ hex c.toNat ++ ['\x7d']
  else [c]

/-- A text between double quotation marks. -/
def quote (s : String) : String :=
  String.ofList ('"' :: s.toList.flatMap (quotedChar '"') ++ ['"'])

/-- A single character between apostrophes. -/
def quoteChar (c : Char) : String :=
  String.ofList ('\'' :: quotedChar '\'' c ++ ['\''])

/-- A visible character other than the mark and the backslash stands for itself. -/
theorem quotedChar_plain {mark c : Char} (lo : 0x20 ≤ c.toNat) (hi : c.toNat < 0x7f) (hm : c ≠ mark)
    (hb : c ≠ '\\') : quotedChar mark c = [c] := by
  have notControl : ∀ d : Char, d.toNat < 0x20 → c ≠ d := by
    intro d hd h
    subst h
    omega
  have h0 := notControl '\x00' (by decide)
  have h1 := notControl '\t' (by decide)
  have h2 := notControl '\r' (by decide)
  have h3 := notControl '\n' (by decide)
  simp [quotedChar, h0, h1, h2, h3, hm, hb, isHidden_ascii lo hi]

end ChartOperator.Text
