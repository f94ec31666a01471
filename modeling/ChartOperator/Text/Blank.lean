set_option autoImplicit false

/-!
# White space

The characters with the Unicode property `White_Space`, and trimming by it.
-/

namespace ChartOperator.Text

/-- A character with the Unicode property `White_Space`. -/
def isBlank (c : Char) : Bool :=
  let n := c.toNat
  (0x9 ≤ n && n ≤ 0xd) || n == 0x20 || n == 0x85 || n == 0xa0 || n == 0x1680 ||
    (0x2000 ≤ n && n ≤ 0x200a) || n == 0x2028 || n == 0x2029 || n == 0x202f || n == 0x205f || n == 0x3000

/-- Text without its leading blanks. -/
def trimStart (cs : List Char) : List Char := cs.dropWhile isBlank

/-- Text without its trailing blanks. -/
def trimEnd (cs : List Char) : List Char := (cs.reverse.dropWhile isBlank).reverse

/-- Text without the blanks at either end. -/
def trim (s : String) : String := String.ofList (trimEnd (trimStart s.toList))

/-- Text that holds nothing but blanks. -/
def isBlankText (s : String) : Bool := s.toList.all isBlank

theorem trimStart_of_not_blank {c : Char} {rest : List Char} (h : isBlank c = false) :
    trimStart (c :: rest) = c :: rest := by
  simp [trimStart, h]

end ChartOperator.Text
