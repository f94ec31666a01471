set_option autoImplicit false

/-!
# Characters of bytes

Bytes are read as UTF-8. A sequence that breaks off, or that no character has, counts as one malformed
piece as far as it could still have become a character; the byte that breaks it is read afresh.

`ofBytes?` refuses malformed bytes, and `ofBytesLossy` puts the replacement character for each piece.
-/

namespace ChartOperator.Text

/-- A character that is not complete: its bits so far, how many bytes are to come, and the bounds of the
next one. -/
structure PartialChar where
  bits : Nat
  left : Nat
  lowest : Nat
  highest : Nat

/-- What a byte means that begins a character: a whole one, part of one, or nothing. -/
def beginChar (b : Nat) : Except PartialChar (Option Char) :=
  if b < 0x80 then .ok (some (Char.ofNat b))
  else if 0xC2 ≤ b ∧ b ≤ 0xDF then .error ⟨b - 0xC0, 1, 0x80, 0xBF⟩
  else if b = 0xE0 then .error ⟨0, 2, 0xA0, 0xBF⟩
  else if b = 0xED then .error ⟨0xD, 2, 0x80, 0x9F⟩
  else if 0xE1 ≤ b ∧ b ≤ 0xEF then .error ⟨b - 0xE0, 2, 0x80, 0xBF⟩
  else if b = 0xF0 then .error ⟨0, 3, 0x90, 0xBF⟩
  else if 0xF1 ≤ b ∧ b ≤ 0xF3 then .error ⟨b - 0xF0, 3, 0x80, 0xBF⟩
  else if b = 0xF4 then .error ⟨4, 3, 0x80, 0x8F⟩
  else .ok none

/-- The pieces of bytes, none for a malformed one. -/
def pieces : Option PartialChar → List UInt8 → List (Option Char)
  | none, [] => []
  | some _, [] => [none]
  | part?, byte :: rest =>
    let b := byte.toNat
    let afresh (_ : Unit) : List (Option Char) :=
      match beginChar b with
      | .ok piece => piece :: pieces none rest
      | .error part => pieces (some part) rest
    match part? with
    | none => afresh ()
    | some part =>
      if part.lowest ≤ b ∧ b ≤ part.highest then
        let bits := part.bits * 0x40 + (b - 0x80)
        if part.left ≤ 1 then some (Char.ofNat bits) :: pieces none rest
        else pieces (some ⟨bits, part.left - 1, 0x80, 0xBF⟩) rest
      else none :: afresh ()

/-- The characters of bytes, unless some are malformed. -/
def ofBytes? (bytes : List UInt8) : Option (List Char) := (pieces none bytes).mapM id

/-- The character that stands for malformed bytes. -/
def replacement : Char := '\uFFFD'

/-- The characters of bytes, malformed ones replaced. -/
def ofBytesLossy (bytes : List UInt8) : List Char := (pieces none bytes).map fun c => c.getD replacement

/-- The bytes of a text. -/
def toBytes (s : String) : List UInt8 := s.toUTF8.toList

example : ofBytesLossy [0x62, 0xff, 0xe2, 0x82, 0x64] = ['b', replacement, replacement, 'd'] := by decide
example : ofBytes? [0xe2, 0x82, 0xac] = some ['€'] := by decide

end ChartOperator.Text
