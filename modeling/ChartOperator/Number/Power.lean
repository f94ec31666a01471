set_option autoImplicit false

/-!
# Powers of two and ten

The powers that number formats are made of, and the ranges of numbers of a fixed count of bits.
-/

namespace ChartOperator

/-- Two to a power. -/
def twoTo (n : Nat) : Nat := Nat.pow 2 n

/-- Ten to a power. -/
def tenTo (n : Nat) : Nat := Nat.pow 10 n

/-- The least signed number of so many bits. -/
def leastSigned (bits : Nat) : Int := -(twoTo (bits - 1) : Nat)

/-- The greatest signed number of so many bits. -/
def greatestSigned (bits : Nat) : Int := (twoTo (bits - 1) : Nat) - 1

theorem twoTo_succ (n : Nat) : twoTo (n + 1) = twoTo n * 2 := rfl

theorem twoTo_pos (n : Nat) : 0 < twoTo n := by
  induction n with
  | zero => decide
  | succ n ih =>
    rw [twoTo_succ]
    omega

end ChartOperator
