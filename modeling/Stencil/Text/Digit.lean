namespace Stencil.Text

/-! # Digits

The digits of ASCII as numbers. Letters count on from nine where the base has room for them.
-/

/-- Value of a digit in a base of ten or sixteen. -/
def digit? (base : Nat) (c : Char) : Option Nat :=
  if c.isDigit then some (c.toNat - '0'.toNat)
  else if base = 16 && 'a' ≤ c && c ≤ 'f' then some (c.toNat - 'a'.toNat + 10)
  else if base = 16 && 'A' ≤ c && c ≤ 'F' then some (c.toNat - 'A'.toNat + 10)
  else none

end Stencil.Text
