namespace Stencil.Decimal

/-! # Binary significands

A finite double taken apart: its sign, and its magnitude as a whole number times a power of two.
Every exact computation on doubles goes through this form.
-/

/-- The number `significand · 2 ^ exponent`, negated when `negative`. -/
structure Binary where
  negative : Bool
  significand : Nat
  exponent : Int
deriving DecidableEq, Repr

/-- The bit above the 52 that a double stores of its significand. -/
def hiddenBit : Nat := 0x10000000000000

/-- Number of values that the exponent of a double can take. -/
def exponentFields : Nat := 0x800

/-- The bit of the sign. -/
def signBit : Nat := 0x8000000000000000

/-- The parts of a finite double. A subnormal has no hidden bit. -/
def Binary.ofFloat (x : Float) : Binary :=
  let bits : Nat := x.toBits.toNat
  let field : Nat := bits / hiddenBit % exponentFields
  let fraction : Nat := bits % hiddenBit
  { negative := decide (signBit ≤ bits)
    significand := if field = 0 then fraction else fraction + hiddenBit
    exponent := if field = 0 then -1074 else (field : Int) - 1075 }

/-- The double of given sign and magnitude `significand · 2 ^ exponent`, where the significand has
at most 53 bits and the exponent is that of some double. A normal number keeps its hidden bit out
of the bit pattern. -/
def Binary.toFloat (b : Binary) : Float :=
  let sign := if b.negative then signBit else 0
  let field := if b.significand < hiddenBit then 0 else (b.exponent + 1075).toNat
  Float.ofBits (UInt64.ofNat (sign + field * hiddenBit + b.significand % hiddenBit))

/-- The magnitude as a whole number; a fractional part is dropped. -/
def Binary.whole (b : Binary) : Nat :=
  if 0 ≤ b.exponent then b.significand <<< b.exponent.toNat
  else b.significand >>> (-b.exponent).toNat

/-- Whether the magnitude is a whole number. -/
def Binary.isWhole (b : Binary) : Bool :=
  0 ≤ b.exponent || b.whole <<< (-b.exponent).toNat == b.significand

end Stencil.Decimal
