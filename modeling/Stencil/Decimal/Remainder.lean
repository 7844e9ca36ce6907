import Stencil.Decimal.Binary
namespace Stencil.Decimal

/-! # Exact remainder

The remainder of a division of doubles whose quotient is cut to a whole number. It needs no
rounding: on the finer of the two binary grids it is a remainder of whole numbers.
-/

/-- The same number with as many of the 53 bits in use as the smallest exponent allows. -/
def Binary.normalize (b : Binary) : Binary :=
  let shift := min (52 - b.significand.log2) (b.exponent + 1074).toNat
  { b with significand := b.significand <<< shift, exponent := b.exponent - shift }

/-- Remainder of two finite numbers; the sign is that of the dividend. -/
def Binary.remainder (a b : Binary) : Binary :=
  let e := min a.exponent b.exponent
  let r := (a.significand <<< (a.exponent - e).toNat) % (b.significand <<< (b.exponent - e).toNat)
  if r = 0 then ⟨a.negative, 0, -1074⟩ else (Binary.mk a.negative r e).normalize

/-- Remainder of two doubles. An infinite dividend and a zero divisor have none, and an infinite
divisor leaves the dividend. -/
def remainder (x y : Float) : Float :=
  if x.isNaN || y.isNaN || x.isInf || y == 0 then 0.0 / 0.0
  else if y.isInf then x
  else ((Binary.ofFloat x).remainder (Binary.ofFloat y)).toFloat

end Stencil.Decimal
