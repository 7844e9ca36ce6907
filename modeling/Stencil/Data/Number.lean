import Stencil.Decimal.Reading
namespace Stencil.Data

/-! # Numbers of data text

A number written without point and exponent stays a whole number as long as it fits 64 bits; every
other number becomes a double.
-/

/-- A number in data. `1` and `1.0` are different numbers. -/
inductive Number
  | whole (n : Int)
  | real (x : Float)

/-- The number as a double. -/
def Number.toFloat : Number → Float
  | .whole n => Float.ofInt n
  | .real x => x

/-- Equality of numbers: of the same kind, and equal in value. -/
def Number.same : Number → Number → Bool
  | .whole m, .whole n => m == n
  | .real x, .real y => x == y
  | _, _ => false

/-- The characters of a number as they stand in data text. -/
structure NumberLiteral where
  negative : Bool
  whole : List Char
  /-- Digits after the point; none without a point. -/
  places : Option (List Char)
  /-- Whether the exponent is negative, and its digits. -/
  exponent : Option (Bool × List Char)

/-- Largest magnitude of a negative whole number. -/
def negativeLimit : Nat := 0x8000000000000000

/-- Largest whole number that a significand can hold. -/
def significandLimit : Nat := 0xFFFFFFFFFFFFFFFF

/-- Takes digits into a significand as long as it stays within its limit; also the digits left. -/
def takeDigits (significand : Nat) : List Char → Nat × List Char
  | [] => (significand, [])
  | d :: ds =>
    let next := Decimal.digitsValue significand [d]
    if next ≤ significandLimit then takeDigits next ds else (significand, d :: ds)

/-- Divides by a power of ten, by `10 ^ 308` at a time. -/
def divideByPower (x : Float) (k : Nat) : Float :=
  if k ≤ 308 then x / Float.ofScientific 1 false k
  else if x == 0 then x
  else divideByPower (x / Float.ofScientific 1 false 308) (k - 308)
termination_by k

/-- The double of a significand and a power of ten: one multiplication or division, so that a long
number may miss the nearest double by a little. None if it is too large. -/
def scaled (significand : Nat) (e : Int) : Option Float :=
  let x := (UInt64.ofNat significand).toFloat
  if e < 0 then some (divideByPower x e.natAbs)
  else if e ≤ 308 then
    let y := x * Float.ofScientific 1 false e.natAbs
    if y.isInf then none else some y
  else if x == 0 then some x
  else none

/-- Exponents beyond this are not computed with. -/
def exponentLimit : Nat := 0x7FFFFFFF

/-- Magnitude of a literal that is not a whole number within 64 bits. Digits that the significand
cannot hold count as zeros before the point and are dropped after it. -/
def NumberLiteral.magnitude (l : NumberLiteral) : Option Float :=
  let (front, beyond) := takeDigits 0 l.whole
  let places := l.places.getD []
  let (significand, dropped) := takeDigits front places
  let start : Int := beyond.length - (places.length - dropped.length : Nat)
  match l.exponent with
  | none => scaled significand start
  | some (down, ds) =>
    let e := Decimal.digitsValue 0 ds
    if exponentLimit < e then if significand ≠ 0 && !down then none else some 0.0
    else scaled significand (if down then start - e else start + e)

/-- Value of a literal; none if it is too large for a double. -/
def NumberLiteral.value (l : NumberLiteral) : Option Number :=
  let real := l.magnitude.map fun x => Number.real (if l.negative then -x else x)
  if l.places.isSome || l.exponent.isSome then real
  else
    let n := Decimal.digitsValue 0 l.whole
    if l.negative then
      if n ≠ 0 && n ≤ negativeLimit then some (.whole (-n)) else real
    else if n ≤ significandLimit then some (.whole n) else real

end Stencil.Data
