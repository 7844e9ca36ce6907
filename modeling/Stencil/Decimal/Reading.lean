namespace Stencil.Decimal

/-! # Reading decimals

Decimal text as a double, rounded correctly. A number has digits before or after its point, or on
both sides, and perhaps an exponent.
-/

/-- Value of a run of digits that follows the digits of `start`. -/
def digitsValue (start : Nat) (ds : List Char) : Nat :=
  ds.foldl (fun n d => 10 * n + (d.toNat - '0'.toNat)) start

/-- The double nearest to `n · 10 ^ e`. Far outside the range of doubles the exponent alone
decides. -/
def nearest (n : Nat) (e : Int) : Float :=
  let power : Int := (Nat.toDigits 10 n).length + e
  if n = 0 || power < -400 then 0.0
  else if 400 < power then 1.0 / 0.0
  else Float.ofScientific n (decide (e < 0)) e.natAbs

/-- The value of a text of digits, at least one. -/
def natural? (ds : List Char) : Option Nat :=
  if ds ≠ [] && ds.all Char.isDigit then some (digitsValue 0 ds) else none

/-- An exponent: its mark, perhaps a sign, and digits up to the end. No text at all is the exponent
zero. -/
def exponent? : List Char → Option Int
  | [] => some 0
  | c :: rest =>
    if c == 'e' || c == 'E' then
      match rest with
      | '-' :: ds => (natural? ds).map fun n => -(n : Int)
      | '+' :: ds => (natural? ds).map fun n => (n : Int)
      | ds => (natural? ds).map fun n => (n : Int)
    else none

/-- An unsigned decimal, from the first character to the last. -/
def unsigned? (cs : List Char) : Option Float :=
  let whole := cs.takeWhile Char.isDigit
  let rest := cs.dropWhile Char.isDigit
  let (places, tail) := match rest with
    | '.' :: more => (more.takeWhile Char.isDigit, more.dropWhile Char.isDigit)
    | more => ([], more)
  if whole = [] && places = [] then none
  else (exponent? tail).map fun e =>
    nearest (digitsValue (digitsValue 0 whole) places) (e - places.length)

/-- A decimal with an optional sign. -/
def read? : List Char → Option Float
  | '-' :: cs => (unsigned? cs).map fun x => -x
  | '+' :: cs => unsigned? cs
  | cs => unsigned? cs

end Stencil.Decimal
