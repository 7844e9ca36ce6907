import Stencil.Decimal.Binary
namespace Stencil.Decimal

/-! # Shortest decimals

The decimal with the fewest digits among those that are nearer to a given double than to any other
double. Grids of one, two, … digits are searched in turn, and on each grid only the two points
next to the value need a look: if any point of a grid reads back as the double, so does one of
those two.
-/

/-- The decimal `digits · 10 ^ exponent`. -/
structure Scientific where
  digits : Nat
  exponent : Int
deriving DecidableEq, Repr

/-- A positive number as a quotient of whole numbers. -/
structure Ratio where
  num : Nat
  den : Nat

/-- The quotient `m · 2 ^ q`. -/
def Ratio.ofBinary (m : Nat) (q : Int) : Ratio :=
  if 0 ≤ q then ⟨m <<< q.toNat, 1⟩ else ⟨m, 1 <<< (-q).toNat⟩

/-- A power of ten. -/
def tenTo (n : Nat) : Nat :=
  Nat.pow 10 n

/-- The quotient divided by `10 ^ p`. -/
def Ratio.scaleDown (r : Ratio) (p : Int) : Ratio :=
  if 0 ≤ p then ⟨r.num, r.den * tenTo p.toNat⟩ else ⟨r.num * tenTo (-p).toNat, r.den⟩

/-- The decimal digits of a number, the first one first. -/
def digitsOf (n : Nat) : List Char :=
  Nat.toDigits 10 n

/-- The power of ten of the leading digit: `10 ^ p ≤ r < 10 ^ (p + 1)`. -/
def Ratio.leadingPower (r : Ratio) : Int :=
  let guess : Int := (digitsOf r.num).length - (digitsOf r.den).length
  let scaled := r.scaleDown guess
  if scaled.den ≤ scaled.num then guess else guess - 1

/-- Whether `c`, in units of the grid that `low` and `high` are scaled to, lies between them; the
ends count when `closed`. -/
def betweens (low high : Ratio) (closed : Bool) (c : Nat) : Bool :=
  if closed then low.num ≤ c * low.den && c * high.den ≤ high.num
  else low.num < c * low.den && c * high.den < high.num

/-- The point of the grid of step `10 ^ p` that reads back as `m · 2 ^ q`, the nearer one if two
do; of two equally near points the upper one when `tieUp`, and otherwise the even one. -/
def onGrid (tieUp : Bool) (m : Nat) (q p : Int) : Option Nat :=
  let below := if m == hiddenBit && -1074 < q then 1 else 2
  let low := (Ratio.ofBinary (4 * m - below) (q - 2)).scaleDown p
  let high := (Ratio.ofBinary (4 * m + 2) (q - 2)).scaleDown p
  let here := (Ratio.ofBinary m q).scaleDown p
  let c := here.num / here.den
  let twice := 2 * (here.num % here.den)
  let closed := m % 2 == 0
  match betweens low high closed c, betweens low high closed (c + 1) with
  | true, false => some c
  | false, true => some (c + 1)
  | false, false => none
  | true, true =>
    if twice < here.den then some c
    else if here.den < twice then some (c + 1)
    else if tieUp || c % 2 == 1 then some (c + 1) else some c

/-- The first hit on the grids `10 ^ p`, `10 ^ (p - 1)`, …, at most `count` of them. -/
def searchGrids (tieUp : Bool) (m : Nat) (q : Int) : Nat → Int → Option Scientific
  | 0, _ => none
  | count + 1, p =>
    match onGrid tieUp m q p with
    | some c => some ⟨c, p⟩
    | none => searchGrids tieUp m q count (p - 1)

/-- The number without the zeros at its end, which move into the exponent. -/
def Scientific.trim : Nat → Scientific → Scientific
  | 0, s => s
  | fuel + 1, s =>
    if s.digits != 0 && s.digits % 10 == 0 then trim fuel ⟨s.digits / 10, s.exponent + 1⟩ else s

/-- The shortest decimal of the double with magnitude `m · 2 ^ q`. Seventeen digits always suffice,
so the fallback, the double itself written out, is never used. -/
def shortest (tieUp : Bool) (m : Nat) (q : Int) : Scientific :=
  let top := (Ratio.ofBinary m q).leadingPower
  let found := (searchGrids tieUp m q 17 top).getD ⟨m, q⟩
  found.trim 17

end Stencil.Decimal
