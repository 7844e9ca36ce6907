import Stencil.Decimal.Shortest
namespace Stencil.Decimal

/-! # Written numbers

How a double is written: one record holds the choices that formats differ in, and one function
carries them out.
-/

/-- The choices of a number format. -/
structure Format where
  /-- Of two equally short and equally near decimals the upper one is written. -/
  tieUp : Bool
  /-- Powers of ten of the leading digit from here … -/
  plainFrom : Option Int
  /-- … to below here are written without an exponent; none means no limit. -/
  plainBelow : Option Int
  /-- A whole number keeps a point and one zero. -/
  keepsPoint : Bool

/-- Numbers in data text: an exponent outside `1e-5 ≤ x < 1e16`, always with a sign of its own, and
a point in every number without one. -/
def Format.data : Format := ⟨false, some (-5), some 16, true⟩

/-- Numbers in running text: never an exponent, and no point in a whole number. -/
def Format.running : Format := ⟨true, none, none, false⟩

/-- `count` zeros. -/
def zeros (count : Nat) : List Char :=
  List.replicate count '0'

/-- A decimal written with all its zeros and without an exponent. -/
def Scientific.plain (keepsPoint : Bool) (s : Scientific) : List Char :=
  let ds := digitsOf s.digits
  if 0 ≤ s.exponent then
    ds ++ zeros s.exponent.toNat ++ (if keepsPoint then ['.', '0'] else [])
  else
    let places := (-s.exponent).toNat
    if places < ds.length then
      ds.take (ds.length - places) ++ '.' :: ds.drop (ds.length - places)
    else
      '0' :: '.' :: zeros (places - ds.length) ++ ds

/-- A decimal written with one digit before the point and an exponent. -/
def Scientific.withExponent (s : Scientific) : List Char :=
  let ds := digitsOf s.digits
  let power : Int := s.exponent + ds.length - 1
  let mantissa := if ds.length == 1 then ds else ds.take 1 ++ '.' :: ds.drop 1
  let sign := if power < 0 then '-' else '+'
  mantissa ++ 'e' :: sign :: digitsOf power.natAbs

/-- A decimal in a format. -/
def Format.scientific (f : Format) (s : Scientific) : List Char :=
  let power : Int := s.exponent + (digitsOf s.digits).length - 1
  let high := match f.plainFrom with
    | some p => decide (p ≤ power)
    | none => true
  let low := match f.plainBelow with
    | some p => decide (power < p)
    | none => true
  if high && low then s.plain f.keepsPoint else s.withExponent

/-- A finite double in a format; zero keeps its sign. -/
def Format.finite (f : Format) (x : Float) : String :=
  let b := Binary.ofFloat x
  let sign := if b.negative then ['-'] else []
  let magnitude :=
    if b.significand == 0 then Scientific.plain f.keepsPoint ⟨0, 0⟩
    else f.scientific (shortest f.tieUp b.significand b.exponent)
  String.ofList (sign ++ magnitude)

/-- A double in running text: `NaN`, `Infinity` or `-Infinity`; zero without a sign; a whole number
below `1e21` with all its digits; any other number by the fewest digits that read back. -/
def numberText (x : Float) : String :=
  if x.isNaN then "NaN"
  else if x.isInf then (if 0 < x then "Infinity" else "-Infinity")
  else
    let b := Binary.ofFloat x
    if b.significand == 0 then "0"
    else if b.isWhole && b.whole < tenTo 21 then
      String.ofList ((if b.negative then ['-'] else []) ++ digitsOf b.whole)
    else Format.running.finite x

/-- The plain text of a number literal, as error messages quote it. -/
def literalText (x : Float) : String :=
  if x.isNaN then "NaN"
  else if x.isInf then (if 0 < x then "inf" else "-inf")
  else Format.running.finite x

end Stencil.Decimal
