import Stencil.Data.Display
import Stencil.Data.Member
import Stencil.Decimal.Remainder
import Stencil.Expr.Error
import Stencil.Text.Blank
namespace Stencil.Expr

open Stencil.Data (Value)

/-! # Operands

The values that expressions compute with, and their conversions, comparisons and members.
-/

/-- A value of an expression: a value of the data, or undefined. Every number is a double. -/
inductive Operand
  | undefined
  | null
  | bool (b : Bool)
  | number (x : Float)
  | string (s : String)
  | array (items : List Value)
  | object (members : List (String × Value))

/-- The operand of a value of the data. -/
def Operand.ofValue : Value → Operand
  | .null => .null
  | .bool b => .bool b
  | .number n => .number n.toFloat
  | .string s => .string s
  | .array items => .array items
  | .object members => .object members

/-- A string as a number: empty text is zero, and text that is no decimal number is none. -/
def numberOfString (s : String) : Float :=
  let cs := Text.trimBlanks s.toList
  if cs = [] then 0.0
  else if cs = "Infinity".toList || cs = "+Infinity".toList then 1.0 / 0.0
  else if cs = "-Infinity".toList then -(1.0 / 0.0)
  else (Decimal.read? cs).getD (0.0 / 0.0)

namespace Operand

/-- Undefined and null. -/
def isNullish : Operand → Bool
  | undefined | null => true
  | _ => false

/-- Whether a condition with this value holds. -/
def isTruthy : Operand → Bool
  | undefined | null => false
  | bool b => b
  | number x => !(x == 0 || x.isNaN)
  | string s => s ≠ ""
  | array _ | object _ => true

/-- The string that the operand counts for. -/
def spelled : Operand → String
  | undefined => "undefined"
  | null => "null"
  | bool b => if b then "true" else "false"
  | number x => Decimal.numberText x
  | string s => s
  | array items => (Value.array items).spelled
  | object members => (Value.object members).spelled

/-- The number that the operand counts for. An array counts for what its string does. -/
def toNumber : Operand → Float
  | undefined => 0.0 / 0.0
  | null => 0.0
  | bool b => if b then 1.0 else 0.0
  | number x => x
  | string s => numberOfString s
  | array items => numberOfString (Value.array items).spelled
  | object _ => 0.0 / 0.0

/-- Strings, arrays and objects, which compare as text with one another. -/
def isTextual : Operand → Bool
  | string _ | array _ | object _ => true
  | _ => false

/-! ## Comparison -/

/-- `===`. Arrays and objects compare by structure. -/
def same : Operand → Operand → Bool
  | undefined, undefined => true
  | null, null => true
  | bool a, bool b => a == b
  | number x, number y => x == y
  | string s, string t => s == t
  | array xs, array ys => (Value.array xs).same (.array ys)
  | object ms, object ns => (Value.object ms).same (.object ns)
  | _, _ => false

/-- Whether two operands are of one type. Arrays and objects share theirs. -/
def sameType : Operand → Operand → Bool
  | undefined, undefined => true
  | null, null => true
  | bool _, bool _ => true
  | number _, number _ => true
  | string _, string _ => true
  | array _, array _ => true
  | array _, object _ => true
  | object _, array _ => true
  | object _, object _ => true
  | _, _ => false

/-- `==`. Operands of one type are compared as they are. Undefined and null equal one another and
nothing else. A string and an array or object compare as strings, and all else as numbers. -/
def equal (a b : Operand) : Bool :=
  if a.sameType b then a.same b
  else if a.isNullish || b.isNullish then a.isNullish && b.isNullish
  else if a.isTextual && b.isTextual then a.spelled == b.spelled
  else a.toNumber == b.toNumber

/-- The order of two doubles; none if one of them is no number. -/
def orderNumbers (x y : Float) : Option Ordering :=
  if x < y then some .lt
  else if y < x then some .gt
  else if x == y then some .eq
  else none

/-- The order behind `<` and its kin: that of strings if both sides are text, else that of numbers.
-/
def order (a b : Operand) : Option Ordering :=
  if a.isTextual && b.isTextual then some (Text.order a.spelled.toList b.spelled.toList)
  else orderNumbers a.toNumber b.toNumber

/-- `+`: joins strings if one side is text, and adds numbers otherwise. -/
def plus (a b : Operand) : Operand :=
  if a.isTextual || b.isTextual then string (a.spelled ++ b.spelled)
  else number (a.toNumber + b.toNumber)

/-! ## Members -/

/-- The character of a string at an index. -/
def charAt (s : String) (i : Nat) : Operand :=
  match s.toList[i]? with
  | some c => string c.toString
  | none => undefined

/-- The length behind the key `length`, where a value has no such member. -/
def lengthMember (v : Value) (key : String) : Operand :=
  match v.length? with
  | some n => if key = Data.lengthKey then number (Float.ofNat n) else undefined
  | none => undefined

/-- The member of an operand under a key. A missing member is undefined, and only undefined and
null have no members at all. -/
def member (a : Operand) (key : String) : Except EvalError Operand :=
  match a with
  | undefined => .error (.reading .undefined key)
  | null => .error (.reading .null key)
  | bool _ | number _ => .ok undefined
  | string s =>
    if key = Data.lengthKey then .ok (number (Float.ofNat (Text.length16 s.toList)))
    else match Data.index? key with
      | some i => .ok (charAt s i)
      | none => .ok undefined
  | array items =>
    match (Value.array items).member? key with
    | some v => .ok (ofValue v)
    | none => .ok (lengthMember (.array items) key)
  | object members =>
    match (Value.object members).member? key with
    | some v => .ok (ofValue v)
    | none => .ok (lengthMember (.object members) key)

end Operand

end Stencil.Expr
