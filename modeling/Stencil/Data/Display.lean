import Stencil.Data.Writer
namespace Stencil.Data

/-! # Data as running text

Two conversions of a value to text. `Value.shown` is what an element shows for it, and
`Value.spelled` is what the value counts for where an expression needs a string. They differ only
in `null` and in objects.
-/

/-- A number without the point that a whole double has in data text. -/
def Number.shown : Number → String
  | .whole n => toString n
  | .real x => Decimal.numberText x

mutual

/-- What an element shows: nothing for `null`, the items of an array with commas between them, and
compact data text for an object. -/
def Value.shown : Value → String
  | .null => ""
  | .bool b => if b then "true" else "false"
  | .number n => n.shown
  | .string s => s
  | .array items => ",".intercalate (shownItems items)
  | .object members => (Value.object members).compact

/-- What an element shows for each item. -/
def shownItems : List Value → List String
  | [] => []
  | v :: rest => v.shown :: shownItems rest

end

mutual

/-- The string that a value counts for in expressions. -/
def Value.spelled : Value → String
  | .null => "null"
  | .array items => ",".intercalate (spelledItems items)
  | .object _ => "[object Object]"
  | .bool b => if b then "true" else "false"
  | .number n => n.shown
  | .string s => s

/-- The strings of the items of an array, where `null` is empty. -/
def spelledItems : List Value → List String
  | [] => []
  | .null :: rest => "" :: spelledItems rest
  | v :: rest => v.spelled :: spelledItems rest

end

end Stencil.Data
