import Stencil.Data.Value
import Stencil.Text.Units
namespace Stencil.Data

/-! # Members of values

Access by key: the members of an object, the items of an array by their decimal index, and the
length of arrays and strings.
-/

/-- Largest index that a key can name. -/
def indexLimit : Nat := 0xFFFFFFFFFFFFFFFF

/-- A key as an index: digits, perhaps after a plus sign. -/
def index? (key : String) : Option Nat :=
  let ds := match key.toList with
    | '+' :: rest => rest
    | cs => cs
  (Decimal.natural? ds).filter (· ≤ indexLimit)

/-- The member of a value under a key. -/
def Value.member? (v : Value) (key : String) : Option Value :=
  match v with
  | .object members => find? key members
  | .array items => (index? key).bind fun i => items[i]?
  | _ => none

/-- The length of an array, or of a string in UTF-16 code units. -/
def Value.length? : Value → Option Nat
  | .array items => some items.length
  | .string s => some (Text.length16 s.toList)
  | _ => none

/-- The key that asks for a length. -/
def lengthKey : String := "length"

end Stencil.Data
