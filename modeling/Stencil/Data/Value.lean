import Stencil.Data.Number
namespace Stencil.Data

/-! # Data values

The data a template is rendered with. An object keeps its members in the order in which their keys
first came.
-/

/-- A data value. -/
inductive Value
  | null
  | bool (b : Bool)
  | number (n : Number)
  | string (s : String)
  | array (items : List Value)
  | object (members : List (String × Value))

instance : Inhabited Value := ⟨.null⟩

/-- The value under a key. -/
def find? (key : String) : List (String × Value) → Option Value
  | [] => none
  | (k, v) :: rest => if k = key then some v else find? key rest

/-- The members with one added, or with a new value in the place of the old one. -/
def put (key : String) (value : Value) : List (String × Value) → List (String × Value)
  | [] => [(key, value)]
  | (k, v) :: rest => if k = key then (k, value) :: rest else (k, v) :: put key value rest

@[simp] theorem find?_put_self (key : String) (value : Value) (ms : List (String × Value)) :
    find? key (put key value ms) = some value := by
  induction ms with
  | nil => simp [put, find?]
  | cons m rest ih =>
    obtain ⟨k, v⟩ := m
    by_cases h : k = key <;> simp [put, find?, h, ih]

mutual

/-- Equality by structure. The order of an object's members does not matter. -/
def Value.same : Value → Value → Bool
  | .null, .null => true
  | .bool a, .bool b => a == b
  | .number m, .number n => m.same n
  | .string s, .string t => s == t
  | .array xs, .array ys => sameItems xs ys
  | .object ms, .object ns => ms.length == ns.length && sameMembers ms ns
  | _, _ => false

/-- Equality of two lists of values, item by item. -/
def sameItems : List Value → List Value → Bool
  | [], [] => true
  | x :: xs, y :: ys => x.same y && sameItems xs ys
  | _, _ => false

/-- Whether every member has an equal one under its key in the second list. -/
def sameMembers : List (String × Value) → List (String × Value) → Bool
  | [], _ => true
  | (k, v) :: rest, ns =>
    (match find? k ns with
      | some w => v.same w
      | none => false) && sameMembers rest ns

end

end Stencil.Data
