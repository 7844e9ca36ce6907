import Stencil.Data.Value
namespace Stencil

open Stencil.Data (Value)

/-! # Scopes

What a name stands for: the root data of a render, and over it the bindings of the loops that
enclose a place, each of which hides the names of the same spelling outside of it.
-/

/-- The root data and the loop bindings over it, the innermost one first. -/
structure Scope where
  bindings : List (String × Value)
  root : Value

namespace Scope

/-- The scope outside of all loops. -/
def ofRoot (root : Value) : Scope :=
  ⟨[], root⟩

/-- The scope inside a loop whose variable `name` is at the item `value`. -/
def bind (s : Scope) (name : String) (value : Value) : Scope :=
  { s with bindings := (name, value) :: s.bindings }

/-- Number of bindings over the root data. -/
def depth (s : Scope) : Nat :=
  s.bindings.length

/-- The value of a name: that of the innermost binding, else the member of the root object. -/
def lookup (s : Scope) (name : String) : Option Value :=
  match Data.find? name s.bindings with
  | some v => some v
  | none =>
    match s.root with
    | .object members => Data.find? name members
    | _ => none

@[simp] theorem root_bind (s : Scope) (name : String) (v : Value) : (s.bind name v).root = s.root :=
  rfl

@[simp] theorem depth_bind (s : Scope) (name : String) (v : Value) :
    (s.bind name v).depth = s.depth + 1 := rfl

@[simp] theorem lookup_bind_self (s : Scope) (name : String) (v : Value) :
    (s.bind name v).lookup name = some v := by
  simp [bind, lookup, Data.find?]

theorem lookup_bind_of_ne (s : Scope) {name other : String} (v : Value) (h : other ≠ name) :
    (s.bind name v).lookup other = s.lookup other := by
  simp [bind, lookup, Data.find?, Ne.symm h]

end Scope

end Stencil
