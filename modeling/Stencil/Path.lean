import Stencil.Data.Member
import Stencil.Scope
namespace Stencil.Path

open Stencil.Data (Value)

/-! # Data paths

A dotted path names a value: its first segment is looked up in the scope, and each further one is a
member of the value so far. After `global.` a path starts at the root data, whatever loops enclose
it.
-/

/-- What a path leads to: a part of the data, or the length of a part of it. -/
inductive Resolved
  | part (v : Value)
  | length (n : Nat)

/-- The result of a path as a value. -/
def Resolved.value : Resolved → Value
  | .part v => v
  | .length n => .number (.whole n)

/-- Whether the result is no part of the data. -/
def Resolved.isComputed : Resolved → Bool
  | .part _ => false
  | .length _ => true

/-- The segments of a path, which are the texts between its dots. -/
def segments : List Char → List (List Char)
  | [] => [[]]
  | c :: cs =>
    if c = '.' then [] :: segments cs
    else match segments cs with
      | [] => [[c]]
      | s :: rest => (c :: s) :: rest

theorem segments_ne_nil (cs : List Char) : segments cs ≠ [] := by
  induction cs with
  | nil => simp [segments]
  | cons c cs _ =>
    simp only [segments]
    split
    · simp
    · split <;> simp

/-- Walks from a value along the segments of a path. A last segment `length` asks for the length of
a value that has no such member. -/
def walk (v : Value) : List String → Option Resolved
  | [] => some (.part v)
  | segment :: rest =>
    match v.member? segment with
    | some w => walk w rest
    | none =>
      if segment = Data.lengthKey && rest.isEmpty then v.length?.map .length else none

/-- What a path that starts at the root data begins with. -/
def globalPrefix : List Char := ['g', 'l', 'o', 'b', 'a', 'l', '.']

/-- What a path leads to in a scope; nothing if a segment on the way is missing. -/
def resolve (scope : Scope) (path : String) : Option Resolved :=
  if globalPrefix.isPrefixOf path.toList then
    walk scope.root ((segments (path.toList.drop globalPrefix.length)).map String.ofList)
  else
    match (segments path.toList).map String.ofList with
    | [] => none
    | first :: rest => (scope.lookup first).bind fun v => walk v rest

end Stencil.Path
