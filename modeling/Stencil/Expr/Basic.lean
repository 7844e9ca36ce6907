import Stencil.Expr.Token
namespace Stencil

/-! # Expressions

Conditions as trees. Every node carries a note of a type that is left open: the parser notes where
the node stands in the text, and where that is of no interest the notes are `Unit`.
-/

namespace Expr

/-- A value written down in an expression. -/
inductive Literal
  | undefined
  | null
  | bool (b : Bool)
  | number (x : Float)
  | string (s : String)
deriving DecidableEq

/-- The bytes of a text from `start` up to `stop`. -/
structure Span where
  start : Nat
  stop : Nat
deriving DecidableEq, Repr

end Expr

/-- An expression whose nodes carry notes of type `α`. -/
inductive Expr (α : Type)
  | literal (note : α) (value : Expr.Literal)
  /-- A dotted path into the data. -/
  | lookup (note : α) (path : String)
  /-- `receiver[key]` -/
  | keyed (note : α) (receiver key : Expr α)
  /-- `receiver.path` behind a bracket or a parenthesis; the path may have several segments. -/
  | member (note : α) (receiver : Expr α) (path : String)
  /-- An operator between two operands, by its spelling. -/
  | binary (note : α) (op : String) (left right : Expr α)
  /-- `!operand` -/
  | negation (note : α) (operand : Expr α)
  /-- A sign before an operand, by its spelling. -/
  | signed (note : α) (sign : String) (operand : Expr α)
  /-- `condition ? yes : no` -/
  | conditional (note : α) (condition yes no : Expr α)
deriving DecidableEq

namespace Expr

/-- The note at the root. -/
def note {α : Type} : Expr α → α
  | .literal a _ | .lookup a _ | .keyed a _ _ | .member a _ _ | .binary a _ _ _ | .negation a _
  | .signed a _ _ | .conditional a _ _ _ => a

/-- The same expression with other notes. -/
def map {α β : Type} (f : α → β) : Expr α → Expr β
  | .literal a v => .literal (f a) v
  | .lookup a p => .lookup (f a) p
  | .keyed a r k => .keyed (f a) (r.map f) (k.map f)
  | .member a r p => .member (f a) (r.map f) p
  | .binary a op l r => .binary (f a) op (l.map f) (r.map f)
  | .negation a e => .negation (f a) (e.map f)
  | .signed a s e => .signed (f a) s (e.map f)
  | .conditional a c y n => .conditional (f a) (c.map f) (y.map f) (n.map f)

/-- The expression without notes. -/
def bare {α : Type} (e : Expr α) : Expr Unit :=
  e.map fun _ => ()

theorem map_map {α β γ : Type} (f : α → β) (g : β → γ) (e : Expr α) :
    (e.map f).map g = e.map (fun a => g (f a)) := by
  induction e <;> simp_all [map]

@[simp] theorem bare_map {α β : Type} (f : α → β) (e : Expr α) : (e.map f).bare = e.bare := by
  simp [bare, map_map]

@[simp] theorem note_map {α β : Type} (f : α → β) (e : Expr α) : (e.map f).note = f e.note := by
  cases e <;> rfl

end Expr

end Stencil
