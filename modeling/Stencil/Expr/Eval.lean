import Stencil.Expr.Operand
import Stencil.Expr.Parser
import Stencil.Path
namespace Stencil.Expr

/-! # Evaluation of expressions

The operand that an expression stands for in a scope. A path that leads nowhere is false, and the
operators that choose one of their operands evaluate no other.
-/

/-- The operand of a literal. -/
def Literal.operand : Literal → Operand
  | .undefined => .undefined
  | .null => .null
  | .bool b => .bool b
  | .number x => .number x
  | .string s => .string s

/-- The operand of a data path. -/
def lookupOperand (scope : Scope) (path : String) : Operand :=
  match Path.resolve scope path with
  | some r => .ofValue r.value
  | none => .bool false

/-- Reads a member, then a member of that, and so on. -/
def memberChain (a : Operand) : List String → Except EvalError Operand
  | [] => .ok a
  | key :: rest =>
    match a.member key with
    | .error e => .error e
    | .ok b => memberChain b rest

/-- The operators that decide by their left operand whether the right one is evaluated: the left
operand itself is the result if it is not. -/
def keepsLeft? : String → Option (Operand → Bool)
  | "&&" => some fun a => !a.isTruthy
  | "||" => some Operand.isTruthy
  | "??" => some fun a => !a.isNullish
  | _ => none

/-- The result of an operator whose operands have both been evaluated. -/
def applyOperator (op : String) (a b : Operand) : Except EvalError Operand :=
  match op with
  | "==" => .ok (.bool (a.equal b))
  | "!=" => .ok (.bool !(a.equal b))
  | "===" => .ok (.bool (a.same b))
  | "!==" => .ok (.bool !(a.same b))
  | "<" => .ok (.bool (a.order b == some .lt))
  | ">" => .ok (.bool (a.order b == some .gt))
  | "<=" => .ok (.bool (a.order b == some .lt || a.order b == some .eq))
  | ">=" => .ok (.bool (a.order b == some .gt || a.order b == some .eq))
  | "+" => .ok (a.plus b)
  | "-" => .ok (.number (a.toNumber - b.toNumber))
  | "*" => .ok (.number (a.toNumber * b.toNumber))
  | "/" => .ok (.number (a.toNumber / b.toNumber))
  | "%" => .ok (.number (Decimal.remainder a.toNumber b.toNumber))
  | "**" => .ok (.number (a.toNumber.pow b.toNumber))
  | op => .error (.unsupported op)

/-- The number that a sign makes of a number: only the minus changes it. -/
def applySign (sign : String) (x : Float) : Float :=
  if sign = "-" then -x else x

/-- The operand of an expression. -/
def eval {α : Type} (scope : Scope) : Expr α → Except EvalError Operand
  | .literal _ v => .ok v.operand
  | .lookup _ path => .ok (lookupOperand scope path)
  | .keyed _ receiver key =>
    match receiver.eval scope with
    | .error e => .error e
    | .ok r =>
      match key.eval scope with
      | .error e => .error e
      | .ok k => r.member k.spelled
  | .member _ receiver path =>
    match receiver.eval scope with
    | .error e => .error e
    | .ok r => memberChain r ((Path.segments path.toList).map String.ofList)
  | .binary _ op left right =>
    match left.eval scope with
    | .error e => .error e
    | .ok a =>
      match keepsLeft? op with
      | some keeps =>
        if keeps a then .ok a else right.eval scope
      | none =>
        match right.eval scope with
        | .error e => .error e
        | .ok b => applyOperator op a b
  | .negation _ e =>
    match e.eval scope with
    | .error e => .error e
    | .ok a => .ok (.bool !a.isTruthy)
  | .signed _ sign e =>
    match e.eval scope with
    | .error e => .error e
    | .ok a => .ok (.number (applySign sign a.toNumber))
  | .conditional _ condition yes no =>
    match condition.eval scope with
    | .error e => .error e
    | .ok a => if a.isTruthy then yes.eval scope else no.eval scope

/-- The operand of the expression that a text spells. -/
def evaluate (scope : Scope) (text : String) : Except Error Operand :=
  match parse text with
  | .error e => .error e
  | .ok e =>
    match e.eval scope with
    | .error e => .error (.evaluation e)
    | .ok a => .ok a

/-- Whether the condition that a text spells holds. A text without a value does not hold. -/
def holds (scope : Scope) (text : String) : Bool :=
  match evaluate scope text with
  | .error _ => false
  | .ok a => a.isTruthy

/-- Notes do not take part in evaluation. -/
theorem eval_map {α β : Type} (f : α → β) (scope : Scope) (e : Expr α) :
    (e.map f).eval scope = e.eval scope := by
  induction e <;> simp_all [map, eval]

end Stencil.Expr
