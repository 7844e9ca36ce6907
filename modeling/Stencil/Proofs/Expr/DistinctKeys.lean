import Stencil.Expr.Eval
import Stencil.Proofs.Data.DistinctKeys
namespace Stencil

open Stencil.Data (Value)

/-! # Distinct keys in evaluation

Data in which no key stands twice gives operands of which the same holds: an expression takes parts
out of the data and builds no object of its own.
-/

variable {scope : Scope} {key : String} {v : Value}

/-- No object of the root data or of a binding has two members of the same key. -/
structure Scope.KeysDistinct (scope : Scope) : Prop where
  root : scope.root.KeysDistinct
  bindings : ∀ m ∈ scope.bindings, m.2.KeysDistinct

theorem Scope.keysDistinct_ofRoot (h : v.KeysDistinct) : (Scope.ofRoot v).KeysDistinct :=
  ⟨h, by simp [ofRoot]⟩

theorem Scope.KeysDistinct.bind (hscope : scope.KeysDistinct) (hv : v.KeysDistinct) :
    (scope.bind key v).KeysDistinct :=
  ⟨hscope.root, List.forall_mem_cons.2 ⟨hv, hscope.bindings⟩⟩

theorem Scope.KeysDistinct.lookup (hscope : scope.KeysDistinct) (h : scope.lookup key = some v) :
    v.KeysDistinct := by
  rw [Scope.lookup] at h
  split at h
  · next w hfind =>
    cases h
    exact hscope.bindings _ (Data.mem_of_find? hfind)
  · have hroot := hscope.root
    split at h
    · next members heq =>
      rw [heq] at hroot
      exact hroot.member? h
    · cases h

theorem Path.keysDistinct_walk {names : List String} {r : Path.Resolved} (hv : v.KeysDistinct)
    (h : Path.walk v names = some r) : r.value.KeysDistinct := by
  induction names generalizing v with
  | nil =>
    cases h
    exact hv
  | cons name rest ih =>
    rw [Path.walk] at h
    split at h
    · next w hmember => exact ih (hv.member? hmember) h
    · split at h
      · rcases Option.map_eq_some_iff.1 h with ⟨n, -, rfl⟩
        exact .number _
      · cases h

theorem Path.keysDistinct_resolve {path : String} {r : Path.Resolved}
    (hscope : scope.KeysDistinct) (h : Path.resolve scope path = some r) :
    r.value.KeysDistinct := by
  rw [Path.resolve] at h
  split at h
  · exact Path.keysDistinct_walk hscope.root h
  · split at h
    · cases h
    · rcases Option.bind_eq_some_iff.1 h with ⟨w, hlookup, hwalk⟩
      exact Path.keysDistinct_walk (hscope.lookup hlookup) hwalk

namespace Expr

/-- No object in the operand has two members of the same key. -/
def Operand.KeysDistinct : Operand → Prop
  | array items => (Value.array items).KeysDistinct
  | object members => (Value.object members).KeysDistinct
  | _ => True

variable {a b c : Operand}

theorem Operand.keysDistinct_ofValue (h : v.KeysDistinct) : (ofValue v).KeysDistinct := by
  cases v with
  | array items => exact h
  | object members => exact h
  | _ => trivial

theorem Operand.keysDistinct_lengthMember (v : Value) (key : String) :
    (lengthMember v key).KeysDistinct := by
  rw [lengthMember]
  split
  · split <;> trivial
  · trivial

theorem Operand.KeysDistinct.member (ha : a.KeysDistinct) (h : a.member key = .ok b) :
    b.KeysDistinct := by
  cases a with
  | undefined | null => cases h
  | bool x | number x =>
    cases h
    trivial
  | string s =>
    rw [Operand.member] at h
    split at h
    · cases h
      trivial
    · split at h
      · cases h
        rw [charAt]
        split <;> trivial
      · cases h
        trivial
  | array _ | object _ =>
    rw [Operand.member] at h
    split at h
    · next w hmember =>
      cases h
      exact keysDistinct_ofValue (Value.KeysDistinct.member? ha hmember)
    · cases h
      exact keysDistinct_lengthMember _ _

theorem Operand.KeysDistinct.memberChain {names : List String} (ha : a.KeysDistinct)
    (h : memberChain a names = .ok b) : b.KeysDistinct := by
  induction names generalizing a with
  | nil =>
    cases h
    exact ha
  | cons name rest ih =>
    rw [Expr.memberChain] at h
    split at h
    · cases h
    · next c hmember => exact ih (ha.member hmember) h

theorem keysDistinct_lookupOperand (hscope : scope.KeysDistinct) (path : String) :
    (lookupOperand scope path).KeysDistinct := by
  rw [lookupOperand]
  split
  · next r hresolve =>
    have hr : r.value.KeysDistinct := Path.keysDistinct_resolve hscope hresolve
    exact Operand.keysDistinct_ofValue hr
  · trivial

theorem Operand.keysDistinct_plus (a b : Operand) : (a.plus b).KeysDistinct := by
  rw [plus]
  split <;> trivial

/-- Operators on two operands give a truth value, a number or a string. -/
theorem keysDistinct_applyOperator {op : String} (h : applyOperator op a b = .ok c) :
    c.KeysDistinct := by
  unfold applyOperator at h
  split at h <;> cases h
  all_goals first
    | exact Operand.keysDistinct_plus a b
    | trivial

theorem keysDistinct_eval {α : Type} {e : Expr α} (hscope : scope.KeysDistinct)
    (h : e.eval scope = .ok a) : a.KeysDistinct := by
  induction e generalizing a with
  | literal _ l =>
    cases h
    cases l <;> trivial
  | lookup _ path =>
    cases h
    exact keysDistinct_lookupOperand hscope path
  | keyed _ receiver key ihreceiver _ =>
    rw [eval] at h
    split at h
    · cases h
    · next r hr =>
      split at h
      · cases h
      · exact (ihreceiver hr).member h
  | member _ receiver path ih =>
    rw [eval] at h
    split at h
    · cases h
    · next r hr => exact (ih hr).memberChain h
  | binary _ op left right ihleft ihright =>
    rw [eval] at h
    split at h
    · cases h
    · next l hl =>
      split at h
      · split at h
        · cases h
          exact ihleft hl
        · exact ihright h
      · split at h
        · cases h
        · exact keysDistinct_applyOperator h
  | negation _ e _ =>
    rw [eval] at h
    split at h <;> cases h
    trivial
  | signed _ sign e _ =>
    rw [eval] at h
    split at h <;> cases h
    trivial
  | conditional _ condition yes no _ ihyes ihno =>
    rw [eval] at h
    split at h
    · cases h
    · split at h
      · exact ihyes h
      · exact ihno h

/-- Whatever data text is read, no operand that an expression comes to has a key twice. -/
theorem keysDistinct_evaluate {data text : String} (hdata : Value.read data = .ok v)
    (h : evaluate (.ofRoot v) text = .ok a) : a.KeysDistinct := by
  have hscope : (Scope.ofRoot v).KeysDistinct :=
    Scope.keysDistinct_ofRoot (Data.keysDistinct_read hdata)
  rw [evaluate] at h
  split at h
  · cases h
  · split at h
    · cases h
    · next b heval =>
      cases h
      exact keysDistinct_eval hscope heval

end Expr

end Stencil
