import Stencil.Proofs.Data.Sameness
import Stencil.Proofs.Expr.DistinctKeys
namespace Stencil.Expr

open Stencil.Data (Value)

/-! # Comparisons and their sides

What becomes of a comparison when its sides change places. `==` brings operands of different types
together by one conversion after another, first of the left side and then of the right one;
`convert?` is one such conversion. They come to an end, and which side was converted leaves no trace
in the answer.
-/

/-! ## The conversions of `==` -/

namespace Operand

/-- Arrays and objects as strings; every other operand as it is. -/
def primitive (a : Operand) : Operand :=
  match a with
  | array _ | object _ => string a.spelled
  | a => a

/-- The conversion that `==` makes before it compares again, if it does not answer at once: of
booleans to numbers first, then of arrays and objects to strings. -/
def convert? (a b : Operand) : Option (Operand × Operand) :=
  if a.sameType b || a.isNullish || b.isNullish then none
  else match a, b with
    | bool _, _ => some (number a.toNumber, b)
    | _, bool _ => some (a, number b.toNumber)
    | number _, string _ | string _, number _ => none
    | array _, _ | object _, _ => some (a.primitive, b)
    | _, array _ | _, object _ => some (a, b.primitive)
    | _, _ => none

/-- The answer of `==` where nothing is left to convert. -/
def verdict (a b : Operand) : Bool :=
  if a.sameType b then a.same b
  else if a.isNullish || b.isNullish then a.isNullish && b.isNullish
  else a.toNumber == b.toNumber

/-- How many conversions an operand may still need. -/
def pending : Operand → Nat
  | bool _ | array _ | object _ => 1
  | _ => 0

variable {a b c d : Operand}

/-- An object counts for no number, and neither does its string. -/
theorem numberOfString_spelled_object (members : List (String × Value)) :
    numberOfString (object members).spelled = (object members).toNumber := by
  have hspelled : (object members).spelled = "[object Object]" := rfl
  have htrim : Text.trimBlanks "[object Object]".toList = "[object Object]".toList := by decide
  have hread : Decimal.read? "[object Object]".toList = none := by cbv
  rw [hspelled, numberOfString]
  simp only [htrim, hread]
  rfl

theorem toNumber_primitive (a : Operand) : a.primitive.toNumber = a.toNumber := by
  cases a with
  | object members => exact numberOfString_spelled_object members
  | _ => rfl

/-- A conversion leaves the answer as it is. -/
theorem equal_of_convert? (h : a.convert? b = some (c, d)) : a.equal b = c.equal d := by
  -- the two sides differ in more than their spelling only where an object meets a number, since
  -- then one of them reads the number off the string of the object
  cases a with
  | undefined | null => cases b <;> cases h
  | bool x => cases b <;> cases h <;> rfl
  | number x =>
    cases b with
    | object ns =>
      cases h
      change (x == (object ns).toNumber) = (x == (object ns).primitive.toNumber)
      rw [toNumber_primitive]
    | _ => cases h <;> rfl
  | string s => cases b <;> cases h <;> rfl
  | array xs => cases b <;> cases h <;> rfl
  | object ms =>
    cases b with
    | number y =>
      cases h
      change ((object ms).toNumber == y) = ((object ms).primitive.toNumber == y)
      rw [toNumber_primitive]
    | _ => cases h <;> rfl

theorem pending_of_convert? (h : a.convert? b = some (c, d)) :
    c.pending + d.pending < a.pending + b.pending := by
  cases a <;> cases b <;> cases h <;> simp [pending, primitive]

theorem equal_of_settled (h : a.convert? b = none) : a.equal b = a.verdict b := by
  cases a <;> cases b <;> first | rfl | cases h

/-- One conversion, as a step from the operands before it to those after it. -/
def Converts (p q : Operand × Operand) : Prop :=
  p.1.convert? p.2 = some q

theorem equal_of_converts {p q : Operand × Operand} (h : Relation.ReflTransGen Converts p q) :
    p.1.equal p.2 = q.1.equal q.2 := by
  induction h with
  | refl => rfl
  | tail _ hstep ih => exact ih.trans (equal_of_convert? hstep)

/-- Every run of conversions comes to an end. -/
theorem exists_converts_settled (a b : Operand) :
    ∃ c d, Relation.ReflTransGen Converts (a, b) (c, d) ∧ c.convert? d = none := by
  rcases h : a.convert? b with _ | ⟨c, d⟩
  · exact ⟨a, b, .refl, h⟩
  · rcases exists_converts_settled c d with ⟨c', d', hrun, hsettled⟩
    exact ⟨c', d', .head h hrun, hsettled⟩
termination_by a.pending + b.pending
decreasing_by exact pending_of_convert? h

/-! ## Equality -/

theorem sameType_comm (a b : Operand) : a.sameType b = b.sameType a := by
  cases a <;> cases b <;> rfl

theorem same_comm (ha : a.KeysDistinct) (hb : b.KeysDistinct) : a.same b = b.same a := by
  cases a with
  | bool x =>
    cases b with
    | bool y => exact BEq.comm
    | _ => rfl
  | number x =>
    cases b with
    | number y => exact BEq.comm
    | _ => rfl
  | string s =>
    cases b with
    | string t => exact BEq.comm
    | _ => rfl
  | array xs =>
    cases b with
    | array ys => exact Value.same_comm ha hb
    | _ => rfl
  | object ms =>
    cases b with
    | object ns => exact Value.same_comm ha hb
    | _ => rfl
  | _ => cases b <;> rfl

theorem sameType_of_same (h : a.same b = true) : a.sameType b = true := by
  cases a <;> cases b <;> first | rfl | cases h

theorem equal_comm (ha : a.KeysDistinct) (hb : b.KeysDistinct) : a.equal b = b.equal a := by
  unfold equal
  rw [sameType_comm b a, same_comm hb ha, Bool.or_comm b.isNullish, Bool.and_comm b.isNullish,
    Bool.and_comm b.isTextual, BEq.comm (a := b.spelled), BEq.comm (a := b.toNumber)]

theorem equal_of_same (h : a.same b = true) : a.equal b = true := by
  rw [equal, if_pos (sameType_of_same h)]
  exact h

theorem equal_of_isNullish (h : a.isNullish = true) : a.equal b = b.isNullish := by
  cases a with
  | undefined | null => cases b <;> rfl
  | _ => cases h

/-! ## Order -/

theorem lt_iff_compare (x y : Float) :
    x < y ↔ x.toModel.unpack.compare y.toModel.unpack = some .lt := by
  change decide (x.toModel < y.toModel) = true ↔ _
  rw [decide_eq_true_iff]
  change (x.toModel.unpack.compare y.toModel.unpack == some .lt) = true ↔ _
  rw [beq_iff_eq]

theorem orderNumbers_eq_compare (x y : Float) :
    orderNumbers x y = x.toModel.unpack.compare y.toModel.unpack := by
  unfold orderNumbers
  rw [Data.beq_iff_compare]
  simp only [lt_iff_compare, Data.compare_swap x.toModel.unpack y.toModel.unpack]
  rcases x.toModel.unpack.compare y.toModel.unpack with _ | o
  · rfl
  · cases o <;> rfl

theorem orderNumbers_swap (x y : Float) :
    orderNumbers y x = (orderNumbers x y).map Ordering.swap := by
  rw [orderNumbers_eq_compare, orderNumbers_eq_compare]
  exact Data.compare_swap _ _

theorem orderNumbers_eq_none_iff (x y : Float) :
    orderNumbers x y = none ↔ x.isNaN = true ∨ y.isNaN = true := by
  rw [orderNumbers_eq_compare]
  exact Data.compare_eq_none_iff _ _

theorem textOrder_swap (xs ys : List Char) : Text.order ys xs = (Text.order xs ys).swap := by
  induction xs generalizing ys with
  | nil => cases ys <;> rfl
  | cons x xs ih =>
    cases ys with
    | nil => rfl
    | cons y ys =>
      rw [Text.order, Text.order]
      rcases Nat.lt_trichotomy x.toNat y.toNat with hlt | heq | hgt
      · rw [if_neg (Nat.lt_asymm hlt), if_pos hlt, if_pos hlt]
        rfl
      · rw [heq, if_neg (Nat.lt_irrefl _), if_neg (Nat.lt_irrefl _), if_neg (Nat.lt_irrefl _),
          if_neg (Nat.lt_irrefl _)]
        exact ih ys
      · rw [if_pos hgt, if_neg (Nat.lt_asymm hgt), if_pos hgt]
        rfl

theorem order_swap (a b : Operand) : b.order a = (a.order b).map Ordering.swap := by
  unfold order
  rw [Bool.and_comm b.isTextual]
  split
  · rw [textOrder_swap a.spelled.toList]
    rfl
  · exact orderNumbers_swap _ _

theorem order_beq_some (a b : Operand) (o : Ordering) :
    (a.order b == some o) = (b.order a == some o.swap) := by
  rw [order_swap a b]
  rcases a.order b with _ | o'
  · rfl
  · cases o' <;> cases o <;> rfl

/-- The comparison is one of numbers, and one of them is NaN. -/
def AgainstNaN (a b : Operand) : Prop :=
  (a.isTextual && b.isTextual) = false ∧ (a.toNumber.isNaN = true ∨ b.toNumber.isNaN = true)

theorem order_eq_none_iff (a b : Operand) : a.order b = none ↔ AgainstNaN a b := by
  unfold order AgainstNaN
  split
  · next h => simp [h]
  · next h =>
    rw [orderNumbers_eq_none_iff]
    simp [h]

end Operand

/-! ## The comparison operators -/

/-- What holds between the comparisons of two operands. -/
structure Coherent (a b : Operand) : Prop where
  /-- The conversions of `==` come to an end, and what they end in has its answer. -/
  terminates : ∃ c d, Relation.ReflTransGen Operand.Converts (a, b) (c, d) ∧
    c.convert? d = none ∧ a.equal b = c.verdict d
  /-- Each of them is an operator that there is, and its result is a truth value. -/
  answers : ∀ op ∈ leftOperators 4 ++ leftOperators 3, ∃ v, applyOperator op a b = .ok (.bool v)
  equal_comm : applyOperator "==" a b = applyOperator "==" b a
  same_comm : applyOperator "===" a b = applyOperator "===" b a
  equal_of_same : applyOperator "===" a b = .ok (.bool true) →
    applyOperator "==" a b = .ok (.bool true)
  /-- Undefined and null equal one another and nothing else. -/
  equal_nullish : a.isNullish = true → applyOperator "==" a b = .ok (.bool b.isNullish)
  less_greater : applyOperator "<" a b = applyOperator ">" b a
  atMost_atLeast : applyOperator "<=" a b = applyOperator ">=" b a
  atMost_iff : applyOperator "<=" a b = .ok (.bool true) ↔
    applyOperator "<" a b = .ok (.bool true) ∨
      (applyOperator "<" a b = .ok (.bool false) ∧ applyOperator ">" a b = .ok (.bool false) ∧
        ¬a.AgainstNaN b)

variable {a b : Operand}

theorem applyOperator_comparison (a b : Operand) :
    ∀ op ∈ leftOperators 4 ++ leftOperators 3, ∃ v, applyOperator op a b = .ok (.bool v) := by
  simp only [leftOperators, List.cons_append, List.nil_append, List.forall_mem_cons, applyOperator]
  exact ⟨⟨_, rfl⟩, ⟨_, rfl⟩, ⟨_, rfl⟩, ⟨_, rfl⟩, ⟨_, rfl⟩, ⟨_, rfl⟩, ⟨_, rfl⟩, ⟨_, rfl⟩,
    List.forall_mem_nil _⟩

theorem applyOperator_less_comm (a b : Operand) :
    applyOperator "<" a b = applyOperator ">" b a := by
  simp only [applyOperator]
  rw [Operand.order_beq_some]
  rfl

theorem applyOperator_atMost_comm (a b : Operand) :
    applyOperator "<=" a b = applyOperator ">=" b a := by
  simp only [applyOperator]
  rw [Operand.order_beq_some a b .lt, Operand.order_beq_some a b .eq]
  rfl

theorem applyOperator_atMost_iff (a b : Operand) :
    applyOperator "<=" a b = .ok (.bool true) ↔
      applyOperator "<" a b = .ok (.bool true) ∨
        (applyOperator "<" a b = .ok (.bool false) ∧ applyOperator ">" a b = .ok (.bool false) ∧
          ¬a.AgainstNaN b) := by
  rw [← Operand.order_eq_none_iff]
  simp only [applyOperator]
  rcases a.order b with _ | o
  · simp
  · cases o <;> simp

/-- The comparisons of any two operands fit together. That no key stands twice in them is so for
every operand that an expression comes to (`keysDistinct_evaluate`). -/
theorem comparisons_coherent (ha : a.KeysDistinct) (hb : b.KeysDistinct) : Coherent a b where
  terminates := by
    rcases Operand.exists_converts_settled a b with ⟨c, d, hrun, hsettled⟩
    refine ⟨c, d, hrun, hsettled, ?_⟩
    calc
      a.equal b = c.equal d := Operand.equal_of_converts hrun
      _ = c.verdict d := Operand.equal_of_settled hsettled
  answers := applyOperator_comparison a b
  equal_comm := by
    simp only [applyOperator, Operand.equal_comm ha hb]
  same_comm := by
    simp only [applyOperator, Operand.same_comm ha hb]
  equal_of_same := by
    simp only [applyOperator, Except.ok.injEq, Operand.bool.injEq]
    exact Operand.equal_of_same
  equal_nullish := by
    simp only [applyOperator, Except.ok.injEq, Operand.bool.injEq]
    exact Operand.equal_of_isNullish
  less_greater := applyOperator_less_comm a b
  atMost_atLeast := applyOperator_atMost_comm a b
  atMost_iff := applyOperator_atMost_iff a b

/-- Two objects that hold the same members in another order. -/
theorem comparisons_coherent_reordered :
    let a : Operand := .object [("x", .array [.null, .object [("k", .bool true)]]), ("y", .null)]
    let b : Operand := .object [("y", .null), ("x", .array [.null, .object [("k", .bool true)]])]
    a.KeysDistinct ∧ b.KeysDistinct ∧ Coherent a b := by
  intro a b
  have ha : a.KeysDistinct := by simp [a, Operand.KeysDistinct]
  have hb : b.KeysDistinct := by simp [b, Operand.KeysDistinct]
  exact ⟨ha, hb, comparisons_coherent ha hb⟩

end Stencil.Expr
