import Mathlib.Data.List.Basic
import Stencil.Data.Display
namespace Stencil.Data

/-! # Shown and spelled values

What an element shows for a value and what the value counts for in an expression are the same text,
but for `null` by itself and for objects. An item that is `null` is empty on both sides, at any
depth, so naming the objects is all that has to be done before a value is shown.
-/

mutual

/-- The value with its objects named: each object that is not inside of another one has become the
text that expressions have for it. -/
def Value.named : Value → Value
  | .null => .null
  | .bool b => .bool b
  | .number n => .number n
  | .string s => .string s
  | .array items => .array (namedItems items)
  | .object _ => .string "[object Object]"

/-- The items of an array with their objects named. -/
def namedItems : List Value → List Value
  | [] => []
  | v :: rest => v.named :: namedItems rest

end

/-- There is no object in the value, at any depth of its arrays. -/
inductive Value.ObjectFree : Value → Prop
  | null : ObjectFree .null
  | bool (b : Bool) : ObjectFree (.bool b)
  | number (n : Number) : ObjectFree (.number n)
  | string (s : String) : ObjectFree (.string s)
  | array {items : List Value} (h : ∀ v ∈ items, ObjectFree v) : ObjectFree (.array items)

variable {v : Value} {items : List Value}

/-! ## Values without objects -/

theorem namedItems_eq_map (items : List Value) : namedItems items = items.map Value.named := by
  induction items with
  | nil => rfl
  | cons v rest ih => rw [namedItems, ih, List.map_cons]

/-- Nothing is to be named where there is no object. -/
theorem Value.ObjectFree.named_eq (h : v.ObjectFree) : v.named = v := by
  induction h with
  | @array items _ ih =>
    have hitems : items.map Value.named = items := by
      rw [List.map_congr_left ih]
      exact List.map_id items
    rw [Value.named, namedItems_eq_map, hitems]
  | _ => rfl

/-! ## Items of arrays -/

/-- An item that is not `null` stands in the text of its array as it would by itself. -/
theorem spelledItems_cons (h : v ≠ .null) :
    spelledItems (v :: items) = v.spelled :: spelledItems items := by
  cases v with
  | null => exact absurd rfl h
  | _ => rfl

mutual

theorem Value.spelled_eq_shown : ∀ v : Value, v ≠ .null → v.spelled = v.named.shown
  | .null, h => absurd rfl h
  | .bool _, _ => rfl
  | .number _, _ => rfl
  | .string _, _ => rfl
  | .array items, _ => by
    rw [Value.spelled, Value.named, Value.shown, spelledItems_eq_shownItems items]
  | .object _, _ => rfl

/-- Where items are concerned `null` needs no exception: it is empty on both sides. -/
theorem spelledItems_eq_shownItems :
    ∀ items : List Value, spelledItems items = shownItems (namedItems items)
  | [] => rfl
  | v :: rest => by
    have hrest := spelledItems_eq_shownItems rest
    by_cases hv : v = .null
    · subst hv
      rw [spelledItems, namedItems, shownItems, hrest]
      rfl
    · rw [spelledItems_cons hv, namedItems, shownItems, hrest, Value.spelled_eq_shown v hv]

end

/-- A value counts for what it shows once its objects have been named, and for just what it shows
if it has none. -/
theorem Value.spelled_eq_shown_named (h : v ≠ .null) :
    v.spelled = v.named.shown ∧ (v.ObjectFree → v.spelled = v.shown) := by
  have hspelled := v.spelled_eq_shown h
  refine ⟨hspelled, ?_⟩
  intro hfree
  rw [hspelled, hfree.named_eq]

/-- Objects at three depths, one of them with an object inside, and an array of nothing but `null`
and an empty array. -/
theorem Value.spelled_eq_shown_named_nested :
    let v : Value := .array [.object [("a", .object [])], .array [.null, .array [.object []]]]
    let w : Value := .array [.null, .array []]
    (v ≠ .null ∧ w ≠ .null ∧ w.ObjectFree) ∧
      (v.spelled = v.named.shown ∧ v.spelled = "[object Object],,[object Object]") ∧
        (w.spelled = w.shown ∧ w.shown = ",") := by
  intro v w
  have hv : v ≠ .null := nofun
  have hw : w ≠ .null := nofun
  have hfree : w.ObjectFree := by
    refine .array ?_
    intro u hu
    rcases List.mem_pair.1 hu with rfl | rfl
    · exact .null
    · exact .array (by simp)
  refine ⟨⟨hv, hw, hfree⟩, ⟨(Value.spelled_eq_shown_named hv).1, ?_⟩,
    ⟨(Value.spelled_eq_shown_named hw).2 hfree, ?_⟩⟩
  · decide +kernel
  · decide +kernel

end Stencil.Data
