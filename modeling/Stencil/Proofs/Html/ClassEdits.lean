import Stencil.Proofs.Html.Classes
namespace Stencil.Html

/-! # Edits of classes

The classes of an element are a set that keeps its order, although all that is stored is the text of
one attribute. Adding and removing classes, any number of times, is the same as editing the list of
classes by itself and writing it out once.
-/

/-- An edit of the classes of an element. -/
inductive ClassEdit
  | add (token : String)
  | remove (token : String)

namespace ClassEdit

/-- What the edit makes of a list of classes: a new class comes last, and one that is there already
stays in its place. -/
def revise (ws : List String) : ClassEdit → List String
  | add token => if token ∈ ws then ws else ws ++ [token]
  | remove token => ws.filter (· ≠ token)

/-- Whether a class that the edit adds can be read back as one. -/
def IsProper : ClassEdit → Prop
  | add token => Text.IsWord token.toList
  | remove _ => True

instance : DecidablePred IsProper
  | add token => inferInstanceAs (Decidable (Text.IsWord token.toList))
  | remove _ => inferInstanceAs (Decidable True)

end ClassEdit

namespace Element

/-- What an edit makes of an element. -/
def edit (e : Element) : ClassEdit → Element
  | .add token => e.addClass token
  | .remove token => e.removeClass token

/-- Whether an edit writes the attribute: removing a class does not make one. -/
def isWritten (e : Element) : ClassEdit → Bool
  | .add _ => true
  | .remove _ => e.hasAttr classKey

variable {e : Element} {x : ClassEdit} {edits : List ClassEdit}

/-! ## One edit -/

theorem hasAttr_setClasses (e : Element) (ws : List String) :
    (e.setClasses ws).hasAttr classKey = true := by
  show ((e.setClasses ws).attr? classKey).isSome = true
  rw [setClasses, attr?_setAttr, if_pos rfl]
  rfl

/-- The attribute is written with the list that the edit makes of the classes, or is left out. -/
theorem edit_eq (e : Element) (x : ClassEdit) :
    e.edit x = if e.isWritten x then e.setClasses (x.revise e.classes) else e := by
  cases x with
  | add token => simp [edit, isWritten, addClass, ClassEdit.revise, hasClass]
  | remove token => rfl

theorem classes_edit (hx : x.IsProper) : (e.edit x).classes = x.revise e.classes := by
  cases x with
  | add token =>
    rw [edit, classes_addClass e hx]
    simp [ClassEdit.revise, hasClass]
  | remove token => exact classes_removeClass e token

/-! ## Many edits -/

theorem classes_foldl (h : ∀ x ∈ edits, x.IsProper) :
    (edits.foldl edit e).classes = edits.foldl ClassEdit.revise e.classes := by
  induction edits generalizing e with
  | nil => rfl
  | cons x edits ih =>
    rw [List.forall_mem_cons] at h
    rw [List.foldl_cons, List.foldl_cons, ih h.2, classes_edit h.1]

/-- Edits one after the other are one write of the list that they make of the classes. -/
theorem foldl_edit_eq (h : ∀ x ∈ edits, x.IsProper) :
    edits.foldl edit e = if edits.any e.isWritten
      then e.setClasses (edits.foldl ClassEdit.revise e.classes) else e := by
  induction edits generalizing e with
  | nil => rfl
  | cons x edits ih =>
    rw [List.forall_mem_cons] at h
    have hclasses := classes_edit (e := e) h.1
    rw [List.foldl_cons, List.foldl_cons, List.any_cons, ih h.2, hclasses]
    by_cases hx : e.isWritten x = true
    · -- the attribute is there from now on, so that every later edit writes it again
      have hedit : e.edit x = e.setClasses (x.revise e.classes) := by rw [edit_eq, if_pos hx]
      have hlater : ∀ y, (e.edit x).isWritten y = true := by
        intro y
        cases y with
        | add token => rfl
        | remove token =>
          rw [hedit]
          exact hasAttr_setClasses e _
      rw [hx, Bool.true_or, if_pos rfl, hedit, setClasses_setClasses]
      cases edits with
      | nil => rfl
      | cons y ys => rw [← hedit, List.any_cons, hlater, Bool.true_or, if_pos rfl]
    · -- there is no class to remove, and the element stays without the attribute
      have hedit : e.edit x = e := by rw [edit_eq, if_neg hx]
      rw [hedit] at hclasses
      rw [hedit, ← hclasses, Bool.eq_false_of_not_eq_true hx, Bool.false_or]

/-- However often classes are added and removed, they are a list without repetitions, and each edit
does to it what it does to a list by itself. The attribute holds that list with spaces between, and
it is read back from there; apart from this one attribute the element is as it was. -/
theorem classes_foldl_edit (e : Element) {edits : List ClassEdit} (h : ∀ x ∈ edits, x.IsProper) :
    let edited := edits.foldl edit e
    edited.classes.Nodup ∧
    edited.classes = edits.foldl ClassEdit.revise e.classes ∧
    (∀ token, Text.IsWord token.toList →
      (edited.addClass token).classes =
        (if token ∈ edited.classes then edited.classes else edited.classes ++ [token]) ∧
      (edited.addClass token).hasClass token = true) ∧
    (∀ token, (edited.removeClass token).classes = edited.classes.filter (· ≠ token)) ∧
    edited.removeAttr classKey = e.removeAttr classKey ∧
    edited.attr? classKey =
      (if edits.any e.isWritten then some (" ".intercalate edited.classes)
        else e.attr? classKey) ∧
    distinctWords (" ".intercalate edited.classes) = edited.classes := by
  intro edited
  have hclasses : edited.classes = edits.foldl ClassEdit.revise e.classes := classes_foldl h
  have hedited : edited = if edits.any e.isWritten then e.setClasses edited.classes else e := by
    rw [hclasses]
    exact foldl_edit_eq h
  refine ⟨edited.nodup_classes, hclasses, ?_, edited.classes_removeClass, ?_, ?_, ?_⟩
  · intro token htoken
    exact ⟨classes_edit (x := .add token) htoken, edited.hasClass_addClass htoken⟩
  · rw [hedited]
    split
    · exact e.removeAttr_setClasses _
    · rfl
  · conv_lhs => rw [hedited]
    split
    · rw [setClasses, attr?_setAttr, if_pos rfl]
    · rfl
  · exact distinctWords_intercalate (fun _ hw => isWord_of_mem_classes hw) edited.nodup_classes

/-- A class that stands twice, edits that find their class and edits that do not, and an attribute
behind the classes. -/
theorem classes_foldl_edit_repeated :
    let e : Element := ⟨"p", .ofList [("class", "a\tb  a"), ("if", "x")]⟩
    let edits : List ClassEdit := [.add "c", .remove "a", .remove "d", .add "b"]
    (∀ x ∈ edits, x.IsProper) ∧
      (edits.foldl edit e).classes = ["b", "c"] ∧
      (edits.foldl edit e).attr? classKey = some "b c" ∧
      ((edits.foldl edit e).addClass "a").classes = ["b", "c", "a"] ∧
      (edits.foldl edit e).removeAttr classKey = ⟨"p", .ofList [("if", "x")]⟩ := by
  intro e edits
  have hproper : ∀ x ∈ edits, x.IsProper := by decide
  obtain ⟨-, hclasses, hadd, -, hrest, hattr, -⟩ := classes_foldl_edit e hproper
  have hlist : edits.foldl ClassEdit.revise e.classes = ["b", "c"] := by decide +kernel
  rw [hlist] at hclasses
  rw [hclasses] at hadd hattr
  exact ⟨hproper, hclasses, hattr, (hadd "a" (by decide)).1, hrest⟩

end Element

end Stencil.Html
