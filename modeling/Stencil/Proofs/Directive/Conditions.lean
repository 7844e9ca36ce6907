import Stencil.Directive.Finalize
import Stencil.Directive.Passes
import Stencil.Proofs.Html.Classes
namespace Stencil.Directive

open Stencil.Html (Element)
open Stencil.Text (IsWord)

/-! # Conditions of one element

A condition is evaluated into a class and read off the class again. The two agree when the hidden
class is a word, whatever classes the element had; any other hidden class is never found again.
Nothing but that class is changed, and what the conditions say in another scope later replaces what
they have said before. Saying the same again changes nothing, with one exception: an attribute for
classes that has none may be moved behind the others.
-/

variable {names : Names} {scope : Scope}

/-- Whether the conditions of an element hide it: its negative one, or the other if it has none. -/
def hides (names : Names) (scope : Scope) (e : Element) : Bool :=
  match e.attr? names.ifNot with
  | some text => Expr.holds scope text
  | none =>
    match e.attr? names.if_ with
    | some text => !Expr.holds scope text
    | none => false

theorem isConditional_flags (e : Element) :
    (names.flags e).isConditional = ((e.attr? names.if_).isSome || (e.attr? names.ifNot).isSome) :=
  rfl

/-- An element without a condition is not hidden. -/
theorem isConditional_of_hides {e : Element} (h : hides names scope e = true) :
    (names.flags e).isConditional = true := by
  rw [isConditional_flags]
  unfold hides at h
  split at h
  · next text htext => simp [htext]
  · split at h
    · next text htext => simp [htext]
    · cases h

/-! ## Other attributes -/

/-- No directive stands in the attribute of the classes. -/
theorem Names.classKey_notMem_of (start hiddenClass : String) :
    Element.classKey ∉ (Names.of start hiddenClass).all := by
  -- the names of directives do not end like the name of that attribute
  have hlast : ∀ s : String, s.toList.getLast? ≠ "class".toList.getLast? → s.toList ≠ [] →
      Element.classKey ≠ start ++ s := by
    intro s hs hne heq
    refine hs ?_
    have hcs := congrArg (fun t => t.toList.getLast?) heq
    simp only [String.toList_append, List.getLast?_append] at hcs
    rcases Option.ne_none_iff_exists'.1 (mt List.getLast?_eq_none_iff.1 hne) with ⟨c, hc⟩
    rw [hc, Option.some_or] at hcs
    rw [hc]
    exact hcs.symm
  simp only [Names.all, Names.of, List.mem_cons, List.not_mem_nil, or_false, not_or]
  exact ⟨hlast _ (by decide) (by decide), hlast _ (by decide) (by decide),
    hlast _ (by decide) (by decide), hlast _ (by decide) (by decide)⟩

theorem Names.ne_classKey (h : Element.classKey ∉ names.all) :
    names.value ≠ Element.classKey ∧ names.if_ ≠ Element.classKey ∧
      names.ifNot ≠ Element.classKey ∧ names.each ≠ Element.classKey := by
  simpa [Names.all, eq_comm] using h

theorem attr?_markHidden (hidden : Bool) (e : Element) {name : String}
    (h : name ≠ Element.classKey) : (markHidden names hidden e).attr? name = e.attr? name := by
  unfold markHidden
  split
  · exact e.attr?_addClass _ h
  · split
    · simp only
      split
      · rw [Element.attr?_removeAttr, if_neg h, Element.attr?_removeClass _ _ h]
      · exact e.attr?_removeClass _ h
    · rfl

/-- Conditions change the classes and nothing else. -/
theorem attr?_applyConditions (e : Element) {name : String} (h : name ≠ Element.classKey) :
    (applyConditions names scope e).attr? name = e.attr? name := by
  unfold applyConditions
  split <;> split <;> simp only [attr?_markHidden _ _ h]

/-- Marking keeps the name and all other attributes, in their order. -/
theorem removeAttr_markHidden (hidden : Bool) (e : Element) :
    (markHidden names hidden e).removeAttr Element.classKey = e.removeAttr Element.classKey := by
  have hremove : (e.removeClass names.hiddenClass).removeAttr Element.classKey =
      e.removeAttr Element.classKey := by
    unfold Element.removeClass
    split
    · exact Element.removeAttr_setClasses e _
    · rfl
  unfold markHidden
  split
  · exact Element.removeAttr_setClasses e _
  · split
    · simp only
      split
      · rw [Element.removeAttr_removeAttr, hremove]
      · exact hremove
    · rfl

theorem removeAttr_applyConditions (e : Element) :
    (applyConditions names scope e).removeAttr Element.classKey =
      e.removeAttr Element.classKey := by
  unfold applyConditions
  split <;> split <;> simp only [removeAttr_markHidden]

/-- An element without conditions is left alone. -/
theorem applyConditions_eq_self {e : Element} (h : (names.flags e).isConditional = false) :
    applyConditions names scope e = e := by
  rw [isConditional_flags, Bool.or_eq_false_iff, Option.isSome_eq_false_iff,
    Option.isSome_eq_false_iff, Option.isNone_iff_eq_none, Option.isNone_iff_eq_none] at h
  unfold applyConditions
  rw [h.1, h.2]

/-- What the conditions say is not changed by what they do, in whatever scope. -/
theorem hides_applyConditions (hc : Element.classKey ∉ names.all) (e : Element) (other : Scope) :
    hides names other (applyConditions names scope e) = hides names other e := by
  obtain ⟨-, hif, hnot, -⟩ := Names.ne_classKey hc
  unfold hides
  rw [attr?_applyConditions e hnot, attr?_applyConditions e hif]

theorem isConditional_applyConditions (hc : Element.classKey ∉ names.all) (e : Element) :
    (names.flags (applyConditions names scope e)).isConditional =
      (names.flags e).isConditional := by
  obtain ⟨-, hif, hnot, -⟩ := Names.ne_classKey hc
  rw [isConditional_flags, isConditional_flags, attr?_applyConditions e hif,
    attr?_applyConditions e hnot]

/-! ## The mark -/

/-- An element is marked as it is told to be, whatever its classes were. -/
theorem hasClass_markHidden (hw : IsWord names.hiddenClass.toList) (hidden : Bool) (e : Element) :
    (markHidden names hidden e).hasClass names.hiddenClass = hidden := by
  unfold markHidden
  split
  · next h =>
    rw [h]
    exact e.hasClass_addClass hw
  · next h =>
    rw [Bool.not_eq_true] at h
    rw [h]
    split
    · -- without the class the attribute may be left empty, and goes then
      simp only
      split
      · refine Element.hasClass_of_attr?_none ?_ _
        rw [Element.attr?_removeAttr, if_pos rfl]
      · exact e.hasClass_removeClass _
    · next hold => simpa using hold

/-- The mark of an element with conditions says what they say: the negative one comes last. -/
theorem hasClass_applyConditions (hw : IsWord names.hiddenClass.toList) {e : Element}
    (h : (names.flags e).isConditional = true) :
    (applyConditions names scope e).hasClass names.hiddenClass = hides names scope e := by
  unfold applyConditions hides
  -- whichever condition is applied last leaves its mark, whatever was there before
  cases hnot : e.attr? names.ifNot with
  | some text => exact hasClass_markHidden hw _ _
  | none =>
    cases hif : e.attr? names.if_ with
    | some text => exact hasClass_markHidden hw _ _
    | none =>
      rw [isConditional_flags, hnot, hif] at h
      cases h

/-! ## Other classes -/

/-- Marking keeps all other classes, in their order. -/
theorem filter_classes_markHidden (hw : IsWord names.hiddenClass.toList) (hidden : Bool)
    (e : Element) :
    (markHidden names hidden e).classes.filter (· ≠ names.hiddenClass) =
      e.classes.filter (· ≠ names.hiddenClass) := by
  have hremove : (e.removeClass names.hiddenClass).classes.filter (· ≠ names.hiddenClass) =
      e.classes.filter (· ≠ names.hiddenClass) := by
    rw [e.classes_removeClass, List.filter_filter]
    simp only [Bool.and_self]
  unfold markHidden
  split
  · exact e.filter_classes_addClass hw
  · split
    · simp only
      split
      · -- the attribute that goes held no class
        next hempty =>
        have hnone : (e.removeClass names.hiddenClass).classes = [] := by
          rw [Element.classes, hempty]
          rfl
        rw [← hremove, hnone, Element.classes, Element.attr?_removeAttr, if_pos rfl]
      · exact hremove
    · rfl

theorem filter_classes_applyConditions (hw : IsWord names.hiddenClass.toList) (e : Element) :
    (applyConditions names scope e).classes.filter (· ≠ names.hiddenClass) =
      e.classes.filter (· ≠ names.hiddenClass) := by
  unfold applyConditions
  split <;> split <;> simp only [filter_classes_markHidden hw]

/-! ## Marking twice -/

theorem markHidden_true (e : Element) :
    markHidden names true e = e.addClass names.hiddenClass := by
  simp [markHidden]

theorem markHidden_false_eq_self {e : Element} (h : e.hasClass names.hiddenClass = false) :
    markHidden names false e = e := by
  simp [markHidden, h]

theorem intercalate_eq_empty_iff {ws : List String} (h : ∀ w ∈ ws, IsWord w.toList) :
    " ".intercalate ws = "" ↔ ws = [] := by
  constructor
  · intro heq
    rw [← Element.markupWords_setClasses h, heq]
    rfl
  · rintro rfl
    rfl

/-- A hidden element that is shown is left with its other classes, and with no attribute without
any. -/
theorem markHidden_false_of_hasClass {e : Element} (h : e.hasClass names.hiddenClass = true) :
    markHidden names false e = e.withClasses (e.classes.filter (· ≠ names.hiddenClass)) := by
  have hwords : ∀ w ∈ e.classes.filter (· ≠ names.hiddenClass), IsWord w.toList := fun w hmem =>
    Element.isWord_of_mem_classes (List.mem_filter.1 hmem).1
  have hempty : (e.setClasses (e.classes.filter (· ≠ names.hiddenClass))).attr? Element.classKey =
      some "" ↔ e.classes.filter (· ≠ names.hiddenClass) = [] := by
    rw [Element.setClasses, Element.attr?_setAttr, if_pos rfl, Option.some_inj]
    exact intercalate_eq_empty_iff hwords
  unfold markHidden
  rw [if_neg (by simp), if_pos h, Element.removeClass, if_pos (Element.hasAttr_of_hasClass h)]
  simp only [hempty]
  rw [Element.removeAttr_setClasses]
  rfl

/-- Hiding and showing an element leaves its other classes, and no attribute without any. -/
theorem markHidden_false_addClass (hw : IsWord names.hiddenClass.toList) (e : Element) :
    markHidden names false (e.addClass names.hiddenClass) =
      e.withClasses (e.classes.filter (· ≠ names.hiddenClass)) := by
  rw [markHidden_false_of_hasClass (e.hasClass_addClass hw), Element.filter_classes_addClass e hw,
    Element.addClass, Element.withClasses_setClasses]

/-- An element that has been hidden and shown again is as it was before once this is done again. -/
theorem markHidden_false_true_again (hw : IsWord names.hiddenClass.toList) (e : Element) :
    let shown := markHidden names false (markHidden names true e)
    markHidden names false (markHidden names true shown) = shown := by
  intro shown
  have hshown : shown = e.withClasses (e.classes.filter (· ≠ names.hiddenClass)) := by
    show markHidden names false (markHidden names true e) = _
    rw [markHidden_true, markHidden_false_addClass hw]
  have hclasses : shown.classes = e.classes.filter (· ≠ names.hiddenClass) := by
    rw [hshown, Element.classes_withClasses]
    · exact fun w hmem => Element.isWord_of_mem_classes (List.mem_filter.1 hmem).1
    · exact e.nodup_classes.filter _
  rw [markHidden_true, markHidden_false_addClass hw, hclasses, List.filter_filter]
  simp only [Bool.and_self]
  rw [hshown, Element.withClasses_withClasses]

/-- The conditions of an element that is shown leave it as they have left it before. Of a hidden one
this is not true: the attribute of its classes may go and come back behind the others. -/
theorem applyConditions_applyConditions (hw : IsWord names.hiddenClass.toList)
    (hc : Element.classKey ∉ names.all) {e : Element} (h : hides names scope e = false) :
    applyConditions names scope (applyConditions names scope e) =
      applyConditions names scope e := by
  obtain ⟨-, hifKey, hnotKey, -⟩ := Names.ne_classKey hc
  have hif : (applyConditions names scope e).attr? names.if_ = e.attr? names.if_ :=
    attr?_applyConditions e hifKey
  have hnot : (applyConditions names scope e).attr? names.ifNot = e.attr? names.ifNot :=
    attr?_applyConditions e hnotKey
  have hmarked : ∀ u : Element,
      markHidden names false (markHidden names false u) = markHidden names false u := fun u =>
    markHidden_false_eq_self (hasClass_markHidden hw false u)
  have hagain := markHidden_false_true_again hw e
  generalize hu : applyConditions names scope e = u at hif hnot ⊢
  unfold applyConditions at hu ⊢
  unfold hides at h
  rw [hif, hnot]
  cases hnegative : e.attr? names.ifNot with
  | some text =>
    rw [hnegative] at h hu
    simp only at h hu ⊢
    rw [h] at hu ⊢
    cases hpositive : e.attr? names.if_ with
    | some condition =>
      rw [hpositive] at hu
      simp only at hu ⊢
      rw [← hu]
      cases !Expr.holds scope condition with
      | true => exact hagain
      | false => rw [hmarked, hmarked]
    | none =>
      rw [hpositive] at hu
      simp only at hu ⊢
      rw [← hu, hmarked]
  | none =>
    rw [hnegative] at h hu
    simp only at h hu ⊢
    cases hpositive : e.attr? names.if_ with
    | some condition =>
      rw [hpositive] at h hu
      simp only at h hu ⊢
      rw [h] at hu ⊢
      rw [← hu, hmarked]
    | none => rfl

/-! ## Hiding twice -/

/-- The elements whose classes move: both conditions hold, so that the first one shows what the
second one hides, and the attribute of the classes is there without a class. -/
structure Wavers (names : Names) (scope : Scope) (e : Element) : Prop where
  if_holds : ∃ text, e.attr? names.if_ = some text ∧ Expr.holds scope text = true
  ifNot_holds : ∃ text, e.attr? names.ifNot = some text ∧ Expr.holds scope text = true
  hasAttr : e.hasAttr Element.classKey = true
  classes_eq_nil : e.classes = []

/-- The one word that is written where there is no class. -/
theorem addClass_of_classes_eq_nil {e : Element} (h : e.classes = []) (token : String) :
    e.addClass token = e.setAttr Element.classKey token := by
  rw [Element.addClass, Element.hasClass, h, List.contains_nil, if_neg Bool.false_ne_true,
    List.nil_append, Element.setClasses, String.intercalate_singleton]

/-- An element that is hidden although its positive condition holds is hidden by the negative
one. -/
theorem ifNot_holds_of_hides {e : Element} (h : hides names scope e = true)
    (hif : ∃ text, e.attr? names.if_ = some text ∧ Expr.holds scope text = true) :
    ∃ text, e.attr? names.ifNot = some text ∧ Expr.holds scope text = true := by
  obtain ⟨condition, hcondition, hshows⟩ := hif
  unfold hides at h
  split at h
  · next text htext => exact ⟨text, htext, h⟩
  · rw [hcondition] at h
    simp only at h
    rw [hshows] at h
    cases h

/-- Both conditions of an element that hold show it first and hide it then. -/
theorem applyConditions_of_holds {e : Element}
    (hif : ∃ text, e.attr? names.if_ = some text ∧ Expr.holds scope text = true)
    (hnot : ∃ text, e.attr? names.ifNot = some text ∧ Expr.holds scope text = true) :
    applyConditions names scope e = (markHidden names false e).addClass names.hiddenClass := by
  obtain ⟨condition, hcondition, hshows⟩ := hif
  obtain ⟨text, htext, hhides⟩ := hnot
  unfold applyConditions
  rw [hcondition, htext]
  simp only
  rw [hshows, hhides, markHidden_true]
  rfl

theorem markHidden_false_of_classes_eq_nil {e : Element} (h : e.classes = []) :
    markHidden names false e = e :=
  markHidden_false_eq_self (by rw [Element.hasClass, h, List.contains_nil])

/-- The conditions put the hidden class into the attribute in its place at first, and behind all
other attributes from then on. -/
theorem applyConditions_of_wavers (hw : IsWord names.hiddenClass.toList)
    (hc : Element.classKey ∉ names.all) {e : Element} (h : Wavers names scope e) :
    applyConditions names scope e = e.setAttr Element.classKey names.hiddenClass ∧
      applyConditions names scope (applyConditions names scope e) =
        (e.removeAttr Element.classKey).setAttr Element.classKey names.hiddenClass := by
  obtain ⟨-, hifKey, hnotKey, -⟩ := Names.ne_classKey hc
  have honce : applyConditions names scope e = e.addClass names.hiddenClass := by
    rw [applyConditions_of_holds h.if_holds h.ifNot_holds,
      markHidden_false_of_classes_eq_nil h.classes_eq_nil]
  have hbare : (e.removeAttr Element.classKey).classes = [] := by
    rw [Element.classes, Element.attr?_removeAttr, if_pos rfl]
  constructor
  · rw [honce, addClass_of_classes_eq_nil h.classes_eq_nil]
  · -- the second time the attribute loses the only class that it has, and goes
    rw [applyConditions_of_holds, honce, markHidden_false_addClass hw, h.classes_eq_nil,
      List.filter_nil, Element.withClasses, if_pos rfl, addClass_of_classes_eq_nil hbare]
    · rw [attr?_applyConditions e hifKey]
      exact h.if_holds
    · rw [attr?_applyConditions e hnotKey]
      exact h.ifNot_holds

/-- A shown element without classes has no attribute for them, unless it came with an empty one. -/
theorem hasAttr_markHidden_false {e : Element}
    (h : e.hasAttr Element.classKey = true → e.classes ≠ [])
    (hnil : (markHidden names false e).classes = []) :
    (markHidden names false e).hasAttr Element.classKey = false := by
  cases hold : e.hasClass names.hiddenClass with
  | false =>
    rw [markHidden_false_eq_self hold] at hnil ⊢
    exact Bool.eq_false_iff.2 fun hattr => h hattr hnil
  | true =>
    have hwords : ∀ w ∈ e.classes.filter (· ≠ names.hiddenClass), IsWord w.toList := fun w hmem =>
      Element.isWord_of_mem_classes (List.mem_filter.1 hmem).1
    rw [markHidden_false_of_hasClass hold] at hnil ⊢
    rw [e.classes_withClasses hwords (e.nodup_classes.filter _)] at hnil
    rw [hnil, Element.withClasses, if_pos rfl]
    exact e.hasAttr_removeAttr Element.classKey

/-- Showing and hiding again a hidden element changes nothing, unless its attribute of the classes
has been left without one. -/
theorem markHidden_false_addClass_again (hw : IsWord names.hiddenClass.toList) {e : Element}
    (h : e.hasAttr Element.classKey = true → e.classes ≠ []) :
    let hidden := (markHidden names false e).addClass names.hiddenClass
    (markHidden names false hidden).addClass names.hiddenClass = hidden := by
  intro hidden
  show (markHidden names false hidden).addClass names.hiddenClass = hidden
  have hbare : (markHidden names false e).classes = [] →
      (markHidden names false e).hasAttr Element.classKey = false := hasAttr_markHidden_false h
  have hshown : (markHidden names false e).hasClass names.hiddenClass = false :=
    hasClass_markHidden hw false e
  simp only [hidden]
  generalize markHidden names false e = u at hbare hshown ⊢
  have hothers : u.classes.filter (· ≠ names.hiddenClass) = u.classes := by
    refine List.filter_eq_self.2 ?_
    intro w hmem
    have hne : w ≠ names.hiddenClass := by
      rintro rfl
      rw [Element.hasClass, List.contains_iff_mem.2 hmem] at hshown
      cases hshown
    simpa using hne
  rw [markHidden_false_addClass hw, hothers, Element.withClasses]
  split
  · next hnil => rw [Element.removeAttr_eq_self (hbare hnil)]
  · exact u.addClass_setClasses_classes names.hiddenClass

/-- An element that is hidden and that no condition shows gets the hidden class. -/
theorem applyConditions_of_hides (hw : IsWord names.hiddenClass.toList) {e : Element}
    (h : hides names scope e = true)
    (hshow : ¬ ∃ text, e.attr? names.if_ = some text ∧ Expr.holds scope text = true) :
    applyConditions names scope e = e.addClass names.hiddenClass := by
  unfold hides at h
  unfold applyConditions
  cases hif : e.attr? names.if_ with
  | none =>
    cases hnot : e.attr? names.ifNot with
    | none =>
      rw [hnot, hif] at h
      cases h
    | some text =>
      rw [hnot] at h
      simp only at h ⊢
      rw [h, markHidden_true]
  | some condition =>
    have hfalse : Expr.holds scope condition = false :=
      Bool.eq_false_iff.2 fun hholds => hshow ⟨condition, hif, hholds⟩
    simp only
    rw [hfalse, Bool.not_false, markHidden_true]
    cases hnot : e.attr? names.ifNot with
    | none => rfl
    | some text =>
      rw [hnot] at h
      simp only at h ⊢
      rw [h, markHidden_true, e.addClass_addClass hw]

/-- Conditions that are applied again change nothing more, but for the elements whose classes
move. -/
theorem applyConditions_again (hw : IsWord names.hiddenClass.toList)
    (hc : Element.classKey ∉ names.all) {e : Element} (h : ¬ Wavers names scope e) :
    applyConditions names scope (applyConditions names scope e) =
      applyConditions names scope e := by
  obtain ⟨-, hifKey, hnotKey, -⟩ := Names.ne_classKey hc
  have hif : (applyConditions names scope e).attr? names.if_ = e.attr? names.if_ :=
    attr?_applyConditions e hifKey
  have hnot : (applyConditions names scope e).attr? names.ifNot = e.attr? names.ifNot :=
    attr?_applyConditions e hnotKey
  cases hhides : hides names scope e with
  | false => exact applyConditions_applyConditions hw hc hhides
  | true =>
    have hhidden : hides names scope (applyConditions names scope e) = true :=
      (hides_applyConditions hc e scope).trans hhides
    by_cases hshow : ∃ text, e.attr? names.if_ = some text ∧ Expr.holds scope text = true
    · -- shown by the one condition and hidden by the other, both times
      have hboth := ifNot_holds_of_hides hhides hshow
      rw [applyConditions_of_holds (by rwa [hif]) (by rwa [hnot]),
        applyConditions_of_holds hshow hboth]
      refine markHidden_false_addClass_again hw ?_
      exact fun hattr hnil => h ⟨hshow, hboth, hattr, hnil⟩
    · -- hidden for good the first time
      rw [applyConditions_of_hides hw hhidden (by rwa [hif]),
        applyConditions_of_hides hw hhides hshow, e.addClass_addClass hw]

/-! ## Two scopes -/

/-- The scope that comes last decides on all classes. -/
theorem hasClass_applyConditions_of_scopes (hw : IsWord names.hiddenClass.toList)
    (hc : Element.classKey ∉ names.all) (first last : Scope) (e : Element) (token : String) :
    (applyConditions names last (applyConditions names first e)).hasClass token =
      (applyConditions names last e).hasClass token := by
  cases hcond : (names.flags e).isConditional with
  | false =>
    have hself : applyConditions names first e = e := applyConditions_eq_self hcond
    rw [hself]
  | true =>
    by_cases htoken : token = names.hiddenClass
    · have hcond' : (names.flags (applyConditions names first e)).isConditional = true :=
        (isConditional_applyConditions hc e).trans hcond
      rw [htoken, hasClass_applyConditions hw hcond', hasClass_applyConditions hw hcond,
        hides_applyConditions hc]
    · -- of the other classes neither scope changes any
      refine Element.hasClass_eq_of_filter ?_ htoken
      simp only [filter_classes_applyConditions hw]

end Stencil.Directive
