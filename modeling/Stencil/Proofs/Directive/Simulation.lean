import Stencil.Proofs.Directive.Histories
import Stencil.Proofs.Document.Related
namespace Stencil.Directive

open Stencil.Data (Value)
open Stencil.Html (Document Element NodeId)
open Stencil.Html.Document (Related)

/-! # Two runs side by side

Two documents that differ in their elements alone, each under its own names of directives. As long
as related elements ask for the same and are marked and stripped alike, the two runs go through the
same steps: every pass finds the same nodes in the same places, makes the same copies and takes out
the same elements.
-/

/-- Related elements ask for the same under their names, and stay related when they are changed. -/
structure Simulates (names names' : Names) (r : Element → Element → Prop) : Prop where
  conditions : ∀ scope e e', r e e' →
    r (applyConditions names scope e) (applyConditions names' scope e')
  valueText : ∀ scope e e', r e e' → valueText? names scope e = valueText? names' scope e'
  loop : ∀ scope e e', r e e' → loop? names scope e = loop? names' scope e'
  candidate : ∀ strip e e', r e e' → isCandidate names strip e = isCandidate names' strip e'
  hidden : ∀ e e', r e e' → e.hasClass names.hiddenClass = e'.hasClass names'.hiddenClass
  strip : ∀ e e', r e e' → r (stripDirectives names e) (stripDirectives names' e')

namespace Simulates

variable {names names' : Names} {r : Element → Element → Prop} {d d' : Document}

/-- What related elements agree on, the two documents agree on at every node. -/
theorem bind_element?_eq (h : d.Related r d') {α : Type} {f f' : Element → Option α}
    (hf : ∀ e e', r e e' → f e = f' e') (id : NodeId) :
    (d.element? id).bind f = (d'.element? id).bind f' := by
  have hid := h.element? id
  generalize d.element? id = e, d'.element? id = e' at hid
  cases hid with
  | some he => exact hf _ _ he
  | none => rfl

/-! ## Conditions and values -/

theorem conditionLevels (hs : Simulates names names' r) (scope : Scope) (levels : Nat) :
    ∀ {d d' : Document}, d.Related r d' → ∀ id,
      (Directive.conditionLevels names scope levels d id).Related r
        (Directive.conditionLevels names' scope levels d' id) := by
  induction levels with
  | zero => exact fun h _ => h
  | succ levels ih =>
    intro d d' h id
    have hmarked := h.updateElement id (hs.conditions scope)
    unfold Directive.conditionLevels
    simp only
    rw [hmarked.elementChildren_eq id]
    exact List.foldl_rel (r := Related r) hmarked fun child _ _ _ hacc => ih hacc child

theorem conditionPass (hs : Simulates names names' r) (scope : Scope) (h : d.Related r d')
    (id : NodeId) :
    (Directive.conditionPass names scope d id).Related r
      (Directive.conditionPass names' scope d' id) := by
  rw [Directive.conditionPass, Directive.conditionPass, h.size_eq]
  exact hs.conditionLevels scope _ h id

theorem applyValue (hs : Simulates names names' r) (scope : Scope) (h : d.Related r d')
    (id : NodeId) :
    (Directive.applyValue names scope d id).Related r
      (Directive.applyValue names' scope d' id) := by
  unfold Directive.applyValue
  rw [bind_element?_eq h (hs.valueText scope) id]
  split
  · exact h.setText id _
  · exact h

theorem valueLevels (hs : Simulates names names' r) (scope : Scope) (levels : Nat) :
    ∀ {d d' : Document}, d.Related r d' → ∀ id,
      (Directive.valueLevels names scope levels d id).Related r
        (Directive.valueLevels names' scope levels d' id) := by
  induction levels with
  | zero => exact fun h _ => h
  | succ levels ih =>
    intro d d' h id
    have hfilled := hs.applyValue scope h id
    unfold Directive.valueLevels
    simp only
    rw [hfilled.elementChildren_eq id]
    exact List.foldl_rel (r := Related r) hfilled fun child _ _ _ hacc => ih hacc child

theorem valuePass (hs : Simulates names names' r) (scope : Scope) (h : d.Related r d')
    (id : NodeId) :
    (Directive.valuePass names scope d id).Related r (Directive.valuePass names' scope d' id) := by
  rw [Directive.valuePass, Directive.valuePass, h.size_eq]
  exact hs.valueLevels scope _ h id

theorem fillPass (hs : Simulates names names' r) (scope : Scope) (h : d.Related r d')
    (id : NodeId) :
    (Directive.fillPass names scope d id).Related r (Directive.fillPass names' scope d' id) :=
  hs.valuePass scope (hs.conditionPass scope h id) id

/-! ## Loops -/

/-- Going down `levels` levels expands the loops of both documents alike. -/
def ExpandsAlike (names names' : Names) (r : Element → Element → Prop) (levels : Nat)
    (scope : Scope) : Prop :=
  ∀ d d' : Document, d.Related r d' → ∀ id,
    (Directive.eachLevels names levels scope d id).Related r
      (Directive.eachLevels names' levels scope d' id)

/-- The loops below a node, once it is known how to expand those of its children. -/
theorem ExpandsAlike.children {levels : Nat} {scope : Scope}
    (hexp : ExpandsAlike names names' r levels scope) (h : d.Related r d') (id : NodeId) :
    ((d.elementChildren id).foldl (Directive.eachLevels names levels scope) d).Related r
      ((d'.elementChildren id).foldl (Directive.eachLevels names' levels scope) d') := by
  rw [h.elementChildren_eq id]
  exact List.foldl_rel (r := Related r) h fun child _ _ _ hacc => hexp _ _ hacc child

/-- One item of a loop: both documents get a copy of the same numbers in the same place. -/
theorem placeItem (hs : Simulates names names' r) {levels : Nat} {inner : Scope}
    (hexp : ExpandsAlike names names' r levels inner) (h : d.Related r d')
    (parent : Option NodeId) (template id : NodeId) :
    (Directive.placeItem names levels inner parent template id d).Related r
      (Directive.placeItem names' levels inner parent template id d') := by
  obtain ⟨hcloned, hcopy⟩ := h.deepClone template
  have hfilled := hs.fillPass inner hcloned (d.deepClone template).2
  have hmade : (copyItem names levels inner template d).1.Related r
      (copyItem names' levels inner template d').1 := by
    have hnested := hexp.children hfilled (d.deepClone template).2
    unfold copyItem
    simp only
    rw [← hcopy]
    exact hnested
  have hsame : (copyItem names levels inner template d).2 =
      (copyItem names' levels inner template d').2 := hcopy
  unfold Directive.placeItem
  simp only
  rw [hsame]
  cases parent with
  | none => exact hmade
  | some p => exact hmade.link _ _ _

theorem eachLevels (hs : Simulates names names' r) (levels : Nat) :
    ∀ scope, ExpandsAlike names names' r levels scope := by
  induction levels with
  | zero =>
    intro scope d d' h id
    exact h
  | succ levels ih =>
    intro scope d d' h id
    have hsame := bind_element?_eq h (hs.loop scope) id
    cases hloop : (d.element? id).bind (loop? names scope) with
    | none =>
      rw [eachLevels_of_none hloop, eachLevels_of_none (hsame ▸ hloop)]
      exact (ih scope).children h id
    | some loop =>
      obtain ⟨item, items⟩ := loop
      obtain ⟨hcopied, htemplate⟩ := h.deepClone id
      rw [eachLevels_of_loop hloop, eachLevels_of_loop (hsame ▸ hloop), h.parent?_eq id, htemplate]
      refine Document.Related.detach (List.foldl_rel (r := Related r) hcopied ?_) id
      intro v _ _ _ hacc
      exact hs.placeItem (ih (scope.bind item v)) hacc _ _ id

theorem process (hs : Simulates names names' r) (root : Value) (h : d.Related r d') :
    (Directive.process names root d).Related r (Directive.process names' root d') := by
  have hfilled := hs.fillPass (.ofRoot root) h Document.root
  have heach := hs.eachLevels (Directive.fillPass names (.ofRoot root) d Document.root).size
    (.ofRoot root) _ _ hfilled Document.root
  have hsize := hfilled.size_eq
  unfold Directive.process eachPass
  simp only
  unfold Directive.fillPass at heach hsize
  rw [hsize] at heach ⊢
  exact heach

/-! ## The end of a run -/

theorem finishElement (hs : Simulates names names' r) (strip : Bool) (h : d.Related r d')
    (id : NodeId) :
    (Directive.finishElement names strip d id).1.Related r
        (Directive.finishElement names' strip d' id).1 ∧
      (Directive.finishElement names strip d id).2 =
        (Directive.finishElement names' strip d' id).2 := by
  unfold Directive.finishElement
  have hid := h.element? id
  generalize d.element? id = e, d'.element? id = e' at hid
  cases hid with
  | none => exact ⟨h, rfl⟩
  | @some e e' he =>
    simp only [hs.candidate strip e e' he, hs.hidden e e' he]
    split
    · exact ⟨h, rfl⟩
    · split
      · exact ⟨h.detach id, rfl⟩
      · split
        · exact ⟨h.updateElement id hs.strip, rfl⟩
        · exact ⟨h, rfl⟩

/-- The ends of both runs leave related documents and take out as many elements. -/
theorem finalize (hs : Simulates names names' r) (strip : Bool) (h : d.Related r d') :
    (Directive.finalize names strip d).1.Related r (Directive.finalize names' strip d').1 ∧
      (Directive.finalize names strip d).2 = (Directive.finalize names' strip d').2 := by
  unfold Directive.finalize
  rw [h.descendantElements_eq Document.root]
  refine List.foldl_rel
    (r := fun acc acc' : Document × Nat => acc.1.Related r acc'.1 ∧ acc.2 = acc'.2) ⟨h, rfl⟩ ?_
  rintro id - ⟨acc, removed⟩ ⟨acc', removed'⟩ ⟨hacc, rfl⟩
  obtain ⟨hfinished, htaken⟩ := hs.finishElement strip hacc id
  exact ⟨hfinished, by simp only [htaken]⟩

end Simulates

end Stencil.Directive
