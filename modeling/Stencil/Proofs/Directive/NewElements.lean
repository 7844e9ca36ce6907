import Stencil.Proofs.Directive.Histories
import Stencil.Proofs.Document.ElementHeight
namespace Stencil.Directive

open Stencil.Data (Value)
open Stencil.Html (Document NodeId)
open Stencil.Html.Document (Extends Narrows)

/-! # Where the passes put new elements

Conditions and values put no element anywhere: they change elements, take nodes out and put in
texts. A loop puts its copies below the parent of its element, and the loops below an element that
has none put theirs below that element. So what comes later in the document stays as high as it is.
-/

variable {names : Names} {step : Document → NodeId → Document}

/-! ## Conditions and values -/

/-- A pass that takes a step at each node that it comes by, and goes on below it with the children
that are elements. -/
def walkLevels (step : Document → NodeId → Document) : Nat → Document → NodeId → Document
  | 0, d, _ => d
  | levels + 1, d, id =>
    ((step d id).elementChildren id).foldl (walkLevels step levels) (step d id)

theorem conditionLevels_eq_walkLevels (names : Names) (scope : Scope) (levels : Nat) :
    conditionLevels names scope levels =
      walkLevels (fun d id => d.updateElement id (applyConditions names scope)) levels := by
  induction levels with
  | zero => rfl
  | succ levels ih =>
    funext d id
    rw [conditionLevels, ih]
    rfl

theorem valueLevels_eq_walkLevels (names : Names) (scope : Scope) (levels : Nat) :
    valueLevels names scope levels = walkLevels (applyValue names scope) levels := by
  induction levels with
  | zero => rfl
  | succ levels ih =>
    funext d id
    rw [valueLevels, ih]
    rfl

/-- The step puts no element below a node of the store. -/
def AddsNoElement (step : Document → NodeId → Document) : Prop :=
  ∀ (d : Document) (id : NodeId), d.WellFormed → Narrows (fun _ => False) d (step d id)

theorem addsNoElement_walkLevels (hstep : AddsNoElement step) (levels : Nat) :
    AddsNoElement (walkLevels step levels) := by
  induction levels with
  | zero => exact fun d _ hd => .refl hd
  | succ levels ih =>
    intro d id hd
    have hfirst := hstep d id hd
    refine hfirst.trans (Narrows.foldl hfirst.extension.wellFormed ?_) fun _ _ h => h
    intro acc hacc child _
    exact ⟨_, ih acc child hacc.extension.wellFormed, fun _ _ h => h⟩

theorem addsNoElement_mark (names : Names) (scope : Scope) :
    AddsNoElement fun d id => d.updateElement id (applyConditions names scope) :=
  fun _ id hd => hd.narrows_updateElement id _

theorem addsNoElement_applyValue (names : Names) (scope : Scope) :
    AddsNoElement (applyValue names scope) := by
  intro d id hd
  unfold applyValue
  split
  · next text h => exact hd.narrows_setText (lt_size_of_element? h) text
  · exact .refl hd

theorem addsNoElement_fillPass (names : Names) (scope : Scope) :
    AddsNoElement (fillPass names scope) := by
  intro d id hd
  have hmark : Narrows (fun _ => False) d (conditionPass names scope d id) := by
    rw [conditionPass, conditionLevels_eq_walkLevels]
    exact addsNoElement_walkLevels (addsNoElement_mark names scope) _ d id hd
  refine hmark.trans ?_ fun _ _ h => h
  rw [fillPass, valuePass, valueLevels_eq_walkLevels]
  exact addsNoElement_walkLevels (addsNoElement_applyValue names scope) _ _ id
    hmark.extension.wellFormed

/-! ## Loops -/

/-- The parent of a node and all that is below the node: where its loops may put new elements. -/
def Around (d : Document) (id j : NodeId) : Prop :=
  d.parent? id = some j ∨ Relation.ReflTransGen d.IsChild j id

/-- Of two old nodes, one is around the other only if it was so before. -/
theorem Around.old {d d' : Document} (h : Extends d d') (hd : d.WellFormed) {id j : NodeId}
    (hid : id < d.size) (hj : j < d.size) (ha : Around d' id j) : Around d id j := by
  rcases ha with hp | hbelow
  · exact Or.inl (h.parent_old id hid j hp)
  · exact Or.inr (h.above_old hd hj hbelow)

theorem Around.below_parent {d : Document} {id p j : NodeId} (hc : d.IsChild id p)
    (ha : Around d id j) : Relation.ReflTransGen d.IsChild j p := by
  rcases ha with hp | hbelow
  · obtain rfl : j = p := Document.WellFormed.isChild_rightUnique d hp hc
    exact .refl
  · exact hbelow.tail hc

/-- What is around a node is not below a sibling of it. -/
theorem Around.not_below_sibling {d : Document} (hd : d.WellFormed) {c c' p j : NodeId}
    (hc : d.IsChild c p) (hc' : d.IsChild c' p) (hne : c' ≠ c) (ha : Around d c j) :
    ¬ Relation.ReflTransGen d.IsChild j c' := by
  intro hbelow
  rcases ha with hp | hbelow'
  · obtain rfl : j = p := Document.WellFormed.isChild_rightUnique d hp hc
    exact hd.acyclic j (Relation.TransGen.tail' hbelow hc')
  · exact hne (hd.eq_of_below_siblings hc hc' hbelow' hbelow).symm

/-- Going through children puts new elements only below their parent. -/
theorem narrows_eachChildren {levels : Nat} {inner : Scope}
    (ih : ∀ (d : Document) (id : NodeId), d.WellFormed →
      Narrows (Around d id) d (eachLevels names levels inner d id))
    {d : Document} (hd : d.WellFormed) (id : NodeId) :
    Narrows (fun j => Relation.ReflTransGen d.IsChild j id) d
      ((d.elementChildren id).foldl (eachLevels names levels inner) d) := by
  refine Narrows.foldl hd ?_
  intro acc hacc child hchild
  have hup := hd.isChild_of_mem_elementChildren hchild
  refine ⟨_, ih acc child hacc.extension.wellFormed, ?_⟩
  intro j hj ha
  exact (ha.old hacc.extension hd (Document.lt_size_of_parent? hup) hj).below_parent hup

/-- A copy is new and so is all below it; the one old node that gets a new child is the parent. -/
theorem narrows_placeItem {levels : Nat} {inner : Scope}
    (ih : ∀ (d : Document) (id : NodeId), d.WellFormed →
      Narrows (Around d id) d (eachLevels names levels inner d id))
    {d : Document} (hd : d.WellFormed) {template : NodeId} (ht : template < d.size) (id : NodeId)
    {parent : Option NodeId} (hparent : ∀ p, parent = some p → p < d.size) :
    Narrows (parent = some ·) d (placeItem names levels inner parent template id d) := by
  have hclone := hd.clones_deepClone template
  have hcopy : Narrows (parent = some ·) d (d.deepClone template).1 := hd.narrows_deepClone ht
  have hfill := addsNoElement_fillPass names inner _ (d.deepClone template).2
    hcopy.extension.wellFormed
  have hnest := narrows_eachChildren ih hfill.extension.wellFormed (d.deepClone template).2
  have hfilled : Narrows (parent = some ·) d
      (fillPass names inner (d.deepClone template).1 (d.deepClone template).2) :=
    hcopy.trans hfill fun _ _ h => h.elim
  have hall : Narrows (parent = some ·) d (copyItem names levels inner template d).1 := by
    refine hfilled.trans hnest ?_
    intro j hj hbelow
    -- an old node is below no new one
    have := hfilled.extension.lt_size_of_above hd hj hbelow
    exact absurd hclone.copy_eq.ge (not_le.2 this)
  cases parent with
  | none => exact hall
  | some p =>
    exact hall.link hd (hparent p rfl) rfl hclone.copy_eq.ge
      (hclone.copy_lt.trans_le (hfill.extension.trans hnest.extension).size_le)
      (Document.perm_placeBefore _ id)

theorem narrows_eachLevels (names : Names) (levels : Nat) :
    ∀ (scope : Scope) (d : Document) (id : NodeId), d.WellFormed →
      Narrows (Around d id) d (eachLevels names levels scope d id) := by
  induction levels with
  | zero => exact fun _ d _ hd => .refl hd
  | succ levels ih =>
    intro scope d id hd
    cases hloop : (d.element? id).bind (loop? names scope) with
    | none =>
      rw [eachLevels_of_none hloop]
      exact (narrows_eachChildren (ih scope) hd id).mono fun _ _ => Or.inr
    | some loop =>
      rcases loop with ⟨item, items⟩
      rw [eachLevels_of_loop hloop]
      have hclone := hd.clones_deepClone id
      have hcopied : Narrows (Around d id) d (d.deepClone id).1 :=
        hd.narrows_deepClone (lt_size_of_element? hloop)
      have hitem : ∀ acc, Narrows (d.parent? id = some ·) (d.deepClone id).1 acc → ∀ v ∈ items,
          Narrows (d.parent? id = some ·) acc
            (placeItem names levels (scope.bind item v) (d.parent? id) (d.deepClone id).2 id
              acc) := by
        intro acc hacc v _
        have hle := hacc.extension.size_le
        refine narrows_placeItem (ih _) hacc.extension.wellFormed (hclone.copy_lt.trans_le hle) id ?_
        intro p hp
        exact (hd.parent_lt_size hp).trans_le (hcopied.extension.size_le.trans hle)
      have hitems := Narrows.foldl hcopied.extension.wellFormed fun acc hacc v hv =>
        ⟨_, hitem acc hacc v hv, fun _ _ h => h⟩
      have hall := hcopied.trans hitems fun _ _ => Or.inl
      exact hall.trans (hall.extension.wellFormed.narrows_detach (Around d id) id) fun _ _ h => h

end Stencil.Directive
