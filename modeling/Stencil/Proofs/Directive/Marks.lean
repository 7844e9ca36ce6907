import Stencil.Proofs.Directive.Conditions
import Stencil.Proofs.Document.Visits
import Stencil.Proofs.Expr.Parsing
import Stencil.Proofs.Html.Built
namespace Stencil.Directive

open Stencil.Html (Document Element Node NodeId)
open Stencil.Text (IsWord)

/-! # What the conditions change

The pass of the conditions changes the marks of the elements that have a condition and nothing else.
What one scope has marked, another scope marks anew, so of several passes the last one decides on
all classes. The same pass again changes nothing, but for the place of the attribute of the classes
in elements that waver.
-/

variable {names : Names} {scope : Scope}

/-! ## The pass as one change of every element that it comes by -/

theorem conditionLevels_eq (names : Names) (scope : Scope) (levels : Nat) :
    ∀ (d : Document) (id : NodeId), conditionLevels names scope levels d id =
      d.updateElements (d.visitLevels levels id) (applyConditions names scope) := by
  induction levels with
  | zero => exact fun d id => rfl
  | succ levels ih =>
    intro d id
    have hrelated := Document.related_updateElement d id (applyConditions names scope)
    -- what has been marked leaves the way down as it was
    have hrest : ∀ (cs : List NodeId) (acc : Document),
        acc.visitLevels levels = d.visitLevels levels →
        cs.foldl (conditionLevels names scope levels) acc =
          acc.updateElements (cs.flatMap (d.visitLevels levels)) (applyConditions names scope) := by
      intro cs
      induction cs with
      | nil => exact fun acc _ => rfl
      | cons c cs ihcs =>
        intro acc hacc
        rw [List.foldl_cons, ih, hacc, ihcs _ (by rw [Document.visitLevels_updateElements, hacc]),
          List.flatMap_cons, Document.updateElements, Document.updateElements,
          Document.updateElements, List.foldl_append]
    rw [conditionLevels, ← hrelated.elementChildren_eq,
      hrest _ _ (hrelated.visitLevels_eq levels).symm]
    rfl

theorem conditionPass_eq (names : Names) (scope : Scope) (d : Document) (id : NodeId) :
    conditionPass names scope d id =
      d.updateElements (d.visits id) (applyConditions names scope) :=
  conditionLevels_eq names scope d.size d id

/-- Two passes are one, which applies the conditions twice. -/
theorem conditionPass_conditionPass {d : Document} (hd : d.WellFormed) (first last : Scope)
    (id : NodeId) :
    conditionPass names last (conditionPass names first d id) id =
      d.updateElements (d.visits id) fun e =>
        applyConditions names last (applyConditions names first e) := by
  rw [conditionPass_eq, conditionPass_eq, Document.visits_updateElements,
    Document.updateElements_updateElements (hd.nodup_visits id)]

/-! ## What stays -/

/-- Two elements with the same name, the same attributes in the same order but for that of the
classes, and the same classes in the same order but for one. -/
structure SameButMark (hiddenClass : String) (e e' : Element) : Prop where
  attrs : e'.removeAttr Element.classKey = e.removeAttr Element.classKey
  classes : e'.classes.filter (· ≠ hiddenClass) = e.classes.filter (· ≠ hiddenClass)

/-- Nothing differs but the marks of elements with a condition in the subtree of a node. -/
structure MarksOnly (names : Names) (id : NodeId) (d d' : Document) : Prop where
  related : d.Related (SameButMark names.hiddenClass) d'
  elsewhere : ∀ j e, d.element? j = some e →
    ¬ (Relation.ReflTransGen d.IsChild j id ∧ (names.flags e).isConditional = true) →
      d'.element? j = some e

theorem marksOnly_conditionPass (hw : IsWord names.hiddenClass.toList) {d : Document}
    (hd : d.WellFormed) (scope : Scope) (id : NodeId) :
    MarksOnly names id d (conditionPass names scope d id) where
  related := by
    have hn := hd.nodup_visits id
    have hrelated := Document.related_updateElements (d := d) (r := SameButMark names.hiddenClass)
      (f := fun e => e) (g := applyConditions names scope) hn (fun e => ⟨rfl, rfl⟩) fun e =>
        ⟨removeAttr_applyConditions e, filter_classes_applyConditions hw e⟩
    rwa [Document.updateElements_self hn, ← conditionPass_eq] at hrelated
  elsewhere := by
    intro j e he hnot
    rw [conditionPass_eq, Document.element?_updateElements (hd.nodup_visits id), he]
    split
    · next hj =>
      have hcond : (names.flags e).isConditional = false :=
        Bool.eq_false_iff.2 fun hcond => hnot ⟨hd.above_of_mem_visits hj, hcond⟩
      rw [Option.map_some, applyConditions_eq_self hcond]
    · rfl

/-! ## The last pass decides -/

theorem related_conditionPass_of_scopes (hw : IsWord names.hiddenClass.toList)
    (hc : Element.classKey ∉ names.all) {d : Document} (hd : d.WellFormed) (first last : Scope)
    (id : NodeId) :
    (conditionPass names last (conditionPass names first d id) id).Related
      (fun e e' => ∀ token, e.hasClass token = e'.hasClass token)
      (conditionPass names last d id) := by
  rw [conditionPass_conditionPass hd, conditionPass_eq]
  refine Document.related_updateElements (hd.nodup_visits id) (fun _ _ => rfl) ?_
  exact fun e token => hasClass_applyConditions_of_scopes hw hc first last e token

/-! ## The same pass again -/

/-- The element with the attribute of its classes behind the others. -/
def classesLast (e : Element) : Element :=
  (e.attr? Element.classKey).elim e ((e.removeAttr Element.classKey).setAttr Element.classKey)

theorem classesLast_setAttr (e : Element) (text : String) :
    classesLast (e.setAttr Element.classKey text) =
      (e.removeAttr Element.classKey).setAttr Element.classKey text := by
  rw [classesLast, Element.attr?_setAttr, if_pos rfl, Option.elim_some]
  congr 1
  exact Element.removeAttr_setAttr e Element.classKey text

theorem applyConditions_again_of_wavers (hw : IsWord names.hiddenClass.toList)
    (hc : Element.classKey ∉ names.all) {e : Element} (h : Wavers names scope e) :
    applyConditions names scope (applyConditions names scope e) =
      classesLast (applyConditions names scope e) := by
  obtain ⟨honce, htwice⟩ := applyConditions_of_wavers hw hc h
  rw [htwice, honce, classesLast_setAttr]

/-- The same pass again leaves every node as it is, unless that is an element that wavers. -/
theorem getElem?_conditionPass_again (hw : IsWord names.hiddenClass.toList)
    (hc : Element.classKey ∉ names.all) {d : Document} (hd : d.WellFormed) (scope : Scope)
    (id j : NodeId) :
    let once := conditionPass names scope d id
    let twice := conditionPass names scope once id
    twice.nodes[j]? = once.nodes[j]? ∨
      (∃ e, d.element? j = some e ∧ Wavers names scope e) ∧
        twice.nodes[j]? = once.nodes[j]?.map (Node.mapElement classesLast) := by
  intro once twice
  have hn := hd.nodup_visits id
  simp only [twice, once]
  rw [conditionPass_conditionPass hd, conditionPass_eq, Document.getElem?_updateElements hn,
    Document.getElem?_updateElements hn]
  split
  · cases hnode : d.nodes[j]? with
    | none => exact Or.inl rfl
    | some n =>
      obtain ⟨k, p, cs⟩ := n
      cases k with
      | element e =>
        by_cases hwavers : Wavers names scope e
        · refine Or.inr ⟨⟨e, ?_, hwavers⟩, ?_⟩
          · rw [Document.element?, Document.kind?_eq hnode]
            rfl
          · exact congrArg (fun e => some (Node.mk (.element e) p cs))
              (applyConditions_again_of_wavers hw hc hwavers)
        · exact Or.inl (congrArg (fun e => some (Node.mk (.element e) p cs))
            (applyConditions_again hw hc hwavers))
      | _ => exact Or.inl rfl
  · exact Or.inl rfl

/-! ## The pass of the conditions -/

/-- The pass of the conditions changes nothing but the marks of the elements with a condition in its
subtree. The same pass again leaves all nodes as they are but for elements that waver, where the
attribute of the classes goes behind the others. After another scope it leaves the classes that it
leaves by itself. -/
theorem conditionPass_frame (start : String) {hiddenClass : String}
    (hw : IsWord hiddenClass.toList) {d : Document} (hd : d.WellFormed) (id : NodeId)
    (first last : Scope) :
    let names := Names.of start hiddenClass
    let once := conditionPass names last d id
    let twice := conditionPass names last once id
    MarksOnly names id d once ∧
      (∀ j : NodeId, twice.nodes[j]? = once.nodes[j]? ∨
        (∃ e, d.element? j = some e ∧ Wavers names last e) ∧
          twice.nodes[j]? = once.nodes[j]?.map (Node.mapElement classesLast)) ∧
      (conditionPass names last (conditionPass names first d id) id).Related
        (fun e e' => ∀ token, e.hasClass token = e'.hasClass token) once := by
  intro names once twice
  have hc := Names.classKey_notMem_of start hiddenClass
  exact ⟨marksOnly_conditionPass hw hd last id, getElem?_conditionPass_again hw hc hd last id,
    related_conditionPass_of_scopes hw hc hd first last id⟩

/-- A loop inside of an element with both conditions and a mark that is out of date. -/
theorem conditionPass_frame_stale :
    let names := Names.of "v-" "remove-it"
    let d := (Html.parse
      "<p v-if=\"a\" v-if-not=\"b\" class=\"x remove-it x\"><i v-if=\"c\">t</i></p>").document
    let first := Scope.ofRoot (.object [("a", .bool true)])
    let last := first.bind "b" (.bool true)
    let once := conditionPass names last d Document.root
    let twice := conditionPass names last once Document.root
    IsWord "remove-it".toList ∧ d.WellFormed ∧ MarksOnly names Document.root d once ∧
      (∀ j : NodeId, twice.nodes[j]? = once.nodes[j]? ∨
        (∃ e, d.element? j = some e ∧ Wavers names last e) ∧
          twice.nodes[j]? = once.nodes[j]?.map (Node.mapElement classesLast)) ∧
      (conditionPass names last (conditionPass names first d Document.root) Document.root).Related
        (fun e e' => ∀ token, e.hasClass token = e'.hasClass token) once := by
  intro names d first last once twice
  have hw : IsWord "remove-it".toList := by decide
  have hd : d.WellFormed := Html.parse_wellFormed _
  exact ⟨hw, hd, conditionPass_frame "v-" hw hd Document.root first last⟩

/-- An element that wavers, with its classes in front: the same pass again does not leave the same
document. -/
theorem conditionPass_again_ne :
    let names := Names.of "" "remove-it"
    let e : Element :=
      ⟨"p", Html.Attributes.ofList [("class", ""), ("if", "true"), ("if-not", "true")]⟩
    let d := (Document.empty.create (.element e)).1.append Document.root Document.empty.size
    let scope := Scope.ofRoot (.object [])
    let once := conditionPass names scope d Document.root
    d.WellFormed ∧ conditionPass names scope once Document.root ≠ once := by
  intro names e d scope once
  have hw : IsWord names.hiddenClass.toList := by decide
  have hc := Names.classKey_notMem_of "" "remove-it"
  have hd : d.WellFormed := Html.Builder.Sound.start.wellFormed.append_create _ (by decide)
  have htext : (Expr.tokenize "true").map Expr.Token.lexeme = [.keyword (.truth true)] := by
    decide +kernel
  have hderives : Expr.Derives (.level 7) [.keyword (.truth true)] (.literal () (.bool true)) :=
    .tighter (.tighter (.tighter (.tighter (.tighter (.tighter (.tighter (.noPower
      (.noSign (.noAccess (.truth true))))))))))
  have hholds : Expr.holds scope "true" = true := by
    rw [Expr.holds, Expr.evaluate_of_derives (by decide +kernel)
      (htext ▸ Expr.Derives.noChoice hderives) rfl]
    rfl
  have hwavers : Wavers names scope e :=
    ⟨⟨"true", by decide, hholds⟩, ⟨"true", by decide, hholds⟩, by decide, by decide⟩
  have hat : d.element? Document.empty.size = some e := by decide
  have hvisit : Document.empty.size ∈ d.visits Document.root := by decide
  have hn := hd.nodup_visits Document.root
  obtain ⟨honce, htwice⟩ := applyConditions_of_wavers hw hc hwavers
  refine ⟨hd, fun heq => ?_⟩
  have helem := congrArg (fun d : Document => d.element? Document.empty.size) heq
  simp only [once] at helem
  rw [conditionPass_conditionPass hd, conditionPass_eq, Document.element?_updateElements hn,
    Document.element?_updateElements hn, if_pos hvisit, if_pos hvisit, hat, Option.map_some,
    Option.map_some, htwice, honce] at helem
  revert helem
  decide

end Stencil.Directive
