import Stencil.Proofs.Directive.Finalized
import Stencil.Proofs.Html.ParsedTree
namespace Stencil

open Stencil.Data (Value)
open Stencil.Html

/-! # Trees of rendered documents

The directives keep what is true of the tree of a parsed document: they change attributes, put texts
into elements, and copy or take out elements where they stand.
-/

namespace Html

/-- A node that may stand directly below the given one in a document that is written. Only the
document and elements have something inside, and no other node is their equal. -/
structure Kind.Admits (k c : Kind) : Prop where
  holder : k = .document ∨ k.isElement = true
  allows : k.Allows SpelledBelow c

/-- The edges of a parsed tree. -/
theorem Regular.edges {t : Tree Kind} (h : Regular SpelledBelow t) : t.Edges Kind.Admits := by
  intro u hu v hv
  have hnode := h u hu
  refine ⟨?_, hnode.allows v hv⟩
  rcases hnode.branch (List.ne_nil_of_mem hv) with hdoc | ⟨helement, -⟩
  · exact Or.inl hdoc
  · exact Or.inr helement

/-! ## Elements that change -/

/-- A change of an element that leaves it its name and its spelling. -/
structure KeepsSpelling (f : Element → Element) : Prop where
  name : ∀ e, (f e).name = e.name
  spelled : ∀ e, e.IsSpelled → (f e).IsSpelled

/-- A node that is the other one up to such a change. -/
def Kind.Revises (k k' : Kind) : Prop :=
  ∃ f, KeepsSpelling f ∧ k' = k.mapElement f

theorem keepsSpelling_id : KeepsSpelling fun e => e :=
  ⟨fun _ => rfl, fun _ h => h⟩

theorem KeepsSpelling.comp {f g : Element → Element} (hg : KeepsSpelling g)
    (hf : KeepsSpelling f) : KeepsSpelling fun e => g (f e) :=
  ⟨fun e => (hg.name _).trans (hf.name e), fun e h => hg.spelled _ (hf.spelled e h)⟩

theorem Kind.Revises.refl (k : Kind) : k.Revises k :=
  ⟨_, keepsSpelling_id, k.mapElement_id.symm⟩

/-- Such changes do not matter to what may stand where. -/
theorem Kind.Admits.revise {k c k' c' : Kind} (h : k.Admits c) (hk : k.Revises k')
    (hc : c.Revises c') : k'.Admits c' := by
  obtain ⟨f, hf, rfl⟩ := hk
  obtain ⟨g, hg, rfl⟩ := hc
  have hname : (k.mapElement f).name = k.name := by
    cases k <;> first | rfl | exact hf.name _
  obtain ⟨hholder, ⟨hspelled, hreading⟩, hallows⟩ := h
  refine ⟨?_, ⟨?_, ?_⟩, ?_⟩
  · rw [Kind.isElement_mapElement]
    rcases hholder with rfl | helement
    · exact Or.inl rfl
    · exact Or.inr helement
  · cases c with
    | element e => exact hg.spelled e hspelled
    | _ => exact hspelled
  · rw [hname]
    cases c <;> exact hreading
  · rw [hname]
    cases c with
    | element e =>
      show (tagRule k.name).isClosedBy (g e).name = false
      rw [hg.name]
      exact hallows
    | _ => exact hallows

theorem keepsSpelling_removeAttr (name : String) : KeepsSpelling fun e => e.removeAttr name where
  name := fun _ => rfl
  spelled := fun _ h => ⟨h.name, fun a ha => h.attributes a (List.mem_filter.1 ha).1⟩

theorem isAttributeName_class : IsAttributeName Element.classKey.toList where
  nonempty := by decide
  parts := by
    have hletters : Element.classKey.toList = ['c', 'l', 'a', 's', 's'] := by decide
    rw [hletters]
    simp only [List.forall_mem_cons, List.not_mem_nil, false_implies, implies_true, and_true]
    unfold IsTagPart IsNamePart
    decide
  noEquals := by decide

theorem keepsSpelling_addClass (token : String) : KeepsSpelling fun e => e.addClass token where
  name := fun _ => rfl
  spelled := fun _ h => h.setAttr isAttributeName_class _

theorem keepsSpelling_removeClass (token : String) :
    KeepsSpelling fun e => e.removeClass token := by
  constructor
  · intro e
    unfold Element.removeClass
    split <;> rfl
  · intro e h
    unfold Element.removeClass
    split
    · exact h.setAttr isAttributeName_class _
    · exact h

end Html

namespace Directive

variable {names : Names} {scope : Scope}

theorem keepsSpelling_markHidden (names : Names) (hidden : Bool) :
    KeepsSpelling (markHidden names hidden) := by
  have hadd := keepsSpelling_addClass names.hiddenClass
  have hremove := keepsSpelling_removeClass names.hiddenClass
  have hclear := (keepsSpelling_removeAttr Element.classKey).comp hremove
  constructor
  · intro e
    unfold markHidden
    simp only
    (repeat' split)
    · exact hadd.name e
    · exact hclear.name e
    · exact hremove.name e
    · rfl
  · intro e h
    unfold markHidden
    simp only
    (repeat' split)
    · exact hadd.spelled e h
    · exact hclear.spelled e h
    · exact hremove.spelled e h
    · exact h

theorem keepsSpelling_applyConditions (names : Names) (scope : Scope) :
    KeepsSpelling (applyConditions names scope) := by
  have hmark := keepsSpelling_markHidden names
  constructor
  · intro e
    unfold applyConditions
    simp only
    (repeat' split) <;> simp only [(hmark _).name]
  · intro e h
    unfold applyConditions
    simp only
    (repeat' split)
    · exact (hmark _).spelled _ ((hmark _).spelled _ h)
    · exact (hmark _).spelled _ h
    · exact (hmark _).spelled _ h
    · exact h

theorem keepsSpelling_finishedElement (names : Names) (strip : Bool) :
    KeepsSpelling (finishedElement names strip) := by
  have hremove : ∀ (l : List String),
      KeepsSpelling fun e => l.foldl Element.removeAttr e := by
    intro l
    induction l with
    | nil => exact keepsSpelling_id
    | cons name l ih => exact ih.comp (keepsSpelling_removeAttr name)
  constructor
  · intro e
    unfold finishedElement
    split
    · exact (hremove names.all).name e
    · rfl
  · intro e h
    unfold finishedElement
    split
    · exact (hremove names.all).spelled e h
    · exact h

/-! ## The passes -/

theorem edges_conditionTree {t : Tree Kind} (h : t.Edges Kind.Admits) :
    (conditionTree names scope t).Edges Kind.Admits := by
  have hrevises : ∀ k : Kind, k.Revises (k.mapElement (applyConditions names scope)) := fun k =>
    ⟨_, keepsSpelling_applyConditions names scope, rfl⟩
  exact h.map fun k c hkc => hkc.revise (hrevises k) (hrevises c)

theorem edges_valueTree {t : Tree Kind} (h : t.Edges Kind.Admits) :
    (valueTree names scope t).Edges Kind.Admits := by
  induction t with
  | node k ts ih =>
    cases htext : nodeText? names scope k with
    | some text =>
      rw [valueTree_node_of_some htext, Tree.edges_node_iff]
      unfold textNodes
      split
      · simp
      · next hempty =>
        intro t ht
        obtain rfl := List.mem_singleton.1 ht
        refine ⟨⟨Or.inr (isElement_of_nodeText? htext), spelledBelow_text k text, hempty⟩, ?_⟩
        exact Tree.edges_node_iff.2 (by simp)
    | none =>
      rw [valueTree_node_of_none htext, Tree.edges_node_iff]
      intro u hu
      obtain ⟨t, ht, rfl⟩ := List.mem_map.1 hu
      obtain ⟨hedge, hbelow⟩ := Tree.edges_node_iff.1 h t ht
      rw [label_valueTree]
      exact ⟨hedge, ih t ht hbelow⟩

/-- What a tree turns into has the kind of its top, up to the marks of conditions. -/
theorem edges_eachTree (names : Names) (n : Nat) : ∀ (t : Tree Kind) (scope : Scope),
    t.height ≤ n → t.Edges Kind.Admits →
      ∀ u ∈ eachTree names scope t, t.label.Revises u.label ∧ u.Edges Kind.Admits := by
  induction n with
  | zero =>
    intro t scope hheight
    exact absurd hheight (not_le.2 (Tree.height_pos t))
  | succ n ih =>
    -- below a node with the same edges every tree is replaced by trees that fit in its place
    have hbelow : ∀ (k : Kind) (scope : Scope) (ts : List (Tree Kind)),
        (∀ t ∈ ts, t.height ≤ n) → (Tree.node k ts).Edges Kind.Admits →
          (Tree.node k (ts.flatMap (eachTree names scope))).Edges Kind.Admits := by
      intro k scope ts hts hedges
      refine Tree.edges_node_iff.2 ?_
      intro u hu
      obtain ⟨t, ht, hut⟩ := List.mem_flatMap.1 hu
      obtain ⟨hedge, hinside⟩ := Tree.edges_node_iff.1 hedges t ht
      obtain ⟨hrevises, hu'⟩ := ih t scope (hts t ht) hinside u hut
      exact ⟨hedge.revise (.refl k) hrevises, hu'⟩
    intro t scope hheight h u hu
    cases hloop : nodeLoop? names scope t.label with
    | none =>
      rw [eachTree_of_none hloop] at hu
      obtain rfl := List.mem_singleton.1 hu
      refine ⟨.refl _, hbelow _ _ _ ?_ ?_⟩
      · intro v hv
        exact Nat.le_of_lt_succ ((height_lt_of_mem_children hv).trans_le hheight)
      · cases t
        exact h
    | some loop =>
      obtain ⟨item, items⟩ := loop
      rw [eachTree_of_some hloop] at hu
      obtain ⟨v, -, rfl⟩ := List.mem_map.1 hu
      have hfilled : (fillTree names (scope.bind item v) t).Edges Kind.Admits :=
        edges_valueTree (edges_conditionTree h)
      have hfheight : (fillTree names (scope.bind item v) t).height ≤ n + 1 :=
        (height_fillTree_le t).trans hheight
      constructor
      · refine ⟨_, keepsSpelling_applyConditions names (scope.bind item v), ?_⟩
        show (fillTree names (scope.bind item v) t).label = _
        rw [fillTree, label_valueTree, conditionTree, Tree.label_map]
      · unfold itemTree
        refine hbelow _ _ _ ?_ ?_
        · intro w hw
          exact Nat.le_of_lt_succ ((height_lt_of_mem_children hw).trans_le hfheight)
        · cases hf : fillTree names (scope.bind item v) t
          rw [hf] at hfilled
          exact hfilled

/-- The edges of the tree of a rendered document, and its top. -/
theorem edges_renderDocument (o : Options) (template : String) (data : Value) :
    (renderDocument o template data).1.tree.label = .document ∧
      (renderDocument o template data).1.tree.Edges Kind.Admits := by
  let names := Names.ofOptions o
  obtain ⟨parent, t, hid, ht, hn, hlabel, heach⟩ := exists_process names data
    (Html.parse_wellFormed template) (Html.parse_onlyElementsBranch template)
  have hparsed := (Html.regular_parse template).edges
  have hedges : t.kinds.Edges Kind.Admits :=
    (edges_eachTree names _ _ _ le_rfl (edges_valueTree (edges_conditionTree hparsed)) _
      (heach ▸ List.mem_singleton_self _)).2
  have hprune := prune_eq_tree_finalize names o.removeAttributes hid ht hn
    (by rw [hlabel]; rfl)
  have hrevises : ∀ k : Kind, k.Revises (finished names o.removeAttributes k) := fun k =>
    ⟨_, keepsSpelling_finishedElement names o.removeAttributes, rfl⟩
  obtain ⟨htop, hall⟩ := hedges.prune (fun k c hkc => hkc.revise (hrevises k) (hrevises c)) _
    (hprune ▸ List.mem_singleton_self _)
  refine ⟨htop.trans ?_, hall⟩
  rw [hlabel]
  rfl

end Directive

end Stencil
