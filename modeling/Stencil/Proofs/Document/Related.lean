import Stencil.Html.Document.Subtree
import Stencil.Html.Document.Text
import Stencil.Proofs.Document.Edits
import Stencil.Proofs.Document.Forest
namespace Stencil.Html

/-! # Documents that differ in their elements

Two stores with the same links and the same nodes but for the elements, which are related one to
one. Every operation on links treats both alike, so it leaves them related, whatever the relation
is; only a change of an element has to respect it. No tree is needed for that: the links may be any.
-/

/-- Two nodes that are the same, or two elements that are related. -/
inductive Kind.Related (r : Element → Element → Prop) : Kind → Kind → Prop
  | element {e e' : Element} (h : r e e') : Kind.Related r (.element e) (.element e')
  | other {k : Kind} (h : k.isElement = false) : Kind.Related r k k

theorem Kind.Related.element? {r : Element → Element → Prop} {k k' : Kind} (h : k.Related r k') :
    Option.Rel r k.element? k'.element? := by
  cases h with
  | element he => exact .some he
  | other hk =>
    have hnone : k.element? = none := by simpa [Kind.isElement] using hk
    rw [hnone]
    exact .none

theorem Kind.related_mapElement {r : Element → Element → Prop} {f : Element → Element} {k : Kind}
    (h : ∀ e, k.element? = some e → r e (f e)) : k.Related r (k.mapElement f) := by
  cases k with
  | element e => exact .element (h e rfl)
  | _ => exact .other rfl

theorem Kind.related_self {r : Element → Element → Prop} (h : ∀ e, r e e) (k : Kind) :
    k.Related r k := by
  cases k with
  | element e => exact .element (h e)
  | _ => exact .other rfl

/-- Two nodes with the same links. -/
structure Node.Related (r : Element → Element → Prop) (n n' : Node) : Prop where
  kind : n.kind.Related r n'.kind
  parent : n.parent = n'.parent
  children : n.children = n'.children

namespace Document

/-- Two stores whose nodes are related, number by number. -/
def Related (r : Element → Element → Prop) (d d' : Document) : Prop :=
  ∀ id : NodeId, Option.Rel (Node.Related r) d.nodes[id]? d'.nodes[id]?

namespace Related

variable {r : Element → Element → Prop} {d d' : Document}

/-! ## What is seen of both -/

theorem size_eq (h : d.Related r d') : d.size = d'.size := by
  have hlt : ∀ id, id < d.size ↔ id < d'.size := by
    intro id
    have hid := h id
    unfold size
    by_cases h₁ : id < d.nodes.size
    · rw [Array.getElem?_eq_getElem h₁] at hid
      cases hid' : d'.nodes[id]? with
      | none => rw [hid'] at hid; cases hid
      | some n => exact iff_of_true h₁ (Array.getElem?_eq_some_iff.1 hid').1
    · rw [Array.getElem?_eq_none (Nat.le_of_not_lt h₁)] at hid
      cases hid' : d'.nodes[id]? with
      | some n => rw [hid'] at hid; cases hid
      | none => exact iff_of_false h₁ (Nat.not_lt.2 (Array.getElem?_eq_none_iff.1 hid'))
  rcases Nat.lt_trichotomy d.size d'.size with hl | he | hl
  · exact absurd ((hlt _).2 hl) (Nat.lt_irrefl _)
  · exact he
  · exact absurd ((hlt _).1 hl) (Nat.lt_irrefl _)

theorem kind? (h : d.Related r d') (id : NodeId) :
    Option.Rel (Kind.Related r) (d.kind? id) (d'.kind? id) := by
  unfold Document.kind?
  have hid := h id
  generalize d.nodes[id]? = n, d'.nodes[id]? = n' at hid
  cases hid with
  | some hn => exact .some hn.kind
  | none => exact .none

theorem element? (h : d.Related r d') (id : NodeId) :
    Option.Rel r (d.element? id) (d'.element? id) := by
  unfold Document.element?
  have hid := h.kind? id
  generalize d.kind? id = k, d'.kind? id = k' at hid
  cases hid with
  | some hk => exact hk.element?
  | none => exact .none

theorem parent?_eq (h : d.Related r d') (id : NodeId) : d.parent? id = d'.parent? id := by
  unfold parent?
  have hid := h id
  generalize d.nodes[id]? = n, d'.nodes[id]? = n' at hid
  cases hid with
  | some hn => exact hn.parent
  | none => rfl

theorem children_eq (h : d.Related r d') (id : NodeId) : d.children id = d'.children id := by
  rw [children_def, children_def]
  have hid := h id
  generalize d.nodes[id]? = n, d'.nodes[id]? = n' at hid
  cases hid with
  | some hn => exact hn.children
  | none => rfl

theorem isElement_eq (h : d.Related r d') (id : NodeId) : d.isElement id = d'.isElement id := by
  unfold isElement
  have hid := h.element? id
  generalize d.element? id = e, d'.element? id = e' at hid
  cases hid with
  | some _ => rfl
  | none => rfl

theorem elementChildren_eq (h : d.Related r d') (id : NodeId) :
    d.elementChildren id = d'.elementChildren id := by
  rw [elementChildren, elementChildren, h.children_eq, funext h.isElement_eq]

/-! ## One node -/

theorem update (h : d.Related r d') (id : NodeId) {f f' : Node → Node}
    (hf : ∀ n n', n.Related r n' → (f n).Related r (f' n')) :
    (d.update id f).Related r (d'.update id f') := by
  intro j
  rw [getElem?_update, getElem?_update]
  split
  · have hj := h j
    generalize d.nodes[j]? = n, d'.nodes[j]? = n' at hj
    cases hj with
    | some hn => exact .some (hf _ _ hn)
    | none => exact .none
  · exact h j

theorem setParent (h : d.Related r d') (id : NodeId) (p : Option NodeId) :
    (d.update id fun n => { n with parent := p }).Related r
      (d'.update id fun n => { n with parent := p }) :=
  h.update id fun _ _ hn => ⟨hn.kind, rfl, hn.children⟩

theorem setChildren (h : d.Related r d') (id : NodeId) (g : List NodeId → List NodeId) :
    (d.update id fun n => { n with children := g n.children }).Related r
      (d'.update id fun n => { n with children := g n.children }) :=
  h.update id fun _ _ hn => ⟨hn.kind, hn.parent, congrArg g hn.children⟩

theorem updateElement (h : d.Related r d') (id : NodeId) {f f' : Element → Element}
    (hf : ∀ e e', r e e' → r (f e) (f' e')) :
    (d.updateElement id f).Related r (d'.updateElement id f') := by
  refine h.update id ?_
  rintro ⟨k, p, cs⟩ ⟨k', p', cs'⟩ ⟨hk, hp, hcs⟩
  cases hk with
  | element he => exact ⟨.element (hf _ _ he), hp, hcs⟩
  | other hk =>
    cases k with
    | element e => cases hk
    | _ => exact ⟨.other hk, hp, hcs⟩

theorem create (h : d.Related r d') {k k' : Kind} (hk : k.Related r k') :
    (d.create k).1.Related r (d'.create k').1 := by
  intro j
  rw [getElem?_create, getElem?_create, h.size_eq]
  split
  · exact .some ⟨hk, rfl, rfl⟩
  · exact h j

theorem id_create_eq (h : d.Related r d') (k k' : Kind) : (d.create k).2 = (d'.create k').2 :=
  h.size_eq

/-! ## Links -/

theorem detach (h : d.Related r d') (id : NodeId) : (d.detach id).Related r (d'.detach id) := by
  unfold Document.detach
  rw [h.parent?_eq id]
  cases d'.parent? id with
  | none => exact h
  | some p => exact (h.setParent id none).setChildren p (List.filter (· ≠ id))

theorem link (h : d.Related r d') (parent child : NodeId) (place : List NodeId → List NodeId) :
    (d.link parent child place).Related r (d'.link parent child place) :=
  ((h.detach child).setParent child (some parent)).setChildren parent place

theorem attach (h : d.Related r d') (parent child : NodeId) :
    (d.attach parent child).Related r (d'.attach parent child) :=
  (h.setParent child (some parent)).setChildren parent (· ++ [child])

/-! ## Subtrees -/

/-- Copies of related subtrees are related and have the same numbers. -/
theorem cloneLevels (levels : Nat) : ∀ {d d' : Document}, d.Related r d' → ∀ id,
    (Document.cloneLevels levels d id).1.Related r (Document.cloneLevels levels d' id).1 ∧
      (Document.cloneLevels levels d id).2 = (Document.cloneLevels levels d' id).2 := by
  have hkind : ∀ {d d' : Document}, d.Related r d' → ∀ id,
      ((d.kind? id).getD .document).Related r ((d'.kind? id).getD .document) := by
    intro d d' h id
    have hid := h.kind? id
    generalize d.kind? id = k, d'.kind? id = k' at hid
    cases hid with
    | some hk => exact hk
    | none => exact .other rfl
  induction levels with
  | zero =>
    intro d d' h id
    exact ⟨h.create (hkind h id), h.size_eq⟩
  | succ levels ih =>
    intro d d' h id
    refine ⟨?_, h.size_eq⟩
    unfold Document.cloneLevels
    simp only
    rw [h.children_eq id, h.id_create_eq _ ((d'.kind? id).getD .document)]
    refine List.foldl_rel (r := Document.Related r) (h.create (hkind h id)) ?_
    intro child _ acc acc' hacc
    obtain ⟨hcopied, hcopy⟩ := ih hacc child
    rw [hcopy]
    exact hcopied.attach _ _

theorem deepClone (h : d.Related r d') (id : NodeId) :
    (d.deepClone id).1.Related r (d'.deepClone id).1 ∧
      (d.deepClone id).2 = (d'.deepClone id).2 := by
  rw [Document.deepClone, Document.deepClone, h.size_eq]
  exact cloneLevels d'.size h id

theorem clear (h : d.Related r d') (id : NodeId) :
    (WellFormed.clear d id).Related r (WellFormed.clear d' id) := by
  unfold WellFormed.clear
  rw [h.children_eq id]
  refine List.foldl_rel (r := Document.Related r) (h.setChildren id fun _ => []) ?_
  intro child _ acc acc' hacc
  exact hacc.setParent child none

theorem setText (h : d.Related r d') (id : NodeId) (text : String) :
    (d.setText id text).Related r (d'.setText id text) := by
  have hclear := h.clear id
  rw [setText_eq, setText_eq]
  split
  · exact hclear
  · rw [addText_eq, addText_eq, hclear.size_eq]
    exact (hclear.create (.other rfl)).link _ _ _

theorem walkElements_eq (h : d.Related r d') (steps : Nat) :
    ∀ stack, d.walkElements steps stack = d'.walkElements steps stack := by
  induction steps with
  | zero =>
    intro stack
    cases stack <;> rfl
  | succ steps ih =>
    intro stack
    cases stack with
    | nil => rfl
    | cons id stack =>
      simp only [walkElements]
      rw [h.children_eq id, h.isElement_eq id, ih]

theorem descendantElements_eq (h : d.Related r d') (id : NodeId) :
    d.descendantElements id = d'.descendantElements id := by
  rw [descendantElements, descendantElements, h.size_eq, h.walkElements_eq]

end Related

/-! ## Every element changed -/

/-- The document with every element changed, those that cannot be reached as well. -/
def mapElements (f : Element → Element) (d : Document) : Document :=
  ⟨d.nodes.map fun n => { n with kind := n.kind.mapElement f }⟩

variable {r : Element → Element → Prop} {f : Element → Element} {d d' : Document}

theorem getElem?_mapElements (d : Document) (id : NodeId) :
    (d.mapElements f).nodes[id]? =
      d.nodes[id]?.map fun n => { n with kind := n.kind.mapElement f } :=
  Array.getElem?_map

theorem related_mapElements (h : ∀ id e, d.element? id = some e → r e (f e)) :
    d.Related r (d.mapElements f) := by
  intro id
  rw [getElem?_mapElements]
  cases hnode : d.nodes[id]? with
  | none => exact .none
  | some n =>
    refine .some ⟨Kind.related_mapElement ?_, rfl, rfl⟩
    intro e he
    refine h id e ?_
    rw [element?, kind?_eq hnode]
    exact he

/-- Where every element has one related to it, the two documents determine one another. -/
theorem Related.eq_mapElements (h : d.Related r d') (hr : ∀ e e', r e e' → e' = f e) :
    d' = d.mapElements f := by
  have hnodes : d'.nodes = (d.mapElements f).nodes := by
    refine Array.ext_getElem? ?_
    intro id
    rw [getElem?_mapElements]
    have hid := h id
    generalize d.nodes[id]? = n, d'.nodes[id]? = n' at hid
    cases hid with
    | none => rfl
    | @some n n' hn =>
      obtain ⟨k, p, cs⟩ := n
      obtain ⟨k', p', cs'⟩ := n'
      obtain ⟨hk, rfl, rfl⟩ := hn
      cases hk with
      | element he =>
        rw [hr _ _ he]
        rfl
      | other hk =>
        rw [Option.map_some, Kind.mapElement_eq_self hk]
  cases d'
  exact congrArg Document.mk hnodes

/-- Changing every element changes those of the tree and nothing else in it. -/
theorem tree_mapElements (f : Element → Element) (d : Document) :
    (d.mapElements f).tree = d.tree.map (Kind.mapElement f) := by
  have hrelated : d.Related (fun e e' => e' = f e) (d.mapElements f) :=
    related_mapElements fun _ _ _ => rfl
  have hkind : ∀ id, ((d.mapElements f).kind? id).getD .document =
      ((d.kind? id).getD .document).mapElement f := by
    intro id
    rw [Document.kind?, getElem?_mapElements, Document.kind?]
    cases d.nodes[id]? <;> rfl
  have hlevels : ∀ levels id, (d.mapElements f).treeLevels levels id =
      (d.treeLevels levels id).map (Kind.mapElement f) := by
    intro levels
    induction levels with
    | zero =>
      intro id
      rw [treeLevels, treeLevels, hkind, Tree.map_node]
      rfl
    | succ levels ih =>
      intro id
      rw [treeLevels, treeLevels, hkind, ← hrelated.children_eq id, Tree.map_node, List.map_map]
      congr 1
      exact List.map_congr_left fun child _ => ih child
  rw [tree, treeOf, hlevels, ← hrelated.size_eq]
  rfl

end Document

end Stencil.Html
