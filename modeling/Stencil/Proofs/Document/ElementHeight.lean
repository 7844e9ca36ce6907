import Stencil.Proofs.Document.Extension
import Stencil.Proofs.Document.Visits
namespace Stencil.Html.Document

/-! # Heights of elements

A pass goes from a node to its children that are elements, so its way down is no longer than the
tree of elements below the node is high. Nothing that is done while a pass is on its way makes the
tree of an element higher that it has not come to: new elements go below old nodes in few places.
-/

/-- The levels of elements that are reached from a node through elements, and the node. -/
def elementHeight (d : Document) (id : NodeId) : Nat :=
  (d.treeOf id).depthBy Kind.isElement

theorem elementHeight_pos (d : Document) (id : NodeId) : 0 < d.elementHeight id :=
  Tree.depthBy_pos _

@[simp] theorem label_treeOf (d : Document) (id : NodeId) :
    (d.treeOf id).label = (d.kind? id).getD .document := by
  unfold treeOf
  cases d.size <;> rfl

theorem isElement_label_treeOf (d : Document) (id : NodeId) :
    (d.treeOf id).label.isElement = d.isElement id := by
  rw [label_treeOf, isElement, element?]
  cases d.kind? id <;> rfl

theorem mem_elementChildren {d : Document} {c p : NodeId} :
    c ∈ d.elementChildren p ↔ c ∈ d.children p ∧ d.isElement c = true := by
  rw [elementChildren, List.mem_filter]

namespace WellFormed

variable {d d' : Document} {id c p : NodeId}

theorem isChild_of_mem_elementChildren (hd : d.WellFormed) (h : c ∈ d.elementChildren p) :
    d.IsChild c p :=
  (hd.parent_iff c p).2 (mem_elementChildren.1 h).1

/-- Heights go by the children that are elements. -/
theorem elementHeight_le_iff (hd : d.WellFormed) {n : Nat} :
    d.elementHeight id ≤ n + 1 ↔ ∀ c ∈ d.elementChildren id, d.elementHeight c ≤ n := by
  by_cases hid : id < d.size
  · rw [elementHeight, hd.treeOf_eq hid, Tree.depthBy_node_le_iff]
    simp only [List.forall_mem_map, isElement_label_treeOf, mem_elementChildren, and_imp]
    rfl
  · -- nothing is below a number that no node has
    have hnone : d.children id = [] :=
      List.eq_nil_iff_forall_not_mem.2 fun c hc => hid (lt_size_of_mem_children hc)
    rcases Nat.exists_eq_succ_of_ne_zero hd.root_lt_size.ne_bot with ⟨levels, hlevels⟩
    rw [elementHeight, treeOf, hlevels, treeLevels, elementChildren, hnone,
      Tree.depthBy_node_le_iff]
    simp

theorem elementHeight_lt (hd : d.WellFormed) (h : c ∈ d.elementChildren p) :
    d.elementHeight c < d.elementHeight p := by
  obtain ⟨n, hn⟩ := Nat.exists_eq_add_one.2 (d.elementHeight_pos p)
  rw [hn, Nat.lt_add_one_iff]
  exact hd.elementHeight_le_iff.1 hn.le c h

/-- A store has as many levels as a pass may need. -/
theorem elementHeight_le_size (hd : d.WellFormed) (h : id < d.size) :
    d.elementHeight id ≤ d.size := by
  rcases hd.exists_holds id h with ⟨t, rfl, ht⟩
  rw [elementHeight, ht.treeOf_eq (hd.nodup_ids ht)]
  calc t.kinds.depthBy Kind.isElement
      ≤ t.kinds.labels.length := t.kinds.depthBy_le_length_labels
    _ = t.ids.length := (length_ids t).symm
    _ ≤ d.size := ht.length_ids_le (hd.nodup_ids ht)

/-- A copy is as high as what it is a copy of. -/
theorem elementHeight_deepClone (hd : d.WellFormed) (h : id < d.size) :
    (d.deepClone id).1.elementHeight (d.deepClone id).2 = d.elementHeight id := by
  rcases hd.exists_holds id h with ⟨t, rfl, ht⟩
  obtain ⟨c, hid, hcopy⟩ := ht.deepClone (hd.nodup_ids ht)
  rw [elementHeight, elementHeight, hid, hcopy.holds.treeOf_eq hcopy.nodup, hcopy.kinds_eq,
    ht.treeOf_eq (hd.nodup_ids ht)]

/-- A node is no higher than it was if no node below it has got a new element as its child. -/
theorem elementHeight_le (hd : d.WellFormed) (hd' : d'.WellFormed)
    (h : ∀ j, Relation.ReflTransGen d.IsChild j id →
      d'.elementChildren j ⊆ d.elementChildren j) :
    d'.elementHeight id ≤ d.elementHeight id := by
  suffices hle : ∀ n id, (∀ j, Relation.ReflTransGen d.IsChild j id →
      d'.elementChildren j ⊆ d.elementChildren j) →
      d.elementHeight id ≤ n → d'.elementHeight id ≤ n from hle _ id h le_rfl
  intro n
  induction n with
  | zero =>
    intro id _ hn
    exact absurd hn (not_le.2 (d.elementHeight_pos id))
  | succ n ih =>
    intro id hsub hn
    rw [hd'.elementHeight_le_iff]
    intro c hc
    have hold := hsub id .refl hc
    refine ih c ?_ (hd.elementHeight_le_iff.1 hn c hold)
    intro j hj
    exact hsub j (hj.tail (hd.isChild_of_mem_elementChildren hold))

end WellFormed

/-! ## New elements -/

/-- The store has been extended, elements have stayed elements, and all old nodes that have new
elements among their children are in `region`. -/
structure Narrows (region : NodeId → Prop) (d d' : Document) : Prop where
  extension : Extends d d'
  isElement_eq : ∀ j < d.size, d'.isElement j = d.isElement j
  subset : ∀ j < d.size, ¬ region j → d'.elementChildren j ⊆ d.elementChildren j

namespace Narrows

variable {d d' d'' : Document} {region region' : NodeId → Prop}

theorem refl (hd : d.WellFormed) : Narrows region d d :=
  ⟨.refl hd, fun _ _ => rfl, fun _ _ _ => List.Subset.refl _⟩

/-- Two changes in a row; the second one may put new elements below what the first one has made. -/
theorem trans (h : Narrows region d d') (h' : Narrows region' d' d'')
    (hsub : ∀ j < d.size, region' j → region j) : Narrows region d d'' where
  extension := h.extension.trans h'.extension
  isElement_eq := by
    intro j hj
    rw [h'.isElement_eq j (hj.trans_le h.extension.size_le), h.isElement_eq j hj]
  subset := by
    intro j hj hout
    have hlater := h'.subset j (hj.trans_le h.extension.size_le) fun hin => hout (hsub j hj hin)
    exact List.Subset.trans hlater (h.subset j hj hout)

theorem mono (h : Narrows region d d') (hsub : ∀ j < d.size, region j → region' j) :
    Narrows region' d d' :=
  ⟨h.extension, h.isElement_eq, fun j hj hout => h.subset j hj fun hin => hout (hsub j hj hin)⟩

/-- Steps that each put new elements at most where that may be. -/
theorem foldl {α : Type} {f : Document → α → Document} {l : List α} (hd : d.WellFormed)
    (hf : ∀ acc, Narrows region d acc → ∀ a ∈ l, ∃ region', Narrows region' acc (f acc a) ∧
      ∀ j < d.size, region' j → region j) : Narrows region d (l.foldl f d) := by
  refine List.foldlRecOn (motive := fun acc => Narrows region d acc) l f (refl hd) ?_
  intro acc hacc a ha
  obtain ⟨region', hstep, hsub⟩ := hf acc hacc a ha
  exact hacc.trans hstep hsub

/-- Heights away from the new elements. -/
theorem elementHeight_le (h : Narrows region d d') (hd : d.WellFormed) {id : NodeId}
    (hid : id < d.size) (hout : ∀ j, Relation.ReflTransGen d.IsChild j id → ¬ region j) :
    d'.elementHeight id ≤ d.elementHeight id := by
  refine hd.elementHeight_le h.extension.wellFormed ?_
  intro j hj
  refine h.subset j ?_ (hout j hj)
  rcases Relation.ReflTransGen.cases_head hj with rfl | ⟨p, hp, -⟩
  · exact hid
  · exact lt_size_of_parent? hp

/-- All that is new among the children is no element. -/
theorem of_children (hd : d.WellFormed) (h : Extends d d')
    (hel : ∀ j < d.size, d'.isElement j = d.isElement j)
    (hnew : ∀ j < d.size, ¬ region j → ∀ c ∈ d'.children j,
      c ∈ d.children j ∨ d'.isElement c = false) : Narrows region d d' where
  extension := h
  isElement_eq := hel
  subset := by
    intro j hj hout c hc
    obtain ⟨hmem, hc⟩ := mem_elementChildren.1 hc
    rcases hnew j hj hout c hmem with hold | hno
    · exact mem_elementChildren.2 ⟨hold, hel c (hd.lt_size_of_child hold) ▸ hc⟩
    · rw [hno] at hc
      cases hc

/-- A new node goes below a node of the region. -/
theorem link {place : List NodeId → List NodeId} {parent child : NodeId} (h : Narrows region d d')
    (hd : d.WellFormed) (hp : parent < d.size) (hin : region parent) (hnew : d.size ≤ child)
    (hc : child < d'.size) (hplace : ∀ l, (place l).Perm (child :: l)) :
    Narrows region d (d'.link parent child place) := by
  have hel : ∀ j, (d'.link parent child place).isElement j = d'.isElement j := fun j =>
    isElement_congr (kind?_link j)
  refine ⟨h.extension.link hd hp hnew hc hplace, ?_, ?_⟩
  · intro j hj
    rw [hel, h.isElement_eq j hj]
  · intro j hj hout c hmem
    have hne : j ≠ parent := fun he => hout (he ▸ hin)
    rw [mem_elementChildren, h.extension.wellFormed.children_link (hp.trans_le h.extension.size_le),
      if_neg hne, List.mem_filter, hel] at hmem
    exact h.subset j hj hout (mem_elementChildren.2 ⟨hmem.1.1, hmem.2⟩)

end Narrows

namespace WellFormed

variable {d d' : Document} {region : NodeId → Prop} {id : NodeId}

theorem narrows_updateElement (hd : d.WellFormed) (id : NodeId) (f : Element → Element) :
    Narrows region d (d.updateElement id f) := by
  have hrelated := related_updateElement d id f
  refine ⟨hd.extends_updateElement id f, fun j _ => (hrelated.isElement_eq j).symm, ?_⟩
  intro j _ _
  rw [hrelated.elementChildren_eq]
  exact List.Subset.refl _

theorem narrows_detach (hd : d.WellFormed) (region : NodeId → Prop) (id : NodeId) :
    Narrows region d (d.detach id) := by
  refine .of_children hd (hd.extends_detach id) (fun j _ => isElement_congr (kind?_detach d id j)) ?_
  intro j _ _ c hc
  rw [hd.children_detach, List.mem_filter] at hc
  exact Or.inl hc.1

/-- Nodes that are only added to the store are nobody's children. -/
theorem narrows_of_changesOnly (hd : d.WellFormed) (h : Extends d d') (hch : ChangesOnly [] d d') :
    Narrows region d d' := by
  have hsame : ∀ j < d.size, d'.nodes[j]? = d.nodes[j]? := fun j hj =>
    hch.same j hj List.not_mem_nil
  refine .of_children hd h ?_ ?_
  · intro j hj
    refine isElement_congr ?_
    rw [kind?, kind?, hsame j hj]
  · intro j hj _ c hc
    rw [children_def, hsame j hj, ← children_def] at hc
    exact Or.inl hc

theorem narrows_deepClone (hd : d.WellFormed) (h : id < d.size) :
    Narrows region d (d.deepClone id).1 := by
  refine hd.narrows_of_changesOnly (hd.clones_deepClone id).extension ?_
  rcases hd.exists_holds id h with ⟨t, rfl, ht⟩
  obtain ⟨c, -, hcopy⟩ := ht.deepClone (hd.nodup_ids ht)
  exact hcopy.changes

theorem narrows_clear (hd : d.WellFormed) (h : id < d.size) : Narrows region d (clear d id) := by
  refine .of_children hd (hd.extends_clear h) ?_ ?_
  · intro j _
    exact isElement_congr (kind?_clear d id j)
  · intro j _ _ c hc
    rw [children_clear h] at hc
    split at hc
    · cases hc
    · exact Or.inl hc

/-- A text is a new child, but no element. -/
theorem narrows_addText (hd : d.WellFormed) (h : id < d.size) (text : String) :
    Narrows region d (d.addText id text) := by
  refine .of_children hd (hd.extends_addText h text) ?_ ?_
  · intro j hj
    refine isElement_congr ?_
    rw [kind?_addText, if_neg hj.ne]
  · intro j _ _ c hc
    rw [hd.children_addText h] at hc
    split at hc
    · rcases List.mem_append.1 hc with hc | hc
      · exact Or.inl hc
      · refine Or.inr ?_
        rw [isElement, element?, kind?_addText, if_pos (List.mem_singleton.1 hc)]
        rfl
    · exact Or.inl hc

theorem narrows_setText (hd : d.WellFormed) (h : id < d.size) (text : String) :
    Narrows region d (d.setText id text) := by
  have hclear : Narrows region d (clear d id) := hd.narrows_clear h
  rw [setText_eq]
  split
  · exact hclear
  · have hwf := hclear.extension.wellFormed
    exact hclear.trans (hwf.narrows_addText (h.trans_le hclear.extension.size_le) text)
      fun _ _ hin => hin

end WellFormed

end Stencil.Html.Document
