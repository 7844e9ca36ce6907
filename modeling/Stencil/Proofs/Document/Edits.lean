import Stencil.Html.Document.Text
import Stencil.Proofs.Document.Rewriting
import Stencil.Proofs.Document.TextEdits
namespace Stencil.Html

/-- An element changed by `f`; other nodes stay. -/
def Kind.mapElement (f : Element → Element) : Kind → Kind
  | .element e => .element (f e)
  | k => k

@[simp] theorem Kind.isElement_mapElement (f : Element → Element) (k : Kind) :
    (k.mapElement f).isElement = k.isElement := by
  cases k <;> rfl

theorem Kind.mapElement_id (k : Kind) : k.mapElement (fun e => e) = k := by
  cases k <;> rfl

theorem Kind.mapElement_mapElement (f g : Element → Element) (k : Kind) :
    (k.mapElement f).mapElement g = k.mapElement fun e => g (f e) := by
  cases k <;> rfl

theorem Kind.mapElement_eq_self {f : Element → Element} {k : Kind} (h : k.isElement = false) :
    k.mapElement f = k := by
  cases k <;> first | rfl | cases h

/-- The content of a node that has been given a text: one node, or none for no text. -/
def textNodes (text : String) : List (Tree Kind) :=
  if text = "" then [] else [.node (.text text) []]

namespace Document

/-! # Edits of a store that holds a tree

What linking, unlinking, a change of an element and a new text do to the trees of a store.
-/

variable {d : Document} {parent : Option NodeId} {s : Spot} {ts : List (Tree Spot)}
  {t c : Tree Spot}

/-! ## Elements -/

theorem Holds.updateElement (h : d.Holds parent (.node s ts)) (hn : (Tree.node s ts).ids.Nodup)
    (f : Element → Element) :
    Rewrites d (d.updateElement s.id f) parent (.node s ts)
      (.node { s with kind := s.kind.mapElement f } ts) where
  holds := by
    rw [Tree.ids_node, List.nodup_cons] at hn
    refine .node ?_ fun t ht => (h.inside t ht).frame (.update _ _ _) fun j hj hjs => ?_
    · rw [Document.updateElement, getElem?_update, if_pos rfl, h.here]
      cases s.kind <;> rfl
    · exact hn.1 (List.mem_singleton.1 hjs ▸ List.mem_flatMap.2 ⟨t, ht, hj⟩)
  id_eq := rfl
  nodup := by simpa using hn
  fresh := fun j hj => Or.inl (by simpa using hj)
  changes := (ChangesOnly.update d s.id _).mono (by simp)

/-! ## Links -/

theorem detach_eq_self {child : NodeId} (h : d.parent? child = none) : d.detach child = d := by
  simp [Document.detach, h]

theorem changesOnly_link {child p : NodeId} {place : List NodeId → List NodeId}
    (h : d.parent? child = none) : ChangesOnly [child, p] d (d.link p child place) := by
  unfold Document.link
  rw [detach_eq_self h]
  exact ((ChangesOnly.update _ _ _).mono (by simp)).trans (.update _ _ _) (by simp)

/-- A node that takes a new child without a parent. -/
theorem getElem?_link {child p : NodeId} {place : List NodeId → List NodeId} {n : Node}
    (h : d.parent? child = none) (hne : child ≠ p) (hp : d.nodes[p]? = some n) :
    (d.link p child place).nodes[p]? = some { n with children := place n.children } := by
  unfold Document.link
  rw [detach_eq_self h, getElem?_update, if_pos rfl, getElem?_update, if_neg hne, hp]
  rfl

/-- A tree without a parent that goes below a node that is not inside of it. -/
theorem Holds.link {p : NodeId} {place : List NodeId → List NodeId} (hc : d.Holds none c)
    (hn : c.ids.Nodup) (hp : p ∉ c.ids) : (d.link p c.id place).Holds (some p) c := by
  unfold Document.link
  rw [detach_eq_self (parent?_eq hc.top)]
  refine (hc.setParent hn (some p)).frame (.update _ _ _) ?_
  intro j hj hjp
  exact hp (List.mem_singleton.1 hjp ▸ hj)

/-- Attaching is appending, for a node that has no parent. -/
theorem attach_eq_append {p child : NodeId} (h : d.parent? child = none) :
    d.attach p child = d.append p child := by
  unfold Document.attach Document.append Document.link
  rw [detach_eq_self h]

theorem Holds.append (h : d.Holds parent (.node s ts)) (hc : d.Holds none c)
    (hn : (Tree.node s (ts ++ [c])).ids.Nodup) :
    (d.append s.id c.id).Holds parent (.node s (ts ++ [c])) := by
  simp only [Tree.ids_node, List.flatMap_append, List.flatMap_singleton, List.nodup_cons,
    List.mem_append, not_or, List.nodup_append] at hn
  rcases hn with ⟨⟨hst, hsc⟩, -, hnc, hdis⟩
  have hne : c.id ≠ s.id := fun he => hsc (he ▸ c.id_mem_ids)
  have hnone : d.parent? c.id = none := parent?_eq hc.top
  refine .node ?_ fun u hu => ?_
  · rw [Document.append, getElem?_link hnone hne h.here, List.map_append]
    rfl
  · -- the old children are framed, and the new one has only been given its parent
    rcases List.mem_append.1 hu with hu | hu
    · refine (h.inside u hu).frame (changesOnly_link hnone) ?_
      intro j hj hjs
      have hju : j ∈ ts.flatMap Tree.ids := List.mem_flatMap.2 ⟨u, hu, hj⟩
      simp only [List.mem_cons, List.not_mem_nil, or_false] at hjs
      rcases hjs with rfl | rfl
      · exact hdis _ hju _ c.id_mem_ids rfl
      · exact hst hju
    · rw [List.mem_singleton.1 hu]
      exact hc.link hnc hsc

theorem placeBefore_append {x y : NodeId} {l r : List NodeId} (h : y ∉ l) :
    placeBefore x y (l ++ y :: r) = l ++ x :: y :: r := by
  induction l with
  | nil => simp [placeBefore]
  | cons z l ih =>
    rw [List.mem_cons, not_or] at h
    rw [List.cons_append, placeBefore, if_neg (Ne.symm h.1), ih h.2]
    rfl

theorem changesOnly_detach {p child : NodeId} (h : d.parent? child = some p) :
    ChangesOnly [child, p] d (d.detach child) := by
  unfold Document.detach
  rw [h]
  exact ((ChangesOnly.update _ _ _).mono (by simp)).trans (.update _ _ _) (by simp)

/-- A node that loses a child. -/
theorem getElem?_detach {p child : NodeId} {n : Node} (h : d.parent? child = some p)
    (hne : child ≠ p) (hp : d.nodes[p]? = some n) :
    (d.detach child).nodes[p]? =
      some { n with children := n.children.filter (· ≠ child) } := by
  unfold Document.detach
  rw [h]
  simp only [getElem?_update, if_pos, if_neg hne, hp, Option.map_some]

/-- A child that is unlinked leaves no gap among the other children. -/
theorem Holds.detach {p : NodeId} (h : d.Holds (some p) t) (hp : p ∉ t.ids) :
    Replaces d (d.detach t.id) p t [] where
  place := by
    intro kind parent before after hnode hbefore hafter
    have hne : t.id ≠ p := fun he => hp (he ▸ t.id_mem_ids)
    rw [getElem?_detach (parent?_eq h.top) hne hnode]
    simp only [List.filter_append, filter_eq_self_of_notMem hbefore, List.map_nil, List.append_nil]
    rw [List.filter_cons_of_neg (by simp), filter_eq_self_of_notMem hafter]
  holds := by simp
  nodup := by simp
  fresh := by simp
  changes := by
    refine (changesOnly_detach (parent?_eq h.top)).mono fun j hj => ?_
    simp only [List.mem_cons, List.not_mem_nil, or_false] at hj
    rcases hj with rfl | rfl
    · exact List.mem_cons_of_mem _ t.id_mem_ids
    · exact List.mem_cons_self

/-- A child that is unlinked keeps its tree. -/
theorem Holds.detached {p : NodeId} (h : d.Holds (some p) t) (hn : t.ids.Nodup) (hp : p ∉ t.ids) :
    (d.detach t.id).Holds none t := by
  unfold Document.detach
  rw [parent?_eq h.top]
  refine (h.setParent hn none).frame (.update _ _ _) ?_
  intro j hj hjp
  exact hp (List.mem_singleton.1 hjp ▸ hj)

/-- A tree made of new nodes that goes right before a child. -/
theorem Holds.insertBefore {d' : Document} {p child : NodeId} (hch : ChangesOnly [] d d')
    (hc : d'.Holds none c) (hn : c.ids.Nodup) (hfresh : ∀ j ∈ c.ids, d.size ≤ j)
    (hp : p < d.size) : Inserts d (d'.insertBefore p c.id child) p child [c] where
  place := by
    intro kind parent before after hnode hbefore
    have hne : c.id ≠ p := fun he => absurd (hfresh _ c.id_mem_ids) (he ▸ not_le.2 hp)
    have hnode' := (hch.same p hp (by simp)).trans hnode
    rw [Document.insertBefore, getElem?_link (parent?_eq hc.top) hne hnode',
      placeBefore_append hbefore]
    simp
  holds := by
    intro u hu
    rw [List.mem_singleton.1 hu]
    exact hc.link hn fun hm => absurd (hfresh p hm) (not_le.2 hp)
  nodup := by simpa using hn
  fresh := by simpa using hfresh
  changes := by
    refine (hch.mono (by simp)).trans (changesOnly_link (parent?_eq hc.top)) fun j hj => ?_
    rcases List.mem_cons.1 hj with rfl | hj
    · exact Or.inr (hfresh _ c.id_mem_ids)
    · exact Or.inl hj

/-- A child is replaced by trees that are put before it once it has gone. -/
theorem Inserts.replaces {d' : Document} {p : NodeId} {us : List (Tree Spot)}
    (h : Inserts d d' p t.id us) (ht : d.Holds (some p) t) (hp : p ∉ t.ids) (hlt : p < d.size) :
    Replaces d (d'.detach t.id) p t us := by
  have ht' : d'.Holds (some p) t := ht.frame h.changes fun j hj hjp =>
    hp (List.mem_singleton.1 hjp ▸ hj)
  have hout := ht'.detach hp
  have hold : ∀ j ∈ p :: t.ids, j < d.size := by
    intro j hj
    rcases List.mem_cons.1 hj with rfl | hj
    · exact hlt
    · exact ht.lt_size j hj
  constructor
  · intro kind parent before after hnode hbefore hafter
    -- the new trees are not the child that goes
    have hnot : t.id ∉ before ++ us.map Tree.id := by
      rw [List.mem_append, not_or]
      refine ⟨hbefore, fun hm => ?_⟩
      have hge := h.fresh t.id ((Tree.map_id_sublist_ids us).subset hm)
      exact absurd (ht.lt_size _ t.id_mem_ids) (not_lt.2 hge)
    rw [hout.place (h.place hnode hbefore) hnot hafter]
    simp
  · intro u hu
    refine (h.holds u hu).frame hout.changes ?_
    intro j hj hjp
    exact absurd (hold j hjp) (not_lt.2 (h.fresh j (List.mem_flatMap.2 ⟨u, hu, hj⟩)))
  · exact h.nodup
  · exact fun j hj => Or.inr (h.fresh j hj)
  · refine (h.changes.mono (by simp)).trans hout.changes fun j hj => Or.inl hj

/-! ## Texts -/

theorem changesOnly_clearParents (ids : List NodeId) (d : Document) :
    ChangesOnly ids d
      (ids.foldl (fun acc child => acc.update child fun n => { n with parent := none }) d) := by
  induction ids generalizing d with
  | nil => exact .refl _ _
  | cons id ids ih =>
    have hfirst : ChangesOnly (id :: ids) d (d.update id fun n => { n with parent := none }) :=
      (ChangesOnly.update _ _ _).mono (by simp)
    exact hfirst.trans (ih _) fun j hj => Or.inl (List.mem_cons_of_mem _ hj)

theorem changesOnly_clear (d : Document) (id : NodeId) :
    ChangesOnly (id :: d.children id) d (WellFormed.clear d id) := by
  refine ((ChangesOnly.update d id _).mono (by simp)).trans (changesOnly_clearParents _ _) ?_
  intro j hj
  exact Or.inl (List.mem_cons_of_mem _ hj)

theorem changesOnly_addText (d : Document) (id : NodeId) (text : String) :
    ChangesOnly [id] d (d.addText id text) := by
  have hnone : (d.create (.text text)).1.parent? d.size = none := by
    rw [parent?_create, parent?_size]
  rw [addText_eq, Document.append]
  refine ((ChangesOnly.create d (.text text)).mono (by simp)).trans (changesOnly_link hnone) ?_
  intro j hj
  simp only [List.mem_cons, List.not_mem_nil, or_false] at hj
  rcases hj with rfl | rfl
  · exact Or.inr (Nat.le_refl _)
  · exact Or.inl (by simp)

/-- A node without its children. -/
theorem Holds.clear (h : d.Holds parent (.node s ts)) (hn : (Tree.node s ts).ids.Nodup) :
    (WellFormed.clear d s.id).Holds parent (.node s []) := by
  rw [Tree.ids_node, List.nodup_cons] at hn
  have hnot : s.id ∉ d.children s.id := by
    rw [children_eq h.here]
    intro hmem
    exact hn.1 ((Tree.map_id_sublist_ids ts).subset hmem)
  have hcut := changesOnly_clearParents (d.children s.id)
    (d.update s.id fun n => { n with children := [] })
  -- the node is no child of its own, so cutting the links of the children leaves it alone
  refine .node ?_ (by simp)
  rw [WellFormed.clear, hcut.same s.id (by simpa using lt_size_of_getElem? h.here) hnot,
    getElem?_update, if_pos rfl, h.here]
  rfl

/-- A node with one more child, a text. -/
theorem Holds.addText (h : d.Holds parent (.node s ts)) (hn : (Tree.node s ts).ids.Nodup)
    (text : String) :
    (d.addText s.id text).Holds parent (.node s (ts ++ [.node ⟨d.size, .text text⟩ []])) ∧
      (Tree.node s (ts ++ [.node ⟨d.size, .text text⟩ []])).ids.Nodup := by
  have hframed : (d.create (.text text)).1.Holds parent (.node s ts) :=
    h.frame (.create d (.text text)) fun _ _ => List.not_mem_nil
  -- the new text is a tree of its own before it goes into the node
  have hnew : (d.create (.text text)).1.Holds none (.node ⟨d.size, .text text⟩ []) := by
    refine .node ?_ (by simp)
    rw [getElem?_create, if_pos rfl]
    rfl
  have hids : (Tree.node s (ts ++ [.node ⟨d.size, .text text⟩ []])).ids =
      (Tree.node s ts).ids ++ [d.size] := by
    rw [Tree.ids_node, Tree.ids_node, List.flatMap_append, List.flatMap_singleton, Tree.ids_node,
      List.flatMap_nil, List.cons_append]
  have hnodup : (Tree.node s (ts ++ [.node ⟨d.size, .text text⟩ []])).ids.Nodup := by
    rw [hids, List.nodup_append]
    refine ⟨hn, List.nodup_singleton _, ?_⟩
    intro j hj k hk heq
    rw [heq, List.mem_singleton.1 hk] at hj
    exact absurd (h.lt_size _ hj) (Nat.lt_irrefl _)
  have hadded := hframed.append hnew hnodup
  rw [Tree.id_node] at hadded
  exact ⟨hadded, hnodup⟩

/-- A node that is given a text has that text and nothing else. -/
theorem Holds.setText (h : d.Holds parent (.node s ts)) (hn : (Tree.node s ts).ids.Nodup)
    (text : String) :
    ∃ us, Rewrites d (d.setText s.id text) parent (.node s ts) (.node s us) ∧
      us.map Tree.kinds = textNodes text := by
  have hclear : (WellFormed.clear d s.id).Holds parent (.node s []) := h.clear hn
  have hch : ChangesOnly (Tree.node s ts).ids d (WellFormed.clear d s.id) := by
    refine (changesOnly_clear d s.id).mono ?_
    intro j hj
    rw [children_eq h.here] at hj
    rw [Tree.ids_node]
    rcases List.mem_cons.1 hj with rfl | hj
    · exact List.mem_cons_self
    · exact List.mem_cons_of_mem _ ((Tree.map_id_sublist_ids ts).subset hj)
  rw [setText_eq, textNodes]
  split
  · refine ⟨[], ⟨hclear, rfl, by simp, ?_, hch⟩, rfl⟩
    intro j hj
    have hself : j = s.id := by simpa using hj
    rw [Tree.ids_node, hself]
    exact Or.inl List.mem_cons_self
  · obtain ⟨hadded, hnodup⟩ := hclear.addText (by simp) text
    have hadd := changesOnly_addText (WellFormed.clear d s.id) s.id text
    refine ⟨_, ⟨hadded, rfl, hnodup, ?_, hch.trans hadd fun j hj => Or.inl ?_⟩, by simp⟩
    · intro j hj
      simp only [List.nil_append, Tree.ids_node, List.flatMap_singleton, List.flatMap_nil,
        List.mem_cons, List.not_mem_nil, or_false] at hj
      rcases hj with rfl | rfl
      · exact Or.inl (by simp)
      · exact Or.inr hch.size_le
    · rw [List.mem_singleton.1 hj, Tree.ids_node]
      exact List.mem_cons_self

end Document

end Stencil.Html
