import Stencil.Proofs.Document.Placed
namespace Stencil.Html.Document

/-! # Trees that change in their place

A pass goes through the children of a node one after the other and leaves other trees in their
place. What it does to one child is enough to know what it does to all of them: the nodes of one
child are not those of another, and new nodes are nobody's. A loop puts new trees before a child
and takes the child away in the end.
-/

/-- A tree has become another one with the same top, made of its own nodes and new ones. -/
structure Rewrites (d d' : Document) (parent : Option NodeId) (t t' : Tree Spot) : Prop where
  holds : d'.Holds parent t'
  id_eq : t'.id = t.id
  nodup : t'.ids.Nodup
  fresh : ∀ j ∈ t'.ids, j ∈ t.ids ∨ d.size ≤ j
  changes : ChangesOnly t.ids d d'

/-- Trees stand where a child of `p` stood, made of its nodes and new ones. -/
structure Replaces (d d' : Document) (p : NodeId) (t : Tree Spot) (us : List (Tree Spot)) :
    Prop where
  place : ∀ {kind : Kind} {parent : Option NodeId} {before after : List NodeId},
    d.nodes[p]? = some ⟨kind, parent, before ++ t.id :: after⟩ → t.id ∉ before → t.id ∉ after →
    d'.nodes[p]? = some ⟨kind, parent, before ++ us.map Tree.id ++ after⟩
  holds : ∀ u ∈ us, d'.Holds (some p) u
  nodup : (us.flatMap Tree.ids).Nodup
  fresh : ∀ j ∈ us.flatMap Tree.ids, j ∈ t.ids ∨ d.size ≤ j
  changes : ChangesOnly (p :: t.ids) d d'

namespace Rewrites

variable {d d' d'' : Document} {parent : Option NodeId} {t t' t'' : Tree Spot}

theorem refl (h : d.Holds parent t) (hn : t.ids.Nodup) : Rewrites d d parent t t :=
  ⟨h, rfl, hn, fun _ hj => Or.inl hj, .refl _ _⟩

theorem trans (h : Rewrites d d' parent t t') (h' : Rewrites d' d'' parent t' t'') :
    Rewrites d d'' parent t t'' where
  holds := h'.holds
  id_eq := h'.id_eq.trans h.id_eq
  nodup := h'.nodup
  fresh := by
    intro j hj
    rcases h'.fresh j hj with hj' | hlt
    · exact h.fresh j hj'
    · exact Or.inr (h.changes.size_le.trans hlt)
  changes := h.changes.trans h'.changes h.fresh

/-- A tree that has changed as a whole stands where it stood. -/
theorem replaces {p : NodeId} (h : Rewrites d d' (some p) t t') (hp : p ∉ t.ids) :
    Replaces d d' p t [t'] where
  place := by
    intro kind parent before after hnode _ _
    rw [h.changes.same p (lt_size_of_getElem? hnode) hp, hnode]
    simp [h.id_eq]
  holds := by simpa using h.holds
  nodup := by simpa using h.nodup
  fresh := by simpa using h.fresh
  changes := h.changes.mono fun j hj => List.mem_cons_of_mem _ hj

end Rewrites

/-- A node whose child has been replaced holds the new trees between the other children. -/
theorem Replaces.splice {d d' : Document} {parent : Option NodeId} {s : Spot} {t : Tree Spot}
    {before us after : List (Tree Spot)} (h : Replaces d d' s.id t us)
    (hd : d.Holds parent (.node s (before ++ t :: after)))
    (hn : (Tree.node s (before ++ t :: after)).ids.Nodup) :
    d'.Holds parent (.node s (before ++ us ++ after)) ∧
      (Tree.node s (before ++ us ++ after)).ids.Nodup := by
  have hlt := hd.lt_size
  simp only [Tree.ids_node, List.flatMap_append, List.flatMap_cons, List.mem_cons,
    List.mem_append] at hlt
  simp only [Tree.ids_node, List.flatMap_append, List.flatMap_cons, List.nodup_cons,
    List.nodup_append, List.mem_append, not_or] at hn
  rcases hn with ⟨⟨hsb, hst, hsa⟩, hnb, ⟨-, hna, hta⟩, hbta⟩
  constructor
  · refine .node ?_ fun u hu => ?_
    · have hnode := hd.here
      rw [List.map_append, List.map_cons] at hnode
      rw [List.map_append, List.map_append]
      refine h.place hnode (fun hm => ?_) fun hm => ?_
      · rcases List.mem_map.1 hm with ⟨u, hu, hid⟩
        exact hbta t.id (hid ▸ Tree.id_mem_flatMap_ids hu) t.id (Or.inl t.id_mem_ids) rfl
      · rcases List.mem_map.1 hm with ⟨u, hu, hid⟩
        exact hta t.id t.id_mem_ids t.id (hid ▸ Tree.id_mem_flatMap_ids hu) rfl
    · -- the children on both sides have nothing to do with the one that was replaced
      have hside : ∀ u ∈ before ++ t :: after, (∀ j ∈ u.ids, j ∉ s.id :: t.ids) →
          d'.Holds (some s.id) u := fun u hu hdis => (hd.inside u hu).frame h.changes hdis
      rw [List.mem_append, List.mem_append] at hu
      rcases hu with (hu | hu) | hu
      · refine hside u (by simp [hu]) ?_
        intro j hj hjs
        have hjb : j ∈ before.flatMap Tree.ids := List.mem_flatMap.2 ⟨u, hu, hj⟩
        rcases List.mem_cons.1 hjs with rfl | hjt
        · exact hsb hjb
        · exact hbta j hjb j (Or.inl hjt) rfl
      · exact h.holds u hu
      · refine hside u (by simp [hu]) ?_
        intro j hj hjs
        have hja : j ∈ after.flatMap Tree.ids := List.mem_flatMap.2 ⟨u, hu, hj⟩
        rcases List.mem_cons.1 hjs with rfl | hjt
        · exact hsa hja
        · exact hta j hjt j hja rfl
  · simp only [Tree.ids_node, List.flatMap_append, List.nodup_cons, List.nodup_append,
      List.mem_append, not_or]
    -- the nodes of the new trees come from the old child or did not exist
    have hnew : ∀ j ∈ us.flatMap Tree.ids, j ≠ s.id ∧ j ∉ before.flatMap Tree.ids ∧
        j ∉ after.flatMap Tree.ids := by
      intro j hj
      rcases h.fresh j hj with hjt | hge
      · exact ⟨fun he => hst (he ▸ hjt), fun hb => hbta j hb j (Or.inl hjt) rfl,
          fun ha => hta j hjt j ha rfl⟩
      · refine ⟨fun he => ?_, fun hb => ?_, fun ha => ?_⟩
        · exact absurd (hlt j (Or.inl he)) (not_lt.2 hge)
        · exact absurd (hlt j (Or.inr (Or.inl hb))) (not_lt.2 hge)
        · exact absurd (hlt j (Or.inr (Or.inr (Or.inr ha)))) (not_lt.2 hge)
    refine ⟨⟨⟨hsb, fun hm => (hnew _ hm).1 rfl⟩, hsa⟩, ⟨hnb, h.nodup, ?_⟩, hna, ?_⟩
    · rintro a ha b hb rfl
      exact (hnew a hb).2.1 ha
    · rintro a (ha | ha) b hb rfl
      · exact hbta a ha a (Or.inr hb) rfl
      · exact (hnew a ha).2.2 hb

variable {G : Tree Kind → List (Tree Kind)} {step : Document → Tree Spot → Document} {s : Spot}

/-- Children replaced one after the other. Those in `done` have had their turn; a step finds its
child as it was, since the steps before it had no business there. -/
theorem exists_foldl_children {parent : Option NodeId} (todo : List (Tree Spot))
    (hstep : ∀ t ∈ todo, ∀ d, s.id < d.size → d.Holds (some s.id) t → t.ids.Nodup → s.id ∉ t.ids →
      ∃ us, Replaces d (step d t) s.id t us ∧ us.map Tree.kinds = G t.kinds) :
    ∀ (done : List (Tree Spot)) (d : Document),
      d.Holds parent (.node s (done ++ todo)) → (Tree.node s (done ++ todo)).ids.Nodup →
      ∃ us, (todo.foldl step d).Holds parent (.node s (done ++ us)) ∧
        (Tree.node s (done ++ us)).ids.Nodup ∧
        (∀ j ∈ us.flatMap Tree.ids, j ∈ todo.flatMap Tree.ids ∨ d.size ≤ j) ∧
        ChangesOnly (s.id :: todo.flatMap Tree.ids) d (todo.foldl step d) ∧
        us.map Tree.kinds = (todo.map Tree.kinds).flatMap G := by
  induction todo with
  | nil =>
    intro done d hd hn
    exact ⟨[], hd, hn, by simp, .refl _ _, rfl⟩
  | cons t rest ih =>
    intro done d hd hn
    -- the child whose turn it is still stands between those that are done and the others
    have hnt : t.ids.Nodup ∧ s.id ∉ t.ids := by
      simp only [Tree.ids_node, List.flatMap_append, List.flatMap_cons, List.nodup_cons,
        List.nodup_append, List.mem_append, not_or] at hn
      exact ⟨hn.2.2.1.1, hn.1.2.1⟩
    obtain ⟨us, hus, hkinds⟩ := hstep t (by simp) d (lt_size_of_getElem? hd.here)
      (hd.inside t (by simp)) hnt.1 hnt.2
    rcases hus.splice hd hn with ⟨hd₁, hn₁⟩
    obtain ⟨vs, hvs, hnvs, hfresh, hch, hkvs⟩ :=
      ih (fun u hu => hstep u (List.mem_cons_of_mem _ hu)) (done ++ us) (step d t) hd₁ hn₁
    rw [List.append_assoc] at hvs hnvs
    refine ⟨us ++ vs, hvs, hnvs, fun j hj => ?_, ?_, ?_⟩
    · rw [List.flatMap_append, List.mem_append] at hj
      rw [List.flatMap_cons, List.mem_append]
      rcases hj with hj | hj
      · rcases hus.fresh j hj with hjt | hge
        · exact Or.inl (Or.inl hjt)
        · exact Or.inr hge
      · rcases hfresh j hj with hjr | hge
        · exact Or.inl (Or.inr hjr)
        · exact Or.inr (hus.changes.size_le.trans hge)
    · have hfirst : ChangesOnly (s.id :: (t :: rest).flatMap Tree.ids) d (step d t) := by
        refine hus.changes.mono ?_
        intro j hj
        rw [List.flatMap_cons, ← List.cons_append]
        exact List.mem_append_left _ hj
      refine hfirst.trans hch fun j hj => Or.inl ?_
      rw [List.flatMap_cons]
      rcases List.mem_cons.1 hj with rfl | hjr
      · exact List.mem_cons_self
      · exact List.mem_cons_of_mem _ (List.mem_append_right _ hjr)
    · simp [hkinds, hkvs]

/-- A node whose children have all been replaced. -/
theorem rewrites_children {d : Document} {parent : Option NodeId} {ts : List (Tree Spot)}
    (hd : d.Holds parent (.node s ts)) (hn : (Tree.node s ts).ids.Nodup)
    (hstep : ∀ t ∈ ts, ∀ d, s.id < d.size → d.Holds (some s.id) t → t.ids.Nodup → s.id ∉ t.ids →
      ∃ us, Replaces d (step d t) s.id t us ∧ us.map Tree.kinds = G t.kinds) :
    ∃ us, Rewrites d (ts.foldl step d) parent (.node s ts) (.node s us) ∧
      us.map Tree.kinds = (ts.map Tree.kinds).flatMap G := by
  obtain ⟨us, hus, hnus, hfresh, hch, hkinds⟩ :=
    exists_foldl_children ts hstep [] d (by simpa using hd) (by simpa using hn)
  refine ⟨us, ⟨hus, rfl, hnus, fun j hj => ?_, ?_⟩, hkinds⟩
  · rw [Tree.ids_node, List.mem_cons] at hj ⊢
    rcases hj with rfl | hj
    · exact Or.inl (Or.inl rfl)
    · exact (hfresh j hj).imp_left Or.inr
  · rw [Tree.ids_node]
    exact hch

/-- Going through the children that are elements is going through all children and passing over the
others. -/
theorem Holds.foldl_elementChildren {d : Document} {parent : Option NodeId} {ts : List (Tree Spot)}
    (h : d.Holds parent (.node s ts)) (f : Document → NodeId → Document) (d' : Document) :
    (d.elementChildren s.id).foldl f d' =
      ts.foldl (fun acc t => if t.label.kind.isElement then f acc t.id else acc) d' := by
  -- whether a child is an element can be read off its tree
  have hfilter : d.elementChildren s.id =
      (ts.filter fun t => t.label.kind.isElement).map Tree.id := by
    unfold elementChildren
    rw [children_eq h.here, List.filter_map]
    congr 1
    refine List.filter_congr ?_
    intro t ht
    simp [isElement, element?, kind?_eq (h.inside t ht).top, Kind.isElement]
  rw [hfilter, List.foldl_map, List.foldl_filter]

/-- A node whose children have been replaced where they are elements. The others stay as they are,
and so they may for what the children are to become. -/
theorem Holds.rewrites_elementChildren {d : Document} {parent : Option NodeId}
    {ts : List (Tree Spot)} {f : Document → NodeId → Document}
    (hd : d.Holds parent (.node s ts)) (hn : (Tree.node s ts).ids.Nodup)
    (hleaf : ∀ t ∈ ts, t.kinds.label.isElement = false → G t.kinds = [t.kinds])
    (hstep : ∀ t ∈ ts, ∀ d, s.id < d.size → d.Holds (some s.id) t → t.ids.Nodup → s.id ∉ t.ids →
      ∃ us, Replaces d (f d t.id) s.id t us ∧ us.map Tree.kinds = G t.kinds) :
    ∃ us, Rewrites d ((d.elementChildren s.id).foldl f d) parent (.node s ts) (.node s us) ∧
      us.map Tree.kinds = (ts.map Tree.kinds).flatMap G := by
  rw [hd.foldl_elementChildren f d]
  refine rewrites_children hd hn ?_
  intro t hmem d hlt ht hnt hst
  split
  · exact hstep t hmem d hlt ht hnt hst
  · next hk =>
    refine ⟨[t], (Rewrites.refl ht hnt).replaces hst, ?_⟩
    rw [hleaf t hmem (by rw [Tree.label_kinds]; simpa using hk)]
    rfl

/-- A node whose children have been changed as they stand, where they are elements. -/
theorem Holds.rewrites_elementChildren_map {d : Document} {parent : Option NodeId}
    {ts : List (Tree Spot)} {f : Document → NodeId → Document} {F : Tree Kind → Tree Kind}
    (hd : d.Holds parent (.node s ts)) (hn : (Tree.node s ts).ids.Nodup)
    (hleaf : ∀ t ∈ ts, t.kinds.label.isElement = false → F t.kinds = t.kinds)
    (hstep : ∀ t ∈ ts, ∀ d, d.Holds (some s.id) t → t.ids.Nodup →
      ∃ t', Rewrites d (f d t.id) (some s.id) t t' ∧ t'.kinds = F t.kinds) :
    ∃ us, Rewrites d ((d.elementChildren s.id).foldl f d) parent (.node s ts) (.node s us) ∧
      us.map Tree.kinds = (ts.map Tree.kinds).map F := by
  have hone : ∀ t ∈ ts, ∀ d, s.id < d.size → d.Holds (some s.id) t → t.ids.Nodup → s.id ∉ t.ids →
      ∃ us, Replaces d (f d t.id) s.id t us ∧ us.map Tree.kinds = [F t.kinds] := by
    intro t hmem d _ ht hnt hst
    rcases hstep t hmem d ht hnt with ⟨t', ht', hkinds⟩
    exact ⟨[t'], ht'.replaces hst, by rw [List.map_singleton, hkinds]⟩
  rw [List.map_eq_flatMap]
  refine hd.rewrites_elementChildren hn ?_ hone
  intro t hmem hk
  rw [hleaf t hmem hk]

/-! ## Trees before a child -/

/-- Trees of new nodes stand right before a child of `p`. -/
structure Inserts (d d' : Document) (p child : NodeId) (us : List (Tree Spot)) : Prop where
  place : ∀ {kind : Kind} {parent : Option NodeId} {before after : List NodeId},
    d.nodes[p]? = some ⟨kind, parent, before ++ child :: after⟩ → child ∉ before →
    d'.nodes[p]? = some ⟨kind, parent, before ++ us.map Tree.id ++ child :: after⟩
  holds : ∀ u ∈ us, d'.Holds (some p) u
  nodup : (us.flatMap Tree.ids).Nodup
  fresh : ∀ j ∈ us.flatMap Tree.ids, d.size ≤ j
  changes : ChangesOnly [p] d d'

namespace Inserts

variable {d d' d'' : Document} {p child : NodeId} {us vs : List (Tree Spot)}

/-- Nothing has been put before a child by a change that only adds nodes. -/
theorem nil (h : ChangesOnly [] d d') (hp : p < d.size) : Inserts d d' p child [] where
  place := by
    intro kind parent before after hnode _
    rw [h.same p hp (by simp), hnode]
    simp
  holds := by simp
  nodup := by simp
  fresh := by simp
  changes := h.mono (by simp)

theorem append (h : Inserts d d' p child us) (h' : Inserts d' d'' p child vs) (hp : p < d.size)
    (hchild : child < d.size) : Inserts d d'' p child (us ++ vs) where
  place := by
    intro kind parent before after hnode hbefore
    -- the first trees stand before the child now, and none of them is the child
    have hnot : child ∉ before ++ us.map Tree.id := by
      rw [List.mem_append, not_or]
      refine ⟨hbefore, fun hm => ?_⟩
      exact absurd (h.fresh child ((Tree.map_id_sublist_ids us).subset hm)) (not_le.2 hchild)
    rw [h'.place (h.place hnode hbefore) hnot, List.map_append, List.append_assoc before]
  holds := by
    intro u hu
    rcases List.mem_append.1 hu with hu | hu
    · refine (h.holds u hu).frame h'.changes ?_
      intro j hj hjp
      have hge := h.fresh j (List.mem_flatMap.2 ⟨u, hu, hj⟩)
      rw [List.mem_singleton.1 hjp] at hge
      exact absurd hge (not_le.2 hp)
    · exact h'.holds u hu
  nodup := by
    rw [List.flatMap_append, List.nodup_append]
    refine ⟨h.nodup, h'.nodup, ?_⟩
    -- the nodes of the first trees were in the store before those of the second were made
    rintro j hj _ hj' rfl
    rcases List.mem_flatMap.1 hj with ⟨u, hu, hju⟩
    exact absurd ((h.holds u hu).lt_size j hju) (not_lt.2 (h'.fresh j hj'))
  fresh := by
    intro j hj
    rw [List.flatMap_append, List.mem_append] at hj
    rcases hj with hj | hj
    · exact h.fresh j hj
    · exact h.changes.size_le.trans (h'.fresh j hj)
  changes := h.changes.trans h'.changes (by simp)

/-- One tree for each item of a list, all made in the same way from a tree `c` that is kept. -/
theorem exists_foldl {α : Type} {step : Document → α → Document} {F : α → Tree Kind}
    {c : Tree Spot} (hc : p ∉ c.ids)
    (hstep : ∀ d v, p < d.size → d.Holds none c →
      ∃ u, Inserts d (step d v) p child [u] ∧ u.kinds = F v) (items : List α) :
    ∀ d, p < d.size → child < d.size → d.Holds none c →
      ∃ us, Inserts d (items.foldl step d) p child us ∧ us.map Tree.kinds = items.map F := by
  induction items with
  | nil =>
    intro d hp _ _
    exact ⟨[], nil (.refl _ _) hp, rfl⟩
  | cons v items ih =>
    intro d hp hchild hd
    rcases hstep d v hp hd with ⟨u, hu, hkind⟩
    have hd₁ : (step d v).Holds none c := hd.frame hu.changes fun j hj hjp =>
      hc (List.mem_singleton.1 hjp ▸ hj)
    have hle := hu.changes.size_le
    rcases ih (step d v) (hp.trans_le hle) (hchild.trans_le hle) hd₁ with ⟨us, hus, hkinds⟩
    exact ⟨u :: us, hu.append hus hp hchild, by simp [hkind, hkinds]⟩

end Inserts

end Stencil.Html.Document
