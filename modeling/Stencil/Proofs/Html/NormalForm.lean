import Stencil.Proofs.Html.LastBranch
namespace Stencil.Html

/-! # The normal form of built documents

Whatever tokens the builder is fed, its document is in normal form: texts are neither empty nor next
to one another, an element ends where its rules say so, and nothing stands where it has no place. A
regular tree is one whose nodes all meet these conditions, so it remains to find every node of the
store in the tree.
-/

namespace Document

variable {d : Document}

/-- Whether a node is a text. -/
def isText (d : Document) (id : NodeId) : Bool :=
  (d.kind? id).any Kind.isText

/-- What is true of every document that the builder makes. -/
structure IsNormal (d : Document) : Prop where
  text_ne_empty : ∀ {id s}, d.kind? id = some (.text s) → s ≠ ""
  textsApart : ∀ id, (d.children id).IsChain fun c c' => ¬ (d.isText c = true ∧ d.isText c' = true)
  children_of_void : ∀ {id e}, d.element? id = some e → (tagRule e.name).isVoid = true →
    d.children id = []
  not_isClosedBy : ∀ {id c e e'}, c ∈ d.children id → d.element? id = some e →
    d.element? c = some e' → (tagRule e.name).isClosedBy e'.name = false
  eq_root : ∀ {id}, d.kind? id = some .document → id = root
  branch : d.OnlyElementsBranch

/-- Every node of a tree is the top of a tree inside of it. -/
theorem Holds.exists_subtree {parent : Option NodeId} {u : Tree Spot} (h : d.Holds parent u) :
    ∀ j ∈ u.ids, ∃ p v, d.Holds p v ∧ v.id = j ∧ v.kinds ∈ u.kinds.subtrees := by
  induction h with
  | @node parent s ts here inside ih =>
    intro j hj
    rw [Tree.ids_node, List.mem_cons, List.mem_flatMap] at hj
    rcases hj with rfl | ⟨t, ht, hjt⟩
    · exact ⟨_, _, .node here inside, rfl, Tree.mem_subtrees_self _⟩
    · obtain ⟨p, v, hv, hid, hmem⟩ := ih t ht j hjt
      refine ⟨p, v, hv, hid, Tree.mem_subtrees_of_mem_children ?_ hmem⟩
      rw [Tree.kinds_node, Tree.children_node]
      exact List.mem_map_of_mem ht

/-- What the children of a node are in a document that is laid out from a regular tree. -/
theorem IsLaid.exists_regularNode {t : Tree Kind} {side : Side} (h : d.IsLaid t)
    (ht : Regular side t) {id : NodeId} {k : Kind} (hk : d.kind? id = some k) :
    ∃ ts : List (Tree Spot), d.children id = ts.map Tree.id ∧
      (∀ t ∈ ts, d.kind? t.id = some t.label.kind) ∧ RegularNode side k (ts.map Tree.kinds) := by
  obtain ⟨u, hu, hids, rfl⟩ := h
  have hlt : id < d.size := by
    obtain ⟨n, hn, -⟩ := Option.map_eq_some_iff.1 hk
    exact lt_size_of_getElem? hn
  obtain ⟨p, ⟨s, ts⟩, hv, rfl, hmem⟩ := hu.exists_subtree id (hids ▸ List.mem_range.2 hlt)
  obtain rfl : s.kind = k := Option.some.inj ((kind?_eq hv.here).symm.trans hk)
  have hnode := ht _ hmem
  rw [Tree.kinds_node] at hnode
  exact ⟨ts, children_eq hv.here, fun t ht => kind?_eq (hv.inside t ht).top, hnode⟩

/-- A node that is not the document itself stands below another one, as that one allows. -/
theorem IsLaid.exists_allows {t : Tree Kind} {side : Side} (h : d.IsLaid t) (ht : Regular side t)
    {id : NodeId} {k : Kind} (hk : d.kind? id = some k) (hid : id ≠ root) :
    ∃ k' : Kind, k'.Allows side k := by
  obtain ⟨u, hu, hroot, hids, rfl⟩ := h.exists_root
  have hlt : id < d.size := by
    obtain ⟨n, hn, -⟩ := Option.map_eq_some_iff.1 hk
    exact lt_size_of_getElem? hn
  -- the last step of the way down to the node comes from its parent
  rcases Relation.ReflTransGen.cases_tail (hu.reaches id (hids ▸ List.mem_range.2 hlt)) with
    heq | ⟨p, -, hp⟩
  · exact absurd (heq.trans hroot) hid
  obtain ⟨n, hn⟩ := exists_node (lt_size_of_mem_children hp)
  obtain ⟨ts, hts, hkinds, hnode⟩ :=
    IsLaid.exists_regularNode ⟨u, hu, hids, rfl⟩ ht (kind?_eq hn)
  rw [HasChild, hts] at hp
  obtain ⟨t, hmem, rfl⟩ := List.mem_map.1 hp
  obtain rfl : t.label.kind = k := Option.some.inj ((hkinds t hmem).symm.trans hk)
  have hallows := hnode.allows t.kinds (List.mem_map_of_mem hmem)
  rw [Tree.label_kinds] at hallows
  exact ⟨n.kind, hallows⟩

/-- The document itself is at the top of the tree. -/
theorem IsLaid.kind_root {t : Tree Kind} (h : d.IsLaid t) : d.kind? root = some t.label := by
  obtain ⟨u, hu, hroot, -, rfl⟩ := h.exists_root
  rw [← hroot, Tree.label_kinds]
  exact kind?_eq hu.top

/-- Below the document itself there is no other document. -/
theorem IsLaid.eq_root {t : Tree Kind} {side : Side} (h : d.IsLaid t) (ht : Regular side t)
    {id : NodeId} (hk : d.kind? id = some .document) : id = root := by
  by_contra hid
  obtain ⟨k', hallows⟩ := h.exists_allows ht hk hid
  exact hallows.2

theorem kind?_of_element? {id : NodeId} {e : Element} (h : d.element? id = some e) :
    d.kind? id = some (.element e) := by
  obtain ⟨k, hk, he⟩ := Option.bind_eq_some_iff.1 h
  cases k with
  | element e' =>
    cases he
    exact hk
  | _ => cases he

/-- A document that is laid out from a regular tree below the document itself is in normal form. -/
theorem IsLaid.isNormal {ts : List (Tree Kind)} {side : Side} (h : d.IsLaid (.node .document ts))
    (ht : Regular side (.node .document ts)) : d.IsNormal where
  text_ne_empty := by
    intro id s hk
    have hid : id ≠ root := by
      rintro rfl
      cases hk.symm.trans h.kind_root
    obtain ⟨k', hallows⟩ := h.exists_allows ht hk hid
    exact hallows.2
  textsApart := by
    intro id
    cases hk : d.kind? id with
    | none =>
      have hnil : d.children id = [] := by
        have hnone : d.nodes[id]? = none := Option.map_eq_none_iff.1 hk
        rw [children_def, hnone]
        rfl
      rw [hnil]
      exact .nil
    | some k =>
      obtain ⟨us, hus, hkinds, hnode⟩ := h.exists_regularNode ht hk
      rw [hus, List.isChain_map]
      refine ((List.isChain_map _).1 hnode.apart).imp_of_mem_imp ?_
      intro u u' hu hu' hne
      simpa only [isText, hkinds u hu, hkinds u' hu', Tree.label_kinds, Option.any_some] using hne
  children_of_void := by
    intro id e he hvoid
    obtain ⟨us, hus, -, hnode⟩ := h.exists_regularNode ht (kind?_of_element? he)
    by_contra hne
    rw [hus] at hne
    rcases hnode.branch (by simpa using hne) with hdoc | ⟨-, hnot⟩
    · cases hdoc
    · exact absurd hvoid (by simpa [Kind.name, Kind.element?] using hnot)
  not_isClosedBy := by
    intro id c e e' hc he he'
    obtain ⟨us, hus, hkinds, hnode⟩ := h.exists_regularNode ht (kind?_of_element? he)
    rw [hus] at hc
    obtain ⟨u, hu, rfl⟩ := List.mem_map.1 hc
    have hallows := hnode.allows u.kinds (List.mem_map_of_mem hu)
    have hkind := (hkinds u hu).symm.trans (kind?_of_element? he')
    rw [Tree.label_kinds, Option.some.inj hkind] at hallows
    exact hallows.2
  eq_root := h.eq_root ht
  branch := by
    intro id hne
    obtain ⟨c, hc⟩ := List.exists_mem_of_ne_nil _ hne
    obtain ⟨n, hn⟩ := exists_node (lt_size_of_mem_children hc)
    obtain ⟨us, hus, -, hnode⟩ := h.exists_regularNode ht (kind?_eq hn)
    rw [hus] at hne
    rcases hnode.branch (by simpa using hne) with hdoc | ⟨he, -⟩
    · exact Or.inl (h.eq_root ht ((kind?_eq hn).trans (congrArg some hdoc)))
    · exact Or.inr (by rw [isElement, element?, kind?_eq hn]; exact he)

end Document

/-- Every document that the builder makes is in normal form. -/
theorem Builder.isNormal_build (tokens : List Token) : (build tokens).document.IsNormal := by
  have hregular : TreeBuilder.RegularGrowing TreeBuilder.Anywhere
      (tokens.foldl TreeBuilder.feed .start).tree := by
    refine List.foldlRecOn
      (motive := fun b : TreeBuilder => TreeBuilder.RegularGrowing TreeBuilder.Anywhere b.tree)
      tokens _ (regular_leaf .document) ?_
    exact fun b hb token _ => hb.feed_anywhere token
  exact (isLaid_build tokens).1.isNormal (TreeBuilder.regular_of_foldl hregular)

end Stencil.Html
