import Mathlib.Data.Finset.Lattice.Fold
import Stencil.Proofs.Document.Placed
namespace Stencil.Html.Document

/-! # The tree of a document

What can be reached from a node by going down the children is a tree, and the numbers of its nodes
matter to nobody outside of the store. In a well-formed store it is found by going down as many
levels as the store has nodes.
-/

/-- The upper `levels` levels below a node, and the node. -/
def treeLevels (d : Document) : Nat → NodeId → Tree Kind
  | 0, id => .node ((d.kind? id).getD .document) []
  | levels + 1, id =>
    .node ((d.kind? id).getD .document) ((d.children id).map (treeLevels d levels))

/-- The tree that can be reached from a node. -/
def treeOf (d : Document) (id : NodeId) : Tree Kind :=
  d.treeLevels d.size id

/-- The tree that can be reached from the document itself. -/
def tree (d : Document) : Tree Kind :=
  d.treeOf root

/-- A node and the upper `levels` levels below it, each node before those below it. -/
def preorderLevels (d : Document) : Nat → NodeId → List NodeId
  | 0, id => [id]
  | levels + 1, id => id :: (d.children id).flatMap (d.preorderLevels levels)

/-- The nodes that can be reached from a node, each before those below it. -/
def preorderOf (d : Document) (id : NodeId) : List NodeId :=
  d.preorderLevels d.size id

namespace Holds

variable {d : Document} {parent : Option NodeId} {t : Tree Spot}

theorem treeLevels_eq (h : d.Holds parent t) :
    ∀ {n : Nat}, t.kinds.height ≤ n + 1 → d.treeLevels n t.id = t.kinds := by
  induction h with
  | @node parent s ts here _ ih =>
    intro n hn
    rw [Tree.kinds_node] at hn
    rw [Tree.id_node, Tree.kinds_node]
    cases n with
    | zero =>
      -- a tree that fits into one level has nothing below its top
      have hts : ts = [] := List.map_eq_nil_iff.1 (Tree.of_height_le_one hn).2
      simp [treeLevels, kind?_eq here, hts]
    | succ n =>
      simp only [treeLevels, kind?_eq here, children_eq here, Option.getD_some, List.map_map]
      congr 1
      refine List.map_congr_left ?_
      intro t ht
      exact ih t ht ((Tree.height_node_le_iff.1 hn).2 t.kinds (List.mem_map_of_mem ht))

/-- The nodes of a tree without repetitions are no more than those of the store. -/
theorem length_ids_le (h : d.Holds parent t) (hn : t.ids.Nodup) : t.ids.length ≤ d.size := by
  have hsub : t.ids.toFinset ⊆ Finset.range d.size := by
    intro j hj
    exact Finset.mem_range.2 (h.lt_size j (List.mem_toFinset.1 hj))
  have hcard := Finset.card_le_card hsub
  rwa [List.toFinset_card_of_nodup hn, Finset.card_range] at hcard

/-- As many levels as the store has nodes are enough for a tree that it holds. -/
theorem height_le (h : d.Holds parent t) (hn : t.ids.Nodup) : t.kinds.height ≤ d.size + 1 :=
  t.height_kinds_le.trans (Nat.succ_le_succ (h.length_ids_le hn))

theorem treeOf_eq (h : d.Holds parent t) (hn : t.ids.Nodup) : d.treeOf t.id = t.kinds :=
  h.treeLevels_eq (h.height_le hn)

theorem preorderLevels_eq (h : d.Holds parent t) :
    ∀ {n : Nat}, t.kinds.height ≤ n + 1 → d.preorderLevels n t.id = t.ids := by
  induction h with
  | @node parent s ts here _ ih =>
    intro n hn
    rw [Tree.kinds_node] at hn
    rw [Tree.id_node, Tree.ids_node]
    cases n with
    | zero =>
      have hts : ts = [] := List.map_eq_nil_iff.1 (Tree.of_height_le_one hn).2
      simp [preorderLevels, hts]
    | succ n =>
      rw [preorderLevels, children_eq here, List.flatMap_map]
      congr 1
      refine List.flatMap_congr fun t ht => ?_
      exact ih t ht ((Tree.height_node_le_iff.1 hn).2 t.kinds (List.mem_map_of_mem ht))

theorem preorderOf_eq (h : d.Holds parent t) (hn : t.ids.Nodup) : d.preorderOf t.id = t.ids :=
  h.preorderLevels_eq (h.height_le hn)

/-- A tree away from the top of a document whose nodes nest as they should is tidy. -/
theorem tidy (h : d.Holds parent t) (hb : d.OnlyElementsBranch) (hr : root ∉ t.ids) :
    t.kinds.Tidy := by
  induction h with
  | @node parent s ts here _ ih =>
    rw [Tree.ids_node, List.mem_cons, not_or] at hr
    rw [Tree.kinds_node, Tree.tidy_node_iff]
    constructor
    · intro hne
      have hc : d.children s.id ≠ [] := by
        rw [children_eq here]
        intro hnil
        exact hne (by simpa using hnil)
      rcases hb s.id hc with heq | he
      · exact absurd heq.symm hr.1
      · simpa [isElement, element?, kind?_eq here, Kind.isElement] using he
    · intro u hu
      rcases List.mem_map.1 hu with ⟨t, ht, rfl⟩
      exact ih t ht fun hm => hr.2 (List.mem_flatMap.2 ⟨t, ht, hm⟩)

/-- What is below a node of a tree is in the tree. -/
theorem mem_of_mem_children (h : d.Holds parent t) {p c : NodeId} (hp : p ∈ t.ids)
    (hc : c ∈ d.children p) : c ∈ t.ids := by
  induction h with
  | @node parent s ts here _ ih =>
    rw [Tree.ids_node, List.mem_cons, List.mem_flatMap] at hp ⊢
    rcases hp with rfl | ⟨t, ht, hpt⟩
    · rw [children_eq here] at hc
      rcases List.mem_map.1 hc with ⟨t, ht, rfl⟩
      exact Or.inr ⟨t, ht, t.id_mem_ids⟩
    · exact Or.inr ⟨t, ht, ih t ht hpt⟩

/-- From every node of a tree a way leads up to its top. -/
theorem above (h : d.Holds parent t) : ∀ j ∈ t.ids, Relation.ReflTransGen d.IsChild j t.id := by
  induction h with
  | @node parent s ts _ inside ih =>
    intro j hj
    rw [Tree.ids_node, List.mem_cons, List.mem_flatMap] at hj
    rcases hj with rfl | ⟨t, ht, hjt⟩
    · exact .refl
    · exact (ih t ht j hjt).tail (parent?_eq (inside t ht).top)

end Holds

namespace WellFormed

variable {d : Document}

/-! ## Every node of a forest has its tree -/

/-- The nodes below a node. -/
noncomputable def nodesBelow (d : Document) (id : NodeId) : Finset NodeId :=
  open Classical in (Finset.range d.size).filter fun j => Relation.TransGen d.IsChild j id

theorem mem_nodesBelow {id j : NodeId} :
    j ∈ nodesBelow d id ↔ Relation.TransGen d.IsChild j id := by
  simp only [nodesBelow, Finset.mem_filter, Finset.mem_range, and_iff_right_iff_imp]
  intro h
  rcases Relation.TransGen.head'_iff.1 h with ⟨p, hp, -⟩
  exact lt_size_of_parent? hp

/-- Going down ends: a child has fewer nodes below it than its parent. -/
theorem wellFounded (hd : d.WellFormed) : WellFounded d.IsChild := by
  refine Subrelation.wf (r := InvImage (· < ·) fun id => (nodesBelow d id).card) ?_
    (InvImage.wf _ Nat.lt_wfRel.wf)
  intro c p hcp
  -- the child itself is below its parent and not below itself
  refine Finset.card_lt_card ⟨fun j hj => ?_, fun hsub => ?_⟩
  · exact mem_nodesBelow.2 ((mem_nodesBelow.1 hj).tail hcp)
  · exact hd.acyclic c (mem_nodesBelow.1 (hsub (mem_nodesBelow.2 (.single hcp))))

/-- Nodes with the same parent that hold their trees hold them side by side. -/
theorem exists_trees {p : NodeId} : ∀ {cs : List NodeId},
    (∀ c ∈ cs, ∃ t, t.id = c ∧ d.Holds (some p) t) →
    ∃ ts : List (Tree Spot), ts.map Tree.id = cs ∧ ∀ t ∈ ts, d.Holds (some p) t
  | [], _ => ⟨[], rfl, by simp⟩
  | c :: cs, h => by
    rcases h c (by simp) with ⟨t, rfl, ht⟩
    rcases exists_trees fun c hc => h c (List.mem_cons_of_mem _ hc) with ⟨ts, rfl, hts⟩
    exact ⟨t :: ts, rfl, List.forall_mem_cons.2 ⟨ht, hts⟩⟩

theorem exists_holds (hd : d.WellFormed) :
    ∀ id < d.size, ∃ t, t.id = id ∧ d.Holds (d.parent? id) t := by
  intro id
  induction id using hd.wellFounded.induction with
  | h id ih =>
    intro hlt
    rcases exists_node hlt with ⟨n, hn⟩
    have hcs : ∀ c ∈ d.children id, ∃ t, t.id = c ∧ d.Holds (some id) t := by
      intro c hc
      have hp := (hd.parent_iff c id).2 hc
      rcases ih c hp (hd.lt_size_of_child hc) with ⟨t, ht, hh⟩
      exact ⟨t, ht, hp ▸ hh⟩
    rcases exists_trees hcs with ⟨ts, hts, hh⟩
    refine ⟨.node ⟨id, n.kind⟩ ts, rfl, .node ?_ hh⟩
    rw [hts, parent?_eq hn, children_eq hn]
    exact hn

/-- A node has one parent at most. -/
theorem isChild_rightUnique (d : Document) : Relator.RightUnique d.IsChild :=
  fun _ _ _ hb hc => Option.some.inj (hb.symm.trans hc)

/-- No child of a node is above another one: it would be above its own parent. -/
theorem eq_of_above_sibling (hd : d.WellFormed) {p a b : NodeId} (ha : d.IsChild a p)
    (hb : d.IsChild b p) (h : Relation.ReflTransGen d.IsChild a b) : a = b := by
  rcases Relation.ReflTransGen.cases_head h with heq | ⟨x, hx, hxb⟩
  · exact heq
  · obtain rfl : x = p := isChild_rightUnique d hx ha
    exact absurd (Relation.TransGen.tail' hxb hb) (hd.acyclic x)

/-- Nothing is below two children of a node: one way up only leads from it, which passes both. -/
theorem eq_of_below_siblings (hd : d.WellFormed) {p a b j : NodeId} (ha : d.IsChild a p)
    (hb : d.IsChild b p) (hja : Relation.ReflTransGen d.IsChild j a)
    (hjb : Relation.ReflTransGen d.IsChild j b) : a = b := by
  rcases Relation.ReflTransGen.total_of_right_unique (isChild_rightUnique d) hja hjb with hab | hba
  · exact hd.eq_of_above_sibling ha hb hab
  · exact (hd.eq_of_above_sibling hb ha hba).symm

/-- No node stands twice in a tree of a forest: the trees of two children have none in common. -/
theorem nodup_ids (hd : d.WellFormed) {parent : Option NodeId} {t : Tree Spot}
    (h : d.Holds parent t) : t.ids.Nodup := by
  induction h with
  | @node parent s ts here inside ih =>
    have hup : ∀ t ∈ ts, d.IsChild t.id s.id := fun t ht => parent?_eq (inside t ht).top
    have hroots : (ts.map Tree.id).Nodup := by
      have := hd.nodup s.id
      rwa [children_eq here] at this
    rw [Tree.ids_node, List.nodup_cons, List.nodup_flatMap]
    refine ⟨fun hm => ?_, ih, ?_⟩
    · -- the top inside of one of its children would be above itself
      rcases List.mem_flatMap.1 hm with ⟨t, ht, hst⟩
      exact hd.acyclic s.id (Relation.TransGen.tail' ((inside t ht).above _ hst) (hup t ht))
    · refine (List.Pairwise.of_map Tree.id (fun a b hab => hab) hroots).imp_of_mem ?_
      intro t u ht hu hne j hjt hju
      exact hne (hd.eq_of_below_siblings (hup t ht) (hup u hu) ((inside t ht).above j hjt)
        ((inside u hu).above j hju))

/-- The tree of a node is the node over the trees of its children: no level is missing. -/
theorem treeOf_eq (hd : d.WellFormed) {id : NodeId} (h : id < d.size) :
    d.treeOf id = .node ((d.kind? id).getD .document) ((d.children id).map d.treeOf) := by
  rcases hd.exists_holds id h with ⟨t, rfl, ht⟩
  rw [ht.treeOf_eq (hd.nodup_ids ht)]
  cases ht with
  | @node _ s ts here inside =>
    rw [Tree.kinds_node, Tree.id_node, kind?_eq here, children_eq here, List.map_map]
    congr 1
    refine List.map_congr_left ?_
    intro u hu
    exact ((inside u hu).treeOf_eq (hd.nodup_ids (inside u hu))).symm

/-! ### Nodes in document order -/

/-- The nodes of a subtree are its top and then those of its children: no level is missing. -/
theorem preorderOf_eq (hd : d.WellFormed) {id : NodeId} (h : id < d.size) :
    d.preorderOf id = id :: (d.children id).flatMap d.preorderOf := by
  rcases hd.exists_holds id h with ⟨t, rfl, ht⟩
  rw [ht.preorderOf_eq (hd.nodup_ids ht)]
  cases ht with
  | @node _ s ts here inside =>
    rw [Tree.ids_node, Tree.id_node, children_eq here, List.flatMap_map]
    congr 1
    refine List.flatMap_congr ?_
    intro u hu
    exact ((inside u hu).preorderOf_eq (hd.nodup_ids (inside u hu))).symm

theorem nodup_preorderOf (hd : d.WellFormed) {id : NodeId} (h : id < d.size) :
    (d.preorderOf id).Nodup := by
  rcases hd.exists_holds id h with ⟨t, rfl, ht⟩
  rw [ht.preorderOf_eq (hd.nodup_ids ht)]
  exact hd.nodup_ids ht

/-- The nodes of a subtree are those from which a way leads up to its top. -/
theorem mem_preorderOf_iff (hd : d.WellFormed) {id j : NodeId} (h : id < d.size) :
    j ∈ d.preorderOf id ↔ Relation.ReflTransGen d.IsChild j id := by
  rcases hd.exists_holds id h with ⟨t, rfl, ht⟩
  rw [ht.preorderOf_eq (hd.nodup_ids ht)]
  constructor
  · exact ht.above j
  · intro hj
    induction hj using Relation.ReflTransGen.head_induction_on with
    | refl => exact t.id_mem_ids
    | head hjp _ ih => exact ht.mem_of_mem_children ih ((hd.parent_iff _ _).1 hjp)

theorem lt_size_of_mem_preorderOf (hd : d.WellFormed) {id j : NodeId} (h : id < d.size)
    (hj : j ∈ d.preorderOf id) : j < d.size := by
  rcases hd.exists_holds id h with ⟨t, rfl, ht⟩
  rw [ht.preorderOf_eq (hd.nodup_ids ht)] at hj
  exact ht.lt_size j hj

/-- A well-formed document holds its tree, below the document itself. -/
theorem holds_tree (hd : d.WellFormed) :
    ∃ ts, d.Holds (d.parent? root) (.node ⟨root, .document⟩ ts) ∧
      (Tree.node ⟨root, .document⟩ ts).ids.Nodup ∧
      d.tree = .node .document (ts.map Tree.kinds) := by
  rcases hd.exists_holds root hd.root_lt_size with ⟨t, hid, ht⟩
  have hn := hd.nodup_ids ht
  have htree := ht.treeOf_eq hn
  cases ht with
  | @node _ s ts here inside =>
    rcases s with ⟨id, kind⟩
    obtain rfl : id = root := hid
    obtain rfl : kind = .document := Option.some.inj ((kind?_eq here).symm.trans hd.kind_root)
    exact ⟨ts, .node here inside, hn, by rw [tree]; simpa using htree⟩

theorem exists_tree (hd : d.WellFormed) :
    ∃ t, t.id = root ∧ d.Holds (d.parent? root) t ∧ t.ids.Nodup ∧ t.kinds.label = .document ∧
      d.tree = t.kinds := by
  rcases hd.holds_tree with ⟨ts, ht, hn, htree⟩
  refine ⟨_, Tree.id_node _ _, ht, hn, ?_, ?_⟩
  · rw [Tree.kinds_node, Tree.label_node]
  · rw [Tree.kinds_node]
    exact htree

/-- Below its top the tree of a document whose nodes nest as they should is tidy. -/
theorem tidyBelow_tree (hd : d.WellFormed) (hb : d.OnlyElementsBranch) : d.tree.TidyBelow := by
  rcases hd.holds_tree with ⟨ts, ht, hn, htree⟩
  rw [htree]
  intro u hu
  rcases List.mem_map.1 hu with ⟨v, hv, rfl⟩
  refine (ht.inside v hv).tidy hb ?_
  intro hm
  rw [Tree.ids_node, List.nodup_cons] at hn
  exact hn.1 (List.mem_flatMap.2 ⟨v, hv, hm⟩)

end WellFormed

end Stencil.Html.Document
