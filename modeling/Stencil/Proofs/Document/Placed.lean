import Stencil.Proofs.Document.WellFormed
import Stencil.Proofs.Tree
namespace Stencil.Html

/-! # Trees in a store

A placed tree is a tree whose nodes know their numbers. A store holds it if the links of these nodes
are those of the tree. All that the passes do to a document is said in these terms: which tree the
store holds afterwards, where its nodes come from, and that all other nodes are as before.
-/

/-- A node with its number in a store. -/
structure Spot where
  id : NodeId
  kind : Kind

/-- Whether a node is an element. -/
def Kind.isElement (k : Kind) : Bool :=
  k.element?.isSome

end Stencil.Html

namespace Stencil.Tree

open Stencil.Html

/-! ## Trees of nodes -/

/-- The levels of a tree. An element counts as if it held a text, because it may be given one. -/
def height : Tree Kind → Nat
  | .node k ts => 1 + (ts.map height).foldr max (if k.isElement then 1 else 0)

theorem height_pos (t : Tree Kind) : 0 < t.height := by
  cases t with
  | node k ts =>
    rw [height]
    omega

theorem height_node_le_iff {k : Kind} {ts : List (Tree Kind)} {n : Nat} :
    (node k ts).height ≤ n + 1 ↔
      (k.isElement = true → 1 ≤ n) ∧ ∀ t ∈ ts, t.height ≤ n := by
  -- the largest of the heights is bounded if all of them are
  have hmax : ∀ l : List (Tree Kind), ∀ m,
      (l.map height).foldr max m ≤ n ↔ m ≤ n ∧ ∀ t ∈ l, t.height ≤ n := by
    intro l m
    induction l with
    | nil => simp
    | cons t l ih =>
      simp only [List.map_cons, List.foldr_cons, max_le_iff, ih, List.forall_mem_cons]
      tauto
  rw [height, Nat.add_comm, Nat.succ_le_succ_iff, hmax]
  cases k.isElement <;> simp

/-- A tree of one level is a single node, and no element. -/
theorem of_height_le_one {k : Kind} {ts : List (Tree Kind)} (h : (node k ts).height ≤ 1) :
    k.isElement = false ∧ ts = [] := by
  rcases height_node_le_iff.1 h with ⟨hk, hts⟩
  constructor
  · by_contra hne
    exact absurd (hk (Bool.eq_true_of_not_eq_false hne)) (Nat.not_succ_le_zero 0)
  · refine List.eq_nil_iff_forall_not_mem.2 ?_
    intro t ht
    exact absurd (hts t ht) (not_le.2 t.height_pos)

/-- Only elements have something inside. -/
def Tidy (t : Tree Kind) : Prop :=
  ∀ u ∈ t.subtrees, u.children ≠ [] → u.label.isElement = true

theorem tidy_node_iff {k : Kind} {ts : List (Tree Kind)} :
    (node k ts).Tidy ↔ (ts ≠ [] → k.isElement = true) ∧ ∀ t ∈ ts, t.Tidy := by
  simp only [Tidy, subtrees_node, List.forall_mem_cons, children_node, label_node,
    List.mem_flatMap]
  refine and_congr_right ?_
  intro _
  constructor
  · intro h t ht u hu
    exact h u ⟨t, ht, hu⟩
  · rintro h u ⟨t, ht, hu⟩
    exact h t ht u hu

/-- Below the top, only elements have something inside. -/
def TidyBelow (t : Tree Kind) : Prop :=
  ∀ u ∈ t.children, u.Tidy

theorem Tidy.below {t : Tree Kind} (h : t.Tidy) : t.TidyBelow := by
  cases t with
  | node k ts => exact (tidy_node_iff.1 h).2

/-- A tidy tree that is no element is a single node. -/
theorem Tidy.children_eq_nil {t : Tree Kind} (ht : t.Tidy) (h : t.label.isElement = false) :
    t.children = [] := by
  by_contra hne
  rw [ht t t.mem_subtrees_self hne] at h
  cases h

theorem tidy_iff_edges {t : Tree Kind} : t.Tidy ↔ t.Edges fun k _ => k.isElement = true := by
  constructor
  · intro h u hu v hv
    exact h u hu (List.ne_nil_of_mem hv)
  · intro h u hu hne
    obtain ⟨v, hv⟩ := List.exists_mem_of_ne_nil _ hne
    exact h u hu v hv

/-- What is left of a tree that is tidy below its top is so again. -/
theorem TidyBelow.prune {drop : Kind → Bool} {t u : Tree Kind} (ht : t.TidyBelow)
    (hu : u ∈ t.prune drop fun k => k) : u.TidyBelow := by
  cases t with
  | node k ts =>
    rw [prune_node] at hu
    split at hu
    · cases hu
    · rw [List.mem_singleton.1 hu]
      intro v hv
      obtain ⟨t, hmem, hvt⟩ := List.mem_flatMap.1 hv
      exact tidy_iff_edges.2 ((tidy_iff_edges.1 (ht t hmem)).prune (fun _ _ h => h) v hvt).2

/-! ## Placed trees -/

/-- The number of the top. -/
def id (t : Tree Spot) : NodeId :=
  t.label.id

/-- The numbers of all nodes. -/
def ids (t : Tree Spot) : List NodeId :=
  t.labels.map Spot.id

/-- The tree without the numbers. -/
def kinds (t : Tree Spot) : Tree Kind :=
  t.map Spot.kind

@[simp] theorem id_node (s : Spot) (ts : List (Tree Spot)) : (node s ts).id = s.id := rfl

@[simp] theorem ids_node (s : Spot) (ts : List (Tree Spot)) :
    (node s ts).ids = s.id :: ts.flatMap ids := by
  simp only [ids, labels_node, List.map_cons, List.map_flatMap]
  rfl

@[simp] theorem kinds_node (s : Spot) (ts : List (Tree Spot)) :
    (node s ts).kinds = node s.kind (ts.map kinds) := by
  rw [kinds, map_node]
  rfl

theorem id_mem_ids (t : Tree Spot) : t.id ∈ t.ids := by
  cases t
  simp

theorem label_kinds (t : Tree Spot) : t.kinds.label = t.label.kind := by
  cases t
  simp

theorem id_mem_flatMap_ids {t : Tree Spot} {ts : List (Tree Spot)} (h : t ∈ ts) :
    t.id ∈ ts.flatMap ids :=
  List.mem_flatMap.2 ⟨t, h, t.id_mem_ids⟩

/-- A tree has no more nodes than all the trees that it is one of. -/
theorem length_ids_le_of_mem {t : Tree Spot} {ts : List (Tree Spot)} (h : t ∈ ts) :
    t.ids.length ≤ (ts.flatMap ids).length := by
  rw [List.flatMap_def]
  exact (List.sublist_flatten_of_mem (List.mem_map_of_mem h)).length_le

theorem map_id_sublist_ids (ts : List (Tree Spot)) :
    (ts.map id).Sublist (ts.flatMap ids) := by
  induction ts with
  | nil => exact List.Sublist.refl _
  | cons t ts ih =>
    rw [List.map_cons, List.flatMap_cons]
    refine (List.singleton_sublist.2 t.id_mem_ids).append ih

/-- A tree has no more levels than nodes, but for the room in its elements. -/
theorem height_kinds_le (t : Tree Spot) : t.kinds.height ≤ t.ids.length + 1 := by
  induction t with
  | node s ts ih =>
    rw [kinds_node, ids_node, height_node_le_iff]
    refine ⟨fun _ => by simp, ?_⟩
    intro u hu
    rcases List.mem_map.1 hu with ⟨t, ht, rfl⟩
    -- a child has fewer nodes than its parent, by the parent at least
    have hsub := length_ids_le_of_mem ht
    have := ih t ht
    simp only [List.length_cons]
    omega

end Stencil.Tree

namespace Stencil.Html.Document

/-! ## Holding a tree -/

/-- The nodes of the tree have the links of the tree, and the top one the given parent. -/
inductive Holds (d : Document) : Option NodeId → Tree Spot → Prop
  | node {parent : Option NodeId} {s : Spot} {ts : List (Tree Spot)}
      (here : d.nodes[s.id]? = some ⟨s.kind, parent, ts.map Tree.id⟩)
      (inside : ∀ t ∈ ts, Holds d (some s.id) t) : Holds d parent (.node s ts)

/-- Nothing but the given nodes is changed, and nodes are only added. -/
structure ChangesOnly (ids : List NodeId) (d d' : Document) : Prop where
  size_le : d.size ≤ d'.size
  same : ∀ j < d.size, j ∉ ids → d'.nodes[j]? = d.nodes[j]?

namespace ChangesOnly

variable {d d' d'' : Document} {xs ys : List NodeId}

theorem refl (xs : List NodeId) (d : Document) : ChangesOnly xs d d :=
  ⟨Nat.le_refl _, fun _ _ _ => rfl⟩

theorem mono (h : ChangesOnly xs d d') (hsub : ∀ j ∈ xs, j ∈ ys) : ChangesOnly ys d d' :=
  ⟨h.size_le, fun j hj hjy => h.same j hj fun hjx => hjy (hsub j hjx)⟩

/-- Two changes in a row; what the second one changes may have been added by the first. -/
theorem trans (h : ChangesOnly xs d d') (h' : ChangesOnly ys d' d'')
    (hnew : ∀ j ∈ ys, j ∈ xs ∨ d.size ≤ j) : ChangesOnly xs d d'' := by
  refine ⟨h.size_le.trans h'.size_le, fun j hj hjx => ?_⟩
  -- what the second change touches is either touched by the first one or new
  have hjy : j ∉ ys := by
    intro hjy
    rcases hnew j hjy with hx | hlt
    · exact hjx hx
    · omega
  rw [h'.same j (lt_of_lt_of_le hj h.size_le) hjy, h.same j hj hjx]

theorem update (d : Document) (id : NodeId) (f : Node → Node) :
    ChangesOnly [id] d (d.update id f) := by
  refine ⟨by simp, fun j _ hj => ?_⟩
  rw [getElem?_update, if_neg]
  intro he
  exact hj (by simp [he])

theorem create (d : Document) (kind : Kind) : ChangesOnly [] d (d.create kind).1 := by
  refine ⟨by simp, fun j hj _ => ?_⟩
  rw [getElem?_create, if_neg (Nat.ne_of_lt hj)]

end ChangesOnly

namespace Holds

variable {d d' : Document} {parent : Option NodeId} {t : Tree Spot}

theorem here {s : Spot} {ts : List (Tree Spot)} (h : d.Holds parent (.node s ts)) :
    d.nodes[s.id]? = some ⟨s.kind, parent, ts.map Tree.id⟩ := by
  cases h with
  | node here _ => exact here

theorem inside {s : Spot} {ts : List (Tree Spot)} (h : d.Holds parent (.node s ts)) :
    ∀ t ∈ ts, d.Holds (some s.id) t := by
  cases h with
  | node _ inside => exact inside

theorem top (h : d.Holds parent t) :
    d.nodes[t.id]? = some ⟨t.label.kind, parent, t.children.map Tree.id⟩ := by
  cases h with
  | node here _ => exact here

theorem lt_size (h : d.Holds parent t) : ∀ j ∈ t.ids, j < d.size := by
  induction h with
  | node here _ ih =>
    intro j hj
    rw [Tree.ids_node, List.mem_cons, List.mem_flatMap] at hj
    rcases hj with rfl | ⟨t, ht, hjt⟩
    · exact lt_size_of_getElem? here
    · exact ih t ht j hjt

theorem kind?_of_mem_labels (h : d.Holds parent t) {s : Spot} (hs : s ∈ t.labels) :
    d.kind? s.id = some s.kind := by
  induction h with
  | node here _ ih =>
    rw [Tree.labels_node, List.mem_cons, List.mem_flatMap] at hs
    rcases hs with rfl | ⟨t, ht, hst⟩
    · exact kind?_eq here
    · exact ih t ht hst

/-- A store that agrees on the nodes of a tree holds it as well. -/
theorem congr (h : d.Holds parent t) (hsame : ∀ j ∈ t.ids, d'.nodes[j]? = d.nodes[j]?) :
    d'.Holds parent t := by
  induction h with
  | @node parent s ts here _ ih =>
    refine .node ?_ fun t ht => ih t ht fun j hj => hsame j ?_
    · rw [hsame s.id (by simp)]
      exact here
    · rw [Tree.ids_node]
      exact List.mem_cons_of_mem _ (List.mem_flatMap.2 ⟨t, ht, hj⟩)

/-- What is changed elsewhere leaves a tree alone. -/
theorem frame (h : d.Holds parent t) {xs : List NodeId} (hc : ChangesOnly xs d d')
    (hdis : ∀ j ∈ t.ids, j ∉ xs) : d'.Holds parent t :=
  h.congr fun j hj => hc.same j (h.lt_size j hj) (hdis j hj)

/-- A tree may be given another parent by changing its top alone. -/
theorem setParent (h : d.Holds parent t) (hn : t.ids.Nodup) (p : Option NodeId) :
    (d.update t.id fun n => { n with parent := p }).Holds p t := by
  cases h with
  | @node parent s ts here inside =>
    rw [Tree.ids_node, List.nodup_cons] at hn
    refine .node ?_ fun t ht => (inside t ht).frame (.update _ _ _) ?_
    · rw [Tree.id_node, getElem?_update, if_pos rfl, here]
      rfl
    · -- the top stands nowhere inside of its own tree
      intro j hj hjs
      rw [List.mem_singleton.1 hjs] at hj
      exact hn.1 (List.mem_flatMap.2 ⟨t, ht, hj⟩)

end Holds

/-! ## Kinds and numbers -/

theorem length_ids (u : Tree Spot) : u.ids.length = u.kinds.labels.length := by
  induction u with
  | node s ts ih =>
    rw [Tree.ids_node, Tree.kinds_node, Tree.labels_node, List.length_cons, List.length_cons,
      List.length_flatMap, List.length_flatMap, List.map_map, List.map_congr_left ih]
    rfl

/-- A placed tree is known by its kinds and its numbers. -/
theorem eq_of_kinds_of_ids (u : Tree Spot) :
    ∀ {u' : Tree Spot}, u.kinds = u'.kinds → u.ids = u'.ids → u = u' := by
  induction u with
  | node s ts ih =>
    rintro ⟨s', ts'⟩ hkinds hids
    rw [Tree.kinds_node, Tree.kinds_node, Tree.node.injEq] at hkinds
    rw [Tree.ids_node, Tree.ids_node, List.cons.injEq] at hids
    obtain rfl : s = s' := by
      cases s
      cases s'
      simp_all
    congr 1
    obtain ⟨-, hkinds⟩ := hkinds
    obtain ⟨-, hids⟩ := hids
    -- the numbers of the first children are as many as their kinds
    induction ts generalizing ts' with
    | nil => simpa using hkinds
    | cons t ts ihts =>
      cases ts' with
      | nil => cases hkinds
      | cons t' ts' =>
        rw [List.map_cons, List.map_cons, List.cons.injEq] at hkinds
        rw [List.flatMap_cons, List.flatMap_cons] at hids
        have hlen : t.ids.length = t'.ids.length := by
          rw [length_ids, length_ids, hkinds.1]
        obtain ⟨hhead, htail⟩ := List.append_inj hids hlen
        rw [ih t List.mem_cons_self hkinds.1 hhead,
          ihts (fun t ht => ih t (List.mem_cons_of_mem _ ht)) ts' hkinds.2 htail]

end Stencil.Html.Document
