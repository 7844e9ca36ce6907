import Mathlib.Data.List.Nodup
namespace Stencil

/-! # Trees

Finite trees whose nodes carry labels and have any number of children in order. A document read
without the numbers of its nodes is one of them.
-/

/-- A label and the trees below it. -/
inductive Tree (α : Type) where
  | node (label : α) (children : List (Tree α))

namespace Tree

variable {α β γ : Type}

/-- Induction over a tree: what holds of a node once it holds of all its children holds of every
tree. -/
@[induction_eliminator]
theorem ind {motive : Tree α → Prop}
    (node : ∀ a ts, (∀ t ∈ ts, motive t) → motive (.node a ts)) : ∀ t, motive t
  | .node a ts => node a ts fun t _ => ind node t

section DecidableEq

variable [DecidableEq α]

mutual

/-- Whether two trees are equal. -/
def decEq : (t u : Tree α) → Decidable (t = u)
  | .node a ts, .node b us =>
    have := decEqList ts us
    decidable_of_iff (a = b ∧ ts = us) (by rw [node.injEq])

/-- Whether two lists of trees are equal. -/
def decEqList : (ts us : List (Tree α)) → Decidable (ts = us)
  | [], [] => .isTrue rfl
  | [], _ :: _ => .isFalse nofun
  | _ :: _, [] => .isFalse nofun
  | t :: ts, u :: us =>
    have := decEq t u
    have := decEqList ts us
    decidable_of_iff (t = u ∧ ts = us) (by rw [List.cons.injEq])

end

instance : DecidableEq (Tree α) := decEq

end DecidableEq

/-- The label of the top. -/
def label : Tree α → α
  | .node a _ => a

/-- The trees below the top. -/
def children : Tree α → List (Tree α)
  | .node _ ts => ts

@[simp] theorem label_node (a : α) (ts : List (Tree α)) : (node a ts).label = a := rfl

@[simp] theorem children_node (a : α) (ts : List (Tree α)) : (node a ts).children = ts := rfl

/-- The tree with every label changed. -/
def map (f : α → β) : Tree α → Tree β
  | .node a ts => .node (f a) (ts.map (map f))

@[simp] theorem map_node (f : α → β) (a : α) (ts : List (Tree α)) :
    (node a ts).map f = .node (f a) (ts.map (map f)) := by
  rw [map]

@[simp] theorem label_map (f : α → β) (t : Tree α) : (t.map f).label = f t.label := by
  cases t
  simp

@[simp] theorem children_map (f : α → β) (t : Tree α) :
    (t.map f).children = t.children.map (map f) := by
  cases t
  simp

theorem map_id (t : Tree α) : t.map (fun a => a) = t := by
  induction t with
  | node a ts ih =>
    rw [map_node]
    congr 1
    exact (List.map_congr_left ih).trans (List.map_id _)

theorem map_map (f : α → β) (g : β → γ) (t : Tree α) : (t.map f).map g = t.map (g ∘ f) := by
  induction t with
  | node a ts ih =>
    simp only [map_node, List.map_map, Function.comp_apply]
    -- the labels agree by definition, the children by the induction hypothesis
    congr 1
    exact List.map_congr_left ih

/-- The labels of all nodes, each before those below it. -/
def labels : Tree α → List α
  | .node a ts => a :: ts.flatMap labels

@[simp] theorem labels_node (a : α) (ts : List (Tree α)) :
    (node a ts).labels = a :: ts.flatMap labels := by
  rw [labels]

theorem labels_map (f : α → β) (t : Tree α) : (t.map f).labels = t.labels.map f := by
  induction t with
  | node a ts ih =>
    rw [map_node, labels_node, labels_node, List.map_cons, List.flatMap_map, List.map_flatMap]
    rw [List.flatMap_congr ih]

/-- The tree itself and all trees inside it, each before those inside of it. -/
def subtrees : Tree α → List (Tree α)
  | .node a ts => .node a ts :: ts.flatMap subtrees

@[simp] theorem subtrees_node (a : α) (ts : List (Tree α)) :
    (node a ts).subtrees = .node a ts :: ts.flatMap subtrees := by
  rw [subtrees]

theorem labels_eq_map_subtrees (t : Tree α) : t.labels = t.subtrees.map label := by
  induction t with
  | node a ts ih =>
    rw [labels_node, subtrees_node, List.map_cons, List.map_flatMap, List.flatMap_congr ih]
    rfl

theorem mem_subtrees_self (t : Tree α) : t ∈ t.subtrees := by
  cases t
  simp

theorem mem_subtrees_of_mem_children {t u v : Tree α} (hu : u ∈ t.children)
    (hv : v ∈ u.subtrees) : v ∈ t.subtrees := by
  cases t with
  | node a ts =>
    rw [subtrees_node]
    exact List.mem_cons_of_mem _ (List.mem_flatMap.2 ⟨u, hu, hv⟩)

/-- The tree without the nodes that are to go, which take everything below them along, and with
the labels of the others changed. -/
def prune (drop : α → Bool) (f : α → β) : Tree α → List (Tree β)
  | .node a ts => if drop a then [] else [.node (f a) (ts.flatMap (prune drop f))]

theorem prune_node (drop : α → Bool) (f : α → β) (a : α) (ts : List (Tree α)) :
    (node a ts).prune drop f =
      if drop a then [] else [.node (f a) (ts.flatMap (prune drop f))] := by
  rw [prune]

theorem prune_map (f : α → β) (drop : β → Bool) (g : β → γ) (t : Tree α) :
    (t.map f).prune drop g = t.prune (fun a => drop (f a)) fun a => g (f a) := by
  induction t with
  | node a ts ih =>
    rw [map_node, prune_node, prune_node, List.flatMap_map]
    rw [List.flatMap_congr ih]

theorem map_prune (drop : α → Bool) (f : α → β) (g : β → γ) (t : Tree α) :
    (t.prune drop f).map (map g) = t.prune drop fun a => g (f a) := by
  induction t with
  | node a ts ih =>
    rw [prune_node, prune_node]
    split
    · rfl
    · rw [List.map_singleton, map_node, List.map_flatMap, List.flatMap_congr ih]

/-- Pruning what is left of a tree is pruning the tree by both conditions at once. -/
theorem prune_prune (drop : α → Bool) (f : α → β) (drop' : β → Bool) (g : β → γ) (t : Tree α) :
    (t.prune drop f).flatMap (prune drop' g) =
      t.prune (fun a => drop a || drop' (f a)) fun a => g (f a) := by
  induction t with
  | node a ts ih =>
    rw [prune_node, prune_node]
    cases drop a with
    | true => rfl
    | false =>
      rw [if_neg Bool.false_ne_true, List.flatMap_singleton, prune_node, Bool.false_or,
        List.flatMap_assoc, List.flatMap_congr ih]

/-- What is left of a tree was there and was not to go. -/
theorem mem_labels_of_mem_prune {drop : α → Bool} {f : α → β} {t : Tree α} :
    ∀ {u : Tree β} {b : β}, u ∈ t.prune drop f → b ∈ u.labels →
      ∃ a ∈ t.labels, drop a = false ∧ f a = b := by
  induction t with
  | node a ts ih =>
    intro u b hu hb
    rw [prune_node] at hu
    split at hu
    · cases hu
    · next hdrop =>
      -- the top has stayed, so the label is its own or one of what is left below it
      rw [List.mem_singleton.1 hu, labels_node, List.mem_cons, List.mem_flatMap] at hb
      rcases hb with rfl | ⟨v, hv, hbv⟩
      · exact ⟨a, by simp, by simpa using hdrop, rfl⟩
      · rcases List.mem_flatMap.1 hv with ⟨t, ht, hvt⟩
        rcases ih t ht hvt hbv with ⟨a', ha', hrest⟩
        refine ⟨a', ?_, hrest⟩
        rw [labels_node]
        exact List.mem_cons_of_mem _ (List.mem_flatMap.2 ⟨t, ht, ha'⟩)

/-- A tree without nodes that are to go stays whole. -/
theorem prune_eq_singleton {drop : α → Bool} {f : α → β} {t : Tree α}
    (h : ∀ a ∈ t.labels, drop a = false) : t.prune drop f = [t.map f] := by
  induction t with
  | node a ts ih =>
    rw [labels_node, List.forall_mem_cons] at h
    have hts : ∀ t ∈ ts, t.prune drop f = [t.map f] := by
      intro t ht
      refine ih t ht ?_
      intro b hb
      exact h.2 b (List.mem_flatMap.2 ⟨t, ht, hb⟩)
    rw [prune_node, if_neg (by simp [h.1]), map_node, List.flatMap_congr hts,
      ← List.map_eq_flatMap]

/-- The relation is true of every node and each node directly below it. -/
def Edges (r : α → α → Prop) (t : Tree α) : Prop :=
  ∀ u ∈ t.subtrees, ∀ v ∈ u.children, r u.label v.label

instance (r : α → α → Prop) [DecidableRel r] (t : Tree α) : Decidable (t.Edges r) :=
  inferInstanceAs (Decidable (∀ u ∈ t.subtrees, ∀ v ∈ u.children, r u.label v.label))

section Edges

variable {r : α → α → Prop} {q : β → β → Prop}

theorem edges_node_iff {a : α} {ts : List (Tree α)} :
    (node a ts).Edges r ↔ ∀ t ∈ ts, r a t.label ∧ t.Edges r := by
  simp only [Edges, subtrees_node, List.forall_mem_cons, children_node, label_node,
    List.mem_flatMap]
  constructor
  · rintro ⟨htop, hbelow⟩ t ht
    exact ⟨htop t ht, fun u hu => hbelow u ⟨t, ht, hu⟩⟩
  · intro h
    refine ⟨fun t ht => (h t ht).1, ?_⟩
    rintro u ⟨t, ht, hu⟩
    exact (h t ht).2 u hu

theorem Edges.mono {r' : α → α → Prop} (h : ∀ a b, r a b → r' a b) {t : Tree α} (ht : t.Edges r) :
    t.Edges r' :=
  fun u hu v hv => h _ _ (ht u hu v hv)

theorem Edges.map {f : α → β} (h : ∀ a b, r a b → q (f a) (f b)) {t : Tree α}
    (ht : t.Edges r) : (t.map f).Edges q := by
  induction t with
  | node a ts ih =>
    rw [map_node, edges_node_iff]
    intro u hu
    obtain ⟨t, hmem, rfl⟩ := List.mem_map.1 hu
    obtain ⟨hedge, hbelow⟩ := edges_node_iff.1 ht t hmem
    rw [label_map]
    exact ⟨h _ _ hedge, ih t hmem hbelow⟩

/-- What is left of a tree has its old edges. -/
theorem Edges.prune {drop : α → Bool} {f : α → β} (h : ∀ a b, r a b → q (f a) (f b))
    {t : Tree α} (ht : t.Edges r) : ∀ u ∈ t.prune drop f, u.label = f t.label ∧ u.Edges q := by
  induction t with
  | node a ts ih =>
    intro u hu
    rw [prune_node] at hu
    split at hu
    · cases hu
    · obtain rfl := List.mem_singleton.1 hu
      refine ⟨rfl, edges_node_iff.2 ?_⟩
      intro v hv
      obtain ⟨t, hmem, hvt⟩ := List.mem_flatMap.1 hv
      obtain ⟨hedge, hbelow⟩ := edges_node_iff.1 ht t hmem
      obtain ⟨hlabel, hedges⟩ := ih t hmem hbelow v hvt
      rw [hlabel]
      exact ⟨h _ _ hedge, hedges⟩

end Edges

/-! ## Depths -/

section Depth

variable {keep : α → Bool}

mutual

/-- The number of levels, where below the top only those trees count whose top is to be kept. -/
def depthBy (keep : α → Bool) : Tree α → Nat
  | .node _ ts => 1 + depthsBy keep ts

/-- The largest of the numbers of levels of those trees that count. -/
def depthsBy (keep : α → Bool) : List (Tree α) → Nat
  | [] => 0
  | t :: ts => max (if keep t.label then depthBy keep t else 0) (depthsBy keep ts)

end

theorem depthBy_pos (t : Tree α) : 0 < t.depthBy keep := by
  cases t with
  | node a ts =>
    rw [depthBy]
    omega

theorem depthsBy_le_iff {ts : List (Tree α)} {n : Nat} :
    depthsBy keep ts ≤ n ↔ ∀ t ∈ ts, keep t.label = true → t.depthBy keep ≤ n := by
  induction ts with
  | nil => simp [depthsBy]
  | cons t ts ih =>
    rw [depthsBy, Nat.max_le, ih, List.forall_mem_cons]
    cases keep t.label <;> simp

theorem depthBy_node_le_iff {a : α} {ts : List (Tree α)} {n : Nat} :
    (node a ts).depthBy keep ≤ n + 1 ↔ ∀ t ∈ ts, keep t.label = true → t.depthBy keep ≤ n := by
  rw [depthBy, Nat.add_comm, Nat.succ_le_succ_iff, depthsBy_le_iff]

/-- The number of levels of a tree. -/
def depth (t : Tree α) : Nat :=
  t.depthBy fun _ => true

/-- Every level has a node. -/
theorem depthBy_le_length_labels (t : Tree α) : t.depthBy keep ≤ t.labels.length := by
  induction t with
  | node a ts ih =>
    rw [labels_node, List.length_cons, depthBy_node_le_iff]
    intro t ht _
    have hsub : (t.labels).Sublist (ts.flatMap labels) := by
      rw [List.flatMap_def]
      exact List.sublist_flatten_of_mem (List.mem_map_of_mem ht)
    exact Nat.le_trans (ih t ht) hsub.length_le

/-- A tree is no deeper than a positive measure of its top, if the measure gets smaller along every
edge. -/
theorem Edges.depth_le {f : α → Nat} (hpos : ∀ a, 0 < f a) {t : Tree α}
    (ht : t.Edges fun a b => f b < f a) : t.depth ≤ f t.label := by
  induction t with
  | node a ts ih =>
    obtain ⟨n, hn⟩ := Nat.exists_eq_add_one.2 (hpos a)
    rw [label_node, hn, depth, depthBy_node_le_iff]
    intro t hmem _
    obtain ⟨hlt, hbelow⟩ := edges_node_iff.1 ht t hmem
    have hle : t.depth ≤ f t.label := ih t hmem hbelow
    exact Nat.le_of_lt_add_one (hn ▸ Nat.lt_of_le_of_lt hle hlt)

end Depth

end Tree

end Stencil
