import Mathlib.Data.Finset.Card
import Mathlib.Logic.Relation
import Stencil.Html.Document.Text
namespace Stencil.Html.Document

/-! # Well-formed documents

The links of a store are written down twice, at the parent and at the child. They form a forest if
both say the same, no node stands twice among the children of another, and no node is above itself.
The operations that make, move and unlink nodes keep a forest one.
-/

/-- Node `c` names `p` as its parent. -/
def IsChild (d : Document) (c p : NodeId) : Prop :=
  d.parent? c = some p

/-- The links of the store form a forest, and node 0 is the document itself. -/
structure WellFormed (d : Document) : Prop where
  kind_root : d.kind? root = some .document
  parent_iff : ∀ c p, d.parent? c = some p ↔ c ∈ d.children p
  nodup : ∀ p, (d.children p).Nodup
  acyclic : ∀ c, ¬ Relation.TransGen d.IsChild c c

/-- Only the document itself and elements have something inside. -/
def OnlyElementsBranch (d : Document) : Prop :=
  ∀ id, d.children id ≠ [] → id = root ∨ d.isElement id = true

/-! ## Looking at changed stores -/

/-- A node that is looked up is in the store. -/
theorem lt_size_of_getElem? {d : Document} {id : NodeId} {n : Node} (h : d.nodes[id]? = some n) :
    id < d.size :=
  (Array.getElem?_eq_some_iff.1 h).1

theorem exists_node {d : Document} {id : NodeId} (h : id < d.size) :
    ∃ n, d.nodes[id]? = some n :=
  ⟨d.nodes[id], Array.getElem?_eq_getElem h⟩

theorem parent?_eq {d : Document} {id : NodeId} {n : Node} (h : d.nodes[id]? = some n) :
    d.parent? id = n.parent := by
  simp [parent?, h]

theorem children_eq {d : Document} {id : NodeId} {n : Node} (h : d.nodes[id]? = some n) :
    d.children id = n.children := by
  simp [children, h]

theorem kind?_eq {d : Document} {id : NodeId} {n : Node} (h : d.nodes[id]? = some n) :
    d.kind? id = some n.kind := by
  simp [kind?, h]

theorem isElement_congr {d d' : Document} {id : NodeId} (h : d'.kind? id = d.kind? id) :
    d'.isElement id = d.isElement id := by
  simp [isElement, element?, h]

theorem lt_size_of_parent? {d : Document} {c p : NodeId} (h : d.parent? c = some p) :
    c < d.size := by
  rcases Option.bind_eq_some_iff.1 h with ⟨n, hn, -⟩
  exact lt_size_of_getElem? hn

theorem lt_size_of_mem_children {d : Document} {c p : NodeId} (h : c ∈ d.children p) :
    p < d.size := by
  by_contra hp
  have hnone : d.nodes[p]? = none := Array.getElem?_eq_none (not_lt.1 hp)
  simp [children, hnone] at h

theorem lt_size_of_kind? {d : Document} {id : NodeId} {k : Kind} (h : d.kind? id = some k) :
    id < d.size := by
  rcases Option.map_eq_some_iff.1 h with ⟨n, hn, -⟩
  exact lt_size_of_getElem? hn

theorem lt_size_of_isElement {d : Document} {id : NodeId} (h : d.isElement id = true) :
    id < d.size := by
  rcases Option.isSome_iff_exists.1 h with ⟨e, he⟩
  rcases Option.bind_eq_some_iff.1 he with ⟨k, hk, -⟩
  exact lt_size_of_kind? hk

/-- Only one node has other children, and it may have some. -/
theorem OnlyElementsBranch.of_children {d d' : Document} {id : NodeId} (hb : d.OnlyElementsBranch)
    (hid : id = root ∨ d.isElement id = true) (hchildren : ∀ q, q ≠ id → d'.children q = d.children q)
    (helement : ∀ q, d.isElement q = true → d'.isElement q = true) : d'.OnlyElementsBranch := by
  intro q hq
  have hold : q = root ∨ d.isElement q = true := by
    by_cases hqid : q = id
    · rw [hqid]
      exact hid
    · rw [hchildren q hqid] at hq
      exact hb q hq
  exact hold.imp_right (helement q)

theorem children_def (d : Document) (id : NodeId) :
    d.children id = d.nodes[id]?.elim [] Node.children := by
  unfold children
  cases d.nodes[id]? <;> rfl

/-- A node is known by what is seen of it. -/
theorem getElem?_congr {d d' : Document} {j : NodeId} (hkind : d'.kind? j = d.kind? j)
    (hparent : d'.parent? j = d.parent? j) (hchildren : d'.children j = d.children j) :
    d'.nodes[j]? = d.nodes[j]? := by
  unfold kind? at hkind
  unfold parent? at hparent
  rw [children_def, children_def] at hchildren
  generalize d.nodes[j]? = n, d'.nodes[j]? = n' at *
  cases n with
  | none => exact Option.map_eq_none_iff.1 hkind
  | some n =>
    obtain ⟨n', rfl, hk⟩ := Option.map_eq_some_iff.1 hkind
    obtain ⟨k, p, cs⟩ := n
    obtain ⟨k', p', cs'⟩ := n'
    simp_all

theorem parent?_setParent (d : Document) (id : NodeId) (p : Option NodeId) (h : id < d.size)
    (j : NodeId) :
    (d.update id fun n => { n with parent := p }).parent? j =
      if j = id then p else d.parent? j := by
  rcases exists_node h with ⟨n, hn⟩
  by_cases hj : j = id
  · subst hj
    simp [parent?, getElem?_update, hn]
  · simp [parent?, getElem?_update, hj, Ne.symm hj]

theorem children_setParent (d : Document) (id : NodeId) (p : Option NodeId) (j : NodeId) :
    (d.update id fun n => { n with parent := p }).children j = d.children j := by
  simp only [children_def, getElem?_update]
  split
  · cases d.nodes[j]? <;> rfl
  · rfl

theorem kind?_setParent (d : Document) (id : NodeId) (p : Option NodeId) (j : NodeId) :
    (d.update id fun n => { n with parent := p }).kind? j = d.kind? j := by
  simp only [kind?, getElem?_update]
  split
  · cases d.nodes[j]? <;> rfl
  · rfl

theorem parent?_setKind (d : Document) (id : NodeId) (k : Kind) (j : NodeId) :
    (d.update id fun n => { n with kind := k }).parent? j = d.parent? j := by
  simp only [parent?, getElem?_update]
  split
  · cases d.nodes[j]? <;> rfl
  · rfl

theorem children_setKind (d : Document) (id : NodeId) (k : Kind) (j : NodeId) :
    (d.update id fun n => { n with kind := k }).children j = d.children j := by
  simp only [children_def, getElem?_update]
  split
  · cases d.nodes[j]? <;> rfl
  · rfl

theorem kind?_setKind (d : Document) (id : NodeId) (k : Kind) (h : id < d.size) (j : NodeId) :
    (d.update id fun n => { n with kind := k }).kind? j = if j = id then some k else d.kind? j := by
  rcases exists_node h with ⟨n, hn⟩
  by_cases hj : j = id
  · subst hj
    simp [kind?, getElem?_update, hn]
  · simp [kind?, getElem?_update, hj, Ne.symm hj]

theorem parent?_setChildren (d : Document) (id : NodeId) (g : List NodeId → List NodeId)
    (j : NodeId) :
    (d.update id fun n => { n with children := g n.children }).parent? j = d.parent? j := by
  simp only [parent?, getElem?_update]
  split
  · cases d.nodes[j]? <;> rfl
  · rfl

theorem children_setChildren (d : Document) (id : NodeId) (g : List NodeId → List NodeId)
    (h : id < d.size) (j : NodeId) :
    (d.update id fun n => { n with children := g n.children }).children j =
      if j = id then g (d.children j) else d.children j := by
  rcases exists_node h with ⟨n, hn⟩
  by_cases hj : j = id
  · subst hj
    simp [children_def, getElem?_update, hn]
  · simp [children_def, getElem?_update, hj, Ne.symm hj]

theorem kind?_setChildren (d : Document) (id : NodeId) (g : List NodeId → List NodeId)
    (j : NodeId) :
    (d.update id fun n => { n with children := g n.children }).kind? j = d.kind? j := by
  simp only [kind?, getElem?_update]
  split
  · cases d.nodes[j]? <;> rfl
  · rfl

@[simp] theorem parent?_create (d : Document) (kind : Kind) (j : NodeId) :
    (d.create kind).1.parent? j = d.parent? j := by
  simp only [parent?, getElem?_create]
  split
  · next h => simp [h, size]
  · rfl

/-- The number of the next node has no parent yet. -/
theorem parent?_size (d : Document) : d.parent? d.size = none := by
  simp [parent?, size]

@[simp] theorem children_create (d : Document) (kind : Kind) (j : NodeId) :
    (d.create kind).1.children j = d.children j := by
  simp only [children_def, getElem?_create]
  split
  · next h => simp [h, size]
  · rfl

theorem kind?_create (d : Document) (kind : Kind) (j : NodeId) :
    (d.create kind).1.kind? j = if j = d.size then some kind else d.kind? j := by
  simp only [kind?, getElem?_create]
  split <;> rfl

theorem parent?_detach (d : Document) (id c : NodeId) :
    (d.detach id).parent? c = if c = id then none else d.parent? c := by
  unfold detach
  split
  · next h =>
    split
    · next hc => rw [hc, h]
    · rfl
  · next p h =>
    rw [parent?_setChildren _ p (List.filter (· ≠ id)),
      parent?_setParent d id none (lt_size_of_parent? h)]

theorem kind?_detach (d : Document) (id j : NodeId) : (d.detach id).kind? j = d.kind? j := by
  unfold detach
  split
  · rfl
  · next p _ => rw [kind?_setChildren _ p (List.filter (· ≠ id)), kind?_setParent]

@[simp] theorem size_detach (d : Document) (id : NodeId) : (d.detach id).size = d.size := by
  unfold detach
  split
  · rfl
  · simp

/-- Nothing happens to a list if a node is taken out that is not in it. -/
theorem filter_eq_self_of_notMem {x : NodeId} {l : List NodeId} (h : x ∉ l) :
    l.filter (· ≠ x) = l := by
  refine List.filter_eq_self.2 fun c hc => ?_
  have hne : c ≠ x := fun he => h (he ▸ hc)
  simpa using hne

variable {d : Document} {parent child : NodeId} {place : List NodeId → List NodeId}

theorem parent?_link (hc : child < d.size) (c : NodeId) :
    (d.link parent child place).parent? c = if c = child then some parent else d.parent? c := by
  unfold Document.link
  rw [parent?_setChildren _ parent place, parent?_setParent _ _ _ (by simpa using hc),
    parent?_detach]
  split <;> rfl

theorem kind?_link (j : NodeId) :
    (d.link parent child place).kind? j = d.kind? j := by
  unfold Document.link
  rw [kind?_setChildren _ parent place, kind?_setParent, kind?_detach]

/-- A way up through the new link goes through the node that was linked: what is above it in the
new store was so before, or is above the new parent, with the linked node on the way. -/
theorem above_link (hc : child < d.size)
    (hup : ¬ Relation.ReflTransGen d.IsChild parent child) {a b : NodeId}
    (h : Relation.TransGen (d.link parent child place).IsChild a b) :
    Relation.TransGen d.IsChild a b ∨
      (Relation.ReflTransGen d.IsChild a child ∧ Relation.ReflTransGen d.IsChild parent b) := by
  have hstep : ∀ x y, (d.link parent child place).IsChild x y →
      d.IsChild x y ∨ (x = child ∧ y = parent) := by
    intro x y hxy
    simp only [IsChild, parent?_link hc] at hxy
    split at hxy
    · next hx => exact Or.inr ⟨hx, (Option.some.inj hxy).symm⟩
    · exact Or.inl hxy
  -- follow the way up and note whether the new link has been passed
  induction h with
  | single hab =>
    rcases hstep _ _ hab with hold | ⟨rfl, rfl⟩
    · exact Or.inl (.single hold)
    · exact Or.inr ⟨.refl, .refl⟩
  | tail _ hbc ih =>
    rcases hstep _ _ hbc with hold | ⟨rfl, rfl⟩
    · rcases ih with hab | ⟨hac, hpb⟩
      · exact Or.inl (hab.tail hold)
      · exact Or.inr ⟨hac, hpb.tail hold⟩
    · rcases ih with hab | ⟨-, hpb⟩
      · exact Or.inr ⟨hab.to_reflTransGen, .refl⟩
      · -- passing it twice would lead from the parent up to the node itself
        exact absurd hpb hup

namespace WellFormed

/-! ## Facts about forests -/

theorem lt_size_of_child (hd : d.WellFormed) {c p : NodeId} (h : c ∈ d.children p) : c < d.size :=
  lt_size_of_parent? ((hd.parent_iff c p).2 h)

theorem parent_lt_size (hd : d.WellFormed) {c p : NodeId} (h : d.parent? c = some p) :
    p < d.size :=
  lt_size_of_mem_children ((hd.parent_iff c p).1 h)

theorem root_lt_size (hd : d.WellFormed) : root < d.size :=
  lt_size_of_kind? hd.kind_root

/-- A store with the same links and the same top node is as well-formed. -/
theorem of_same_links (hd : d.WellFormed) {d' : Document} (hk : d'.kind? root = some .document)
    (hp : ∀ c, d'.parent? c = d.parent? c) (hc : ∀ p, d'.children p = d.children p) :
    d'.WellFormed where
  kind_root := hk
  parent_iff := fun c p => by rw [hp, hc]; exact hd.parent_iff c p
  nodup := fun p => by rw [hc]; exact hd.nodup p
  acyclic := by
    intro c h
    have hle : d'.IsChild ≤ d.IsChild := fun a b hab => (hp a).symm.trans hab
    exact hd.acyclic c (Relation.TransGen.mono hle c c h)

/-- A new node has no links. -/
theorem create (hd : d.WellFormed) (kind : Kind) : (d.create kind).1.WellFormed := by
  refine hd.of_same_links ?_ (parent?_create d kind) (children_create d kind)
  rw [kind?_create, if_neg (Nat.ne_of_lt hd.root_lt_size)]
  exact hd.kind_root

/-! ## Unlinking -/

theorem children_detach (hd : d.WellFormed) (id q : NodeId) :
    (d.detach id).children q = (d.children q).filter (· ≠ id) := by
  unfold detach
  split
  · next h =>
    -- a node without a parent is nowhere a child
    refine (filter_eq_self_of_notMem fun hmem => ?_).symm
    rw [(hd.parent_iff id q).2 hmem] at h
    cases h
  · next p h =>
    rw [children_setChildren _ _ (List.filter (· ≠ id)) (by simpa using hd.parent_lt_size h),
      children_setParent]
    split
    · rfl
    · next hq =>
      -- only the parent has the node among its children
      refine (filter_eq_self_of_notMem fun hmem => ?_).symm
      rw [(hd.parent_iff id q).2 hmem] at h
      exact hq (Option.some.inj h)

theorem detach (hd : d.WellFormed) (id : NodeId) : (d.detach id).WellFormed where
  kind_root := by rw [kind?_detach]; exact hd.kind_root
  parent_iff := fun c p => by
    rw [parent?_detach, hd.children_detach, List.mem_filter]
    by_cases hc : c = id
    · simp [hc]
    · simp [hc, hd.parent_iff]
  nodup := fun p => by
    rw [hd.children_detach]
    exact (hd.nodup p).filter _
  acyclic := by
    intro c h
    have hle : (d.detach id).IsChild ≤ d.IsChild := by
      intro a b hab
      rw [IsChild, parent?_detach] at hab
      split at hab
      · cases hab
      · exact hab
    exact hd.acyclic c (Relation.TransGen.mono hle c c h)

/-! ## Linking -/

theorem children_link (hd : d.WellFormed) (hp : parent < d.size) (q : NodeId) :
    (d.link parent child place).children q =
      if q = parent then place ((d.children q).filter (· ≠ child))
      else (d.children q).filter (· ≠ child) := by
  unfold Document.link
  rw [children_setChildren _ _ place (by simpa using hp), children_setParent,
    hd.children_detach]

/-- Linking a node below one that is not inside of it keeps a forest. -/
theorem link (hd : d.WellFormed) (hp : parent < d.size) (hc : child < d.size)
    (hup : ¬ Relation.ReflTransGen d.IsChild parent child)
    (hplace : ∀ l, (place l).Perm (child :: l)) : (d.link parent child place).WellFormed where
  kind_root := by rw [kind?_link]; exact hd.kind_root
  parent_iff := fun c q => by
    rw [parent?_link hc, hd.children_link hp]
    by_cases hq : q = parent
    · by_cases hcc : c = child
      · simp [hq, hcc, (hplace _).mem_iff]
      · simp [hq, hcc, (hplace _).mem_iff, hd.parent_iff]
    · by_cases hcc : c = child
      · simp [hq, hcc, Ne.symm hq]
      · simp [hq, hcc, hd.parent_iff]
  nodup := fun q => by
    rw [hd.children_link hp]
    have hrest : ((d.children q).filter (· ≠ child)).Nodup := (hd.nodup q).filter _
    split
    · -- the node has left its old place, so it stands in the new one only
      rw [(hplace _).nodup_iff, List.nodup_cons]
      exact ⟨by simp, hrest⟩
    · exact hrest
  acyclic := by
    intro c h
    rcases above_link hc hup h with hold | ⟨hcc, hpc⟩
    · exact hd.acyclic c hold
    · exact hup (hpc.trans hcc)

/-- A node that has just been made may go anywhere. -/
theorem append_create (hd : d.WellFormed) (kind : Kind) (hp : parent < d.size) :
    ((d.create kind).1.append parent d.size).WellFormed := by
  have hnew := hd.create kind
  refine hnew.link (by rw [size_create]; exact Nat.lt_succ_of_lt hp) (by simp) ?_ fun l => ?_
  · -- nothing has the new node as its parent, so no way up ends there
    intro hup
    rcases Relation.ReflTransGen.cases_tail hup with heq | ⟨x, -, hx⟩
    · exact absurd heq.symm (Nat.ne_of_lt hp)
    · rw [IsChild, parent?_create] at hx
      exact absurd (hd.parent_lt_size hx) (lt_irrefl _)
  · exact List.perm_append_singleton _ _

end WellFormed

end Stencil.Html.Document
