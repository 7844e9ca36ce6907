import Stencil.Html.Document.Subtree
import Stencil.Proofs.Document.Edits
import Stencil.Proofs.Document.Forest
namespace Stencil.Html.Document

/-! # Copies

A copy of a subtree is the same tree in new nodes, numbered from the top down without a gap, and
nothing else changes.
-/

/-- The new store holds a tree of the same nodes that takes the next numbers, without a parent. -/
structure Copies (d d' : Document) (t c : Tree Spot) : Prop where
  holds : d'.Holds none c
  kinds_eq : c.kinds = t.kinds
  ids_eq : c.ids = List.range' d.size c.ids.length
  size_eq : d'.size = d.size + c.ids.length
  changes : ChangesOnly [] d d'

namespace Copies

variable {d d' : Document} {t c : Tree Spot}

theorem nodup (h : Copies d d' t c) : c.ids.Nodup := by
  rw [h.ids_eq]
  exact List.nodup_range'

theorem size_le_of_mem (h : Copies d d' t c) {j : NodeId} (hj : j ∈ c.ids) : d.size ≤ j := by
  rw [h.ids_eq, List.mem_range'_1] at hj
  exact hj.1

end Copies

theorem changesOnly_attach (d : Document) (parent child : NodeId) :
    ChangesOnly [child, parent] d (d.attach parent child) := by
  unfold attach
  exact ((ChangesOnly.update _ _ _).mono (by simp)).trans (.update _ _ _) (by simp)

@[simp] theorem size_attach (d : Document) (parent child : NodeId) :
    (d.attach parent child).size = d.size := by
  simp [attach]

/-- Copies the upper `levels` levels of a subtree below `copy`, a child after the other. -/
def cloneInto (levels : Nat) (copy : NodeId) (d : Document) (child : NodeId) : Document :=
  ((cloneLevels levels d child).1).attach copy (cloneLevels levels d child).2

/-- The copies of children, put below the copy of their parent one after the other. `base` is the
number of the copy, and the copies made so far fill the store behind it. -/
theorem exists_foldl_clones {levels : Nat} {kind : Kind} {base : Nat} {p : NodeId}
    (ih : ∀ (d : Document) (parent : Option NodeId) (t : Tree Spot), d.Holds parent t →
      t.kinds.height ≤ levels + 1 →
      ∃ c, (cloneLevels levels d t.id).2 = c.id ∧ Copies d (cloneLevels levels d t.id).1 t c)
    (todo : List (Tree Spot)) :
    ∀ (done : List (Tree Spot)) (d : Document),
      d.Holds none (.node ⟨base, kind⟩ done) →
      (Tree.node ⟨base, kind⟩ done).ids = List.range' base (d.size - base) → base ≤ d.size →
      (∀ t ∈ todo, d.Holds (some p) t ∧ t.kinds.height ≤ levels + 1 ∧ ∀ j ∈ t.ids, j < base) →
      ∃ cs, let d' := (todo.map Tree.id).foldl (cloneInto levels base) d
        d'.Holds none (.node ⟨base, kind⟩ (done ++ cs)) ∧
        (Tree.node ⟨base, kind⟩ (done ++ cs)).ids = List.range' base (d'.size - base) ∧
        ChangesOnly [base] d d' ∧ cs.map Tree.kinds = todo.map Tree.kinds := by
  induction todo with
  | nil =>
    intro done d hd hids _ _
    exact ⟨[], by simpa using hd, by simpa using hids, .refl _ _, rfl⟩
  | cons t rest ihr =>
    intro done d hd hids hbase htodo
    rcases htodo t (by simp) with ⟨ht, hheight, hlt⟩
    rcases ih d (some p) t ht hheight with ⟨c, hid, hc⟩
    set d₁ := (cloneLevels levels d t.id).1 with hd₁
    -- the copy of this child fills the store behind the copies before it
    have hids' : (Tree.node ⟨base, kind⟩ (done ++ [c])).ids =
        List.range' base (d₁.size - base) := by
      have hsplit : d₁.size - base = (d.size - base) + c.ids.length := by
        rw [hc.size_eq]
        omega
      have hend : base + (d.size - base) = d.size := Nat.add_sub_cancel' hbase
      have hdone := hids
      rw [Tree.ids_node] at hdone
      rw [Tree.ids_node, List.flatMap_append, List.flatMap_singleton, ← List.cons_append, hdone,
        hsplit, ← List.range'_append_1, hend, ← hc.ids_eq]
    have hn' : (Tree.node ⟨base, kind⟩ (done ++ [c])).ids.Nodup := by
      rw [hids']
      exact List.nodup_range'
    have hdone := (hd.frame hc.changes (by simp)).append hc.holds hn'
    rw [← attach_eq_append (parent?_eq hc.holds.top)] at hdone
    have hstep : cloneInto levels base d t.id = d₁.attach base c.id := by
      rw [cloneInto, hid]
    have hch : ChangesOnly [base] d (d₁.attach base c.id) := by
      refine (hc.changes.mono (by simp)).trans (changesOnly_attach d₁ base c.id) ?_
      intro j hj
      rcases List.mem_cons.1 hj with rfl | hj
      · exact Or.inr (hc.size_le_of_mem c.id_mem_ids)
      · exact Or.inl hj
    obtain ⟨cs, hcs, hidcs, hchcs, hkinds⟩ := ihr (done ++ [c]) (d₁.attach base c.id) hdone
      (by rw [size_attach]; exact hids') (by rw [size_attach]; exact hbase.trans hc.changes.size_le)
      (by
        intro u hu
        rcases htodo u (List.mem_cons_of_mem _ hu) with ⟨hu₁, hu₂, hu₃⟩
        refine ⟨hu₁.frame hch fun j hj hjb => ?_, hu₂, hu₃⟩
        exact absurd (hu₃ j hj) (by rw [List.mem_singleton.1 hjb]; exact lt_irrefl _))
    rw [List.append_assoc] at hcs hidcs
    refine ⟨[c] ++ cs, ?_, ?_, ?_, ?_⟩
    · rw [List.map_cons, List.foldl_cons, hstep]
      exact hcs
    · rw [List.map_cons, List.foldl_cons, hstep]
      exact hidcs
    · rw [List.map_cons, List.foldl_cons, hstep]
      exact hch.trans hchcs (by simp)
    · simp [hc.kinds_eq, hkinds]

theorem cloneLevels_succ (levels : Nat) (d : Document) (id : NodeId) :
    cloneLevels (levels + 1) d id =
      ((d.children id).foldl (cloneInto levels d.size) (d.create ((d.kind? id).getD .document)).1,
        d.size) := rfl

/-- Copying enough levels of a subtree copies all of it. -/
theorem exists_cloneLevels {levels : Nat} : ∀ (d : Document) (parent : Option NodeId)
    (t : Tree Spot), d.Holds parent t → t.kinds.height ≤ levels + 1 →
    ∃ c, (cloneLevels levels d t.id).2 = c.id ∧ Copies d (cloneLevels levels d t.id).1 t c := by
  induction levels with
  | zero =>
    intro d parent t ht hheight
    cases ht with
    | @node _ s ts here _ =>
      rw [Tree.kinds_node] at hheight
      have hts : ts = [] := List.map_eq_nil_iff.1 (Tree.of_height_le_one hheight).2
      subst hts
      refine ⟨.node ⟨d.size, s.kind⟩ [], rfl, ?_⟩
      simp only [cloneLevels, Tree.id_node, kind?_eq here, Option.getD_some]
      refine ⟨.node ?_ (by simp), by simp, by simp, by simp, .create _ _⟩
      rw [getElem?_create, if_pos rfl]
      rfl
  | succ levels ih =>
    intro d parent t ht hheight
    cases ht with
    | @node _ s ts here inside =>
      rw [Tree.kinds_node, Tree.height_node_le_iff] at hheight
      -- the copy of the top is made first and has no children yet
      have htop : (d.create s.kind).1.Holds none (.node ⟨d.size, s.kind⟩ []) := by
        refine .node ?_ (by simp)
        rw [getElem?_create, if_pos rfl]
        rfl
      obtain ⟨cs, hcs, hids, hch, hkinds⟩ := exists_foldl_clones (p := s.id) ih ts []
        (d.create s.kind).1 htop (by simp) (by simp) (by
          intro t ht
          have hmem : t.kinds ∈ ts.map Tree.kinds := List.mem_map_of_mem ht
          refine ⟨(inside t ht).frame (.create _ _) (by simp), hheight.2 _ hmem, ?_⟩
          exact (inside t ht).lt_size)
      have hstore : cloneLevels (levels + 1) d s.id =
          ((ts.map Tree.id).foldl (cloneInto levels d.size) (d.create s.kind).1, d.size) := by
        rw [cloneLevels_succ, children_eq here, kind?_eq here, Option.getD_some]
      rw [Tree.id_node, hstore]
      refine ⟨.node ⟨d.size, s.kind⟩ cs, rfl, hcs, ?_, ?_, ?_, ?_⟩
      · simp [hkinds]
      · rw [List.nil_append] at hids
        have hlen := congrArg List.length hids
        rw [List.length_range'] at hlen
        rw [hlen]
        exact hids
      · rw [List.nil_append] at hids
        have hlen := congrArg List.length hids
        rw [List.length_range'] at hlen
        have hle := hch.size_le
        rw [size_create] at hle
        simp only [hlen]
        omega
      · exact (ChangesOnly.create d s.kind).trans hch (by simp)

/-- A deep copy of a tree is that tree in new nodes. -/
theorem Holds.deepClone {d : Document} {parent : Option NodeId} {t : Tree Spot}
    (h : d.Holds parent t) (hn : t.ids.Nodup) :
    ∃ c, (d.deepClone t.id).2 = c.id ∧ Copies d (d.deepClone t.id).1 t c :=
  exists_cloneLevels d parent t h (h.height_le hn)

end Stencil.Html.Document
