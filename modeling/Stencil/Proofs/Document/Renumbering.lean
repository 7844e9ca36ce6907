import Stencil.Proofs.Document.Copy
import Stencil.Proofs.Html.Built
namespace Stencil

/-! # Copies node by node

A copy of a subtree is its nodes in document order with other numbers. What a node of the copy is and
which nodes it is linked to can be read off the node that it is a copy of.
-/

/-- The places of the elements of a list without repetitions count up. -/
theorem map_idxOf_eq_range' {l : List Html.NodeId} (h : l.Nodup) (n : Nat) :
    (l.map fun j => n + l.idxOf j) = List.range' n l.length := by
  refine List.ext_getElem (by simp) ?_
  intro i hi hi'
  rw [List.getElem_map, List.getElem_range', h.idxOf_getElem, Nat.one_mul]

namespace Html

/-- The same node under another number. -/
def Spot.renumber (f : NodeId → NodeId) (s : Spot) : Spot :=
  ⟨f s.id, s.kind⟩

end Html

namespace Tree

open Html

variable (f : NodeId → NodeId) (t : Tree Spot)

theorem id_renumber : (t.map (Spot.renumber f)).id = f t.id := by
  rw [Tree.id, label_map]
  rfl

theorem kinds_renumber : (t.map (Spot.renumber f)).kinds = t.kinds :=
  map_map _ _ t

theorem ids_renumber : (t.map (Spot.renumber f)).ids = t.ids.map f := by
  rw [ids, ids, labels_map, List.map_map, List.map_map]
  rfl

end Tree

namespace Html.Document

variable {d d' : Document} {parent parent' : Option NodeId} {t c : Tree Spot} {id : NodeId}

/-- A store that holds the tree with other numbers has its nodes with other numbers. -/
theorem Holds.getElem?_renumber {f : NodeId → NodeId} (h : d.Holds parent t)
    (h' : d'.Holds parent' (t.map (Spot.renumber f))) (hn : t.ids.Nodup) :
    ∀ j ∈ t.ids, d'.nodes[f j]? = d.nodes[j]?.map fun n =>
      ⟨n.kind, if j = t.id then parent' else n.parent.map f, n.children.map f⟩ := by
  induction h generalizing parent' with
  | @node parent s ts here inside ih =>
    rw [Tree.map_node] at h'
    rw [Tree.ids_node, List.nodup_cons] at hn
    intro j hj
    rw [Tree.ids_node, List.mem_cons, List.mem_flatMap] at hj
    rcases hj with rfl | ⟨u, hu, hju⟩
    · have htop := h'.here
      simp only [List.map_map, Function.comp_def, Tree.id_renumber] at htop
      rw [here, Option.map_some, Tree.id_node, if_pos rfl, List.map_map]
      exact htop
    · -- below the top the parent is renumbered as well, also that of a child of the top
      have hne : j ≠ s.id := fun he => hn.1 (he ▸ List.mem_flatMap.2 ⟨u, hu, hju⟩)
      have hinside := h'.inside _ (List.mem_map_of_mem hu)
      rw [ih u hu hinside ((List.nodup_flatMap.1 hn.2).1 u hu) j hju]
      by_cases hj : j = u.id
      · subst hj
        simp [(inside u hu).top, Spot.renumber, hne]
      · simp [hj, hne]

/-- The copy is the tree itself, with the numbers that its nodes have in document order. -/
theorem Copies.eq_renumber (h : Copies d d' t c) (hn : t.ids.Nodup) :
    c = t.map (Spot.renumber fun j => d.size + t.ids.idxOf j) := by
  have hlen : c.ids.length = t.ids.length := by
    rw [length_ids, length_ids, h.kinds_eq]
  refine eq_of_kinds_of_ids c ?_ ?_
  · rw [Tree.kinds_renumber, h.kinds_eq]
  · rw [Tree.ids_renumber, map_idxOf_eq_range' hn, h.ids_eq, hlen]

/-- The number of the copy of a node, in a copy of the subtree of `id`. -/
def copyOf (d : Document) (id j : NodeId) : NodeId :=
  d.size + (d.preorderOf id).idxOf j

/-- A copy of a subtree has the next numbers, in document order. Each of its nodes is the node that
it is a copy of, linked to the copies of the nodes that this one is linked to, but the top has no
parent. All other nodes stay as they are. -/
theorem nodes_deepClone (hd : d.WellFormed) (h : id < d.size) :
    -- the subtree: every node of it once, in document order
    ((d.preorderOf id).Nodup ∧
      (∀ j, j ∈ d.preorderOf id ↔ Relation.ReflTransGen d.IsChild j id) ∧
      d.preorderOf id = id :: (d.children id).flatMap d.preorderOf) ∧
    (d.deepClone id).2 = d.size ∧
    (d.deepClone id).1.size = d.size + (d.preorderOf id).length ∧
    (∀ i j, (d.preorderOf id)[i]? = some j →
      (d.deepClone id).1.nodes[d.size + i]? = d.nodes[j]?.map fun n =>
        ⟨n.kind, if j = id then none else n.parent.map (d.copyOf id),
          n.children.map (d.copyOf id)⟩) ∧
    ∀ j < d.size, (d.deepClone id).1.nodes[j]? = d.nodes[j]? := by
  refine ⟨⟨hd.nodup_preorderOf h, fun j => hd.mem_preorderOf_iff h, hd.preorderOf_eq h⟩, ?_⟩
  rcases hd.exists_holds id h with ⟨t, rfl, ht⟩
  have hn := hd.nodup_ids ht
  have hids := ht.preorderOf_eq hn
  obtain ⟨c, hid, hcopy⟩ := ht.deepClone hn
  have hc := hcopy.eq_renumber hn
  refine ⟨?_, ?_, ?_, ?_⟩
  · rw [hid, hc, Tree.id_renumber]
    cases t with
    | node s ts => simp
  · rw [hids, hcopy.size_eq, hc, Tree.ids_renumber, List.length_map]
  · intro i j hij
    rw [hids] at hij
    obtain ⟨hi, rfl⟩ := List.getElem?_eq_some_iff.1 hij
    have hplace : d.copyOf t.id t.ids[i] = d.size + i := by
      rw [copyOf, hids, hn.idxOf_getElem]
    have hrenumber : (fun j => d.size + t.ids.idxOf j) = d.copyOf t.id := by
      funext j
      rw [copyOf, hids]
    have hholds := hcopy.holds
    rw [hc, hrenumber] at hholds
    rw [← hplace]
    exact ht.getElem?_renumber hholds hn _ (List.getElem_mem hi)
  · intro j hj
    exact hcopy.changes.same j hj List.not_mem_nil

/-- The copy of an item of a parsed list: the new text is the child of the new item. -/
theorem nodes_deepClone_item :
    let d := (Html.parse "<ul><li>a</li><li>b</li></ul>").document
    d.WellFormed ∧ 2 < d.size ∧ (d.deepClone 2).2 = 6 ∧ (d.deepClone 2).1.size = 8 ∧
      (d.deepClone 2).1.nodes[7]? = some ⟨.text "a", some 6, []⟩ := by
  intro d
  have hd : d.WellFormed := Html.parse_wellFormed _
  have hin : 2 < d.size := by decide +kernel
  obtain ⟨-, hid, hsize, hnode, -⟩ := nodes_deepClone hd hin
  have hfresh : d.size = 6 := by decide +kernel
  have hids : d.preorderOf 2 = [2, 3] := by decide +kernel
  refine ⟨hd, hin, hid.trans hfresh, ?_, ?_⟩
  · rw [hsize, hfresh, hids]
    rfl
  · have htext := hnode 1 3 (by rw [hids]; rfl)
    rw [hfresh] at htext
    refine htext.trans ?_
    decide +kernel

end Html.Document

end Stencil
