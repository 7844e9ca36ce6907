import Stencil.Html.Document.Subtree
import Stencil.Proofs.Document.Forest
import Stencil.Proofs.Html.Built
namespace Stencil

/-! # Walking through a tree

A walk on a stack goes through the trees on the stack one after the other, each node before those
below it. Every turn takes one node off, and what has been found by then, with what a recursive walk
through the waiting trees would still find, is the same list before and after it. So the walk ends
once all nodes have had their turn, with the list that the recursion makes. A store has steps enough
for all of its nodes.
-/

namespace Tree

open Stencil.Html

/-- The numbers of the elements of a tree, in document order. -/
def elementIds (t : Tree Spot) : List NodeId :=
  (t.labels.filter fun s => s.kind.isElement).map Spot.id

theorem elementIds_node (s : Spot) (ts : List (Tree Spot)) :
    (node s ts).elementIds =
      (if s.kind.isElement then [s.id] else []) ++ ts.flatMap elementIds := by
  have htail : ((ts.flatMap labels).filter fun s => s.kind.isElement).map Spot.id =
      ts.flatMap elementIds := by
    rw [List.filter_flatMap, List.map_flatMap]
    rfl
  rw [elementIds, labels_node, List.filter_cons]
  split
  · rw [List.map_cons, htail]
    rfl
  · exact htail

end Tree

namespace Html.Document

variable {d : Document}

/-! ## Turns -/

/-- A walk under way: what it has found, and the nodes that wait for their turn, the next one at the
end. -/
structure Walk where
  found : List NodeId
  stack : List NodeId

namespace Walk

/-- Takes the last node off the stack and puts its children there in its place, in reverse, so that
the first of them comes next. The node has been found if it is an element. -/
def next? (d : Document) (w : Walk) : Option Walk :=
  w.stack.getLast?.map fun id =>
    { found := if d.isElement id then w.found ++ [id] else w.found
      stack := w.stack.dropLast ++ (d.children id).reverse }

/-- The walk goes on for a number of turns. Then nothing waits any more, and `out` has been
found. -/
inductive Ends (d : Document) : Walk → Nat → List NodeId → Prop
  | done {w : Walk} (h : w.next? d = none) : Ends d w 0 w.found
  | turn {w w' : Walk} {n : Nat} {out : List NodeId} (h : w.next? d = some w')
      (later : Ends d w' n out) : Ends d w (n + 1) out

variable {w w' : Walk} {n m : Nat} {out : List NodeId}

theorem next?_eq_none_iff : w.next? d = none ↔ w.stack = [] := by
  rw [next?, Option.map_eq_none_iff, List.getLast?_eq_none_iff]

theorem next?_eq_some_iff : w.next? d = some w' ↔ ∃ id below, w.stack = below ++ [id] ∧
    w'.found = (if d.isElement id then w.found ++ [id] else w.found) ∧
    w'.stack = below ++ (d.children id).reverse := by
  rw [next?, Option.map_eq_some_iff]
  constructor
  · rintro ⟨id, hlast, rfl⟩
    obtain ⟨below, hstack⟩ := List.getLast?_eq_some_iff.1 hlast
    refine ⟨id, below, hstack, rfl, ?_⟩
    rw [hstack, List.dropLast_concat]
  · rintro ⟨id, below, hstack, hfound, hnext⟩
    refine ⟨id, ?_, ?_⟩
    · rw [hstack, List.getLast?_concat]
    · obtain ⟨found', stack'⟩ := w'
      simp only at hfound hnext
      rw [hstack, List.dropLast_concat, hfound, hnext]

/-- A walk that ends has found what is found in as many steps, or in more. -/
theorem Ends.out_eq (h : w.Ends d n out) (hm : n ≤ m) :
    out = w.found ++ d.walkElements m w.stack.reverse := by
  induction h generalizing m with
  | @done w hnone =>
    rw [next?_eq_none_iff.1 hnone, List.reverse_nil]
    cases m <;> simp [walkElements]
  | @turn w w' n out hnext _ ih =>
    obtain ⟨id, below, hstack, hfound, hstack'⟩ := next?_eq_some_iff.1 hnext
    obtain ⟨m, rfl⟩ := Nat.exists_eq_add_one.2 (Nat.lt_of_lt_of_le (Nat.zero_lt_succ n) hm)
    -- read from its top, the stack is the list that the steps go through
    have hrest : w'.stack.reverse = d.children id ++ below.reverse := by
      rw [hstack', List.reverse_append, List.reverse_reverse]
    have htop : w.stack.reverse = id :: below.reverse := by
      rw [hstack, List.reverse_append]
      rfl
    rw [ih (Nat.le_of_succ_le_succ hm), hfound, hrest, htop, walkElements]
    split
    · rw [List.append_assoc, List.singleton_append]
    · rfl

/-! ## Trees that wait -/

/-- The nodes that wait are the tops of trees, in the order of their turns. -/
structure Waits (d : Document) (w : Walk) (ts : List (Tree Spot)) : Prop where
  stack_eq : w.stack = (ts.map Tree.id).reverse
  holds : ∀ t ∈ ts, ∃ parent, d.Holds parent t

variable {s : Spot} {us rest ts : List (Tree Spot)}

/-- What one turn does: the next tree makes way for the trees below its top, and nothing is lost of
what has been found or is still to be found. -/
theorem Waits.next (h : w.Waits d (.node s us :: rest)) :
    ∃ w', w.next? d = some w' ∧ w'.Waits d (us ++ rest) ∧
      w'.found ++ (us ++ rest).flatMap Tree.elementIds =
        w.found ++ (Tree.node s us :: rest).flatMap Tree.elementIds := by
  obtain ⟨parent, htop⟩ := h.holds _ List.mem_cons_self
  have hstack : w.stack = (rest.map Tree.id).reverse ++ [s.id] := by
    rw [h.stack_eq, List.map_cons, List.reverse_cons, Tree.id_node]
  have helement : d.isElement s.id = s.kind.isElement := by
    simp [isElement, element?, kind?_eq htop.here, Kind.isElement]
  let w' : Walk :=
    { found := if d.isElement s.id then w.found ++ [s.id] else w.found
      stack := (rest.map Tree.id).reverse ++ (d.children s.id).reverse }
  have hnext : w.next? d = some w' := next?_eq_some_iff.2 ⟨s.id, _, hstack, rfl, rfl⟩
  refine ⟨w', hnext, ⟨?_, ?_⟩, ?_⟩
  · simp only [w']
    rw [children_eq htop.here, List.map_append, List.reverse_append]
  · intro t ht
    rcases List.mem_append.1 ht with hu | hr
    · exact ⟨_, htop.inside t hu⟩
    · exact h.holds t (List.mem_cons_of_mem _ hr)
  · simp only [w', helement]
    rw [List.flatMap_cons, Tree.elementIds_node, List.flatMap_append]
    split <;> simp

/-- The whole walk: it ends when every node of the waiting trees has had its turn. -/
theorem Waits.ends (h : w.Waits d ts) :
    w.Ends d (ts.flatMap Tree.ids).length (w.found ++ ts.flatMap Tree.elementIds) := by
  -- on the number of nodes that wait, which every turn makes smaller by one
  induction hn : (ts.flatMap Tree.ids).length generalizing w ts with
  | zero =>
    cases ts with
    | nil =>
      have hempty : w.stack = [] := h.stack_eq
      simpa using Ends.done (next?_eq_none_iff.2 hempty)
    | cons t rest =>
      -- a tree that waits has a node at least
      have hmem : t.id ∈ (t :: rest).flatMap Tree.ids := Tree.id_mem_flatMap_ids List.mem_cons_self
      exact absurd hn (List.length_pos_of_mem hmem).ne'
  | succ n ih =>
    cases ts with
    | nil => cases hn
    | cons t rest =>
      obtain ⟨s, us⟩ := t
      obtain ⟨w', hnext, hwaits, hsame⟩ := h.next
      have hleft : ((us ++ rest).flatMap Tree.ids).length = n := by
        rw [List.flatMap_cons, Tree.ids_node, List.cons_append, List.length_cons,
          ← List.flatMap_append] at hn
        exact Nat.succ.inj hn
      rw [← hsame]
      exact .turn hnext (ih hwaits hleft)

end Walk

/-! ## Elements of a subtree -/

namespace Holds

variable {parent : Option NodeId} {t : Tree Spot}

theorem ends_walk (h : d.Holds parent t) : Walk.Ends d ⟨[], [t.id]⟩ t.ids.length t.elementIds := by
  have hwaits : Walk.Waits d ⟨[], [t.id]⟩ [t] := by
    refine ⟨rfl, ?_⟩
    intro u hu
    rw [List.mem_singleton.1 hu]
    exact ⟨parent, h⟩
  simpa using hwaits.ends

/-- The elements of the tree of a node, in document order. -/
theorem descendantElements_eq (h : d.Holds parent t) (hn : t.ids.Nodup) :
    d.descendantElements t.id = t.elementIds :=
  (h.ends_walk.out_eq (h.length_ids_le hn)).symm

theorem elementIds_eq (h : d.Holds parent t) : t.elementIds = t.ids.filter d.isElement := by
  rw [Tree.elementIds, Tree.ids, List.filter_map]
  congr 1
  refine List.filter_congr ?_
  intro s hs
  simp [isElement, element?, h.kind?_of_mem_labels hs, Kind.isElement]

end Holds

/-- The walk from a node ends, after one turn for each node of its subtree. It has found the
elements of the subtree, each once and in the order of the recursion that lists a node before the
subtrees of its children. -/
theorem ends_descendantElements (hd : d.WellFormed) {id : NodeId} (h : id < d.size) :
    Walk.Ends d ⟨[], [id]⟩ (d.preorderOf id).length (d.descendantElements id) ∧
      d.descendantElements id = (d.preorderOf id).filter d.isElement ∧
      d.preorderOf id = id :: (d.children id).flatMap d.preorderOf ∧
      (d.descendantElements id).Nodup ∧
      ∀ j, j ∈ d.descendantElements id ↔
        d.isElement j = true ∧ Relation.ReflTransGen d.IsChild j id := by
  obtain ⟨t, rfl, ht⟩ := hd.exists_holds id h
  have hn : t.ids.Nodup := hd.nodup_ids ht
  have hpreorder : d.preorderOf t.id = t.ids := ht.preorderOf_eq hn
  have hfound : d.descendantElements t.id = t.elementIds := ht.descendantElements_eq hn
  have hfilter : d.descendantElements t.id = (d.preorderOf t.id).filter d.isElement := by
    rw [hfound, hpreorder, ht.elementIds_eq]
  refine ⟨?_, hfilter, hd.preorderOf_eq h, ?_, ?_⟩
  · rw [hpreorder, hfound]
    exact ht.ends_walk
  · rw [hfilter]
    exact (hd.nodup_preorderOf h).filter _
  · intro j
    rw [hfilter, List.mem_filter, hd.mem_preorderOf_iff h, and_comm]

/-- Two items, one of them with an element and a text inside, and a comment between them: the walk
from the list takes seven turns and finds four elements. -/
theorem ends_descendantElements_list :
    let d := (Html.parse "<ul><li><b>a</b></li><!--c--><li>d</li></ul>").document
    (d.WellFormed ∧ 1 < d.size) ∧ Walk.Ends d ⟨[], [1]⟩ 7 [1, 2, 3, 6] ∧
      (d.descendantElements 1).Nodup := by
  intro d
  have hd : d.WellFormed := Html.parse_wellFormed _
  have hlt : 1 < d.size := by decide +kernel
  obtain ⟨hends, -, -, hnodup, -⟩ := ends_descendantElements hd hlt
  have hlength : (d.preorderOf 1).length = 7 := by decide +kernel
  have hfound : d.descendantElements 1 = [1, 2, 3, 6] := by decide +kernel
  rw [hlength, hfound] at hends
  exact ⟨⟨hd, hlt⟩, hends, hnodup⟩

end Html.Document

end Stencil
