import Stencil.Proofs.Document.Extension
import Stencil.Proofs.Html.Built
namespace Stencil.Html.Document

/-! # Splicing

Putting a node into the children of another one takes it out of its old place first, which may be
among the same children. Whatever the two places are, the other nodes stay where they are: without
the node that moves, every list of children is the one it was.
-/

/-- The store after a node has gone below `parent`, or out of the tree. The node has that parent and
stands among the children of no other node. Apart from it the children of every node are the old
ones in their order, and of all other nodes nothing changes. -/
structure Moves (d d' : Document) (moved : NodeId) (parent : Option NodeId) : Prop where
  wellFormed : d'.WellFormed
  size_eq : d'.size = d.size
  kind?_eq : ∀ j, d'.kind? j = d.kind? j
  parent?_moved : d'.parent? moved = parent
  parent?_other : ∀ c, c ≠ moved → d'.parent? c = d.parent? c
  once : ∀ p, parent = some p → (d'.children p).count moved = 1
  nowhere : ∀ q, parent ≠ some q → moved ∉ d'.children q
  others : ∀ q, (d'.children q).filter (· ≠ moved) = (d.children q).filter (· ≠ moved)
  children_other : ∀ q, parent ≠ some q → d.parent? moved ≠ some q → d'.children q = d.children q

/-! ## Places among children -/

/-- The place at the end, which a node also gets if there is nothing for it to go before. -/
theorem placeBefore_of_notMem {x y : NodeId} {l : List NodeId} (h : y ∉ l) :
    placeBefore x y l = l ++ [x] := by
  induction l with
  | nil => rfl
  | cons z l ih =>
    rw [List.mem_cons, not_or] at h
    rw [placeBefore, if_neg (Ne.symm h.1), ih h.2]
    rfl

/-- What makes a list the same one with the node somewhere in between. -/
def IsPlaceFor (x : NodeId) (place : List NodeId → List NodeId) : Prop :=
  ∀ l, ∃ before after, l = before ++ after ∧ place l = before ++ x :: after

theorem isPlaceFor_append (x : NodeId) : IsPlaceFor x (· ++ [x]) := fun l =>
  ⟨l, [], (List.append_nil l).symm, rfl⟩

theorem isPlaceFor_placeBefore (x y : NodeId) : IsPlaceFor x (placeBefore x y) := by
  intro l
  by_cases h : y ∈ l
  · obtain ⟨before, after, rfl, hbefore⟩ := List.eq_append_cons_of_mem h
    exact ⟨before, y :: after, rfl, placeBefore_append hbefore⟩
  · exact ⟨l, [], (List.append_nil l).symm, placeBefore_of_notMem h⟩

theorem IsPlaceFor.perm {x : NodeId} {place : List NodeId → List NodeId} (h : IsPlaceFor x place)
    (l : List NodeId) : (place l).Perm (x :: l) := by
  obtain ⟨before, after, rfl, hplaced⟩ := h l
  rw [hplaced]
  exact List.perm_middle

/-- The others are in their old order. -/
theorem IsPlaceFor.filter_eq {x : NodeId} {place : List NodeId → List NodeId}
    (h : IsPlaceFor x place) {l : List NodeId} (hx : x ∉ l) : (place l).filter (· ≠ x) = l := by
  obtain ⟨before, after, rfl, hplaced⟩ := h l
  rw [hplaced, List.filter_append, List.filter_cons_of_neg (by simp), ← List.filter_append,
    filter_eq_self_of_notMem hx]

namespace WellFormed

variable {d : Document} {parent child : NodeId} {place : List NodeId → List NodeId}

/-- Taking out a node leaves the children of all but its parent alone. -/
theorem filter_children (hd : d.WellFormed) {q : NodeId} (h : d.parent? child ≠ some q) :
    (d.children q).filter (· ≠ child) = d.children q :=
  filter_eq_self_of_notMem fun hmem => h ((hd.parent_iff child q).2 hmem)

/-! ## Moving a node -/

theorem moves_detach (hd : d.WellFormed) (child : NodeId) :
    Moves d (d.detach child) child none where
  wellFormed := hd.detach child
  size_eq := d.size_detach child
  kind?_eq := d.kind?_detach child
  parent?_moved := by rw [parent?_detach, if_pos rfl]
  parent?_other := fun c hc => by rw [parent?_detach, if_neg hc]
  once := fun p hp => by cases hp
  nowhere := fun q _ => by
    rw [hd.children_detach]
    simp
  others := fun q => by
    rw [hd.children_detach, List.filter_filter]
    simp
  children_other := fun q _ hq => by rw [hd.children_detach, hd.filter_children hq]

theorem moves_link (hd : d.WellFormed) (hp : parent < d.size) (hc : child < d.size)
    (hup : ¬ Relation.ReflTransGen d.IsChild parent child) (hplace : IsPlaceFor child place) :
    Moves d (d.link parent child place) child (some parent) := by
  have hlinked := hd.link hp hc hup hplace.perm
  have hchildren : ∀ q, (d.link parent child place).children q =
      if q = parent then place ((d.children q).filter (· ≠ child))
      else (d.children q).filter (· ≠ child) := hd.children_link hp
  have helse : ∀ q, some parent ≠ some q →
      (d.link parent child place).children q = (d.children q).filter (· ≠ child) := by
    intro q hq
    rw [hchildren, if_neg fun he => hq (congrArg some he.symm)]
  constructor
  · exact hlinked
  · simp [Document.link]
  · exact fun j => kind?_link j
  · rw [parent?_link hc, if_pos rfl]
  · intro c hne
    rw [parent?_link hc, if_neg hne]
  · rintro p ⟨⟩
    refine List.count_eq_one_of_mem (hlinked.nodup parent) ?_
    rw [hchildren, if_pos rfl]
    exact (hplace.perm _).mem_iff.2 List.mem_cons_self
  · intro q hq
    rw [helse q hq]
    simp
  · intro q
    by_cases hq : some parent = some q
    · cases hq
      rw [hchildren, if_pos rfl, hplace.filter_eq (by simp)]
    · rw [helse q hq, List.filter_filter]
      simp
  · intro q hq hold
    rw [helse q hq, hd.filter_children hold]

end WellFormed

/-- A node that is inserted before another one, appended or detached changes its place and nothing
else. It goes right before the reference if that is another child of its new parent, and to the end
if not, which is also where it goes when it is appended. -/
theorem moves_insertBefore {d : Document} (hd : d.WellFormed) {parent child : NodeId}
    (hp : parent < d.size) (hc : child < d.size)
    (hup : ¬ Relation.ReflTransGen d.IsChild parent child) (reference : NodeId) :
    let inserted := d.insertBefore parent child reference
    let appended := d.append parent child
    let old := (d.children parent).filter (· ≠ child)
    (Moves d inserted child (some parent) ∧
      if reference ∈ d.children parent ∧ reference ≠ child then
        ∃ before after, old = before ++ reference :: after ∧
          inserted.children parent = before ++ child :: reference :: after
      else inserted.children parent = old ++ [child]) ∧
    (Moves d appended child (some parent) ∧ appended.children parent = old ++ [child]) ∧
    Moves d (d.detach child) child none := by
  intro inserted appended old
  have hchildren (place : List NodeId → List NodeId) :
      (d.link parent child place).children parent = place old := by
    rw [hd.children_link hp, if_pos rfl]
  have hmem : reference ∈ old ↔ reference ∈ d.children parent ∧ reference ≠ child := by
    simp [old, List.mem_filter]
  refine ⟨⟨hd.moves_link hp hc hup (isPlaceFor_placeBefore child reference), ?_⟩,
    ⟨hd.moves_link hp hc hup (isPlaceFor_append child), hchildren _⟩, hd.moves_detach child⟩
  split
  · next h =>
    obtain ⟨before, after, hold, hbefore⟩ := List.eq_append_cons_of_mem (hmem.2 h)
    refine ⟨before, after, hold, (hchildren _).trans ?_⟩
    rw [hold, placeBefore_append hbefore]
  · next h => exact (hchildren _).trans (placeBefore_of_notMem fun hr => h (hmem.1 hr))

/-- The second of two items goes before the first one. -/
theorem moves_insertBefore_sibling :
    let d := (Html.parse "<ul><li>a</li><li>b</li></ul>").document
    (d.WellFormed ∧ 1 < d.size ∧ 4 < d.size ∧ ¬ Relation.ReflTransGen d.IsChild 1 4) ∧
      Moves d (d.insertBefore 1 4 2) 4 (some 1) ∧ (d.insertBefore 1 4 2).children 1 = [4, 2] ∧
      (d.append 1 4).children 1 = [2, 4] ∧ (d.detach 4).parent? 4 = none := by
  intro d
  have hd : d.WellFormed := Html.parse_wellFormed _
  have hp : 1 < d.size := by decide +kernel
  have hc : 4 < d.size := by decide +kernel
  have hup : ¬ Relation.ReflTransGen d.IsChild 1 4 := by
    rw [← hd.mem_preorderOf_iff hc]
    decide +kernel
  have hold : (d.children 1).filter (· ≠ 4) = [2] := by decide +kernel
  have href : 2 ∈ d.children 1 ∧ 2 ≠ 4 := by decide +kernel
  obtain ⟨⟨hmoves, hplace⟩, ⟨-, happend⟩, hdetach⟩ := moves_insertBefore hd hp hc hup 2
  rw [if_pos href, hold] at hplace
  obtain ⟨before, after, hsplit, hchildren⟩ := hplace
  refine ⟨⟨hd, hp, hc, hup⟩, hmoves, ?_, happend.trans (by rw [hold]; rfl), hdetach.parent?_moved⟩
  -- there is only one other child, so nothing stands before or after it
  obtain ⟨rfl, rfl⟩ : before = [] ∧ after = [] := by
    cases before with
    | nil => exact ⟨rfl, by simpa using hsplit.symm⟩
    | cons x before => simp at hsplit
  exact hchildren

end Stencil.Html.Document
