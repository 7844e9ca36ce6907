import Stencil.Proofs.Document.Forest
import Stencil.Proofs.Html.Regular
namespace Stencil.Html

/-! # The open elements

Whatever tokens the builder has been fed, its open elements are the last branch of its document,
from the document itself down, and its nodes have been made in document order. The invariant of one
step is that the store is a growing tree which is regular as far as it is finished.
-/

namespace Document

variable {d : Document}

/-- The nodes of the tree in document order. -/
def preorder (d : Document) : List NodeId :=
  d.preorderLevels d.size root

/-- The second node is a child of the first. -/
def HasChild (d : Document) (p c : NodeId) : Prop :=
  c ∈ d.children p

/-- The inner node is the last child of the outer one. -/
def IsLastChild (d : Document) (inner outer : NodeId) : Prop :=
  (d.children outer).getLast? = some inner

/-- From the top of a tree a way leads down to each of its nodes. -/
theorem Holds.reaches {parent : Option NodeId} {t : Tree Spot} (h : d.Holds parent t) :
    ∀ j ∈ t.ids, Relation.ReflTransGen d.HasChild t.id j := by
  induction h with
  | @node parent s ts here _ ih =>
    intro j hj
    rw [Tree.ids_node, List.mem_cons, List.mem_flatMap] at hj
    rcases hj with rfl | ⟨t, ht, hjt⟩
    · exact .refl
    · refine (ih t ht j hjt).head ?_
      rw [HasChild, Tree.id_node, children_eq here]
      exact List.mem_map_of_mem ht

/-- Every open node is the last child of the one around it. -/
theorem SupportsOpen.isChain {top : List (Tree Spot)} {opened : List (Spot × List (Tree Spot))}
    {last : List NodeId} (h : d.SupportsOpen top opened last) :
    (opened.map (fun o => o.1.id) ++ [root]).IsChain d.IsLastChild := by
  induction opened generalizing last with
  | nil => exact List.isChain_singleton root
  | cons o rest ih =>
    obtain ⟨-, -, hrest⟩ := h
    -- the open nodes around begin with the innermost one of them, or else with the document itself
    have hhead : ∀ outer ∈ (rest.map (fun o => o.1.id) ++ [root]).head?,
        outer = innermost rest := by
      cases rest with
      | nil => simp [innermost]
      | cons o' rest => simp [innermost]
    rw [List.map_cons, List.cons_append]
    refine List.isChain_cons.2 ⟨fun outer houter => ?_, ih hrest⟩
    rw [hhead outer houter, IsLastChild, hrest.content.1]
    simp

/-- A store that is a growing tree is all of it reached from the document itself, in document
order: finishing the open nodes changes nothing in the store. -/
theorem Supports.inOrder {g : Growing Spot} (h : d.Supports g) :
    (∀ id < d.size, Relation.ReflTransGen d.HasChild root id) ∧
      d.preorder = List.range d.size := by
  have hnone : (Growing.closeMany g.opened.length g).opened = [] := by
    have hdrop := Growing.opened_closeMany g.opened.length g
    exact List.map_eq_nil_iff.1 (hdrop.trans (by simp))
  obtain ⟨hholds, hids⟩ := (h.closeMany g.opened.length).holds hnone
  constructor
  · intro id hid
    exact hholds.reaches id (by rw [hids]; exact List.mem_range.2 hid)
  · have hheight := hholds.height_le (by rw [hids]; exact List.nodup_range)
    rw [preorder, ← hids]
    exact hholds.preorderLevels_eq hheight

end Document

namespace TreeBuilder

/-- No condition at all. -/
def Anywhere : Side := fun _ _ => True

/-- Every open node is an element that may have something inside. -/
theorem RegularGrowing.opened {side : Side} {g : Growing Kind} (h : RegularGrowing side g) :
    ∀ o ∈ g.opened, o.1.isElement = true ∧ (tagRule o.1.name).isVoid = false := by
  obtain ⟨top, opened⟩ := g
  induction opened with
  | nil => simp
  | cons o rest ih =>
    obtain ⟨-, ho, -, hrest⟩ := h
    exact List.forall_mem_cons.2 ⟨ho, ih hrest⟩

/-- Without a condition every token keeps a growing tree regular. -/
theorem RegularGrowing.feed_anywhere {b : TreeBuilder} (h : RegularGrowing Anywhere b.tree)
    (token : Token) : RegularGrowing Anywhere (b.feed token).tree := by
  refine h.feed (fun _ _ => trivial) ?_
  cases token with
  | text s => exact fun _ _ => trivial
  | _ => exact trivial

theorem regularGrowing_foldl_feed (tokens : List Token) :
    RegularGrowing Anywhere (tokens.foldl feed start).tree := by
  refine List.foldlRecOn (motive := fun b : TreeBuilder => RegularGrowing Anywhere b.tree)
    tokens feed (regular_leaf .document) ?_
  intro b hb token _
  exact hb.feed_anywhere token

end TreeBuilder

namespace Builder

/-- The store is a growing tree, regular as far as it is finished, whose open nodes are the open
elements. -/
def Grown (b : Builder) : Prop :=
  ∃ t g, Follows b t g ∧ TreeBuilder.RegularGrowing TreeBuilder.Anywhere t.tree

theorem grown_start : Grown start :=
  ⟨_, _, follows_start, regular_leaf .document⟩

theorem Grown.feed {b : Builder} (h : b.Grown) (token : Token) : (b.feed token).Grown := by
  obtain ⟨t, g, hfollows, hregular⟩ := h
  obtain ⟨g', hfollows'⟩ := hfollows.feed token
  exact ⟨_, g', hfollows', hregular.feed_anywhere token⟩

theorem grown_foldl_feed (tokens : List Token) : (tokens.foldl feed start).Grown :=
  List.foldlRecOn (motive := Grown) tokens _ grown_start fun _ h token _ => h.feed token

/-- The open elements are the last branch of the document, none of them is void, and the nodes are
those of the tree below the document, in the order in which they were made. -/
structure OnLastBranch (b : Builder) : Prop where
  /-- From the innermost open element to the document itself. -/
  chain : (b.openElements ++ [Document.root]).IsChain b.document.IsLastChild
  element : ∀ id ∈ b.openElements,
    ∃ e, b.document.element? id = some e ∧ (tagRule e.name).isVoid = false
  reached : ∀ id < b.document.size, Relation.ReflTransGen b.document.HasChild Document.root id
  inOrder : b.document.preorder = List.range b.document.size

theorem Grown.onLastBranch {b : Builder} (h : b.Grown) : b.OnLastBranch := by
  obtain ⟨t, g, hfollows, hregular⟩ := h
  obtain ⟨hreached, horder⟩ := hfollows.supports.inOrder
  refine ⟨?_, ?_, hreached, horder⟩
  · rw [hfollows.openElements]
    exact hfollows.supports.supports.isChain
  · intro id hid
    rw [hfollows.openElements] at hid
    obtain ⟨o, ho, rfl⟩ := List.mem_map.1 hid
    have hmem : o.1.kind ∈ t.tree.opened.map Prod.fst := by
      rw [hfollows.opened_eq]
      exact List.mem_map_of_mem ho
    obtain ⟨o', ho', hkind⟩ := List.mem_map.1 hmem
    have hopen := hregular.opened o' ho'
    rw [hkind] at hopen
    rw [Document.element?, hfollows.supports.supports.kind?_eq o ho]
    cases hk : o.1.kind with
    | element e =>
      rw [hk] at hopen
      exact ⟨e, rfl, hopen.2⟩
    | _ =>
      rw [hk] at hopen
      cases hopen.1

/-- After every sequence of tokens the open elements are the last branch of the document, and its
nodes are numbered in document order. -/
theorem onLastBranch_foldl_feed (tokens : List Token) :
    (tokens.foldl feed start).OnLastBranch :=
  (grown_foldl_feed tokens).onLastBranch

end Builder

end Stencil.Html
