import Stencil.Html.Document.Subtree
import Stencil.Proofs.Document.Forest
namespace Stencil

open Stencil.Html

/-! # The text of a subtree

The text of a node is what the texts inside of it have by themselves, in document order. That is
read off its tree, and where only the document and elements have something inside, off the list of
the nodes of its subtree.
-/

namespace Tree

/-- The text of a tree, in order. -/
def text : Tree Kind → List Char
  | .node (.text s) _ => s.toList
  | .node .document ts | .node (.element _) ts => ts.flatMap text
  | .node (.doctype _) _ | .node (.comment _) _ => []

/-- An element has the text of what is inside. -/
theorem text_node_of_isElement {k : Kind} (h : k.isElement = true) (ts : List (Tree Kind)) :
    (node k ts).text = ts.flatMap text := by
  cases k with
  | element e => rw [text]
  | _ => cases h

end Tree

namespace Html

/-- The text that a node has by itself, whatever is inside. -/
def Kind.ownText : Kind → String
  | .text s => s
  | .document | .doctype _ | .element _ | .comment _ => ""

namespace Document

variable {d d' : Document} {id j : NodeId} {l : List NodeId}

/-- The text of a node is that of the tree that the store holds. -/
theorem Holds.textLevels_eq {parent : Option NodeId} {t : Tree Spot} (h : d.Holds parent t) :
    ∀ {n : Nat}, t.ids.length ≤ n → d.textLevels n t.id = t.kinds.text := by
  induction h with
  | @node parent s ts here _ ih =>
    intro n hn
    rw [Tree.ids_node, List.length_cons] at hn
    cases n with
    | zero => exact absurd hn (Nat.not_succ_le_zero _)
    | succ n =>
      have hbelow : (ts.map Tree.id).flatMap (d.textLevels n) =
          (ts.map Tree.kinds).flatMap Tree.text := by
        rw [List.flatMap_map, List.flatMap_map]
        refine List.flatMap_congr ?_
        intro t ht
        exact ih t ht ((Tree.length_ids_le_of_mem ht).trans (Nat.le_of_succ_le_succ hn))
      obtain ⟨id, k⟩ := s
      rw [Tree.id_node, Tree.kinds_node, textLevels, kind?_eq here]
      cases k with
      | element e => simp only [children_eq here, hbelow, Tree.text]
      | document => simp only [children_eq here, hbelow, Tree.text]
      | text s => simp only [Tree.text]
      | doctype name => simp only [Tree.text]
      | comment s => simp only [Tree.text]

/-! ## Texts of nodes in a row -/

/-- The text that a node has by itself. -/
def ownText (d : Document) (id : NodeId) : String :=
  (d.kind? id).elim "" Kind.ownText

/-- What some nodes have by themselves, one behind the other. -/
def textOf (d : Document) (ids : List NodeId) : String :=
  String.ofList (ids.flatMap fun j => (d.ownText j).toList)

theorem ownText_congr (h : d'.kind? j = d.kind? j) : d'.ownText j = d.ownText j := by
  rw [ownText, ownText, h]

theorem ownText_eq {k : Kind} (h : d.kind? j = some k) : d.ownText j = k.ownText := by
  rw [ownText, h]
  rfl

theorem ownText_of_isElement (h : d.isElement j = true) : d.ownText j = "" := by
  unfold ownText
  unfold isElement element? at h
  cases hk : d.kind? j with
  | none => rfl
  | some k =>
    rw [hk] at h
    cases k with
    | element e => rfl
    | _ => cases h

@[simp] theorem textOf_singleton (d : Document) (j : NodeId) : d.textOf [j] = d.ownText j := by
  rw [textOf, List.flatMap_singleton, String.ofList_toList]

theorem textOf_append (d : Document) (l r : List NodeId) :
    d.textOf (l ++ r) = d.textOf l ++ d.textOf r := by
  rw [textOf, List.flatMap_append, String.ofList_append]
  rfl

theorem textOf_congr (h : ∀ j ∈ l, d'.ownText j = d.ownText j) : d'.textOf l = d.textOf l := by
  unfold textOf
  congr 1
  refine List.flatMap_congr ?_
  intro j hj
  rw [h j hj]

namespace WellFormed

theorem children_eq_nil_of_kind? (hd : d.WellFormed) (hb : d.OnlyElementsBranch) {k : Kind}
    (h : d.kind? j = some k) (hk : k ≠ .document ∧ k.isElement = false) : d.children j = [] := by
  by_contra hne
  rcases hb j hne with rfl | helement
  · rw [hd.kind_root] at h
    exact hk.1 (Option.some.inj h).symm
  · have hfalse : d.isElement j = k.isElement := by
      simp [isElement, element?, h, Kind.isElement]
    rw [hfalse, hk.2] at helement
    cases helement

/-- A node without children is all of its subtree. -/
theorem preorderOf_leaf (hd : d.WellFormed) (hj : j < d.size) (h : d.children j = []) :
    d.preorderOf j = [j] := by
  rw [hd.preorderOf_eq hj, h, List.flatMap_nil]

end WellFormed

/-- Where only the document and elements have something inside, no node hides the texts below. -/
theorem Holds.text_kinds_eq {parent : Option NodeId} {t : Tree Spot} (h : d.Holds parent t)
    (hd : d.WellFormed) (hb : d.OnlyElementsBranch) :
    t.kinds.text = t.ids.flatMap fun j => (d.ownText j).toList := by
  induction h with
  | @node parent s ts here _ ih =>
    obtain ⟨id, k⟩ := s
    have hkind : d.kind? id = some k := kind?_eq here
    have hbelow : (ts.map Tree.kinds).flatMap Tree.text =
        (ts.flatMap Tree.ids).flatMap fun j => (d.ownText j).toList := by
      rw [List.flatMap_map, List.flatMap_assoc]
      exact List.flatMap_congr ih
    -- the text of a comment would hide what is below it, but there is nothing
    have hleaf (hk : k ≠ .document ∧ k.isElement = false) : ts = [] := by
      have hnil := hd.children_eq_nil_of_kind? hb hkind hk
      rw [children_eq here] at hnil
      exact List.map_eq_nil_iff.1 hnil
    rw [Tree.kinds_node, Tree.ids_node, List.flatMap_cons, ownText_eq hkind]
    cases k with
    | element e => rw [Tree.text, hbelow]; rfl
    | document => rw [Tree.text, hbelow]; rfl
    | text s => rw [Tree.text, hleaf ⟨nofun, rfl⟩]; exact (List.append_nil _).symm
    | doctype name => rw [Tree.text, hleaf ⟨nofun, rfl⟩]; rfl
    | comment s => rw [Tree.text, hleaf ⟨nofun, rfl⟩]; rfl

/-- The text of a node is that of its subtree, node by node. -/
theorem WellFormed.textContent_eq (hd : d.WellFormed) (hb : d.OnlyElementsBranch)
    (h : id < d.size) : d.textContent id = d.textOf (d.preorderOf id) := by
  obtain ⟨t, rfl, ht⟩ := hd.exists_holds id h
  have hn : t.ids.Nodup := hd.nodup_ids ht
  rw [textContent, textOf, ht.textLevels_eq (ht.length_ids_le hn), ht.text_kinds_eq hd hb,
    ht.preorderOf_eq hn]

end Document

end Html

end Stencil
