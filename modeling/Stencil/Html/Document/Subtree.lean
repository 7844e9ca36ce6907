import Stencil.Html.Document.Basic
namespace Stencil.Html.Document

/-! # Whole subtrees

Copies, texts and lists of subtrees. The recursions go down the children for a given number of
levels. No path down a store whose links form trees is longer than the number of its nodes, so that
many levels are all.
-/

/-- Copies the upper `levels` levels of a subtree into new nodes. -/
def cloneLevels : Nat → Document → NodeId → Document × NodeId
  | 0, d, id => d.create ((d.kind? id).getD .document)
  | levels + 1, d, id =>
    let below := d.children id
    let kind := (d.kind? id).getD .document
    let (made, copy) := d.create kind
    let filled := below.foldl
      (fun acc child =>
        let (next, childCopy) := cloneLevels levels acc child
        next.attach copy childCopy)
      made
    (filled, copy)

/-- Copies the subtree of a node. The copy has no parent, and its nodes are numbered from the top
down, the whole of a child before the next one. -/
def deepClone (d : Document) (id : NodeId) : Document × NodeId :=
  cloneLevels d.size d id

/-- The text in the upper `levels` levels of a subtree. -/
def textLevels (d : Document) : Nat → NodeId → List Char
  | 0, _ => []
  | levels + 1, id =>
    match d.kind? id with
    | some (.text s) => s.toList
    | some .document | some (.element _) => (d.children id).flatMap (textLevels d levels)
    | _ => []

/-- The text of all text nodes of a subtree, in order. -/
def textContent (d : Document) (id : NodeId) : String :=
  String.ofList (d.textLevels d.size id)

/-- The nodes of the upper `levels` levels below a node, each before its children and with its
depth. -/
def outlineLevels (d : Document) : Nat → Nat → NodeId → List (Nat × Kind)
  | 0, _, _ => []
  | levels + 1, depth, id =>
    (d.children id).flatMap fun child =>
      (depth, (d.kind? child).getD .document) :: outlineLevels d levels (depth + 1) child

/-- The nodes of the tree below the document, in document order and with their depths. -/
def outline (d : Document) : List (Nat × Kind) :=
  d.outlineLevels d.size 0 root

/-- Walks through the nodes on a stack and below them, for a number of `steps`, and lists the
elements. -/
def walkElements (d : Document) : Nat → List NodeId → List NodeId
  | 0, _ => []
  | _, [] => []
  | steps + 1, id :: stack =>
    let rest := walkElements d steps (d.children id ++ stack)
    if d.isElement id then id :: rest else rest

/-- The elements of a subtree in document order, with its top if that is one. -/
def descendantElements (d : Document) (id : NodeId) : List NodeId :=
  d.walkElements d.size [id]

/-- The elements of the tree with a given name, in document order. -/
def elementsNamed (d : Document) (name : String) : List NodeId :=
  (d.descendantElements root).filter fun id => (d.element? id).any (·.name = name)

end Stencil.Html.Document
