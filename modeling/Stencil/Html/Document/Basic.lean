import Stencil.Html.Element
namespace Stencil.Html

/-! # Documents

A document is a store of nodes that name one another: every node knows its parent and its children.
Node 0 is the document itself, and a new node takes the next number. Nothing is ever taken out of
the store; a node that leaves the tree is only unlinked.
-/

/-- The number of a node in its store. -/
abbrev NodeId := Nat

/-- What a node is. -/
inductive Kind
  | document
  | doctype (name : String)
  | element (e : Element)
  | text (s : String)
  | comment (s : String)
deriving DecidableEq

/-- The element of a node that is one. -/
def Kind.element? : Kind → Option Element
  | .element e => some e
  | _ => none

/-- A node and its links. -/
structure Node where
  kind : Kind
  parent : Option NodeId
  children : List NodeId
deriving DecidableEq

/-- A store of nodes. -/
structure Document where
  nodes : Array Node
deriving DecidableEq

namespace Document

/-- The document with nothing in it. -/
def empty : Document :=
  ⟨#[⟨.document, none, []⟩]⟩

/-- The node of the document itself. -/
def root : NodeId := 0

/-- Number of nodes that were ever made. -/
def size (d : Document) : Nat :=
  d.nodes.size

/-! ## Looking at nodes -/

/-- What a node is. -/
def kind? (d : Document) (id : NodeId) : Option Kind :=
  d.nodes[id]?.map (·.kind)

/-- The element of a node that is one. -/
def element? (d : Document) (id : NodeId) : Option Element :=
  (d.kind? id).bind Kind.element?

/-- The parent of a node. -/
def parent? (d : Document) (id : NodeId) : Option NodeId :=
  d.nodes[id]?.bind (·.parent)

/-- The children of a node, in order. -/
def children (d : Document) (id : NodeId) : List NodeId :=
  match d.nodes[id]? with
  | some n => n.children
  | none => []

/-- Whether a node is an element. -/
def isElement (d : Document) (id : NodeId) : Bool :=
  (d.element? id).isSome

/-- The children that are elements. -/
def elementChildren (d : Document) (id : NodeId) : List NodeId :=
  (d.children id).filter d.isElement

/-! ## Changing one node -/

/-- Changes a node in its place. -/
def update (d : Document) (id : NodeId) (f : Node → Node) : Document :=
  ⟨d.nodes.modify id f⟩

/-- Changes the element of a node that is one. -/
def updateElement (d : Document) (id : NodeId) (f : Element → Element) : Document :=
  d.update id fun n =>
    match n.kind with
    | .element e => { n with kind := .element (f e) }
    | _ => n

/-- Makes a node without parent and children. -/
def create (d : Document) (kind : Kind) : Document × NodeId :=
  (⟨d.nodes.push ⟨kind, none, []⟩⟩, d.size)

/-! ### What these operations do to the store -/

@[simp] theorem size_update (d : Document) (id : NodeId) (f : Node → Node) :
    (d.update id f).size = d.size := by
  simp [size, update]

theorem getElem?_update (d : Document) (id : NodeId) (f : Node → Node) (j : NodeId) :
    (d.update id f).nodes[j]? = if id = j then d.nodes[j]?.map f else d.nodes[j]? := by
  simp [update, Array.getElem?_modify]

@[simp] theorem size_updateElement (d : Document) (id : NodeId) (f : Element → Element) :
    (d.updateElement id f).size = d.size :=
  d.size_update id _

@[simp] theorem size_create (d : Document) (kind : Kind) : (d.create kind).1.size = d.size + 1 := by
  simp [size, create]

@[simp] theorem id_create (d : Document) (kind : Kind) : (d.create kind).2 = d.size := rfl

theorem getElem?_create (d : Document) (kind : Kind) (j : NodeId) :
    (d.create kind).1.nodes[j]? =
      if j = d.size then some ⟨kind, none, []⟩ else d.nodes[j]? := by
  by_cases h : j = d.nodes.size <;> simp [create, size, Array.getElem?_push, h]

/-! ## Links -/

/-- Takes a node out of the children of its parent. Its own children stay with it. -/
def detach (d : Document) (id : NodeId) : Document :=
  match d.parent? id with
  | none => d
  | some p =>
    (d.update id fun n => { n with parent := none }).update p fun n =>
      { n with children := n.children.filter (· ≠ id) }

/-- A list with `x` put before the first `y`, or at the end if there is none. -/
def placeBefore (x y : NodeId) : List NodeId → List NodeId
  | [] => [x]
  | z :: rest => if z = y then x :: z :: rest else z :: placeBefore x y rest

/-- Makes a node a child of `parent`, at the place that `place` chooses. -/
def link (d : Document) (parent child : NodeId) (place : List NodeId → List NodeId) : Document :=
  ((d.detach child).update child fun n => { n with parent := some parent }).update parent fun n =>
    { n with children := place n.children }

/-- Makes a node without parent the last child of `parent`. -/
def attach (d : Document) (parent child : NodeId) : Document :=
  (d.update child fun n => { n with parent := some parent }).update parent fun n =>
    { n with children := n.children ++ [child] }

/-- Makes a node the last child of `parent`. -/
def append (d : Document) (parent child : NodeId) : Document :=
  d.link parent child (· ++ [child])

/-- Makes a node a child of `parent`, right before `reference`, or the last one if `reference` is
no child of it. -/
def insertBefore (d : Document) (parent child reference : NodeId) : Document :=
  d.link parent child (placeBefore child reference)

end Document

end Stencil.Html
