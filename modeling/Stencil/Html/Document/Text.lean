import Stencil.Html.Document.Basic
namespace Stencil.Html.Document

/-! # Text in documents

Putting text into a node: instead of its children, or behind them.
-/

/-- Makes a text node the last child of a node. -/
def addText (d : Document) (parent : NodeId) (text : String) : Document :=
  let (made, id) := d.create (.text text)
  made.append parent id

/-- Replaces all children of a node by one text node, or by none if the text is empty. The old
children are left without a parent. -/
def setText (d : Document) (id : NodeId) (text : String) : Document :=
  let old := d.children id
  let cleared := old.foldl
    (fun acc child => acc.update child fun n => { n with parent := none })
    (d.update id fun n => { n with children := [] })
  if text = "" then cleared else cleared.addText id text

/-- Adds text at the end of a node: to its last child if that is text, and in a new node
otherwise. -/
def appendText (d : Document) (parent : NodeId) (text : String) : Document :=
  if text = "" then d
  else match (d.children parent).getLast? with
    | none => d.addText parent text
    | some last =>
      match d.kind? last with
      | some (.text old) => d.update last fun n => { n with kind := .text (old ++ text) }
      | _ => d.addText parent text

end Stencil.Html.Document
