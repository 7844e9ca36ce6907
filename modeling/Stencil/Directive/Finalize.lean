import Stencil.Directive.Names
import Stencil.Html.Document.Subtree
namespace Stencil.Directive

open Stencil.Html (Document Element NodeId)

/-! # Finishing a document

Takes out what is hidden, and on request the directives of what stays. A hidden class counts only on
an element whose directives are looked at: all of them on request, otherwise its conditions.
-/

/-- Whether the element has one of the directives that are looked at. -/
def isCandidate (names : Names) (strip : Bool) (e : Element) : Bool :=
  if strip then (names.flags e).any else (names.flags e).isConditional

/-- The element without its directives. -/
def stripDirectives (names : Names) (e : Element) : Element :=
  names.all.foldl Element.removeAttr e

/-- Finishes one element: whether it was taken out, and the document after that. -/
def finishElement (names : Names) (strip : Bool) (d : Document) (id : NodeId) : Document × Bool :=
  match d.element? id with
  | none => (d, false)
  | some e =>
    if !isCandidate names strip e then (d, false)
    else if e.hasClass names.hiddenClass then (d.detach id, true)
    else if strip then (d.updateElement id (stripDirectives names), false)
    else (d, false)

/-- Finishes a document. Also the number of elements taken out, with those inside of others. -/
def finalize (names : Names) (strip : Bool) (d : Document) : Document × Nat :=
  (d.descendantElements Document.root).foldl
    (fun (acc, removed) id =>
      let (next, taken) := finishElement names strip acc id
      (next, if taken then removed + 1 else removed))
    (d, 0)

end Stencil.Directive
