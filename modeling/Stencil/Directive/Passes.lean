import Stencil.Directive.Each
import Stencil.Directive.Names
import Stencil.Expr.Eval
import Stencil.Html.Document.Subtree
import Stencil.Html.Document.Text
namespace Stencil.Directive

open Stencil.Data (Value)
open Stencil.Html (Document Element NodeId)

/-! # Directive passes

Three passes over a document, in this order: conditions mark what is to be hidden, values replace
what elements hold, and loops repeat elements. Every pass goes through the whole subtree of a node,
from the top down. The recursions stop at a number of levels, and a subtree has at most as many
levels as its store has nodes.
-/

/-! ## Conditions -/

/-- The element marked as hidden or as shown. An empty list of classes is not left behind. -/
def markHidden (names : Names) (hidden : Bool) (e : Element) : Element :=
  if hidden then e.addClass names.hiddenClass
  else if e.hasClass names.hiddenClass then
    let shown := e.removeClass names.hiddenClass
    if shown.attr? Element.classKey = some "" then shown.removeAttr Element.classKey else shown
  else e

/-- The element marked by its conditions. Both are those of the element as it was; the negative one
comes last and decides. -/
def applyConditions (names : Names) (scope : Scope) (e : Element) : Element :=
  let afterIf := match e.attr? names.if_ with
    | some text => markHidden names (!Expr.holds scope text) e
    | none => e
  match e.attr? names.ifNot with
  | some text => markHidden names (Expr.holds scope text) afterIf
  | none => afterIf

/-- Marks the elements in the upper levels of a subtree. -/
def conditionLevels (names : Names) (scope : Scope) : Nat → Document → NodeId → Document
  | 0, d, _ => d
  | levels + 1, d, id =>
    let marked := d.updateElement id (applyConditions names scope)
    (marked.elementChildren id).foldl (conditionLevels names scope levels) marked

/-- Marks the elements of a subtree by their conditions. -/
def conditionPass (names : Names) (scope : Scope) (d : Document) (id : NodeId) : Document :=
  conditionLevels names scope d.size d id

/-! ## Values -/

/-- The text that the value directive of an element asks for, if its path leads somewhere. -/
def valueText? (names : Names) (scope : Scope) (e : Element) : Option String :=
  (e.attr? names.value).bind fun path => (Path.resolve scope path).map (·.value.shown)

/-- Replaces the content of a node by the text that its value directive asks for. -/
def applyValue (names : Names) (scope : Scope) (d : Document) (id : NodeId) : Document :=
  match (d.element? id).bind (valueText? names scope) with
  | some text => d.setText id text
  | none => d

/-- Puts values into the upper levels of a subtree. -/
def valueLevels (names : Names) (scope : Scope) : Nat → Document → NodeId → Document
  | 0, d, _ => d
  | levels + 1, d, id =>
    let filled := applyValue names scope d id
    (filled.elementChildren id).foldl (valueLevels names scope levels) filled

/-- Puts values into a subtree. -/
def valuePass (names : Names) (scope : Scope) (d : Document) (id : NodeId) : Document :=
  valueLevels names scope d.size d id

/-! ## Loops -/

/-- The variable and the items of the loop that an element asks for. A path to anything but an
array of the data asks for none. -/
def loop? (names : Names) (scope : Scope) (e : Element) : Option (String × List Value) :=
  (e.attr? names.each).bind fun text =>
    (Each.parse? text).bind fun each =>
      match Path.resolve scope each.path with
      | some (.part (.array items)) => some (each.item, items)
      | _ => none

/-- Expands the loops in the upper levels of a subtree.

An element with a loop is replaced by one copy for each item, in order. A copy is made from a copy
taken before the first one is put in place; it goes through the other two passes with the item
bound, and the loops inside it are expanded likewise, but not its own. -/
def eachLevels (names : Names) : Nat → Scope → Document → NodeId → Document
  | 0, _, d, _ => d
  | levels + 1, scope, d, id =>
    match (d.element? id).bind (loop? names scope) with
    | some (item, items) =>
      let parent := d.parent? id
      let (copied, template) := d.deepClone id
      let expanded := items.foldl
        (fun acc v =>
          let inner := scope.bind item v
          let (cloned, copy) := acc.deepClone template
          let filled := valuePass names inner (conditionPass names inner cloned copy) copy
          let nested := (filled.elementChildren copy).foldl
            (fun acc child => eachLevels names levels inner acc child) filled
          match parent with
          | some p => nested.insertBefore p copy id
          | none => nested)
        copied
      expanded.detach id
    | none =>
      (d.elementChildren id).foldl (fun acc child => eachLevels names levels scope acc child) d

/-- Expands the loops of a subtree. -/
def eachPass (names : Names) (scope : Scope) (d : Document) (id : NodeId) : Document :=
  eachLevels names d.size scope d id

/-! ## All passes -/

/-- The three passes over a whole document, outside of all loops. -/
def process (names : Names) (root : Value) (d : Document) : Document :=
  let scope := Scope.ofRoot root
  let top := Document.root
  eachPass names scope (valuePass names scope (conditionPass names scope d top) top) top

end Stencil.Directive
