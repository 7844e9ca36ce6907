import Stencil.Text.Lowercase
import Stencil.Text.Units
namespace Stencil.Html

/-! # Rules of tags

What the name of an element says about it: whether it can have content, how its content is read and
written, and which elements end it without an end tag.
-/

/-- How the content of an element is read and written. -/
inductive Content
  /-- Text only, written as it is. -/
  | raw
  /-- Text only, written with references. -/
  | escapable
  /-- Text and elements. -/
  | markup
deriving DecidableEq, Repr

/-- The rules for the elements of one name. -/
structure TagRule where
  /-- Names of the elements whose start ends an open element, in lower case and without
  repetitions. -/
  closedByChildren : List String
  content : Content
  /-- The end tag may be left out at the end of the parent. -/
  closedByParent : Bool
  /-- The element has no content and no end tag. -/
  isVoid : Bool
  /-- A line feed at the very start of the content is dropped. -/
  dropsNewline : Bool
deriving DecidableEq, Repr

namespace TagRule

/-- The rules for every name that has none of its own. -/
def plain : TagRule :=
  ⟨[], .markup, false, false, false⟩

/-- An element that is void may also be left open. -/
def withVoid (r : TagRule) (b : Bool) : TagRule :=
  { r with isVoid := b, closedByParent := r.closedByParent || b }

/-- Adds a name in lower case, once. -/
def addChild (r : TagRule) (name : String) : TagRule :=
  let name := Text.lowercase name
  if r.closedByChildren.contains name then r
  else { r with closedByChildren := r.closedByChildren ++ [name] }

/-- Adds names of elements that end this one. -/
def withChildren (r : TagRule) (names : List String) : TagRule :=
  names.foldl addChild r

/-- Whether the end tag may be left out. -/
def withParent (r : TagRule) (b : Bool) : TagRule :=
  { r with closedByParent := b }

/-- How the content is read and written. -/
def withContent (r : TagRule) (c : Content) : TagRule :=
  { r with content := c }

/-- Whether a first line feed is dropped. -/
def withNewline (r : TagRule) (b : Bool) : TagRule :=
  { r with dropsNewline := b }

/-- Whether the start of an element called `name` ends an open element with these rules. -/
def isClosedBy (r : TagRule) (name : String) : Bool :=
  r.isVoid || r.closedByChildren.contains (Text.lowercase name)

/-- The names that end an element, in order. -/
def sortedChildren (r : TagRule) : List String :=
  r.closedByChildren.mergeSort Text.precedes

end TagRule

/-- Elements without content. -/
def voidNames : List String :=
  ["area", "base", "br", "col", "embed", "hr", "img", "input", "link", "meta", "param", "source",
    "track", "wbr"]

/-- Elements that end a paragraph. -/
def paragraphEnds : List String :=
  ["address", "article", "aside", "blockquote", "div", "dl", "fieldset", "footer", "form", "h1",
    "h2", "h3", "h4", "h5", "h6", "header", "hgroup", "hr", "main", "nav", "ol", "p", "pre",
    "section", "table", "ul"]

/-- Elements whose text is written as it is. -/
def rawNames : List String :=
  ["script", "style", "xmp", "iframe", "noembed", "noframes", "plaintext"]

/-- Elements that end at other elements, the names of those, and whether they also end with their
parent. -/
def impliedEnds : List (String × List String × Bool) :=
  [("p", paragraphEnds, true),
    ("thead", ["tbody", "tfoot"], false),
    ("tbody", ["tbody", "tfoot"], true),
    ("tfoot", ["tbody"], true),
    ("tr", ["tr"], true),
    ("td", ["td", "th", "tr"], true),
    ("th", ["td", "th", "tr"], true),
    ("li", ["li"], true),
    ("dt", ["dt", "dd"], false),
    ("dd", ["dt", "dd"], true),
    ("optgroup", ["optgroup"], true),
    ("option", ["option", "optgroup"], true)]

/-- The names with rules of their own. -/
def tagRules : List (String × TagRule) :=
  voidNames.map (fun n => (n, ⟨[], .markup, true, true, false⟩))
    ++ impliedEnds.map (fun e => (e.1, ⟨e.2.1, .markup, e.2.2, false, false⟩))
    ++ [("pre", ⟨[], .markup, false, false, true⟩), ("listing", ⟨[], .markup, false, false, true⟩)]
    ++ rawNames.map (fun n => (n, ⟨[], .raw, false, false, false⟩))
    ++ [("title", ⟨[], .escapable, false, false, false⟩),
      ("textarea", ⟨[], .escapable, false, false, true⟩)]

/-- The rules for elements of a name, in upper or lower case. -/
def tagRule (name : String) : TagRule :=
  (tagRules.lookup (Text.lowercase name)).getD .plain

/-- The rules for a name are those for every name, or stand in the table. -/
theorem tagRule_cases (name : String) :
    tagRule name = .plain ∨ (Text.lowercase name, tagRule name) ∈ tagRules := by
  unfold tagRule
  cases hlookup : tagRules.lookup (Text.lowercase name) with
  | none => exact Or.inl rfl
  | some r =>
    obtain ⟨before, after, htable, -⟩ := List.lookup_eq_some_iff.1 hlookup
    refine Or.inr ?_
    rw [htable]
    simp

end Stencil.Html
