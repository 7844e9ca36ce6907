import Stencil.Html.Document.Basic
import Stencil.Html.Tag
namespace Stencil.Html

/-! # Writing markup

Writes a document, or one of its nodes, as markup. Text and the values of attributes are written
with references where they would otherwise be read as something else.
-/

/-- The no-break space. -/
def noBreakSpace : Char := Char.ofNat 0xA0

/-- A character of text. -/
def escapeTextChar (c : Char) : List Char :=
  if c = '&' then ['&', 'a', 'm', 'p', ';']
  else if c = '<' then ['&', 'l', 't', ';']
  else if c = '>' then ['&', 'g', 't', ';']
  else if c = noBreakSpace then ['&', 'n', 'b', 's', 'p', ';']
  else [c]

/-- A character of the value of an attribute. -/
def escapeValueChar (c : Char) : List Char :=
  if c = '&' then ['&', 'a', 'm', 'p', ';']
  else if c = '"' then ['&', 'q', 'u', 'o', 't', ';']
  else if c = noBreakSpace then ['&', 'n', 'b', 's', 'p', ';']
  else [c]

/-- Text as it stands between tags. -/
def escapeText (text : String) : List Char :=
  text.toList.flatMap escapeTextChar

/-- Text as it stands between the quotes of a value. -/
def escapeValue (text : String) : List Char :=
  text.toList.flatMap escapeValueChar

/-- An attribute, with the space before it. -/
def writeAttribute (a : String × String) : List Char :=
  ' ' :: a.1.toList ++ ['=', '"'] ++ escapeValue a.2 ++ ['"']

/-- A start tag. -/
def writeStart (e : Element) : List Char :=
  '<' :: e.name.toList ++ e.attrs.entries.flatMap writeAttribute ++ ['>']

/-- An end tag. -/
def writeEnd (e : Element) : List Char :=
  '<' :: '/' :: e.name.toList ++ ['>']

/-- A comment. -/
def writeComment (text : String) : List Char :=
  "<!--".toList ++ text.toList ++ "-->".toList

/-- A document type. -/
def writeDoctype (name : String) : List Char :=
  "<!DOCTYPE ".toList ++ name.toList ++ ['>']

namespace Document

/-- Whether the text below a node is written as it is. -/
def holdsRawText (d : Document) (id : NodeId) : Bool :=
  (d.element? id).any fun e => (tagRule e.name).content == .raw

/-- A text node. -/
def writeText (d : Document) (id : NodeId) (text : String) : List Char :=
  if (d.parent? id).any d.holdsRawText then text.toList else escapeText text

/-- The line feed that makes up for one that is dropped when the element is read: its text begins
with a line feed of its own. -/
def writeNewline (d : Document) (id : NodeId) (e : Element) : List Char :=
  match (d.children id).head?.bind d.kind? with
  | some (.text s) =>
    if (tagRule e.name).dropsNewline && s.toList.head? == some '\n' then ['\n'] else []
  | _ => []

/-- The markup of the upper `levels` levels of a subtree. -/
def writeLevels (d : Document) : Nat → NodeId → List Char
  | 0, _ => []
  | levels + 1, id =>
    match d.kind? id with
    | none => []
    | some .document => (d.children id).flatMap (writeLevels d levels)
    | some (.doctype name) => writeDoctype name
    | some (.text s) => d.writeText id s
    | some (.comment s) => writeComment s
    | some (.element e) =>
      if (tagRule e.name).isVoid then writeStart e
      else
        writeStart e ++ d.writeNewline id e ++ (d.children id).flatMap (writeLevels d levels)
          ++ writeEnd e

/-- The markup of a node, with its own tags. -/
def serializeNode (d : Document) (id : NodeId) : String :=
  String.ofList (d.writeLevels d.size id)

/-- The markup of the whole document. -/
def serialize (d : Document) : String :=
  d.serializeNode root

end Document

end Stencil.Html
