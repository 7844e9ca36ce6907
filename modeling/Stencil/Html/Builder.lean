import Stencil.Html.Document.Text
import Stencil.Html.Tag
import Stencil.Html.Token
import Stencil.Text.Newline
namespace Stencil.Html

/-! # Tree construction

Builds a document from tokens. The elements that are still open form a stack; a start tag may end
some of them, an end tag ends the innermost one of its name and all inside it, and whatever does
not fit is reported and passed over.
-/

/-- What does not fit in a sequence of tokens. -/
inductive TreeError
  /-- The end tag of an element that has none. -/
  | voidEnd (name : String)
  /-- An end tag without an open element of its name. -/
  | strayEnd (name : String)
  /-- An element that was open when the text or an element around it ended. -/
  | unclosed (name : String)
deriving DecidableEq, Repr

/-- The element that an error is about. -/
def TreeError.name : TreeError → String
  | .voidEnd name | .strayEnd name | .unclosed name => name

/-- The wording of an error. -/
def TreeError.message : TreeError → String
  | .voidEnd name => "Void elements do not have end tags \"" ++ name ++ "\""
  | .strayEnd name =>
    "Unexpected closing tag \"" ++ name
      ++ "\". It may happen when the tag has already been closed by another tag."
  | .unclosed name => "Unclosed element \"" ++ name ++ "\""

/-- A document under construction, its open elements with the innermost one first, and the errors
so far. -/
structure Builder where
  document : Document
  openElements : List NodeId
  errors : Array TreeError

namespace Builder

/-- Nothing built yet. -/
def start : Builder :=
  ⟨.empty, [], #[]⟩

/-- The node that takes what comes next. -/
def container (b : Builder) : NodeId :=
  b.openElements.head?.getD Document.root

/-- The name of an element, empty for other nodes. -/
def nameOf (d : Document) (id : NodeId) : String :=
  match d.element? id with
  | some e => e.name
  | none => ""

/-- The stack without the innermost elements that end at the start of an element of this name. -/
def dropClosed (d : Document) (name : String) : List NodeId → List NodeId
  | [] => []
  | id :: rest =>
    if (tagRule (nameOf d id)).isClosedBy name then dropClosed d name rest else id :: rest

/-- Adds a node to the innermost open element. -/
def addNode (b : Builder) (kind : Kind) : Builder × NodeId :=
  let container := b.container
  let (made, id) := b.document.create kind
  ({ b with document := made.append container id }, id)

/-- Whether an element stays open behind its start tag. -/
def staysOpen (name : String) (selfClosing : Bool) : Bool :=
  !(selfClosing || (tagRule name).isVoid)

/-- A start tag. -/
def startTag (b : Builder) (e : Element) (selfClosing : Bool) : Builder :=
  let remaining := dropClosed b.document e.name b.openElements
  let (added, id) := addNode { b with openElements := remaining } (.element e)
  if staysOpen e.name selfClosing then { added with openElements := id :: remaining } else added

/-- Reports elements that something else ended, if they should have had an end tag. -/
def report (b : Builder) (ids : List NodeId) : Builder :=
  let names := (ids.map (nameOf b.document)).filter fun name =>
    let rule := tagRule name
    !(rule.isVoid || rule.closedByParent)
  { b with errors := b.errors ++ names.map TreeError.unclosed }

/-- The open elements inside the innermost one of this name, and those around it. -/
def splitAtName (d : Document) (name : String) : List NodeId → Option (List NodeId × List NodeId)
  | [] => none
  | id :: rest =>
    if nameOf d id = name then some ([], rest)
    else (splitAtName d name rest).map fun (inside, around) => (id :: inside, around)

/-- An end tag. -/
def endTag (b : Builder) (name : String) : Builder :=
  if (tagRule name).isVoid then { b with errors := b.errors.push (.voidEnd name) }
  else match splitAtName b.document name b.openElements with
    | some (inside, around) => { b.report inside with openElements := around }
    | none => { b with errors := b.errors.push (.strayEnd name) }

/-- Whether the end of a line at the start of the next text is dropped. -/
def dropsNewline (b : Builder) : Bool :=
  match b.openElements with
  | [] => false
  | id :: _ => (b.document.children id).isEmpty && (tagRule (nameOf b.document id)).dropsNewline

/-- A text. -/
def addText (b : Builder) (text : String) : Builder :=
  let kept := if b.dropsNewline then String.ofList (Text.dropNewline text.toList) else text
  let container := b.container
  { b with document := b.document.appendText container kept }

/-- One token. -/
def feed (b : Builder) : Token → Builder
  | .startTag name attrs selfClosing => b.startTag ⟨name, attrs⟩ selfClosing
  | .endTag name => b.endTag name
  | .text s => b.addText s
  | .comment s => (b.addNode (.comment s)).1
  | .doctype name => (b.addNode (.doctype name)).1

/-- The end of the tokens, which ends all open elements. -/
def finish (b : Builder) : Builder :=
  { b.report b.openElements with openElements := [] }

/-- The result of a whole sequence of tokens. -/
def build (tokens : List Token) : Builder :=
  (tokens.foldl feed start).finish

end Builder

end Stencil.Html
