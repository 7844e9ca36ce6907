import Stencil.Html.Reference
import Stencil.Html.Token
import Stencil.Text.Blank
namespace Stencil.Html

/-! # Tokenizer of markup

A machine that reads markup one character at a time. It never fails: whatever is no tag, comment or
document type is text. Only the start of an element can change how the text behind it is read, and
that is decided outside, by whoever builds the elements.
-/

/-- How far a script has hidden its own end tag: a comment in it begins an escaped part, and a
nested start tag of a script in that a doubly escaped one, where no end tag counts. -/
inductive Escape
  | none
  /-- Behind the `<!`, or the `<!-`, that may begin an escaped part. -/
  | opening (dash : Bool)
  /-- Escaped, behind so many dashes, where two count as many. -/
  | single (dashes : Nat)
  /-- Doubly escaped, behind so many dashes. -/
  | double (dashes : Nat)
deriving DecidableEq, Repr

/-- How text is read at present. -/
inductive Reading
  | markup
  /-- Text with references up to the end tag of the given name. -/
  | escapable (closer : List Char)
  /-- Text without references up to the end tag of the given name. -/
  | script (closer : List Char) (escape : Escape)
deriving DecidableEq, Repr

/-- A tag that is being read. Its name and the names and values of its attributes are spelled
backwards while they grow. -/
structure Draft where
  isEnd : Bool
  name : List Char
  attrs : Attributes
  selfClosing : Bool
deriving DecidableEq

/-- How the value of an attribute is bounded. -/
inductive Quote
  | double
  | single
  | none
deriving DecidableEq, Repr

/-- Where the characters of a reference go. -/
inductive Target
  | text
  | value (tag : Draft) (name : List Char) (quote : Quote) (value : List Char)
deriving DecidableEq

/-- How much of a reference has been read. -/
inductive ReferencePhase
  /-- Characters behind the ampersand, which begin some name. -/
  | name (seen : List Char)
  /-- `&#` -/
  | hash
  /-- `&#x`, with the letter as it was written. -/
  | hexMark (x : Char)
  | number (base value : Nat)
deriving DecidableEq, Repr

/-- How much of the end of a comment has been read. -/
inductive CommentPhase
  | start
  /-- `<!---`, which may already be the end. -/
  | startDash
  | body
  | dash
  | dashes
  /-- `--!` -/
  | bang
deriving DecidableEq, Repr

/-- What the machine is in the middle of. Growing texts are spelled backwards. -/
inductive Phase
  | text
  /-- `<` -/
  | tagOpen
  /-- `</` -/
  | endTagOpen
  | tagName (tag : Draft)
  | beforeAttribute (tag : Draft)
  | attributeName (tag : Draft) (name : List Char)
  | afterAttributeName (tag : Draft) (name : List Char)
  | beforeValue (tag : Draft) (name : List Char)
  | value (tag : Draft) (name : List Char) (quote : Quote) (value : List Char)
  | afterValue (tag : Draft)
  /-- A slash inside a tag. -/
  | slash (tag : Draft)
  /-- Behind `<!`; what was read so far, in order. -/
  | declaration (seen : List Char)
  /-- A comment that ends at the next `>`. -/
  | bogusComment (data : List Char)
  | comment (phase : CommentPhase) (data : List Char)
  | beforeDoctype
  | doctype (name : List Char)
  | afterDoctype (name : List Char)
  | reference (r : ReferencePhase) (target : Target)
  /-- `<` in the text of an element that holds only text. -/
  | textLess
  /-- `</` in such text. -/
  | textEndOpen
  /-- `</` and letters in such text. -/
  | textEndName (name : List Char)
  /-- `<` and letters in an escaped script. -/
  | nestedStart (name : List Char)
  /-- `<` in a doubly escaped script. -/
  | nestedLess
  /-- `</` and letters in a doubly escaped script. -/
  | nestedEnd (name : List Char)
deriving DecidableEq

/-- The machine: what it is in the middle of, how it reads text, and the text since the last token,
spelled backwards. -/
structure Tokenizer where
  phase : Phase
  reading : Reading
  run : List Char
deriving DecidableEq

/-! ## Tags and references -/

/-- A text that was spelled backwards. -/
def spelled (cs : List Char) : String :=
  String.ofList cs.reverse

/-- The token of a finished tag. -/
def Draft.token (tag : Draft) : Token :=
  if tag.isEnd then .endTag (spelled tag.name)
  else .startTag (spelled tag.name) tag.attrs.sorted tag.selfClosing

/-- A tag with one more attribute. The first of several of one name counts. -/
def Draft.addAttribute (tag : Draft) (name value : List Char) : Draft :=
  { tag with attrs := tag.attrs.addNew (spelled name) (spelled value) }

/-- A tag that begins with the given letters, spelled backwards. -/
def Draft.begin (isEnd : Bool) (name : List Char) : Draft :=
  ⟨isEnd, name, .empty, false⟩

/-- Whether the reference stands in the value of an attribute. -/
def Target.isValue : Target → Bool
  | .text => false
  | .value _ _ _ _ => true

/-- The characters of a reference that the text ends in. -/
def ReferencePhase.atEnd : ReferencePhase → List Char
  | .name seen => decodeName false seen none
  | .hash => ['&', '#']
  | .hexMark x => ['&', '#', x]
  | .number _ n => [numberedCharacter n]

namespace Tokenizer

/-- The machine before the first character. -/
def start : Tokenizer :=
  ⟨.text, .markup, []⟩

/-- The machine after a character, and the tokens that the character completed. -/
abbrev Result := Tokenizer × List Token

/-! ## Classes of characters -/

/-- Space, or a mark that ends the name of a tag. -/
def endsName (c : Char) : Bool :=
  Text.isMarkupSpace c || c == '/' || c == '>'

/-- The null character stands for no character wherever it is not plain text. -/
def cleaned (c : Char) : Char :=
  if c == '\x00' then replacement else c

/-- A character of a name. -/
def nameChar (c : Char) : Char :=
  cleaned (c.toLower)

/-! ## Moves -/

/-- Goes to another phase. -/
def goto (t : Tokenizer) (p : Phase) : Result :=
  ({ t with phase := p }, [])

/-- Goes to another phase with more text. -/
def say (t : Tokenizer) (cs : List Char) (p : Phase) : Result :=
  (⟨p, t.reading, cs.reverse ++ t.run⟩, [])

/-- Reads on in a script with another escape and more text. -/
def sayScript (t : Tokenizer) (closer : List Char) (e : Escape) (cs : List Char) (p : Phase) :
    Result :=
  (⟨p, .script closer e, cs.reverse ++ t.run⟩, [])

/-- The text since the last token as a token, if there is any. -/
def pending (t : Tokenizer) : List Token :=
  if t.run = [] then [] else [.text (String.ofList t.run.reverse)]

/-- Puts out a token, after the text before it. -/
def emit (t : Tokenizer) (token : Token) (reading : Reading) : Result :=
  (⟨.text, reading, []⟩, t.pending ++ [token])

/-- Puts out a comment. -/
def emitComment (t : Tokenizer) (data : List Char) : Result :=
  t.emit (.comment (spelled data)) t.reading

/-- Puts out a document type. -/
def emitDoctype (t : Tokenizer) (name : List Char) : Result :=
  t.emit (.doctype (spelled name)) t.reading

/-- Puts out a tag. Markup follows it, unless someone decides otherwise. -/
def emitTag (t : Tokenizer) (tag : Draft) : Result :=
  t.emit tag.token .markup

end Tokenizer

end Stencil.Html
