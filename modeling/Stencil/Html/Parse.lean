import Stencil.Html.Builder
import Stencil.Html.Tokenizer.Step
import Stencil.Text.Newline
namespace Stencil.Html

/-! # Parsing markup

Reads a text character by character. Every token goes to the builder as soon as it is complete, and
the start of an element that holds only text changes how the text behind it is read.
-/

/-- How the content of an element is read behind its start tag. -/
def readingOf (name : String) : Reading :=
  if ["script", "style", "xmp", "iframe", "noembed", "noframes"].contains name then
    .script name.toList .none
  else if ["textarea", "title"].contains name then .escapable name.toList
  else .markup

/-- A parse that is under way. -/
structure Parse where
  tokenizer : Tokenizer
  builder : Builder

namespace Parse

/-- A parse before the first character. -/
def start : Parse :=
  ⟨.start, .start⟩

/-- Takes one token. -/
def accept (p : Parse) (token : Token) : Parse :=
  let builder := p.builder.feed token
  match token with
  | .startTag name _ selfClosing =>
    if Builder.staysOpen name selfClosing then
      ⟨{ p.tokenizer with reading := readingOf name }, builder⟩
    else ⟨p.tokenizer, builder⟩
  | _ => ⟨p.tokenizer, builder⟩

/-- Takes one character. -/
def feed (p : Parse) (c : Char) : Parse :=
  let (tokenizer, tokens) := p.tokenizer.step c
  tokens.foldl accept ⟨tokenizer, p.builder⟩

/-- Takes the end of the text. -/
def finish (p : Parse) : Builder :=
  (p.tokenizer.finish.foldl accept p).builder.finish

end Parse

/-- A document and what did not fit in its text. -/
structure Parsed where
  document : Document
  errors : List TreeError

/-- The document of a text. -/
def parse (text : String) : Parsed :=
  let b := ((Text.normalizeNewlines text.toList).foldl Parse.feed .start).finish
  ⟨b.document, b.errors.toList⟩

end Stencil.Html
