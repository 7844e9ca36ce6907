import Stencil.Html.Tokenizer.Markup
import Stencil.Text.Digit
namespace Stencil.Html.Tokenizer

/-! # The machine

One step of the machine for each character, and a last one for the end of the text.
-/

/-! ## References -/

/-- Puts the characters of a reference where they belong. -/
def give (t : Tokenizer) (target : Target) (cs : List Char) : Tokenizer :=
  match target with
  | .text => ⟨.text, t.reading, cs.reverse ++ t.run⟩
  | .value tag name quote value => { t with phase := .value tag name quote (cs.reverse ++ value) }

/-- The first character behind a reference, whose characters are `cs`. -/
def giveThen (t : Tokenizer) (target : Target) (cs : List Char) (c : Char) : Result :=
  match target with
  | .text => t.sayThenText cs c
  | .value tag name quote value => t.valueStep tag name quote (cs.reverse ++ value) c

/-- One character of a reference. -/
def referenceStep (t : Tokenizer) (r : ReferencePhase) (target : Target) (c : Char) : Result :=
  match r with
  | .name seen =>
    if seen = [] && c == '#' then t.goto (.reference .hash target)
    else if beginsName (seen ++ [c]) then t.goto (.reference (.name (seen ++ [c])) target)
    else t.giveThen target (decodeName target.isValue seen (some c)) c
  | .hash =>
    if c == 'x' || c == 'X' then t.goto (.reference (.hexMark c) target)
    else match Text.digit? 10 c with
      | some n => t.goto (.reference (.number 10 n) target)
      | none => t.giveThen target ['&', '#'] c
  | .hexMark x =>
    match Text.digit? 16 c with
    | some n => t.goto (.reference (.number 16 n) target)
    | none => t.giveThen target ['&', '#', x] c
  | .number base n =>
    match Text.digit? base c with
    | some m => t.goto (.reference (.number base (growNumber base n m)) target)
    | none =>
      if c == ';' then (t.give target [numberedCharacter n], [])
      else t.giveThen target [numberedCharacter n] c

/-! ## The machine -/

/-- Reads one character. -/
def step (t : Tokenizer) (c : Char) : Result :=
  match t.phase with
  | .text => t.textStep c
  | .tagOpen => t.tagOpenStep c
  | .endTagOpen => t.endTagOpenStep c
  | .tagName tag => t.tagNameStep tag c
  | .beforeAttribute tag => t.beforeAttributeStep tag c
  | .attributeName tag name => t.attributeNameStep tag name c
  | .afterAttributeName tag name => t.afterAttributeNameStep tag name c
  | .beforeValue tag name => t.beforeValueStep tag name c
  | .value tag name quote value => t.valueStep tag name quote value c
  | .afterValue tag => t.afterValueStep tag c
  | .slash tag => t.slashStep tag c
  | .declaration seen => t.declarationStep seen c
  | .bogusComment data => t.bogusStep data c
  | .comment phase data => t.commentStep phase data c
  | .beforeDoctype => t.beforeDoctypeStep c
  | .doctype name => t.doctypeStep name c
  | .afterDoctype name => if c == '>' then t.emitDoctype name else t.goto (.afterDoctype name)
  | .reference r target => t.referenceStep r target c
  | .textLess => t.textLessStep c
  | .textEndOpen => t.textEndOpenStep c
  | .textEndName name => t.textEndNameStep name c
  | .nestedStart name => t.nestedStep (.double 0) (.single 0) (.single 0) .nestedStart name c
  | .nestedLess =>
    match t.reading with
    | .script closer _ =>
      if c == '/' then t.sayScript closer (.double 0) [c] (.nestedEnd [])
      else t.scriptStep closer (.double 0) c
    | _ => t.textStep c
  | .nestedEnd name => t.nestedStep (.single 0) (.double 0) (.double 0) .nestedEnd name c

/-- The tokens that the end of the text completes. A tag that it cuts off is dropped, and so is the
beginning of the end of a comment. -/
def finish (t : Tokenizer) : List Token :=
  match t.phase with
  | .tagOpen | .textLess => { t with run := '<' :: t.run }.pending
  | .endTagOpen | .textEndOpen => { t with run := '/' :: '<' :: t.run }.pending
  | .textEndName name => { t with run := name ++ '/' :: '<' :: t.run }.pending
  | .declaration seen => t.pending ++ [.comment (String.ofList seen)]
  | .bogusComment data | .comment _ data => t.pending ++ [.comment (spelled data)]
  | .beforeDoctype => t.pending ++ [.doctype ""]
  | .doctype name | .afterDoctype name => t.pending ++ [.doctype (spelled name)]
  | .reference r .text => (t.give .text (r.atEnd)).pending
  | _ => t.pending

end Stencil.Html.Tokenizer
