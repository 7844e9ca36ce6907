import Stencil.Html.Tokenizer.Basic
namespace Stencil.Html.Tokenizer

/-! # Text outside of tags

Text between markup, and the text of elements that hold nothing else, where only an end tag of the
element itself counts. In a script the beginnings of comments and nested scripts are followed too.
-/

/-- One character of a script. -/
def scriptStep (t : Tokenizer) (closer : List Char) (e : Escape) (c : Char) : Result :=
  match e with
  | .none =>
    if c == '<' then t.sayScript closer .none [] .textLess
    else t.sayScript closer .none [cleaned c] .text
  | .opening false =>
    if c == '-' then t.sayScript closer (.opening true) [c] .text
    else if c == '<' then t.sayScript closer .none [] .textLess
    else t.sayScript closer .none [cleaned c] .text
  | .opening true =>
    if c == '-' then t.sayScript closer (.single 2) [c] .text
    else if c == '<' then t.sayScript closer .none [] .textLess
    else t.sayScript closer .none [cleaned c] .text
  | .single n =>
    if c == '-' then t.sayScript closer (.single (min 2 (n + 1))) [c] .text
    else if c == '<' then t.sayScript closer (.single 0) [] .textLess
    else if c == '>' && n == 2 then t.sayScript closer .none [c] .text
    else t.sayScript closer (.single 0) [cleaned c] .text
  | .double n =>
    if c == '-' then t.sayScript closer (.double (min 2 (n + 1))) [c] .text
    else if c == '<' then t.sayScript closer (.double 0) [c] .nestedLess
    else if c == '>' && n == 2 then t.sayScript closer .none [c] .text
    else t.sayScript closer (.double 0) [cleaned c] .text

/-- One character of text. -/
def textStep (t : Tokenizer) (c : Char) : Result :=
  match t.reading with
  | .markup =>
    if c == '&' then t.goto (.reference (.name []) .text)
    else if c == '<' then t.goto .tagOpen
    else t.say [c] .text
  | .escapable _ =>
    if c == '&' then t.goto (.reference (.name []) .text)
    else if c == '<' then t.goto .textLess
    else t.say [cleaned c] .text
  | .script closer e => t.scriptStep closer e c

/-- More text, and then one character of text again. -/
def sayThenText (t : Tokenizer) (cs : List Char) (c : Char) : Result :=
  textStep ⟨.text, t.reading, cs.reverse ++ t.run⟩ c

/-- The name of the end tag that ends the text, where only text is read. -/
def closer? (t : Tokenizer) : Option (List Char) :=
  match t.reading with
  | .markup => none
  | .escapable name => some name
  | .script name _ => some name

/-- The character after a `<` in the text of an element that holds only text. -/
def textLessStep (t : Tokenizer) (c : Char) : Result :=
  if c == '/' then t.goto .textEndOpen
  else
    match t.reading with
    | .script closer .none =>
      if c == '!' then t.sayScript closer (.opening false) ['<', '!'] .text
      else t.sayThenText ['<'] c
    | .script closer (.single _) =>
      if c.isAlpha then t.sayScript closer (.single 0) ['<', c] (.nestedStart [c.toLower])
      else t.sayThenText ['<'] c
    | _ => t.sayThenText ['<'] c

/-- The character after a `</` in such text. -/
def textEndOpenStep (t : Tokenizer) (c : Char) : Result :=
  if c.isAlpha then t.goto (.textEndName [c]) else t.sayThenText ['<', '/'] c

/-- A character after the letters of a possible end tag in such text. Only the end tag of the
element itself counts; everything else is text as it was written. -/
def textEndNameStep (t : Tokenizer) (name : List Char) (c : Char) : Result :=
  let small := name.map Char.toLower
  if c.isAlpha then t.goto (.textEndName (c :: name))
  else if endsName c && t.closer? == some small.reverse then
    let tag := Draft.begin true small
    if c == '/' then t.goto (.slash tag)
    else if c == '>' then t.emitTag tag
    else t.goto (.beforeAttribute tag)
  else t.sayThenText ('<' :: '/' :: name.reverse) c

/-- The name that nests scripts. -/
def scriptName : List Char := ['s', 'c', 'r', 'i', 'p', 't']

/-- A character after the letters of a tag inside an escaped script. The name `script` leads to
`inside`, every other name to `outside`. -/
def nestedStep (t : Tokenizer) (inside outside stay : Escape) (again : List Char → Phase)
    (name : List Char) (c : Char) : Result :=
  match t.reading with
  | .script closer _ =>
    if endsName c then
      t.sayScript closer (if name.reverse = scriptName then inside else outside) [c] .text
    else if c.isAlpha then
      t.sayScript closer stay [c] (again (c.toLower :: name))
    else t.scriptStep closer stay c
  | _ => t.textStep c

end Stencil.Html.Tokenizer
