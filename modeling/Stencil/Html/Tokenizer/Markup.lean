import Stencil.Html.Tokenizer.Text
namespace Stencil.Html.Tokenizer

/-! # Comments, document types and tags

What follows a `<` in markup.
-/

/-! ## Comments and document types -/

/-- One character of a comment that ends at the next `>`. -/
def bogusStep (t : Tokenizer) (data : List Char) (c : Char) : Result :=
  if c == '>' then t.emitComment data else t.goto (.bogusComment (cleaned c :: data))

/-- One character of the body of a comment. -/
def commentBodyStep (t : Tokenizer) (data : List Char) (c : Char) : Result :=
  if c == '-' then t.goto (.comment .dash data)
  else t.goto (.comment .body (cleaned c :: data))

/-- One character of a comment. -/
def commentStep (t : Tokenizer) (phase : CommentPhase) (data : List Char) (c : Char) : Result :=
  match phase with
  | .start =>
    if c == '-' then t.goto (.comment .startDash data)
    else if c == '>' then t.emitComment data
    else t.commentBodyStep data c
  | .startDash =>
    if c == '-' then t.goto (.comment .dashes data)
    else if c == '>' then t.emitComment data
    else t.commentBodyStep ('-' :: data) c
  | .body => t.commentBodyStep data c
  | .dash =>
    if c == '-' then t.goto (.comment .dashes data)
    else t.commentBodyStep ('-' :: data) c
  | .dashes =>
    if c == '>' then t.emitComment data
    else if c == '!' then t.goto (.comment .bang data)
    else if c == '-' then t.goto (.comment .dashes ('-' :: data))
    else t.commentBodyStep ('-' :: '-' :: data) c
  | .bang =>
    if c == '-' then t.goto (.comment .dash ('!' :: '-' :: '-' :: data))
    else if c == '>' then t.emitComment data
    else t.commentBodyStep ('!' :: '-' :: '-' :: data) c

/-- The word that begins a document type. -/
def doctypeWord : List Char := ['d', 'o', 'c', 't', 'y', 'p', 'e']

/-- One character of what follows `<!`. What is neither a comment nor a document type is a comment
up to the next `>`. -/
def declarationStep (t : Tokenizer) (seen : List Char) (c : Char) : Result :=
  let next := seen ++ [c]
  let small := next.map Char.toLower
  if next = ['-', '-'] then t.goto (.comment .start [])
  else if small = doctypeWord then t.goto .beforeDoctype
  else if next = ['-'] || small.isPrefixOf doctypeWord then t.goto (.declaration next)
  else t.bogusStep seen.reverse c

/-- One character of a document type. Everything behind its name is passed over. -/
def doctypeStep (t : Tokenizer) (name : List Char) (c : Char) : Result :=
  if c == '>' then t.emitDoctype name
  else if Text.isMarkupSpace c then t.goto (.afterDoctype name)
  else t.goto (.doctype (nameChar c :: name))

/-- One character before the name of a document type. -/
def beforeDoctypeStep (t : Tokenizer) (c : Char) : Result :=
  if Text.isMarkupSpace c then t.goto .beforeDoctype else t.doctypeStep [] c

/-! ## Tags -/

/-- One character after a tag is opened. -/
def tagOpenStep (t : Tokenizer) (c : Char) : Result :=
  if c == '!' then t.goto (.declaration [])
  else if c == '/' then t.goto .endTagOpen
  else if c == '?' then t.bogusStep [] c
  else if c.isAlpha then t.goto (.tagName (Draft.begin false [c.toLower]))
  else t.sayThenText ['<'] c

/-- One character after an end tag is opened. -/
def endTagOpenStep (t : Tokenizer) (c : Char) : Result :=
  if c.isAlpha then t.goto (.tagName (Draft.begin true [c.toLower]))
  else if c == '>' then t.goto .text
  else t.bogusStep [] c

/-- One character of the name of a tag. -/
def tagNameStep (t : Tokenizer) (tag : Draft) (c : Char) : Result :=
  if Text.isMarkupSpace c then t.goto (.beforeAttribute tag)
  else if c == '/' then t.goto (.slash tag)
  else if c == '>' then t.emitTag tag
  else t.goto (.tagName { tag with name := nameChar c :: tag.name })

/-- One character of the name of an attribute. -/
def attributeNameStep (t : Tokenizer) (tag : Draft) (name : List Char) (c : Char) : Result :=
  if Text.isMarkupSpace c then t.goto (.afterAttributeName tag name)
  else if c == '/' then t.goto (.slash (tag.addAttribute name []))
  else if c == '>' then t.emitTag (tag.addAttribute name [])
  else if c == '=' then t.goto (.beforeValue tag name)
  else t.goto (.attributeName tag (nameChar c :: name))

/-- One character before an attribute. A name may begin with an equals sign. -/
def beforeAttributeStep (t : Tokenizer) (tag : Draft) (c : Char) : Result :=
  if Text.isMarkupSpace c then t.goto (.beforeAttribute tag)
  else if c == '/' then t.goto (.slash tag)
  else if c == '>' then t.emitTag tag
  else t.goto (.attributeName tag [nameChar c])

/-- One character after the name of an attribute. -/
def afterAttributeNameStep (t : Tokenizer) (tag : Draft) (name : List Char) (c : Char) : Result :=
  if Text.isMarkupSpace c then t.goto (.afterAttributeName tag name)
  else if c == '=' then t.goto (.beforeValue tag name)
  else t.beforeAttributeStep (tag.addAttribute name []) c

/-- One character of the value of an attribute. -/
def valueStep (t : Tokenizer) (tag : Draft) (name : List Char) (quote : Quote) (value : List Char)
    (c : Char) : Result :=
  if c == '&' then t.goto (.reference (.name []) (.value tag name quote value))
  else
    match quote with
    | .double =>
      if c == '"' then t.goto (.afterValue (tag.addAttribute name value))
      else t.goto (.value tag name quote (cleaned c :: value))
    | .single =>
      if c == '\'' then t.goto (.afterValue (tag.addAttribute name value))
      else t.goto (.value tag name quote (cleaned c :: value))
    | .none =>
      if Text.isMarkupSpace c then t.goto (.beforeAttribute (tag.addAttribute name value))
      else if c == '>' then t.emitTag (tag.addAttribute name value)
      else t.goto (.value tag name quote (cleaned c :: value))

/-- One character before the value of an attribute. -/
def beforeValueStep (t : Tokenizer) (tag : Draft) (name : List Char) (c : Char) : Result :=
  if Text.isMarkupSpace c then t.goto (.beforeValue tag name)
  else if c == '"' then t.goto (.value tag name .double [])
  else if c == '\'' then t.goto (.value tag name .single [])
  else if c == '>' then t.emitTag (tag.addAttribute name [])
  else t.valueStep tag name .none [] c

/-- One character after a quoted value. -/
def afterValueStep (t : Tokenizer) (tag : Draft) (c : Char) : Result :=
  t.beforeAttributeStep tag c

/-- One character after a slash in a tag, which counts only right before the end. -/
def slashStep (t : Tokenizer) (tag : Draft) (c : Char) : Result :=
  if c == '>' then t.emitTag { tag with selfClosing := true } else t.beforeAttributeStep tag c

end Stencil.Html.Tokenizer
