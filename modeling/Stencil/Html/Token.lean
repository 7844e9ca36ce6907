import Stencil.Html.Attributes
namespace Stencil.Html

/-! # Tokens of markup

What a text of markup is made of, from left to right.
-/

/-- A piece of markup. The names of tags are in lower case as far as ASCII goes. -/
inductive Token
  | startTag (name : String) (attrs : Attributes) (selfClosing : Bool)
  | endTag (name : String)
  | text (s : String)
  | comment (s : String)
  | doctype (name : String)
deriving DecidableEq

end Stencil.Html
