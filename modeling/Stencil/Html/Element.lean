import Stencil.Html.Attributes
import Stencil.Text.Blank
namespace Stencil.Html

/-! # Elements

A name and attributes. The attribute `class` is also read as a list of words.
-/

/-- An element by itself, without its content. -/
structure Element where
  name : String
  attrs : Attributes
deriving DecidableEq

namespace Element

/-- The value of an attribute. -/
def attr? (e : Element) (name : String) : Option String :=
  e.attrs.get? name

/-- Whether the element has an attribute. -/
def hasAttr (e : Element) (name : String) : Bool :=
  e.attrs.has name

/-- Sets an attribute. -/
def setAttr (e : Element) (name value : String) : Element :=
  { e with attrs := e.attrs.set name value }

/-- Removes an attribute. -/
def removeAttr (e : Element) (name : String) : Element :=
  { e with attrs := e.attrs.erase name }

/-! ## Classes -/

/-- The name of the attribute that holds the classes. -/
def classKey : String := "class"

/-- The words that are not among `seen`, each where it first occurs. -/
def firsts (seen : List String) : List String → List String
  | [] => []
  | w :: rest => if w ∈ seen then firsts seen rest else w :: firsts (w :: seen) rest

/-- The words of a text, each where it first occurs. -/
def distinctWords (text : String) : List String :=
  firsts [] ((Text.markupWords text.toList).map String.ofList)

/-- The classes of the element. -/
def classes (e : Element) : List String :=
  match e.attr? classKey with
  | some text => distinctWords text
  | none => []

/-- Whether the element has a class. -/
def hasClass (e : Element) (token : String) : Bool :=
  e.classes.contains token

/-- Writes the classes with one space between them. -/
def setClasses (e : Element) (tokens : List String) : Element :=
  e.setAttr classKey (" ".intercalate tokens)

/-- Adds a class at the end, unless it is there. -/
def addClass (e : Element) (token : String) : Element :=
  e.setClasses (if e.hasClass token then e.classes else e.classes ++ [token])

/-- Removes a class. An element without the attribute stays without it. -/
def removeClass (e : Element) (token : String) : Element :=
  if e.hasAttr classKey then e.setClasses (e.classes.filter (· ≠ token)) else e

end Element

end Stencil.Html
