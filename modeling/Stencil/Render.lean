import Stencil.Directive.Finalize
import Stencil.Directive.Passes
import Stencil.Html.Parse
import Stencil.Html.Serializer
namespace Stencil

open Stencil.Data (Value)

/-! # Rendering

A render parses a template, lets its directives work on the document, finishes it and writes it
out. It never fails: a bad condition hides its element, and a bad loop stays as it is.
-/

/-- The document of a template after its directives have worked, and the number of elements taken
out of it. -/
def renderDocument (o : Options) (template : String) (data : Value) : Html.Document × Nat :=
  let names := Directive.Names.ofOptions o
  Directive.finalize names o.removeAttributes
    (Directive.process names data (Html.parse template).document)

/-- Renders a template. -/
def render (o : Options) (template : String) (data : Value) : String :=
  (renderDocument o template data).1.serialize

/-- Renders a template with data given as text. -/
def renderText (o : Options) (template data : String) : Except Data.Fault String :=
  (Value.read data).map (render o template)

end Stencil
