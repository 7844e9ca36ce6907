import Stencil.Html.Element
import Stencil.Options
namespace Stencil.Directive

open Stencil.Html (Element)

/-! # Names of directives

The four attributes that tell a render what to do with an element, and the class that marks what is
to be hidden.
-/

/-- The names of the directives and of the hidden class. -/
structure Names where
  value : String
  if_ : String
  ifNot : String
  each : String
  hiddenClass : String
deriving DecidableEq, Repr

/-- The names that begin with the given text. -/
def Names.of (start hiddenClass : String) : Names :=
  ⟨start ++ "value", start ++ "if", start ++ "if-not", start ++ "each", hiddenClass⟩

/-- The names under the given options. -/
def Names.ofOptions (o : Options) : Names :=
  .of o.attributePrefix o.hiddenClass

/-- The names of all directives. -/
def Names.all (n : Names) : List String :=
  [n.value, n.if_, n.ifNot, n.each]

/-- Which directives an element has. -/
structure Flags where
  value : Bool
  if_ : Bool
  ifNot : Bool
  each : Bool
deriving DecidableEq, Repr

/-- The directives of an element. -/
def Names.flags (n : Names) (e : Element) : Flags :=
  ⟨e.hasAttr n.value, e.hasAttr n.if_, e.hasAttr n.ifNot, e.hasAttr n.each⟩

/-- Whether there is a condition. -/
def Flags.isConditional (f : Flags) : Bool :=
  f.if_ || f.ifNot

/-- Whether there is any directive. -/
def Flags.any (f : Flags) : Bool :=
  f.value || f.if_ || f.ifNot || f.each

/-- The directives as a number: one, two, four and eight in their order. -/
def Flags.bits (f : Flags) : Nat :=
  f.value.toNat + 2 * f.if_.toNat + 4 * f.ifNot.toNat + 8 * f.each.toNat

end Stencil.Directive
