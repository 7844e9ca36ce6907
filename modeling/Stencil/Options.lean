import Stencil.Data.Reader.Value
namespace Stencil

open Stencil.Data (Fault readValue readString skipGap isGap readWord Value)

/-! # Options of a render

What a render can be told, and how that is read from data text. Unknown keys are passed over; a
known key has to hold a value of its type, and not twice.
-/

/-- The options of a render. -/
structure Options where
  /-- Remove the directives from what stays. -/
  removeAttributes : Bool
  /-- What the names of the directives begin with. -/
  attributePrefix : String
  /-- The class that marks hidden elements. -/
  hiddenClass : String
deriving DecidableEq, Repr

namespace Options

/-- The options of a render that is told nothing. -/
def default : Options :=
  ⟨false, "", "remove-it"⟩

/-- The key of the option to remove directives. -/
def removeKey : String := "removeJsAttributes"

/-- The key of the beginning of directive names. -/
def prefixKey : String := "attributePrefix"

/-- The key of the class of hidden elements. -/
def hiddenKey : String := "hiddenClass"

/-- The options as data. -/
def toValue (o : Options) : Value :=
  .object [(removeKey, .bool o.removeAttributes), (prefixKey, .string o.attributePrefix),
    (hiddenKey, .string o.hiddenClass)]

/-- Options of which only some are known. -/
structure Known where
  removeAttributes : Option Bool
  attributePrefix : Option String
  hiddenClass : Option String

/-- Nothing known yet. -/
def Known.none : Known :=
  ⟨.none, .none, .none⟩

/-- The known options, and the defaults for the others. -/
def Known.complete (p : Known) : Options :=
  ⟨p.removeAttributes.getD default.removeAttributes, p.attributePrefix.getD default.attributePrefix,
    p.hiddenClass.getD default.hiddenClass⟩

/-- The fault of a value of the wrong type. A number, a string or a constant is read first and may
have a fault of its own; an array or an object is refused at its beginning. -/
def refuse (cs : List Char) : Fault :=
  match skipGap cs with
  | '[' :: _ | '\x7b' :: _ => .wrongShape
  | rest =>
    match readValue false 0 rest with
    | .error e => e
    | .ok _ => .wrongShape

/-- Reads a truth value. -/
def readBool (cs : List Char) : Except Fault (Bool × List Char) :=
  match skipGap cs with
  | 't' :: rest => (readWord ['r', 'u', 'e'] rest).map (true, ·)
  | 'f' :: rest => (readWord ['a', 'l', 's', 'e'] rest).map (false, ·)
  | rest => .error (refuse rest)

/-- Reads a string. -/
def readText (cs : List Char) : Except Fault (String × List Char) :=
  match skipGap cs with
  | '"' :: rest => readString false [] rest
  | rest => .error (refuse rest)

/-- Reads the colon before a value. -/
def readColon (cs : List Char) : Except Fault (List Char) :=
  match skipGap cs with
  | [] => .error .cutShort
  | ':' :: rest => .ok rest
  | _ => .error .malformed

/-- Passes over a value of any kind. -/
def skipValue (cs : List Char) : Except Fault (List Char) :=
  (readValue true cs.length cs).map (·.2.tail)

/-- Reads the value of a key into what is known. A key that is known already is refused before its
value is read. -/
def readField (p : Known) (key : String) (cs : List Char) : Except Fault (Known × List Char) :=
  if key = removeKey then
    if p.removeAttributes.isSome then .error .wrongShape
    else do
      let (b, rest) ← readBool (← readColon cs)
      return ({ p with removeAttributes := some b }, rest)
  else if key = prefixKey then
    if p.attributePrefix.isSome then .error .wrongShape
    else do
      let (s, rest) ← readText (← readColon cs)
      return ({ p with attributePrefix := some s }, rest)
  else if key = hiddenKey then
    if p.hiddenClass.isSome then .error .wrongShape
    else do
      let (s, rest) ← readText (← readColon cs)
      return ({ p with hiddenClass := some s }, rest)
  else do
    let rest ← skipValue (← readColon cs)
    return (p, rest)

/-- Reads the members of an object from its next key on; there are at most `count` of them. -/
def readFields : Nat → Known → List Char → Except Fault (Known × List Char)
  | 0, _, _ => .error .malformed
  | count + 1, p, cs =>
    match skipGap cs with
    | [] => .error .cutShort
    | '"' :: rest => do
      let (key, rest) ← readString false [] rest
      let (p, rest) ← readField p key rest
      match skipGap rest with
      | [] => .error .cutShort
      | ',' :: rest => readFields count p rest
      | '\x7d' :: rest => return (p, rest)
      | _ => .error .malformed
    | _ => .error .malformed

/-- Reads a list of values in the place of the three options, from behind its bracket on. -/
def readPositions (cs : List Char) : Except Fault (Known × List Char) := do
  let close := fun (p : Known) (cs : List Char) => match skipGap cs with
    | [] => Except.error Fault.cutShort
    | ']' :: rest => .ok (p, rest)
    | _ => .error .malformed
  let next := fun (cs : List Char) => match skipGap cs with
    | [] => Except.error Fault.cutShort
    | ']' :: _ => .ok none
    | ',' :: rest => if (skipGap rest).head? = some ']' then .error .malformed else .ok (some rest)
    | _ => .error .malformed
  if (skipGap cs).head? = some ']' then close .none cs
  else
    let (b, rest) ← readBool cs
    let p := { Known.none with removeAttributes := some b }
    match ← next rest with
    | none => close p rest
    | some rest =>
      let (s, rest) ← readText rest
      let p := { p with attributePrefix := some s }
      match ← next rest with
      | none => close p rest
      | some rest =>
        let (s, rest) ← readText rest
        close { p with hiddenClass := some s } rest

/-- Reads options from data text: an object, or a list of the options in their order. -/
def read (text : String) : Except Fault Options := do
  let cs := skipGap text.toList
  let (p, rest) ← match cs with
    | '\x7b' :: rest =>
      match skipGap rest with
      | '\x7d' :: after => .ok (.none, after)
      | _ => readFields cs.length .none rest
    | '[' :: rest => readPositions rest
    | rest => .error (refuse rest)
  Data.atEnd rest
  return p.complete

end Options

end Stencil
