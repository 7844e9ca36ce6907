import Stencil.Data.Reader.Number
import Stencil.Data.Reader.Text
import Stencil.Data.Value
namespace Stencil.Data

/-! # Reading values

A value is a constant, a number, a string, an array or an object. Arrays and objects may stand
inside one another up to a limit.
-/

/-- Reads the rest of a word that stands for a constant. -/
def readConstant (v : Value) (word base cs : List Char) (hlt : cs.length < base.length) :
    Except Fault (Value × Rest base) :=
  match h : readWord word cs with
  | .error e => .error e
  | .ok after => .ok (v, ⟨after, Nat.lt_of_le_of_lt (length_le_of_readWord h) hlt⟩)

/-- Reads the key of a member and the colon behind it. -/
def readKey (skim : Bool) (cs : List Char) : Except Fault (String × Rest cs) :=
  match hs : skipGap cs with
  | [] => .error .cutShort
  | c :: rest =>
    have hlt := length_lt_of_skipGap hs
    if c = '"' then
      match hq : readString skim [] rest with
      | .error e => .error e
      | .ok (key, after) =>
        have hk := length_lt_of_readString hq
        match hc : skipGap after with
        | [] => .error .cutShort
        | ':' :: value =>
          have hv := length_lt_of_skipGap hc
          .ok (key, ⟨value, by omega⟩)
        | _ => .error .malformed
    else .error .malformed

mutual

/-- Reads one value with at most `depth` arrays and objects inside one another. With `skim` set the
value is only passed over: its strings and numbers may be out of range. -/
def readValue (skim : Bool) (depth : Nat) (cs : List Char) : Except Fault (Value × Rest cs) :=
  match hs : skipGap cs with
  | [] => .error .cutShort
  | c :: rest =>
    have hlt := length_lt_of_skipGap hs
    if c = '"' then
      match hq : readString skim [] rest with
      | .error e => .error e
      | .ok (s, after) =>
        .ok (.string s, ⟨after, Nat.lt_trans (length_lt_of_readString hq) hlt⟩)
    else if c = '[' then
      match depth with
      | 0 => .error .malformed
      | depth + 1 =>
        match hi : skipGap rest with
        | ']' :: after => .ok (.array [], ⟨after, Nat.lt_trans (length_lt_of_skipGap hi) hlt⟩)
        | _ => readItems skim depth [] cs rest hlt
    else if c = '{' then
      match depth with
      | 0 => .error .malformed
      | depth + 1 =>
        match hi : skipGap rest with
        | '}' :: after => .ok (.object [], ⟨after, Nat.lt_trans (length_lt_of_skipGap hi) hlt⟩)
        | _ => readMembers skim depth [] cs rest hlt
    else if c = 'n' then readConstant .null ['u', 'l', 'l'] cs rest hlt
    else if c = 't' then readConstant (.bool true) ['r', 'u', 'e'] cs rest hlt
    else if c = 'f' then readConstant (.bool false) ['a', 'l', 's', 'e'] cs rest hlt
    else if c = '-' || c.isDigit then
      match hn : readNumber (if skim then .malformed else .cutShort) (c :: rest) with
      | .error e => .error e
      | .ok (l, after) =>
        have ht : after.length < cs.length := by
          have := length_lt_of_readNumber hn
          rw [List.length_cons] at this
          omega
        match l.value with
        | some n => .ok (.number n, ⟨after, ht⟩)
        | none => if skim then .ok (.null, ⟨after, ht⟩) else .error .malformed
    else .error .malformed
termination_by (cs.length, 1)

/-- Reads the items of an array from the next one to the closing bracket. -/
def readItems (skim : Bool) (depth : Nat) (before : List Value) (base cs : List Char)
    (hlt : cs.length < base.length) : Except Fault (Value × Rest base) :=
  match readValue skim depth cs with
  | .error e => .error e
  | .ok (v, ⟨tail, ht⟩) =>
    match hc : skipGap tail with
    | [] => .error .cutShort
    | c :: rest =>
      have hr := length_lt_of_skipGap hc
      if c = ',' then readItems skim depth (v :: before) base rest (by omega)
      else if c = ']' then .ok (.array (v :: before).reverse, ⟨rest, by omega⟩)
      else .error .malformed
termination_by (cs.length, 2)

/-- Reads the members of an object from the next one to the closing brace. -/
def readMembers (skim : Bool) (depth : Nat) (before : List (String × Value)) (base cs : List Char)
    (hlt : cs.length < base.length) : Except Fault (Value × Rest base) :=
  match hq : readKey skim cs with
  | .error e => .error e
  | .ok (key, ⟨value, hv⟩) =>
    match readValue skim depth value with
    | .error e => .error e
    | .ok (v, ⟨tail, ht⟩) =>
      match hc : skipGap tail with
      | [] => .error .cutShort
      | c :: rest =>
        have hr := length_lt_of_skipGap hc
        let members := put key v before
        if c = ',' then readMembers skim depth members base rest (by omega)
        else if c = '}' then .ok (.object members, ⟨rest, by omega⟩)
        else .error .malformed
termination_by (cs.length, 2)

end

/-- Refuses a text in which more than gaps is left. -/
def atEnd (cs : List Char) : Except Fault Unit :=
  if skipGap cs = [] then .ok () else .error .malformed

/-- Reads a whole text as one value of at most `depth` levels. -/
def Value.readWithin (depth : Nat) (text : String) : Except Fault Value := do
  let (v, rest) ← readValue false depth text.toList
  atEnd rest.tail
  return v

/-- Most levels of arrays and objects that a data text may have. -/
def depthLimit : Nat := 127

/-- Reads a data text. -/
def Value.read (text : String) : Except Fault Value :=
  Value.readWithin depthLimit text

end Stencil.Data
