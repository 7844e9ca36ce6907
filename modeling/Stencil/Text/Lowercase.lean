import Stencil.Text.Case
namespace Stencil.Text

/-! # Lower case

The lower-case form of a text: letters of all scripts by the Unicode character table, and the Greek
capital sigma by its place in the word.
-/

/-- Whether the first character that is not skipped is a letter with case. -/
def beginsCased (cs : List Char) : Bool :=
  match cs.dropWhile (fun c => inRanges ignorableRanges c.toNat) with
  | [] => false
  | c :: _ => inRanges casedRanges c.toNat

/-- Lower-case form of one character by itself. The dotted capital I keeps its dot as a mark of its
own. -/
def lowerChar (c : Char) : List Char :=
  if c.toNat < 128 then [c.toLower]
  else if c.toNat == 0x130 then ['i', Char.ofNat 0x307]
  else match capitalRuns.find? (·.contains c.toNat) with
    | some r => [Char.ofNat (Int.toNat (c.toNat + r.shift))]
    | none => [c]

/-- Lower-case form of a text whose earlier part, last character first, is `before`. A capital sigma
at the end of a word takes its final form. -/
def lowerFrom (before : List Char) : List Char → List Char
  | [] => []
  | c :: rest =>
    let small :=
      if c.toNat == 0x3A3 then
        if beginsCased before && !beginsCased rest then [Char.ofNat 0x3C2] else [Char.ofNat 0x3C3]
      else lowerChar c
    small ++ lowerFrom (c :: before) rest

/-- The lower-case form of a text. -/
def lowercase (s : String) : String :=
  String.ofList (lowerFrom [] s.toList)

end Stencil.Text
