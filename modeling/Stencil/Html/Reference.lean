import Stencil.Html.CharacterNames
namespace Stencil.Html

/-! # Character references

Characters written as `&name;` or by number. Some names do without the semicolon.
-/

/-- Every spelling of a reference by name, and the characters that it stands for. -/
def namedReferences : List (List Char × List Char) :=
  characterNames.map (fun n => (n.text.toList ++ [';'], n.chars))
    ++ (characterNames.filter (·.isOpen)).map (fun n => (n.text.toList, n.chars))

/-- Whether some name goes on with these characters or ends with them. -/
def beginsName (cs : List Char) : Bool :=
  namedReferences.any fun e => cs.isPrefixOf e.1

/-- The longest name at the front of a text. -/
def longestName? (cs : List Char) : Option (List Char × List Char) :=
  namedReferences.foldl
    (fun best e =>
      if e.1.isPrefixOf cs && (best.map (·.1.length)).getD 0 < e.1.length then some e else best)
    none

/-- What the characters `seen` behind an ampersand stand for when the character `next`, or the end,
follows them. Without a name at their front they are ordinary text. In the value of an attribute a
name without semicolon is ordinary text too if it runs on into a word or an equals sign. -/
def decodeName (inValue : Bool) (seen : List Char) (next : Option Char) : List Char :=
  match longestName? seen with
  | none => '&' :: seen
  | some (name, cs) =>
    let rest := seen.drop name.length
    let runsOn := (rest.head?.or next).any fun n => n == '=' || n.isAlphanum
    if inValue && name.getLast? != some ';' && runsOn then '&' :: seen else cs ++ rest

/-- The characters that the numbers from 0x80 to 0x9F stand for where that is not a control. -/
def legacyCharacters : List (Nat × Nat) :=
  [(0x80, 0x20AC), (0x82, 0x201A), (0x83, 0x0192), (0x84, 0x201E), (0x85, 0x2026), (0x86, 0x2020),
    (0x87, 0x2021), (0x88, 0x02C6), (0x89, 0x2030), (0x8A, 0x0160), (0x8B, 0x2039), (0x8C, 0x0152),
    (0x8E, 0x017D), (0x91, 0x2018), (0x92, 0x2019), (0x93, 0x201C), (0x94, 0x201D), (0x95, 0x2022),
    (0x96, 0x2013), (0x97, 0x2014), (0x98, 0x02DC), (0x99, 0x2122), (0x9A, 0x0161), (0x9B, 0x203A),
    (0x9C, 0x0153), (0x9E, 0x017E), (0x9F, 0x0178)]

/-- Stands for what is no character. -/
def replacement : Char := Char.ofNat 0xFFFD

/-- The character of a reference by number. Zero, surrogates and numbers out of range have none. -/
def numberedCharacter (n : Nat) : Char :=
  if n = 0 || 0x10FFFF < n || (0xD800 ≤ n && n ≤ 0xDFFF) then replacement
  else Char.ofNat ((legacyCharacters.lookup n).getD n)

/-- A number with one more digit. Above the last character it stops growing. -/
def growNumber (base n digit : Nat) : Nat :=
  min (base * n + digit) 0x110000

end Stencil.Html
