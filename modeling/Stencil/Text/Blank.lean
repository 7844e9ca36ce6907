namespace Stencil.Text

/-! # Blank characters

The characters that count as white space in data and directive text, and what is left of a text
when its ends are cleared of them.
-/

/-- White space by the Unicode property of that name. -/
def isBlank (c : Char) : Bool :=
  let n := c.toNat
  (9 ≤ n && n ≤ 13) || n == 0x20 || n == 0x85 || n == 0xA0 || n == 0x1680
    || (0x2000 ≤ n && n ≤ 0x200A) || n == 0x2028 || n == 0x2029 || n == 0x202F || n == 0x205F
    || n == 0x3000

/-- White space of markup: space, tab, line feed, form feed and carriage return. -/
def isMarkupSpace (c : Char) : Bool :=
  c == ' ' || c == '\t' || c == '\n' || c == '\x0c' || c == '\r'

/-- The text without the blanks at its two ends. -/
def trimBlanks (cs : List Char) : List Char :=
  ((cs.dropWhile isBlank).reverse.dropWhile isBlank).reverse

/-- Splits a text at every markup space; `word` is the piece begun so far, last character first. -/
def splitAtSpace (word : List Char) : List Char → List (List Char)
  | [] => [word.reverse]
  | c :: rest =>
    if isMarkupSpace c then word.reverse :: splitAtSpace [] rest else splitAtSpace (c :: word) rest

/-- The words of a text: its longest runs without markup space, in order. -/
def markupWords (cs : List Char) : List (List Char) :=
  (splitAtSpace [] cs).filter (· ≠ [])

end Stencil.Text
