import Stencil.Expr.Lexer
import Stencil.Text.Blank
namespace Stencil.Directive

/-! # Loops

The text of a loop is `item in path`, with one space on each side of `in` and blanks around the
whole. The item is a name without dots, and the path has no blanks.
-/

/-- The variable of a loop and the path to its items. -/
structure Each where
  item : String
  path : String
deriving DecidableEq, Repr

/-- Characters that the name of an item is made of. -/
def isItemPart (c : Char) : Bool :=
  Expr.isPathStart c || c.isDigit

/-- What stands between the item and the path. -/
def separator : List Char := [' ', 'i', 'n', ' ']

/-- The loop that a text spells, if it spells one: the match of the pattern
`^\s*([A-Za-z_$][A-Za-z0-9_$]*) in (\S+)\s*$`, whose two groups are the item and the path. What
follows a part of the pattern begins with a character that the part does not take, so every part
takes all it can and gives nothing back. -/
def Each.parse? (text : String) : Option Each :=
  let cs := text.toList.dropWhile Text.isBlank
  let item := cs.takeWhile isItemPart
  let rest := cs.dropWhile isItemPart
  if !(item.head?.any Expr.isPathStart) || !separator.isPrefixOf rest then none
  else
    let path := (rest.drop separator.length).takeWhile (!Text.isBlank ·)
    let after := (rest.drop separator.length).dropWhile (!Text.isBlank ·)
    if path = [] || !after.all Text.isBlank then none
    else some ⟨String.ofList item, String.ofList path⟩

end Stencil.Directive
