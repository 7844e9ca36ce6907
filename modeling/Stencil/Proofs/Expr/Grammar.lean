import Stencil.Expr.Basic
namespace Stencil.Expr

/-! # Grammar of expressions

Which lists of lexemes are expressions, and their trees. The binary operators stand at seven levels,
from `*` at level 1 to `||` at level 7, and associate to the left; the power is alone at level 0 and
associates to the right.
-/

/-- What a list of lexemes can be read as. -/
inductive Category
  | conditional
  /-- Operands joined by operators of this level, or of a tighter one. -/
  | level (n : Nat)
  /-- An operand with signs and negations before it. -/
  | signed
  /-- An operand with accesses behind it. -/
  | access
  | primary
deriving DecidableEq, Repr

/-- The level of an operator between two operands. -/
def operatorLevel? : String → Option Nat
  | "**" => some 0
  | "*" | "/" | "%" => some 1
  | "+" | "-" => some 2
  | "<" | ">" | "<=" | ">=" => some 3
  | "==" | "!=" | "===" | "!==" => some 4
  | "??" => some 5
  | "&&" => some 6
  | "||" => some 7
  | _ => none

/-- The lexemes can be read as the category, with the given tree. -/
inductive Derives : Category → List Lexeme → Expr Unit → Prop
  /-- `condition ? yes : no` -/
  | choice {c y n : List Lexeme} {tc ty tn : Expr Unit} (hc : Derives (.level 7) c tc)
      (hy : Derives .conditional y ty) (hn : Derives .conditional n tn) :
      Derives .conditional (c ++ .operator "?" :: (y ++ .mark .colon :: n))
        (.conditional () tc ty tn)
  | noChoice {l : List Lexeme} {t : Expr Unit} (h : Derives (.level 7) l t) :
      Derives .conditional l t
  /-- The left operand may have operators of the same level, and the right one may not. -/
  | binary {n : Nat} {op : String} {l r : List Lexeme} {tl tr : Expr Unit}
      (hop : operatorLevel? op = some (n + 1)) (hl : Derives (.level (n + 1)) l tl)
      (hr : Derives (.level n) r tr) :
      Derives (.level (n + 1)) (l ++ .operator op :: r) (.binary () op tl tr)
  | tighter {n : Nat} {l : List Lexeme} {t : Expr Unit} (h : Derives (.level n) l t) :
      Derives (.level (n + 1)) l t
  /-- The right operand of a power may be a power. -/
  | power {l r : List Lexeme} {tl tr : Expr Unit} (hl : Derives .signed l tl)
      (hr : Derives (.level 0) r tr) :
      Derives (.level 0) (l ++ .operator "**" :: r) (.binary () "**" tl tr)
  | noPower {l : List Lexeme} {t : Expr Unit} (h : Derives .signed l t) : Derives (.level 0) l t
  | negation {l : List Lexeme} {t : Expr Unit} (h : Derives .signed l t) :
      Derives .signed (.operator "!" :: l) (.negation () t)
  | plus {l : List Lexeme} {t : Expr Unit} (h : Derives .signed l t) :
      Derives .signed (.operator "+" :: l) (.signed () "+" t)
  | minus {l : List Lexeme} {t : Expr Unit} (h : Derives .signed l t) :
      Derives .signed (.operator "-" :: l) (.signed () "-" t)
  | noSign {l : List Lexeme} {t : Expr Unit} (h : Derives .access l t) : Derives .signed l t
  /-- `receiver[key]` -/
  | keyed {l k : List Lexeme} {tl tk : Expr Unit} (hl : Derives .access l tl)
      (hk : Derives .conditional k tk) :
      Derives .access (l ++ .mark .openBracket :: (k ++ [.mark .closeBracket])) (.keyed () tl tk)
  /-- `receiver.path` -/
  | member {l : List Lexeme} {t : Expr Unit} (path : String) (h : Derives .access l t) :
      Derives .access (l ++ [.mark .dot, .identifier path]) (.member () t path)
  /-- Behind a dot a keyword is a name. -/
  | keywordMember {l : List Lexeme} {t : Expr Unit} (k : Keyword) (h : Derives .access l t) :
      Derives .access (l ++ [.mark .dot, .keyword k]) (.member () t k.text)
  | noAccess {l : List Lexeme} {t : Expr Unit} (h : Derives .primary l t) : Derives .access l t
  | number (text : String) (x : Float) :
      Derives .primary [.number text x] (.literal () (.number x))
  | string (s : String) : Derives .primary [.string s] (.literal () (.string s))
  | truth (b : Bool) : Derives .primary [.keyword (.truth b)] (.literal () (.bool b))
  | null : Derives .primary [.keyword .null] (.literal () .null)
  | undefined : Derives .primary [.keyword .undefined] (.literal () .undefined)
  | path (p : String) : Derives .primary [.identifier p] (.lookup () p)
  /-- Parentheses leave no trace in the tree. -/
  | parens {l : List Lexeme} {t : Expr Unit} (h : Derives .conditional l t) :
      Derives .primary (.mark .openParen :: (l ++ [.mark .closeParen])) t

end Stencil.Expr
