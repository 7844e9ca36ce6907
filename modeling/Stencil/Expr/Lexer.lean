import Stencil.Decimal.Reading
import Stencil.Expr.Token
import Stencil.Text.Rest
import Stencil.Text.Units
namespace Stencil.Expr

/-! # Lexer of expressions

Cuts a text into tokens. A dotted data path is one token. The list of tokens ends with the text or
with the first error.
-/

/-! ## Classes of characters -/

/-- The characters that may stand between tokens. -/
def isSpace (c : Char) : Bool :=
  c == ' ' || c == '\t' || c == '\n' || c == '\r' || c == '\x0b' || c == '\x0c' || c == '\xa0'

/-- Characters that a path can begin with; its letters are those of ASCII. -/
def isPathStart (c : Char) : Bool :=
  c.isAlpha || c == '_' || c == '$'

/-- Characters that a path is made of; its dots belong to it. -/
def isPathPart (c : Char) : Bool :=
  isPathStart c || c.isDigit || c == '.'

/-! ## One token -/

/-- A token cut off a text: what it is, its characters, and the characters behind it. -/
structure Cut where
  lexeme : Lexeme
  taken : List Char
  rest : List Char

/-- A path or a keyword, whose first character is `c`. -/
def cutWord (c : Char) (cs : List Char) : Cut :=
  let taken := c :: cs.takeWhile isPathPart
  let text := String.ofList taken
  let lexeme := match Keyword.ofText? text with
    | some k => Lexeme.keyword k
    | none => .identifier text
  ⟨lexeme, taken, cs.dropWhile isPathPart⟩

/-- Splits off the longest run of digits, points and exponent marks, each mark perhaps with a
sign. -/
def spanNumber : List Char → List Char × List Char
  | [] => ([], [])
  | c :: cs =>
    if c.isDigit || c == '.' then
      let (run, rest) := spanNumber cs
      (c :: run, rest)
    else if c == 'e' || c == 'E' then
      match cs with
      | '+' :: more =>
        let (run, rest) := spanNumber more
        (c :: '+' :: run, rest)
      | '-' :: more =>
        let (run, rest) := spanNumber more
        (c :: '-' :: run, rest)
      | more =>
        let (run, rest) := spanNumber more
        (c :: run, rest)
    else ([], c :: cs)

/-- A number: the longest run of its characters has to be one. -/
def cutNumber (cs : List Char) : Cut :=
  let (run, rest) := spanNumber cs
  let text := String.ofList run
  match Decimal.read? run with
  | some x => ⟨.number text x, run, rest⟩
  | none => ⟨.error (.invalidNumber text), run, rest⟩

/-- The character that an escaped character stands for: itself, unless it names a control. -/
def unescape (c : Char) : Char :=
  if c == 'n' then '\n' else if c == 't' then '\t' else if c == 'r' then '\r' else c

/-- The rest of a string up to its closing quote. `content` and `taken` hold what was read, the
last character first. -/
def cutString (quote : Char) (content taken : List Char) : List Char → Cut
  | [] => ⟨.error .unterminatedQuote, taken.reverse, []⟩
  | c :: cs =>
    if c = quote then ⟨.string (String.ofList content.reverse), (c :: taken).reverse, cs⟩
    else if c = '\\' then
      match cs with
      | [] => ⟨.error .unterminatedQuote, (c :: taken).reverse, []⟩
      | e :: more => cutString quote (unescape e :: content) (e :: c :: taken) more
    else cutString quote (c :: content) (c :: taken) cs

/-- An operator of the given spelling. -/
def cutOperator (text : String) (taken rest : List Char) : Cut :=
  ⟨.operator text, taken, rest⟩

/-- A mark, an operator, or no token at all: everything that begins neither a word nor a literal.
Of two operators the longer one is cut. -/
def cutSymbol (c : Char) (cs : List Char) : Cut :=
  match c, cs with
  | '(', cs => ⟨.mark .openParen, [c], cs⟩
  | ')', cs => ⟨.mark .closeParen, [c], cs⟩
  | '[', cs => ⟨.mark .openBracket, [c], cs⟩
  | ']', cs => ⟨.mark .closeBracket, [c], cs⟩
  | ':', cs => ⟨.mark .colon, [c], cs⟩
  | '.', cs => ⟨.mark .dot, [c], cs⟩
  | '+', cs => cutOperator "+" [c] cs
  | '-', cs => cutOperator "-" [c] cs
  | '/', cs => cutOperator "/" [c] cs
  | '%', cs => cutOperator "%" [c] cs
  | '*', '*' :: cs => cutOperator "**" [c, '*'] cs
  | '*', cs => cutOperator "*" [c] cs
  | '&', '&' :: cs => cutOperator "&&" [c, '&'] cs
  | '|', '|' :: cs => cutOperator "||" [c, '|'] cs
  | '<', '=' :: cs => cutOperator "<=" [c, '='] cs
  | '<', cs => cutOperator "<" [c] cs
  | '>', '=' :: cs => cutOperator ">=" [c, '='] cs
  | '>', cs => cutOperator ">" [c] cs
  | '?', '?' :: cs => cutOperator "??" [c, '?'] cs
  | '?', cs => cutOperator "?" [c] cs
  | '!', '=' :: '=' :: cs => cutOperator "!==" [c, '=', '='] cs
  | '!', '=' :: cs => cutOperator "!=" [c, '='] cs
  | '!', cs => cutOperator "!" [c] cs
  | '=', '=' :: '=' :: cs => cutOperator "===" [c, '=', '='] cs
  | '=', '=' :: cs => cutOperator "==" [c, '='] cs
  | '=', cs => ⟨.error .assignment, [c], cs⟩
  | c, cs => ⟨.error (.unexpectedCharacter c), [c], cs⟩

/-- Whether a number begins here: with a digit, or with a point before one. -/
def beginsNumber (c : Char) (cs : List Char) : Bool :=
  c.isDigit || (c == '.' && (cs.head?.map Char.isDigit).getD false)

/-- The token at the front of a text without leading space. -/
def cutToken (c : Char) (cs : List Char) : Cut :=
  if isPathStart c then cutWord c cs
  else if beginsNumber c cs then cutNumber (c :: cs)
  else if c = '\'' || c = '"' then cutString c [] [c] cs
  else cutSymbol c cs

/-! ## Nothing is lost -/

theorem spanNumber_append (cs : List Char) : (spanNumber cs).1 ++ (spanNumber cs).2 = cs := by
  fun_induction spanNumber cs <;> simp_all

theorem cutString_append (quote : Char) (content taken cs : List Char) :
    (cutString quote content taken cs).taken ++ (cutString quote content taken cs).rest
      = taken.reverse ++ cs := by
  fun_induction cutString quote content taken cs <;> simp_all

theorem cutSymbol_append (c : Char) (cs : List Char) :
    (cutSymbol c cs).taken ++ (cutSymbol c cs).rest = c :: cs := by
  unfold cutSymbol cutOperator
  split <;> rfl

/-- The characters of a token and those behind it are the text. -/
theorem cutToken_append (c : Char) (cs : List Char) :
    (cutToken c cs).taken ++ (cutToken c cs).rest = c :: cs := by
  unfold cutToken
  split
  · simp [cutWord]
  split
  · have h := spanNumber_append (c :: cs)
    unfold cutNumber
    split
    simp_all only
    split <;> exact h
  split
  · simpa using cutString_append c [] [c] cs
  · exact cutSymbol_append c cs

theorem cutString_taken_ne_nil (quote : Char) (content taken cs : List Char) (h : taken ≠ []) :
    (cutString quote content taken cs).taken ≠ [] := by
  fun_induction cutString quote content taken cs <;> simp_all

/-- A token has at least one character. -/
theorem cutToken_taken_ne_nil (c : Char) (cs : List Char) : (cutToken c cs).taken ≠ [] := by
  unfold cutToken
  split
  · simp [cutWord]
  split
  · next h =>
    have hc : (c.isDigit || c == '.') = true := by
      simp only [beginsNumber, Bool.or_eq_true, Bool.and_eq_true] at h ⊢
      exact h.imp id And.left
    have hne : (spanNumber (c :: cs)).1 ≠ [] := by
      rw [spanNumber.eq_def]
      simp [hc]
    unfold cutNumber
    split
    simp_all only
    split <;> exact hne
  split
  · exact cutString_taken_ne_nil c [] [c] cs (by simp)
  · unfold cutSymbol cutOperator
    split <;> simp

theorem cutToken_rest_length_le (c : Char) (cs : List Char) :
    (cutToken c cs).rest.length ≤ cs.length := by
  have h := congrArg List.length (cutToken_append c cs)
  have hne := List.length_pos_iff.2 (cutToken_taken_ne_nil c cs)
  simp only [List.length_append, List.length_cons] at h
  omega

/-! ## All tokens -/

/-- The tokens of the text `cs`, which begins at the byte `start` of the whole text. -/
def tokensFrom (start : Nat) (cs : List Char) : List Token :=
  match h : cs.dropWhile isSpace with
  | [] => []
  | c :: rest =>
    let first := start + Text.byteLength (cs.takeWhile isSpace)
    let cut := cutToken c rest
    let stop := first + Text.byteLength cut.taken
    have : cut.rest.length < cs.length := by
      have h1 := cutToken_rest_length_le c rest
      have h2 := length_dropWhile_le isSpace cs
      rw [h, List.length_cons] at h2
      exact Nat.lt_of_le_of_lt h1 h2
    let token : Token := ⟨first, stop, cut.lexeme⟩
    if cut.lexeme.isError then [token] else token :: tokensFrom stop cut.rest
termination_by cs.length

/-- The tokens of a text. -/
def tokenize (text : String) : List Token :=
  tokensFrom 0 text.toList

end Stencil.Expr
