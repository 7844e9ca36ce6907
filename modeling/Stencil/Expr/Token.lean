namespace Stencil.Expr

/-! # Tokens of expressions

Marks, operators, words and literals, each with its place in the text. An operator is its spelling:
where it may stand is left to the parser, and what it does to evaluation.
-/

/-- The marks that group and separate. -/
inductive Mark
  | openParen | closeParen | openBracket | closeBracket | colon | dot
deriving DecidableEq, Repr

/-- The character of a mark. -/
def Mark.char : Mark → Char
  | .openParen => '('
  | .closeParen => ')'
  | .openBracket => '['
  | .closeBracket => ']'
  | .colon => ':'
  | .dot => '.'

/-- Words that are values and never name data. -/
inductive Keyword
  | truth (b : Bool)
  | null
  | undefined
deriving DecidableEq, Repr

/-- The spelling of a keyword. -/
def Keyword.text : Keyword → String
  | .truth true => "true"
  | .truth false => "false"
  | .null => "null"
  | .undefined => "undefined"

/-- The keyword of a given spelling. -/
def Keyword.ofText? (s : String) : Option Keyword :=
  if s = "true" then some (.truth true)
  else if s = "false" then some (.truth false)
  else if s = "null" then some .null
  else if s = "undefined" then some .undefined
  else none

theorem Keyword.ofText?_eq_some_iff {s : String} {k : Keyword} :
    Keyword.ofText? s = some k ↔ s = k.text := by
  constructor
  · intro h
    unfold ofText? at h
    split at h
    next hs => cases h; exact hs
    split at h
    next hs => cases h; exact hs
    split at h
    next hs => cases h; exact hs
    split at h
    next hs => cases h; exact hs
    cases h
  · rintro rfl
    cases k with
    | truth b => cases b <;> decide
    | null => decide
    | undefined => decide

/-- Why a text has no further token. -/
inductive LexError
  | unexpectedCharacter (c : Char)
  | assignment
  | invalidNumber (text : String)
  | unterminatedQuote
deriving DecidableEq, Repr

/-- The wording of a lexical error. -/
def LexError.message : LexError → String
  | .unexpectedCharacter c => "Unexpected character [" ++ c.toString ++ "]"
  | .assignment => "Assignment is not supported"
  | .invalidNumber text => "Invalid number [" ++ text ++ "]"
  | .unterminatedQuote => "Unterminated quote"

/-- What a token is. A number keeps its spelling beside its value. -/
inductive Lexeme
  | mark (m : Mark)
  | identifier (path : String)
  | keyword (k : Keyword)
  | string (s : String)
  | operator (text : String)
  | number (text : String) (value : Float)
  | error (e : LexError)
deriving DecidableEq

/-- Whether the token reports an error. -/
def Lexeme.isError : Lexeme → Bool
  | .error _ => true
  | _ => false

/-- A token and the bytes of the text that it covers, from `start` up to `stop`. -/
structure Token where
  start : Nat
  stop : Nat
  lexeme : Lexeme
deriving DecidableEq

end Stencil.Expr
