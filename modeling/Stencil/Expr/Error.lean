import Stencil.Decimal.Format
import Stencil.Expr.Token
namespace Stencil.Expr

/-! # Errors of expressions

Why an expression has no value: it has no tokens, it has no tree, or its evaluation fails.
-/

/-- Why a list of tokens is no expression. -/
inductive ParseCause
  /-- No expression goes on with this token; the text is what messages quote of it. -/
  | unexpected (text : String)
  | missing (m : Mark)
  | identifierExpected
  | endOfText
deriving DecidableEq, Repr

/-- The wording of a grammatical error. -/
def ParseCause.message : ParseCause → String
  | .unexpected text => "Unexpected token '" ++ text ++ "'"
  | .missing m => "Missing expected " ++ m.char.toString
  | .identifierExpected => "Expected identifier after '.'"
  | .endOfText => "Unexpected end of expression"

/-- A grammatical error and the byte where it is noticed. -/
structure ParseError where
  cause : ParseCause
  column : Nat
deriving DecidableEq, Repr

/-- The two values that have no members. -/
inductive Nothing
  | undefined
  | null
deriving DecidableEq, Repr

/-- The spelling of a value without members. -/
def Nothing.text : Nothing → String
  | .undefined => "undefined"
  | .null => "null"

/-- Why the evaluation of a tree fails. -/
inductive EvalError
  /-- The member `key` of a value without members was read. -/
  | reading (receiver : Nothing) (key : String)
  /-- There is no such operator between two operands. -/
  | unsupported (operator : String)
deriving DecidableEq, Repr

/-- The wording of a failed evaluation. -/
def EvalError.message : EvalError → String
  | .reading receiver key =>
    "Cannot read properties of " ++ receiver.text ++ " (reading '" ++ key ++ "')"
  | .unsupported operator => "Unsupported operator '" ++ operator ++ "'"

/-- Why an expression has no value. -/
inductive Error
  | lexical (e : LexError) (column : Nat)
  | grammatical (e : ParseError)
  | evaluation (e : EvalError)
deriving DecidableEq

/-- The full wording of an error in the expression `input`. -/
def Error.message (input : String) : Error → String
  | .lexical e column =>
    "Lexer Error: " ++ e.message ++ " at column " ++ toString column ++ " in expression ["
      ++ input ++ "]"
  | .grammatical e =>
    "Parser Error: " ++ e.cause.message ++ " at column " ++ toString e.column ++ " in ["
      ++ input ++ "]"
  | .evaluation e => "Evaluation Error: " ++ e.message ++ " in [" ++ input ++ "]"

/-- What messages quote of a token: a number by its value, a string without its quotes. -/
def Lexeme.shown : Lexeme → String
  | .mark m => m.char.toString
  | .identifier path => path
  | .keyword k => k.text
  | .string s => s
  | .operator text => text
  | .number _ x => Decimal.literalText x
  | .error e => e.message

end Stencil.Expr
