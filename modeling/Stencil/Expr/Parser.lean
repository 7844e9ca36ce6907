import Stencil.Expr.Basic
import Stencil.Expr.Error
import Stencil.Expr.Lexer
namespace Stencil.Expr

/-! # Parser of expressions

Builds the tree of a list of tokens by recursive descent. From loose to tight: the conditional, the
seven levels of left-associative operators, the power, the prefixes, the accesses, the operands.
Every function takes at least one token, which is why the descent ends.
-/

/-- The operators of a level, which associate to the left. The higher the level is, the looser they
bind. -/
def leftOperators : Nat → List String
  | 7 => ["||"]
  | 6 => ["&&"]
  | 5 => ["??"]
  | 4 => ["==", "!=", "===", "!=="]
  | 3 => ["<", ">", "<=", ">="]
  | 2 => ["+", "-"]
  | 1 => ["*", "/", "%"]
  | _ => []

/-- An expression read off the front of `input`, where its last token ends, and what is left. -/
structure Parsed (input : List Token) where
  expr : Expr Span
  stop : Nat
  rest : Rest input

/-- What a parsing function returns. -/
abbrev Outcome (input : List Token) : Type :=
  Except ParseError (Parsed input)

/-- Where the tokens begin; behind the last token that is the end of the text. -/
def column (size : Nat) : List Token → Nat
  | [] => size
  | t :: _ => t.start

/-- An error noticed at the first of the given tokens. -/
def failAt {α : Type} (size : Nat) (ts : List Token) (cause : ParseCause) : Except ParseError α :=
  .error ⟨cause, column size ts⟩

/-- The value of a keyword. -/
def Keyword.literal : Keyword → Literal
  | .truth b => .bool b
  | .null => .null
  | .undefined => .undefined

/-- A parse of one token, the first of the list. -/
def single (t : Token) (more : List Token) (e : Span → Expr Span) : Parsed (t :: more) :=
  ⟨e ⟨t.start, t.stop⟩, t.stop, ⟨more, Nat.lt_succ_self _⟩⟩

mutual

/-- `condition ? yes : no`, or what binds tighter. -/
def parseConditional (size : Nat) (ts : List Token) : Outcome ts :=
  match parseLevel size 7 ts with
  | .error e => .error e
  | .ok p =>
    match hp : p.rest.tail with
    | ⟨_, _, .operator "?"⟩ :: more =>
      have hm : more.length < ts.length := by
        have := p.rest.shorter
        rw [hp, List.length_cons] at this
        omega
      match parseConditional size more with
      | .error e => .error e
      | .ok yes =>
        match hy : yes.rest.tail with
        | ⟨_, _, .mark .colon⟩ :: more' =>
          have hn : more'.length < ts.length := by
            have := yes.rest.shorter
            rw [hy, List.length_cons] at this
            omega
          match parseConditional size more' with
          | .error e => .error e
          | .ok no =>
            .ok ⟨.conditional ⟨column size ts, no.stop⟩ p.expr yes.expr no.expr, no.stop,
              no.rest.widen (Nat.le_of_lt hn)⟩
        | rest => failAt size rest (.missing .colon)
    | _ => .ok p
termination_by (ts.length, 12)

/-- Operands joined by operators of the level and of tighter ones; below them all is the power. -/
def parseLevel (size level : Nat) (ts : List Token) : Outcome ts :=
  match level with
  | 0 => parsePower size ts
  | level + 1 =>
    match parseLevel size level ts with
    | .error e => .error e
    | .ok p =>
      have := p.rest.shorter
      extendLevel size level ts p
termination_by (ts.length, 4 + level)

/-- Joins further operands to `left` while operators of the level `level + 1` follow. -/
def extendLevel (size level : Nat) (base : List Token) (left : Parsed base) : Outcome base :=
  match hl : left.rest.tail with
  | ⟨_, _, .operator op⟩ :: more =>
    if op ∈ leftOperators (level + 1) then
      have hm : more.length < base.length := by
        have := left.rest.shorter
        rw [hl, List.length_cons] at this
        omega
      match parseLevel size level more with
      | .error e => .error e
      | .ok p =>
        have := p.rest.shorter
        extendLevel size level base
          ⟨.binary ⟨column size base, p.stop⟩ op left.expr p.expr, p.stop,
            p.rest.widen (Nat.le_of_lt hm)⟩
    else .ok left
  | _ => .ok left
termination_by (left.rest.tail.length, 0)
decreasing_by
  · rw [hl]
    exact Prod.Lex.left _ _ (Nat.lt_succ_self _)
  · rw [hl]
    exact Prod.Lex.left _ _ (Nat.lt_succ_of_lt p.rest.shorter)

/-- `base ** exponent`, whose exponent may be a power again. -/
def parsePower (size : Nat) (ts : List Token) : Outcome ts :=
  match parseUnary size ts with
  | .error e => .error e
  | .ok p =>
    match hp : p.rest.tail with
    | ⟨_, _, .operator "**"⟩ :: more =>
      have hm : more.length < ts.length := by
        have := p.rest.shorter
        rw [hp, List.length_cons] at this
        omega
      match parsePower size more with
      | .error e => .error e
      | .ok q =>
        .ok ⟨.binary ⟨column size ts, q.stop⟩ "**" p.expr q.expr, q.stop,
          q.rest.widen (Nat.le_of_lt hm)⟩
    | _ => .ok p
termination_by (ts.length, 3)

/-- Signs and negations before an operand. -/
def parseUnary (size : Nat) (ts : List Token) : Outcome ts :=
  match ts with
  | ⟨start, _, .operator "!"⟩ :: more =>
    match parseUnary size more with
    | .error e => .error e
    | .ok p => .ok ⟨.negation ⟨start, p.stop⟩ p.expr, p.stop, p.rest.widen (Nat.le_succ _)⟩
  | ⟨start, _, .operator "+"⟩ :: more =>
    match parseUnary size more with
    | .error e => .error e
    | .ok p => .ok ⟨.signed ⟨start, p.stop⟩ "+" p.expr, p.stop, p.rest.widen (Nat.le_succ _)⟩
  | ⟨start, _, .operator "-"⟩ :: more =>
    match parseUnary size more with
    | .error e => .error e
    | .ok p => .ok ⟨.signed ⟨start, p.stop⟩ "-" p.expr, p.stop, p.rest.widen (Nat.le_succ _)⟩
  | ts =>
    match parsePrimary size ts with
    | .error e => .error e
    | .ok p =>
      have := p.rest.shorter
      extendAccess size ts p
termination_by (ts.length, 2)

/-- Adds the accesses that follow a receiver: keys in brackets, and members behind a dot. -/
def extendAccess (size : Nat) (base : List Token) (receiver : Parsed base) : Outcome base :=
  match hr : receiver.rest.tail with
  | ⟨_, _, .mark .openBracket⟩ :: more =>
    have hm : more.length < base.length := by
      have := receiver.rest.shorter
      rw [hr, List.length_cons] at this
      omega
    match parseConditional size more with
    | .error e => .error e
    | .ok key =>
      match hk : key.rest.tail with
      | ⟨_, stop, .mark .closeBracket⟩ :: rest =>
        have hlt : rest.length < more.length := by
          have := key.rest.shorter
          rw [hk, List.length_cons] at this
          omega
        extendAccess size base
          ⟨.keyed ⟨column size base, stop⟩ receiver.expr key.expr, stop,
            ⟨rest, Nat.lt_trans hlt hm⟩⟩
      | rest => failAt size rest (.missing .closeBracket)
  | ⟨_, _, .mark .dot⟩ :: more =>
    match hm : more with
    | ⟨_, stop, .identifier path⟩ :: rest =>
      have hlt : rest.length < base.length := by
        have := receiver.rest.shorter
        rw [hr, List.length_cons, List.length_cons] at this
        omega
      extendAccess size base
        ⟨.member ⟨column size base, stop⟩ receiver.expr path, stop, ⟨rest, hlt⟩⟩
    | ⟨_, stop, .keyword k⟩ :: rest =>
      have hlt : rest.length < base.length := by
        have := receiver.rest.shorter
        rw [hr, List.length_cons, List.length_cons] at this
        omega
      extendAccess size base
        ⟨.member ⟨column size base, stop⟩ receiver.expr k.text, stop, ⟨rest, hlt⟩⟩
    | rest => failAt size rest .identifierExpected
  | _ => .ok receiver
termination_by (receiver.rest.tail.length, 0)
decreasing_by
  · rw [hr]
    exact Prod.Lex.left _ _ (Nat.lt_succ_self _)
  · rw [hr]
    exact Prod.Lex.left _ _ (Nat.lt_succ_of_lt hlt)
  · rw [hr]
    exact Prod.Lex.left _ _ (by simp only [List.length_cons]; omega)
  · rw [hr]
    exact Prod.Lex.left _ _ (by simp only [List.length_cons]; omega)

/-- A literal, a path, or an expression in parentheses, whose node does not cover them. -/
def parsePrimary (size : Nat) (ts : List Token) : Outcome ts :=
  match ts with
  | [] => failAt size [] .endOfText
  | t :: more =>
    match t.lexeme with
    | .mark .openParen =>
      match parseConditional size more with
      | .error e => .error e
      | .ok p =>
        match hp : p.rest.tail with
        | ⟨_, stop, .mark .closeParen⟩ :: rest =>
          .ok ⟨p.expr, stop, ⟨rest, by
            have := p.rest.shorter
            rw [hp, List.length_cons] at this
            simp only [List.length_cons]
            omega⟩⟩
        | rest => failAt size rest (.missing .closeParen)
    | .keyword k => .ok (single t more fun s => .literal s k.literal)
    | .number _ x => .ok (single t more fun s => .literal s (.number x))
    | .string s => .ok (single t more fun a => .literal a (.string s))
    | .identifier path => .ok (single t more fun s => .lookup s path)
    | lexeme => failAt size (t :: more) (.unexpected lexeme.shown)
termination_by (ts.length, 0)

end

/-- The tree of a whole list of tokens, in a text of `size` bytes. -/
def parseTokens (size : Nat) (ts : List Token) : Except ParseError (Expr Span) :=
  match parseConditional size ts with
  | .error e => .error e
  | .ok p =>
    match p.rest.tail with
    | [] => .ok p.expr
    | t :: rest => failAt size (t :: rest) (.unexpected t.lexeme.shown)

/-- The first error among the tokens, and where it begins. -/
def lexicalError? (ts : List Token) : Option (LexError × Nat) :=
  ts.findSome? fun t =>
    match t.lexeme with
    | .error e => some (e, t.start)
    | _ => none

/-- The tree of a text. -/
def parse (text : String) : Except Error (Expr Span) :=
  let ts := tokenize text
  match lexicalError? ts with
  | some (e, start) => .error (.lexical e start)
  | none =>
    match parseTokens (Text.byteLength text.toList) ts with
    | .error e => .error (.grammatical e)
    | .ok e => .ok e

end Stencil.Expr
