import Stencil.Proofs.Expr.Parsing
namespace Stencil

/-! # Printing and parsing

Expressions as text, with parentheses only where an operand binds looser than its place allows. The
pieces of the text are cut off it one by one, since a space ends every token, and the grammar
derives them, with the expression as their tree; so the printed text is parsed into the expression.
What the grammar derives with that tree has at least as many lexemes, by induction on the
derivation, so no parentheses are superfluous.
-/

/-! ## Digits -/

namespace Decimal

theorem natural?_eq_some_iff {ds : List Char} {n : Nat} : natural? ds = some n ↔
    ds ≠ [] ∧ (∀ c ∈ ds, c.isDigit = true) ∧ digitsValue 0 ds = n := by
  simp [natural?, and_assoc]

/-- A run of digits is read as the number that it writes. -/
theorem read?_of_natural? {ds : List Char} {n : Nat} (h : natural? ds = some n) :
    read? ds = some (nearest n 0) := by
  obtain ⟨hne, hds, rfl⟩ := natural?_eq_some_iff.1 h
  have htake : ds.takeWhile Char.isDigit = ds := List.takeWhile_eq_self_iff.2 hds
  have hdrop : ds.dropWhile Char.isDigit = [] := List.dropWhile_eq_nil_iff.2 hds
  have hunsigned : unsigned? ds = some (nearest (digitsValue 0 ds) 0) := by
    simp [unsigned?, htake, hdrop, hne, exponent?, digitsValue]
  obtain ⟨c, cs, rfl⟩ := List.exists_cons_of_ne_nil hne
  have hc : c.isDigit = true := hds c (List.mem_cons_self ..)
  unfold read?
  split
  · next hcons =>
    cases hcons
    cases hc
  · next hcons =>
    cases hcons
    cases hc
  · exact hunsigned

end Decimal

namespace Expr

/-! ## Pieces of text -/

/-- The two quotes of a string. -/
inductive Quote
  | single
  | double
deriving DecidableEq, Repr

def Quote.char : Quote → Char
  | .single => '\''
  | .double => '"'

/-- What an expression leaves open about its text: the quote of a string and the digits of a
number. -/
structure Spelling where
  quote : Quote
  digits : List Char
deriving DecidableEq, Repr

/-- A word of a text and what it is cut as. -/
structure Piece where
  lexeme : Lexeme
  word : List Char

/-- Only the backslash and the quote of the string are escaped. -/
def escape (q : Quote) (s : List Char) : List Char :=
  s.flatMap fun c => if c = '\\' ∨ c = q.char then ['\\', c] else [c]

def Piece.quoted (q : Quote) (s : String) : Piece :=
  ⟨.string s, q.char :: (escape q s.toList ++ [q.char])⟩

def Piece.mark (m : Mark) : Piece :=
  ⟨.mark m, [m.char]⟩

def Piece.operator (text : String) : Piece :=
  ⟨.operator text, text.toList⟩

def Piece.keyword (k : Keyword) : Piece :=
  ⟨.keyword k, k.text.toList⟩

/-- A path, or a keyword if it is spelled like one. -/
def Piece.path (path : String) : Piece :=
  match Keyword.ofText? path with
  | some k => .keyword k
  | none => ⟨.identifier path, path.toList⟩

def Piece.literal (a : Spelling) : Literal → Piece
  | .undefined => .keyword .undefined
  | .null => .keyword .null
  | .bool b => .keyword (.truth b)
  | .number x => ⟨.number (String.ofList a.digits) x, a.digits⟩
  | .string s => .quoted a.quote s

/-! ## Parentheses -/

/-- How loosely something of the category holds together. -/
def Category.rank : Category → Nat
  | .primary => 0
  | .access => 1
  | .signed => 2
  | .level n => n + 3
  | .conditional => 11

/-- How loosely an operator binds. -/
def looseness (op : String) : Nat :=
  (operatorLevel? op).getD 0

/-- The tightest category of the grammar that has the node. -/
def category {α : Type} : Expr α → Category
  | .literal _ _ | .lookup _ _ => .primary
  | .keyed _ _ _ | .member _ _ _ => .access
  | .negation _ _ | .signed _ _ _ => .signed
  | .binary _ op _ _ => .level (looseness op)
  | .conditional _ _ _ _ => .conditional

/-- What may stand left of an operator: a sign and its operand before a power, and operators of the
same level before the others, which associate to the left. -/
def leftPlace (op : String) : Category :=
  if op = "**" then .signed else .level (looseness op)

/-- What may stand right of an operator: powers behind a power, which associates to the right, and
tighter operators behind the others. -/
def rightPlace (op : String) : Category :=
  if op = "**" then .level 0 else .level (looseness op - 1)

/-- An operand in its place, in parentheses if it holds together more loosely than the place
allows. -/
def operand (place own : Category) (pieces : List Piece) : List Piece :=
  if own.rank ≤ place.rank then pieces
  else .mark .openParen :: (pieces ++ [.mark .closeParen])

/-- The pieces of an expression. -/
def pieces : Expr Spelling → List Piece
  | .literal a v => [.literal a v]
  | .lookup _ path => [.path path]
  | .keyed _ r k =>
    operand .access r.category r.pieces ++
      .mark .openBracket :: (k.pieces ++ [.mark .closeBracket])
  | .member _ r path => operand .access r.category r.pieces ++ [.mark .dot, .path path]
  | .binary _ op l r =>
    operand (leftPlace op) l.category l.pieces ++
      .operator op :: operand (rightPlace op) r.category r.pieces
  | .negation _ e => .operator "!" :: operand .signed e.category e.pieces
  | .signed _ sign e => .operator sign :: operand .signed e.category e.pieces
  | .conditional _ c y n =>
    operand (.level 7) c.category c.pieces ++
      .operator "?" :: (y.pieces ++ .mark .colon :: n.pieces)

/-- The text of an expression, with a space between two tokens. -/
def print (e : Expr Spelling) : String :=
  String.ofList ([' '].intercalate (e.pieces.map Piece.word))

/-- The text can be cut as one word, a path or a keyword. -/
def IsWord (s : String) : Prop :=
  ∃ c cs, s.toList = c :: cs ∧ isPathStart c = true ∧ cs.all isPathPart = true

/-- The expression has a text: its paths are words that are no keywords, its members are words, its
numbers are the values of their digits, and its operators and signs are those of the grammar. -/
def IsWritable : Expr Spelling → Prop
  | .literal a (.number x) => ∃ n, Decimal.natural? a.digits = some n ∧ x = Decimal.nearest n 0
  | .literal _ _ => True
  | .lookup _ path => IsWord path ∧ Keyword.ofText? path = none
  | .keyed _ r k => r.IsWritable ∧ k.IsWritable
  | .member _ r path => r.IsWritable ∧ IsWord path
  | .binary _ op l r => (operatorLevel? op).isSome ∧ l.IsWritable ∧ r.IsWritable
  | .negation _ e => e.IsWritable
  | .signed _ sign e => (sign = "+" ∨ sign = "-") ∧ e.IsWritable
  | .conditional _ c y n => c.IsWritable ∧ y.IsWritable ∧ n.IsWritable

/-! ## The pieces are tokens -/

variable {α : Type} {a : Spelling} {e : Expr Spelling} {path : String}

/-- The piece is cut off a text at whose end it stands. -/
def Piece.IsCut (p : Piece) : Prop :=
  Cuts p.lexeme p.word []

theorem Piece.isCut_mark (m : Mark) : (Piece.mark m).IsCut := by
  cases m <;> exact ⟨rfl, _, [], rfl, by decide, rfl⟩

theorem Piece.isCut_operator {op : String} (h : (operatorLevel? op).isSome) :
    (Piece.operator op).IsCut := by
  unfold operatorLevel? at h
  split at h
  case h_18 => cases h
  all_goals exact ⟨rfl, _, _, rfl, by decide, rfl⟩

theorem Piece.isCut_not : (Piece.operator "!").IsCut :=
  ⟨rfl, _, _, rfl, by decide, rfl⟩

theorem Piece.isCut_question : (Piece.operator "?").IsCut :=
  ⟨rfl, _, _, rfl, by decide, rfl⟩

theorem isSome_operatorLevel?_sign {sign : String} (h : sign = "+" ∨ sign = "-") :
    (operatorLevel? sign).isSome := by
  rcases h with rfl | rfl <;> rfl

theorem Piece.word_path (path : String) : (Piece.path path).word = path.toList := by
  rw [Piece.path]
  split
  · next k hk => rw [Keyword.ofText?_eq_some_iff.1 hk, Piece.keyword]
  · rfl

theorem Piece.isCut_path (h : IsWord path) : (Piece.path path).IsCut := by
  obtain ⟨c, cs, hpath, hc, hcs⟩ := h
  have hspace : isSpace c = false :=
    isSpace_eq_false isPathPart (fun _ => isPathPart_of_isSpace) (by simp [isPathPart, hc])
  have htext : String.ofList (c :: cs) = path := by rw [← hpath, String.ofList_toList]
  have hcut : cutToken c cs = ⟨(Piece.path path).lexeme, c :: cs, []⟩ := by
    have htake : cs.takeWhile isPathPart = cs :=
      List.takeWhile_eq_self_iff.2 (List.all_eq_true.1 hcs)
    have hdrop : cs.dropWhile isPathPart = [] :=
      List.dropWhile_eq_nil_iff.2 (List.all_eq_true.1 hcs)
    simp only [cutToken, hc, if_true, cutWord, htake, hdrop, htext, Piece.path]
    cases Keyword.ofText? path <;> rfl
  have hword : (Piece.path path).word = c :: cs := (Piece.word_path path).trans hpath
  refine ⟨?_, c, cs, hword, hspace, ?_⟩
  · rw [Piece.path]
    split <;> rfl
  · rw [List.append_nil, hcut, hword]

theorem Piece.isCut_keyword (k : Keyword) : (Piece.keyword k).IsCut := by
  have hword : IsWord k.text := by
    cases k with
    | truth b => cases b <;> exact ⟨_, _, rfl, by decide, by decide⟩
    | null => exact ⟨_, _, rfl, by decide, by decide⟩
    | undefined => exact ⟨_, _, rfl, by decide, by decide⟩
  have hcut := Piece.isCut_path hword
  rwa [Piece.path, Keyword.ofText?_eq_some_iff.2 rfl] at hcut

theorem spanNumber_digits {ds : List Char} (h : ∀ c ∈ ds, c.isDigit = true) :
    spanNumber ds = (ds, []) := by
  induction ds with
  | nil => rfl
  | cons c ds ih =>
    rw [spanNumber_cons (by simp [h c]), ih fun x hx => h x (List.mem_cons_of_mem _ hx)]

theorem isPathStart_of_isDigit {c : Char} (h : c.isDigit = true) : isPathStart c = false := by
  obtain ⟨hlow, hhigh⟩ := Char.isDigit_iff_toNat.1 h
  have hdigits : ∀ n < 58, 48 ≤ n → isPathStart (Char.ofNat n) = false := by decide
  have hc := hdigits c.toNat (Nat.lt_succ_of_le hhigh) hlow
  rwa [Char.ofNat_toNat] at hc

theorem Piece.isCut_number {n : Nat} (h : Decimal.natural? a.digits = some n) :
    (Piece.literal a (.number (Decimal.nearest n 0))).IsCut := by
  obtain ⟨hne, hds, -⟩ := Decimal.natural?_eq_some_iff.1 h
  obtain ⟨c, cs, hcs⟩ := List.exists_cons_of_ne_nil hne
  have hc : c.isDigit = true := hds c (by simp [hcs])
  have hspace : isSpace c = false :=
    isSpace_eq_false Char.isDigit (fun _ => isDigit_of_isSpace) hc
  have hstart : isPathStart c = false := isPathStart_of_isDigit hc
  refine ⟨rfl, c, cs, hcs, hspace, ?_⟩
  rw [List.append_nil]
  simp only [cutToken, hstart, beginsNumber, hc, cutNumber, ← hcs, spanNumber_digits hds,
    Decimal.read?_of_natural? h]
  rfl

theorem cutString_escape (q : Quote) (s content taken : List Char) :
    cutString q.char content taken (escape q s ++ [q.char]) =
      ⟨.string (String.ofList (content.reverse ++ s)),
        taken.reverse ++ (escape q s ++ [q.char]), []⟩ := by
  have hquote : ¬ '\\' = q.char := by cases q <;> decide
  induction s generalizing content taken with
  | nil =>
    rw [escape, List.flatMap_nil, List.nil_append, cutString_close]
    simp
  | cons c s ih =>
    rw [escape, List.flatMap_cons]
    by_cases hc : c = '\\' ∨ c = q.char
    · have hself : unescape c = c := by
        rcases hc with rfl | rfl
        · decide
        · cases q <;> decide
      rw [if_pos hc, ← escape, List.append_assoc]
      simp [cutString_escaped hquote, hself, ih]
    · obtain ⟨hescape, hend⟩ := not_or.1 hc
      rw [if_neg hc, ← escape, List.append_assoc]
      simp [cutString_plain hend hescape, ih]

theorem Piece.isCut_quoted (q : Quote) (s : String) : (Piece.quoted q s).IsCut := by
  refine ⟨rfl, q.char, escape q s.toList ++ [q.char], rfl, by cases q <;> decide, ?_⟩
  have hcut (cs : List Char) : cutToken q.char cs = cutString q.char [] [q.char] cs := by
    cases q <;> rfl
  rw [List.append_nil, hcut, cutString_escape]
  simp [Piece.quoted]

theorem Piece.isCut_literal {v : Literal} (h : IsWritable (.literal a v)) :
    (Piece.literal a v).IsCut := by
  cases v with
  | undefined => exact Piece.isCut_keyword .undefined
  | null => exact Piece.isCut_keyword .null
  | bool b => exact Piece.isCut_keyword (.truth b)
  | number x =>
    obtain ⟨n, hn, rfl⟩ := h
    exact Piece.isCut_number hn
  | string s => exact Piece.isCut_quoted a.quote s

theorem isCut_of_mem_operand {place own : Category} {ps : List Piece} (h : ∀ p ∈ ps, p.IsCut) :
    ∀ p ∈ operand place own ps, p.IsCut := by
  unfold operand
  split
  · exact h
  · simp only [List.forall_mem_cons, List.forall_mem_append]
    exact ⟨Piece.isCut_mark _, h, Piece.isCut_mark _, by simp⟩

/-- Every piece of a writable expression is a token. -/
theorem isCut_of_mem_pieces (h : e.IsWritable) : ∀ p ∈ e.pieces, p.IsCut := by
  induction e with
  | literal a v => simpa [pieces] using Piece.isCut_literal h
  | lookup a path => simpa [pieces] using Piece.isCut_path h.1
  | keyed a r k ihr ihk =>
    simp only [pieces, List.forall_mem_append, List.forall_mem_cons]
    exact ⟨isCut_of_mem_operand (ihr h.1), Piece.isCut_mark _, ihk h.2, Piece.isCut_mark _, by simp⟩
  | member a r path ih =>
    simp only [pieces, List.forall_mem_append, List.forall_mem_cons]
    exact ⟨isCut_of_mem_operand (ih h.1), Piece.isCut_mark _, Piece.isCut_path h.2, by simp⟩
  | binary a op l r ihl ihr =>
    simp only [pieces, List.forall_mem_append, List.forall_mem_cons]
    exact ⟨isCut_of_mem_operand (ihl h.2.1), Piece.isCut_operator h.1,
      isCut_of_mem_operand (ihr h.2.2)⟩
  | negation a e ih =>
    simp only [pieces, List.forall_mem_cons]
    exact ⟨Piece.isCut_not, isCut_of_mem_operand (ih h)⟩
  | signed a sign e ih =>
    simp only [pieces, List.forall_mem_cons]
    exact ⟨Piece.isCut_operator (isSome_operatorLevel?_sign h.1), isCut_of_mem_operand (ih h.2)⟩
  | conditional a c y n ihc ihy ihn =>
    simp only [pieces, List.forall_mem_append, List.forall_mem_cons]
    exact ⟨isCut_of_mem_operand (ihc h.1), Piece.isCut_question, ihy h.2.1, Piece.isCut_mark _,
      ihn h.2.2⟩

/-! ## The grammar derives the pieces -/

/-- The category of a rank; the levels end at seven. -/
def Category.ofRank : Nat → Category
  | 0 => .primary
  | 1 => .access
  | 2 => .signed
  | n + 3 => if n ≤ 7 then .level n else .conditional

/-- Operators have no other levels. -/
def Category.IsProper : Category → Prop
  | .level n => n ≤ 7
  | _ => True

variable {c place own : Category} {l : List Lexeme} {t : Expr Unit} {ps : List Piece}

theorem Category.IsProper.ofRank_rank (h : c.IsProper) : Category.ofRank c.rank = c := by
  cases c with
  | level n => exact if_pos h
  | _ => rfl

theorem Category.IsProper.rank_le (h : c.IsProper) : c.rank ≤ Category.conditional.rank := by
  cases c with
  | level n => exact Nat.add_le_add_right (Nat.le_succ_of_le h) 3
  | _ => decide

theorem Derives.ofRank_succ {n : Nat} (h : Derives (.ofRank n) l t) :
    Derives (.ofRank (n + 1)) l t := by
  match n, h with
  | 0, h => exact .noAccess h
  | 1, h => exact .noSign h
  | 2, h => exact .noPower h
  | n + 3, h =>
    have hrank (m : Nat) : Category.ofRank (m + 3) = if m ≤ 7 then .level m else .conditional := rfl
    rw [hrank] at h
    rw [Nat.add_right_comm, hrank]
    by_cases hn : n + 1 ≤ 7
    · rw [if_pos (Nat.le_of_succ_le hn)] at h
      rw [if_pos hn]
      exact .tighter h
    · rw [if_neg hn]
      split at h
      · next hle =>
        obtain rfl : n = 7 := by omega
        exact .noChoice h
      · exact h

/-- What belongs to a category belongs to every looser one. -/
theorem Derives.loosen (h : Derives c l t) (hc : c.IsProper) (hplace : place.IsProper)
    (hle : c.rank ≤ place.rank) : Derives place l t := by
  have hlift {m n : Nat} (hmn : m ≤ n) (h : Derives (.ofRank m) l t) :
      Derives (.ofRank n) l t := by
    induction hmn with
    | refl => exact h
    | step _ ih => exact ih.ofRank_succ
  rw [← hc.ofRank_rank] at h
  rw [← hplace.ofRank_rank]
  exact hlift hle h

theorem Derives.conditional (h : Derives c l t) (hc : c.IsProper) : Derives .conditional l t :=
  h.loosen hc trivial hc.rank_le

/-- An operand has its place, with parentheses or without. -/
theorem Derives.inPlace (h : Derives own (ps.map Piece.lexeme) t) (hown : own.IsProper)
    (place : Category) (hplace : place.IsProper) :
    Derives place ((operand place own ps).map Piece.lexeme) t := by
  unfold operand
  split
  · next hle => exact h.loosen hown hplace hle
  · have hparens := Derives.parens (h.conditional hown)
    have := hparens.loosen trivial hplace (Nat.zero_le _)
    simpa [Piece.mark] using this

theorem looseness_eq {op : String} {n : Nat} (h : operatorLevel? op = some n) :
    looseness op = n := by
  rw [looseness, h, Option.getD_some]

theorem looseness_le (op : String) : looseness op ≤ 7 := by
  unfold looseness
  cases h : operatorLevel? op with
  | none => exact Nat.zero_le 7
  | some n => exact le_of_operatorLevel? h

theorem isProper_category (e : Expr α) : e.category.IsProper := by
  cases e with
  | binary a op l r => exact looseness_le op
  | _ => trivial

theorem isProper_leftPlace (op : String) : (leftPlace op).IsProper := by
  unfold leftPlace
  split
  · trivial
  · exact looseness_le op

theorem isProper_rightPlace (op : String) : (rightPlace op).IsProper := by
  unfold rightPlace
  split
  · exact Nat.zero_le 7
  · exact (Nat.sub_le _ 1).trans (looseness_le op)

/-- The power is alone at its level. -/
theorem operatorLevel?_eq_zero_iff {op : String} : operatorLevel? op = some 0 ↔ op = "**" := by
  constructor
  · intro h
    unfold operatorLevel? at h
    split at h <;> cases h
    rfl
  · rintro rfl
    rfl

theorem ne_power {op : String} {n : Nat} (h : operatorLevel? op = some (n + 1)) : op ≠ "**" := by
  intro hop
  rw [operatorLevel?_eq_zero_iff.2 hop] at h
  cases h

theorem leftPlace_eq {op : String} {n : Nat} (h : operatorLevel? op = some (n + 1)) :
    leftPlace op = .level (n + 1) := by
  rw [leftPlace, if_neg (ne_power h), looseness_eq h]

theorem rightPlace_eq {op : String} {n : Nat} (h : operatorLevel? op = some (n + 1)) :
    rightPlace op = .level n := by
  rw [rightPlace, if_neg (ne_power h), looseness_eq h, Nat.add_sub_cancel]

/-- The operands of an operator in their places. -/
theorem Derives.inPlaces {op : String} {r : List Lexeme} {tr : Expr Unit}
    (hop : (operatorLevel? op).isSome) (hl : Derives (leftPlace op) l t)
    (hr : Derives (rightPlace op) r tr) :
    Derives (.level (looseness op)) (l ++ .operator op :: r) (.binary () op t tr) := by
  obtain ⟨n, hn⟩ := Option.isSome_iff_exists.1 hop
  rw [looseness_eq hn]
  cases n with
  | zero =>
    obtain rfl := operatorLevel?_eq_zero_iff.1 hn
    exact .power hl hr
  | succ n =>
    rw [leftPlace_eq hn] at hl
    rw [rightPlace_eq hn] at hr
    exact .binary hn hl hr

theorem derives_literal (a : Spelling) (v : Literal) :
    Derives .primary [(Piece.literal a v).lexeme] (.literal () v) := by
  cases v with
  | undefined => exact .undefined
  | null => exact .null
  | bool b => exact .truth b
  | number x => exact .number _ x
  | string s => exact .string s

theorem Derives.memberPath (h : Derives .access l t) (path : String) :
    Derives .access (l ++ [.mark .dot, (Piece.path path).lexeme]) (.member () t path) := by
  rw [Piece.path]
  split
  · next k hk =>
    obtain rfl := Keyword.ofText?_eq_some_iff.1 hk
    exact .keywordMember k h
  · exact .member path h

/-- The grammar derives the pieces of a writable expression, with the expression as their tree. -/
theorem derives_pieces (h : e.IsWritable) :
    Derives e.category (e.pieces.map Piece.lexeme) e.bare := by
  induction e with
  | literal a v => exact derives_literal a v
  | lookup a path =>
    have hpath : Piece.path path = ⟨.identifier path, path.toList⟩ := by
      rw [Piece.path, h.2]
    simp only [pieces, hpath]
    exact .path path
  | keyed a r k ihr ihk =>
    have hr := (ihr h.1).inPlace (isProper_category r) .access trivial
    have hk := (ihk h.2).conditional (isProper_category k)
    simpa [pieces, category, bare, map, Piece.mark] using Derives.keyed hr hk
  | member a r path ih =>
    have hr := (ih h.1).inPlace (isProper_category r) .access trivial
    simpa [pieces, category, bare, map, Piece.mark] using hr.memberPath path
  | binary a op l r ihl ihr =>
    have hl := (ihl h.2.1).inPlace (isProper_category l) _ (isProper_leftPlace op)
    have hr := (ihr h.2.2).inPlace (isProper_category r) _ (isProper_rightPlace op)
    simpa [pieces, category, bare, map, Piece.operator] using Derives.inPlaces h.1 hl hr
  | negation a e ih =>
    have he := (ih h).inPlace (isProper_category e) .signed trivial
    simpa [pieces, category, bare, map, Piece.operator] using Derives.negation he
  | signed a sign e ih =>
    have he := (ih h.2).inPlace (isProper_category e) .signed trivial
    rcases h.1 with rfl | rfl
    · simpa [pieces, category, bare, map, Piece.operator] using Derives.plus he
    · simpa [pieces, category, bare, map, Piece.operator] using Derives.minus he
  | conditional a c y n ihc ihy ihn =>
    have hc := (ihc h.1).inPlace (isProper_category c) (.level 7) (Nat.le_refl 7)
    have hy := (ihy h.2.1).conditional (isProper_category y)
    have hn := (ihn h.2.2).conditional (isProper_category n)
    simpa [pieces, category, bare, map, Piece.operator, Piece.mark] using Derives.choice hc hy hn

/-! ## No shorter list of lexemes has the tree -/

theorem operand_of_le (h : own.rank ≤ place.rank) : operand place own ps = ps :=
  if_pos h

/-- A looser place needs no more parentheses. -/
theorem operand_length_le_of_le {place' : Category} (h : place.rank ≤ place'.rank) :
    (operand place' own ps).length ≤ (operand place own ps).length := by
  unfold operand
  split
  · split
    · exact Nat.le_refl _
    · simp
      omega
  · next hlt =>
    rw [if_neg fun hle => hlt (hle.trans h)]

/-- Whatever derives the tree has at least as many lexemes as the pieces, so that no parentheses
among them are superfluous. -/
theorem Derives.operand_length_le (h : Derives c l t) (e : Expr Spelling) (he : e.bare = t) :
    (operand c e.category e.pieces).length ≤ l.length := by
  induction h generalizing e with
  | choice _ _ _ ihc ihy ihn =>
    cases e with
    | conditional a ec ey en =>
      obtain ⟨-, rfl, rfl, rfl⟩ := Expr.conditional.inj he
      have hc := ihc ec rfl
      have hy := ihy ey rfl
      have hn := ihn en rfl
      rw [operand_of_le (isProper_category _).rank_le] at hy hn ⊢
      simp only [pieces, List.length_append, List.length_cons]
      omega
    | _ => cases he
  | binary hop _ _ ihl ihr =>
    cases e with
    | binary a op' el er =>
      obtain ⟨-, rfl, rfl, rfl⟩ := Expr.binary.inj he
      have hl := ihl el rfl
      have hr := ihr er rfl
      rw [operand_of_le (by simp [category, looseness_eq hop])]
      simp only [pieces, leftPlace_eq hop, rightPlace_eq hop, List.length_append,
        List.length_cons]
      omega
    | _ => cases he
  | power _ _ ihl ihr =>
    cases e with
    | binary a op' el er =>
      obtain ⟨-, rfl, rfl, rfl⟩ := Expr.binary.inj he
      have hl : (operand (leftPlace "**") _ _).length ≤ _ := ihl el rfl
      have hr : (operand (rightPlace "**") _ _).length ≤ _ := ihr er rfl
      rw [operand_of_le (by exact Nat.le_refl _)]
      simp only [pieces, List.length_append, List.length_cons]
      omega
    | _ => cases he
  | negation _ ih =>
    cases e with
    | negation a e =>
      obtain ⟨-, rfl⟩ := Expr.negation.inj he
      exact Nat.succ_le_succ (ih e rfl)
    | _ => cases he
  | plus _ ih | minus _ ih =>
    cases e with
    | signed a sign e =>
      obtain ⟨-, rfl, rfl⟩ := Expr.signed.inj he
      exact Nat.succ_le_succ (ih e rfl)
    | _ => cases he
  | keyed _ _ ihl ihk =>
    cases e with
    | keyed a er ek =>
      obtain ⟨-, rfl, rfl⟩ := Expr.keyed.inj he
      have hr := ihl er rfl
      have hk := ihk ek rfl
      rw [operand_of_le (isProper_category _).rank_le] at hk
      rw [operand_of_le (by exact Nat.le_refl _)]
      simp only [pieces, List.length_append, List.length_cons]
      omega
    | _ => cases he
  | member _ _ ih | keywordMember _ _ ih =>
    cases e with
    | member a er path =>
      obtain ⟨-, rfl, -⟩ := Expr.member.inj he
      have hr := ih er rfl
      rw [operand_of_le (by exact Nat.le_refl _)]
      simp only [pieces, List.length_append, List.length_cons]
      omega
    | _ => cases he
  | number | string | truth | null | undefined | path =>
    cases e with
    | literal | lookup => exact Nat.le_refl 1
    | _ => cases he
  | parens _ ih =>
    have hlen := ih e he
    rw [operand_of_le (isProper_category e).rank_le] at hlen
    unfold operand
    split
    · simp
      omega
    · simpa using hlen
  | tighter _ ih => exact Nat.le_trans (operand_length_le_of_le (Nat.le_succ _)) (ih e he)
  | noChoice _ ih | noPower _ ih | noSign _ ih | noAccess _ ih =>
    exact Nat.le_trans (operand_length_le_of_le (by decide)) (ih e he)

/-! ## The text -/

/-- Pieces with a space between two of them are cut as what they are. -/
theorem exists_spelled_intercalate (h : ∀ p ∈ ps, p.IsCut) (start : Nat) (space : List Char)
    (hspace : ∀ c ∈ space, isSpace c = true) :
    ∃ ts, Spelled start (space ++ [' '].intercalate (ps.map Piece.word)) ts ∧
      ts.map Token.lexeme = ps.map Piece.lexeme := by
  induction ps generalizing start space with
  | nil => exact ⟨[], .nothing (by simpa using hspace), rfl⟩
  | cons p ps ih =>
    have hp : Cuts p.lexeme p.word [] := h p (List.mem_cons_self ..)
    have hps : ∀ p ∈ ps, p.IsCut := fun r hr => h r (List.mem_cons_of_mem p hr)
    let first := start + Text.byteLength space
    let stop := first + Text.byteLength p.word
    cases ps with
    | nil =>
      have hspelled : Spelled start (space ++ (p.word ++ [])) [⟨first, stop, p.lexeme⟩] :=
        .token hspace rfl hp rfl (.nothing (by simp))
      exact ⟨_, by simpa using hspelled, rfl⟩
    | cons q ps =>
      obtain ⟨ts, hts, hlexemes⟩ := ih hps stop [' '] (by simp [isSpace])
      have hword := hp.behind (endsLike_space ([' '].intercalate ((q :: ps).map Piece.word)))
      refine ⟨⟨first, stop, p.lexeme⟩ :: ts, ?_, congrArg (p.lexeme :: ·) hlexemes⟩
      rw [List.map_cons, List.map_cons, List.intercalate_cons_cons, List.append_assoc]
      exact .token hspace rfl hword rfl hts

/-- The text of a writable expression is parsed into the expression, and no text that is parsed into
it has fewer tokens. -/
theorem parse_print (h : e.IsWritable) :
    (∃ e', parse e.print = .ok e' ∧ e'.bare = e.bare) ∧
    ∀ text e', parse text = .ok e' → e'.bare = e.bare →
      (tokenize e.print).length ≤ (tokenize text).length := by
  obtain ⟨ts, hspelled, hlexemes⟩ :=
    exists_spelled_intercalate (isCut_of_mem_pieces h) 0 [] (by simp)
  have hprint : Spelled 0 e.print.toList ts := by
    rwa [print, String.toList_ofList]
  constructor
  · have hderives := (derives_pieces h).conditional (isProper_category e)
    rw [← hlexemes] at hderives
    obtain ⟨e', he', hbare⟩ := hderives.locatable ts rfl
    exact ⟨e', parse_eq_ok_iff.2 ⟨ts, hprint, he'⟩, hbare⟩
  · intro text e' hparse hbare
    obtain ⟨ts', htext, hlocated⟩ := parse_eq_ok_iff.1 hparse
    have hle := hlocated.derives.operand_length_le e hbare.symm
    rw [operand_of_le (isProper_category e).rank_le, List.length_map] at hle
    rw [tokenize, tokenize, hprint.tokensFrom_eq, htext.tokensFrom_eq]
    have hlength := congrArg List.length hlexemes
    rw [List.length_map, List.length_map] at hlength
    exact hlength.trans_le hle

/-- A choice behind a power: the text of an expression with both quotes, a number, a path and a
member that is spelled like a keyword. -/
theorem parse_print_choice :
    let single : Spelling := ⟨.single, []⟩
    let double : Spelling := ⟨.double, []⟩
    let twelve : Spelling := ⟨.single, ['1', '2']⟩
    let sum : Expr Spelling := .binary single "+" (.literal single (.string "it's"))
      (.literal twelve (.number (Decimal.nearest 12 0)))
    let e : Expr Spelling := .conditional single
      (.binary single "**" (.negation single sum) (.lookup single "x.y"))
      (.member single (.lookup single "list") "null")
      (.keyed single (.lookup single "m") (.literal double (.string "\\")))
    e.IsWritable ∧
      e.print = "! ( 'it\\'s' + 12 ) ** x.y ? list . null : m [ \"\\\\\" ]" ∧
      ∃ e', parse e.print = .ok e' ∧ e'.bare = e.bare := by
  intro single double twelve sum e
  have hwritable : e.IsWritable := by
    have htwelve : Decimal.natural? ['1', '2'] = some 12 := by decide
    refine ⟨⟨rfl, ⟨rfl, trivial, 12, htwelve, rfl⟩, ?_, by decide⟩, ⟨⟨?_, by decide⟩, ?_⟩,
      ⟨?_, by decide⟩, trivial⟩
    all_goals exact ⟨_, _, rfl, by decide, by decide⟩
  exact ⟨hwritable, by decide +kernel, (parse_print hwritable).1⟩

end Expr

end Stencil
