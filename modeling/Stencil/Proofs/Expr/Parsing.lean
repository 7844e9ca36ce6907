import Stencil.Expr.Eval
import Stencil.Proofs.Expr.Lexing
import Stencil.Proofs.Expr.Located
namespace Stencil.Expr

/-! # The parser and the grammar

The parser reads a list of tokens exactly if the grammar derives it, with the same tree, whose nodes
have the places of their tokens: whatever a parsing function reads is located, by induction on the
number of tokens, and whatever is located is read, by induction on the derivation.
-/

variable {size n i stop : Nat} {ts rest : List Token} {e : Expr Span} {t : Expr Unit} {s : State}

/-! ## What is read is located -/

/-- The tokens before the rest are located. -/
def Derived (c : Category) (ts : List Token) (s : State) : Prop :=
  ∃ front, ts = front ++ s.rest ∧ stopOf front = s.stop ∧ Located c front s.expr

theorem Derived.length_le {c : Category} (h : Derived c ts s) : s.rest.length ≤ ts.length := by
  obtain ⟨front, rfl, -, -⟩ := h
  simp

/-- Whatever is read off the tokens is located. -/
def Accounted (size : Nat) (ts : List Token) : Prop :=
  ∀ ⦃c s⦄, Reads size c ts s → Derived c ts s

/-- What is located from the first token on covers the tokens up to its end. -/
theorem span_eq_cover {front : List Token} (size : Nat) (rest : List Token) (h : front ≠ [])
    (hstop : stopOf front = stop) :
    (⟨column size (front ++ rest), stop⟩ : Span) = cover front := by
  rw [column_append h, ← hstop]
  rfl

theorem Derived.parens {start stop' start' j : Nat} {more : List Token}
    (h : Derived .conditional more ⟨e, j, ⟨start', stop, .mark .closeParen⟩ :: rest⟩) :
    Derived .primary (⟨start, stop', .mark .openParen⟩ :: more) ⟨e, stop, rest⟩ := by
  obtain ⟨front, rfl, -, hd⟩ := h
  refine ⟨⟨start, stop', .mark .openParen⟩ :: (front ++ [⟨start', stop, .mark .closeParen⟩]),
    by simp, ?_, .parens rfl hd rfl⟩
  rw [stopOf_cons (by simp), stopOf_concat]

theorem Derived.prefixed {start stop' : Nat} {o : String} {node : Span → Expr Span → Expr Span}
    {more : List Token} (hnode : prefixed? o = some node)
    (h : Derived .signed more ⟨e, stop, rest⟩) :
    Derived .signed (⟨start, stop', .operator o⟩ :: more)
      ⟨node ⟨start, stop⟩ e, stop, rest⟩ := by
  obtain ⟨front, rfl, hstop, hd⟩ := h
  have hend := stopOf_cons hd.ne_nil ⟨start, stop', .operator o⟩
  refine ⟨⟨start, stop', .operator o⟩ :: front, rfl, hend.trans hstop, ?_⟩
  have := Located.prefixed (o := ⟨start, stop', .operator o⟩) rfl hnode hd
  rwa [cover, hend, hstop] at this

/-- An access behind located tokens is located with them. -/
theorem Derived.accessStep {a b : State}
    (ih : ∀ ts' : List Token, ts'.length < ts.length → Accounted size ts')
    (hd : Derived .access ts a) (h : AccessStep size ts a b) : Derived .access ts b := by
  have hle := hd.length_le
  obtain ⟨front, hf, -, hd⟩ := hd
  cases h with
  | @keyed r k i j start stop start' stop' more rest hk =>
    obtain ⟨key, rfl, -, hkey⟩ := ih more hle hk
    have hts : ts = (front ++ ⟨start, stop, .mark .openBracket⟩ ::
        (key ++ [⟨start', stop', .mark .closeBracket⟩])) ++ rest := by simp [hf]
    have hstop : stopOf (front ++ ⟨start, stop, .mark .openBracket⟩ ::
        (key ++ [⟨start', stop', .mark .closeBracket⟩])) = stop' := by
      rw [stopOf_append_cons (by simp), stopOf_concat]
    refine ⟨_, hts, hstop, ?_⟩
    rw [hts, span_eq_cover size _ (by simp) hstop]
    exact .keyed hd rfl hkey rfl
  | @member r i start stop start' stop' name path rest hname =>
    have hts : ts = (front ++ [⟨start, stop, .mark .dot⟩, ⟨start', stop', name⟩]) ++ rest := by
      simp [hf]
    have hstop : stopOf (front ++ [⟨start, stop, .mark .dot⟩, ⟨start', stop', name⟩]) = stop' := by
      rw [stopOf_append_cons (by simp)]
      rfl
    refine ⟨_, hts, hstop, ?_⟩
    rw [hts, span_eq_cover size _ (by simp) hstop]
    exact .member hd rfl hname

/-- The parser looks for the operators of a level where the grammar has them. -/
theorem mem_leftOperators_iff {op : String} :
    op ∈ leftOperators (n + 1) ↔ operatorLevel? op = some (n + 1) := by
  constructor
  · intro h
    unfold leftOperators at h
    split at h
    case h_8 => cases h
    all_goals
      next hn =>
      simp only [List.mem_cons, List.not_mem_nil, or_false] at h
      rcases h with rfl | rfl | rfl | rfl <;> exact congrArg some hn.symm
  · intro h
    unfold operatorLevel? at h
    split at h <;> cases h
    all_goals decide

/-- An operator and its operand behind located tokens are located with them. -/
theorem Derived.levelStep {a b : State}
    (ih : ∀ ts' : List Token, ts'.length < ts.length → Accounted size ts')
    (hd : Derived (.level (n + 1)) ts a) (h : LevelStep size n ts a b) :
    Derived (.level (n + 1)) ts b := by
  have hle := hd.length_le
  obtain ⟨front, hf, -, hd⟩ := hd
  obtain @⟨l, r, i, j, start, stop, op, more, rest, hop, hr⟩ := h
  obtain ⟨right, rfl, hrs, hright⟩ := ih more hle hr
  have hts : ts = (front ++ ⟨start, stop, .operator op⟩ :: right) ++ rest := by
    simp [hf]
  have hstop : stopOf (front ++ ⟨start, stop, .operator op⟩ :: right) = j := by
    rw [stopOf_append_cons hright.ne_nil, hrs]
  refine ⟨_, hts, hstop, ?_⟩
  rw [hts, span_eq_cover size _ (by simp) hstop]
  exact .binary (mem_leftOperators_iff.1 hop) rfl hd hright

/-- What is located of a chain of steps, if each step keeps it. -/
theorem Derived.steps {c : Category} {step : State → State → Prop}
    (hstep : ∀ {a b}, Derived c ts a → step a b → Derived c ts b) {a b : State}
    (hd : Derived c ts a) (h : Relation.ReflTransGen step a b) : Derived c ts b := by
  induction h with
  | refl => exact hd
  | tail _ h ih => exact hstep ih h

theorem Derived.mono {c c' : Category} (hc : ∀ {ts e}, Located c ts e → Located c' ts e)
    (h : Derived c ts s) : Derived c' ts s := by
  obtain ⟨front, hf, hstop, hd⟩ := h
  exact ⟨front, hf, hstop, hc hd⟩

section

variable (ih : ∀ ts' : List Token, ts'.length < ts.length → Accounted size ts')
include ih

theorem derived_primary (h : Reads size .primary ts s) : Derived .primary ts s := by
  obtain ⟨e, stop, rest⟩ := s
  rcases reads_primary_iff.1 h with ⟨start, stop', start', j, more, rfl, hr⟩ |
    ⟨start, l, node, rfl, hl, rfl⟩
  · exact (ih more (Nat.lt_succ_self _) hr).parens
  · exact ⟨[⟨start, stop, l⟩], rfl, rfl, .leaf hl⟩

theorem derived_access (h : Reads size .access ts s) : Derived .access ts s := by
  obtain ⟨⟨s₀, hr, hsteps⟩, -⟩ := reads_access_iff.1 h
  have hd : Derived .access ts s₀ := (derived_primary ih hr).mono .noAccess
  exact Derived.steps (fun hd h => hd.accessStep ih h) hd hsteps

theorem derived_signed (h : Reads size .signed ts s) : Derived .signed ts s := by
  obtain ⟨e, stop, rest⟩ := s
  rcases reads_signed_iff.1 h with ⟨start, stop', o, node, more, e', rfl, hnode, hr, rfl⟩ | hr
  · exact (ih more (Nat.lt_succ_self _) hr).prefixed hnode
  · exact (derived_access ih hr).mono .noSign

theorem derived_power (h : Reads size (.level 0) ts s) : Derived (.level 0) ts s := by
  obtain ⟨e, stop, rest⟩ := s
  rcases reads_power_iff.1 h with ⟨l, r, i, start, stop', more, hl, hr, rfl⟩ | ⟨hr, -⟩
  · have hd := derived_signed ih hl
    have hle := hd.length_le
    obtain ⟨left, hf, -, hleft⟩ := hd
    obtain ⟨right, rfl, hrs, hright⟩ := ih more hle hr
    have hts : ts = (left ++ ⟨start, stop', .operator "**"⟩ :: right) ++ rest := by
      simp [hf]
    have hstop : stopOf (left ++ ⟨start, stop', .operator "**"⟩ :: right) = stop := by
      rw [stopOf_append_cons hright.ne_nil, hrs]
    refine ⟨_, hts, hstop, ?_⟩
    rw [hts, span_eq_cover size _ (by simp) hstop]
    exact .power rfl hleft hright
  · exact (derived_signed ih hr).mono .noPower

theorem derived_level (h : Reads size (.level n) ts s) : Derived (.level n) ts s := by
  induction n generalizing s with
  | zero => exact derived_power ih h
  | succ n ihn =>
    obtain ⟨⟨s₀, hr, hsteps⟩, -⟩ := reads_level_succ_iff.1 h
    have hd : Derived (.level (n + 1)) ts s₀ := (ihn hr).mono .tighter
    exact Derived.steps (fun hd h => hd.levelStep ih h) hd hsteps

theorem derived_conditional (h : Reads size .conditional ts s) : Derived .conditional ts s := by
  obtain ⟨e, stop, rest⟩ := s
  rcases reads_conditional_iff.1 h with
    ⟨ec, i, q, y, ey, j, k, m, en, hc, hq, hy, hk, hn, rfl⟩ | ⟨hr, -⟩
  · have hd := derived_level ih hc
    have hle := hd.length_le
    have hyes := ih y hle hy
    have hle' := hyes.length_le
    obtain ⟨no, hm, hns, hno⟩ := ih m (Nat.lt_trans (Nat.lt_of_succ_le hle') hle) hn
    obtain ⟨cond, hf, -, hcond⟩ := hd
    obtain ⟨yes, hyf, -, hyes⟩ := hyes
    have hts : ts = (cond ++ q :: (yes ++ k :: no)) ++ rest := by simp [hf, hyf, hm]
    have hstop : stopOf (cond ++ q :: (yes ++ k :: no)) = stop := by
      rw [stopOf_append_cons (by simp), stopOf_append_cons hno.ne_nil, hns]
    refine ⟨_, hts, hstop, ?_⟩
    rw [hts, span_eq_cover size _ (by simp) hstop]
    exact .choice hcond hq hyes hk hno
  · exact (derived_level ih hr).mono .noChoice

end

/-- Whatever a parsing function reads is located. -/
theorem accounted (size : Nat) (ts : List Token) : Accounted size ts := by
  induction hk : ts.length using Nat.strongRecOn generalizing ts with
  | _ k ih =>
  have ih' : ∀ ts' : List Token, ts'.length < ts.length → Accounted size ts' := by
    intro ts' hlt
    exact ih _ (hk ▸ hlt) ts' rfl
  intro c s h
  cases c with
  | conditional => exact derived_conditional ih' h
  | level n => exact derived_level ih' h
  | signed => exact derived_signed ih' h
  | access => exact derived_access ih' h
  | primary => exact derived_primary ih' h

/-! ## What is located is read -/

/-- Behind something of the category the lexeme cannot go on with it. -/
def Category.EndsAt : Category → Lexeme → Prop
  | .primary, _ => True
  | .access, l | .signed, l => l ≠ .mark .openBracket ∧ l ≠ .mark .dot
  | .level n, l => l ≠ .mark .openBracket ∧ l ≠ .mark .dot ∧
      ∀ op m, l = .operator op → operatorLevel? op = some m → n < m
  | .conditional, l => l ≠ .mark .openBracket ∧ l ≠ .mark .dot ∧
      (∀ op, l = .operator op → operatorLevel? op = none) ∧ l ≠ .operator "?"

theorem Category.EndsAt.below {l : Lexeme} (h : (Category.level (n + 1)).EndsAt l) :
    (Category.level n).EndsAt l :=
  ⟨h.1, h.2.1, fun op m hop hm => Nat.lt_of_succ_lt (h.2.2 op m hop hm)⟩

theorem Category.EndsAt.level {l : Lexeme} (h : Category.conditional.EndsAt l) :
    (Category.level n).EndsAt l := by
  refine ⟨h.1, h.2.1, ?_⟩
  intro op m hop hm
  rw [h.2.2.1 op hop] at hm
  cases hm

theorem Category.EndsAt.signed {l : Lexeme} (h : (Category.level n).EndsAt l) :
    Category.signed.EndsAt l :=
  ⟨h.1, h.2.1⟩

theorem Category.endsAt_operator {op : String} (h : ∀ m, operatorLevel? op = some m → n < m) :
    (Category.level n).EndsAt (.operator op) := by
  refine ⟨by simp, by simp, ?_⟩
  intro op' m hop
  cases hop
  exact h m

theorem Category.endsAt_mark (m : Mark) (hb : m ≠ .openBracket) (hd : m ≠ .dot) :
    Category.conditional.EndsAt (.mark m) := by
  simp [EndsAt, hb, hd]

/-- The tokens cannot go on with something of the category. -/
def Follows (c : Category) (rest : List Token) : Prop :=
  ∀ l, Heads l rest → c.EndsAt l

theorem Follows.mono {c c' : Category} (hc : ∀ l, c.EndsAt l → c'.EndsAt l)
    (h : Follows c rest) : Follows c' rest :=
  fun l hl => hc l (h l hl)

theorem follows_cons {c : Category} (tok : Token) (more : List Token)
    (h : c.EndsAt tok.lexeme) : Follows c (tok :: more) := by
  intro l hl
  obtain rfl : tok.lexeme = l := by simpa [Heads] using hl
  exact h

theorem Follows.noAccess (h : Follows .access rest) : NoAccess rest :=
  ⟨fun hb => (h _ hb).1 rfl, fun hd => (h _ hd).2 rfl⟩

theorem Follows.noOperator (h : Follows (.level (n + 1)) rest) : NoOperator n rest := by
  intro op hop hmem
  exact Nat.lt_irrefl _ ((h _ hop).2.2 op (n + 1) rfl (mem_leftOperators_iff.1 hmem))

/-- The parsing function of the category reads the tokens, wherever they cannot go on. The loops of
the parser read the tokens also where they can go on with one more operator or access. -/
def Complete (size : Nat) : Category → List Token → Expr Span → Prop
  | .level (n + 1), ts, e => ∀ rest, Follows (.level n) rest →
      ∃ s₀, Reads size (.level n) (ts ++ rest) s₀ ∧
        Relation.ReflTransGen (LevelStep size n (ts ++ rest)) s₀ ⟨e, stopOf ts, rest⟩
  | .access, ts, e => ∀ rest,
      ∃ s₀, Reads size .primary (ts ++ rest) s₀ ∧
        Relation.ReflTransGen (AccessStep size (ts ++ rest)) s₀ ⟨e, stopOf ts, rest⟩
  | c, ts, e => ∀ rest, Follows c rest → Reads size c (ts ++ rest) ⟨e, stopOf ts, rest⟩

theorem Complete.reads {c : Category} (h : Complete size c ts e) (hf : Follows c rest) :
    Reads size c (ts ++ rest) ⟨e, stopOf ts, rest⟩ := by
  cases c with
  | conditional => exact h rest hf
  | signed => exact h rest hf
  | primary => exact h rest hf
  | access => exact reads_access_iff.2 ⟨h rest, hf.noAccess⟩
  | level n =>
    cases n with
    | zero => exact h rest hf
    | succ n =>
      have hf' : Follows (.level n) rest := hf.mono fun _ hl => hl.below
      exact reads_level_succ_iff.2 ⟨h rest hf', hf.noOperator⟩

section

variable {l r : List Token} {el er : Expr Span}

theorem Complete.choice {c y m : List Token} {q k : Token} {ec ey em : Expr Span}
    (hc : Complete size (.level 7) c ec) (hq : q.lexeme = .operator "?")
    (hy : Complete size .conditional y ey) (hk : k.lexeme = .mark .colon)
    (hm : Complete size .conditional m em) (hne : m ≠ []) :
    Complete size .conditional (c ++ q :: (y ++ k :: m))
      (.conditional (cover (c ++ q :: (y ++ k :: m))) ec ey em) := by
  intro rest hf
  have hq' : (Category.level 7).EndsAt q.lexeme := by
    rw [hq]
    exact Category.endsAt_operator nofun
  have hk' : Category.conditional.EndsAt k.lexeme := by
    rw [hk]
    exact Category.endsAt_mark .colon (by decide) (by decide)
  have hcond := hc.reads (follows_cons q (y ++ k :: (m ++ rest)) hq')
  have hyes := hy.reads (follows_cons k (m ++ rest) hk')
  have hts : (c ++ q :: (y ++ k :: m)) ++ rest = c ++ q :: (y ++ k :: (m ++ rest)) := by simp
  have hstop : stopOf (c ++ q :: (y ++ k :: m)) = stopOf m := by
    rw [stopOf_append_cons (by simp), stopOf_append_cons hne]
  rw [← span_eq_cover size rest (by simp) rfl, hts, hstop]
  exact reads_conditional_iff.2
    (.inl ⟨_, _, _, _, _, _, _, _, _, hcond, hq, hyes, hk, hm.reads hf, rfl⟩)

theorem Complete.noChoice (h : Complete size (.level 7) ts e) :
    Complete size .conditional ts e := by
  intro rest hf
  have hf' : Follows (.level 7) rest := hf.mono fun _ hl => hl.level
  exact reads_conditional_iff.2 (.inr ⟨h.reads hf', fun hq => (hf _ hq).2.2.2 rfl⟩)

theorem Complete.binary {o : Token} {op : String} (hop : operatorLevel? op = some (n + 1))
    (ho : o.lexeme = .operator op) (hl : Complete size (.level (n + 1)) l el)
    (hr : Complete size (.level n) r er) (hne : r ≠ []) :
    Complete size (.level (n + 1)) (l ++ o :: r) (.binary (cover (l ++ o :: r)) op el er) := by
  obtain ⟨start, stop, _⟩ := o
  cases ho
  intro rest hf
  have hends : (Category.level n).EndsAt (.operator op) := by
    refine Category.endsAt_operator ?_
    intro m hm
    rw [hop] at hm
    cases hm
    exact Nat.lt_succ_self n
  obtain ⟨s₀, hr₀, hsteps⟩ := hl _ (follows_cons ⟨start, stop, _⟩ (r ++ rest) hends)
  have hstop : stopOf (l ++ ⟨start, stop, .operator op⟩ :: r) = stopOf r := by
    rw [stopOf_append_cons hne]
  rw [← span_eq_cover size rest (by simp) rfl, hstop, List.append_assoc, List.cons_append]
  exact ⟨s₀, hr₀, hsteps.tail (.intro (mem_leftOperators_iff.2 hop) (hr.reads hf))⟩

theorem Complete.tighter (h : Complete size (.level n) ts e) :
    Complete size (.level (n + 1)) ts e :=
  fun _ hf => ⟨_, h.reads hf, .refl⟩

theorem Complete.power {o : Token} (ho : o.lexeme = .operator "**")
    (hl : Complete size .signed l el) (hr : Complete size (.level 0) r er) (hne : r ≠ []) :
    Complete size (.level 0) (l ++ o :: r) (.binary (cover (l ++ o :: r)) "**" el er) := by
  obtain ⟨start, stop, _⟩ := o
  cases ho
  intro rest hf
  have hends : Category.signed.EndsAt (.operator "**") := ⟨by simp, by simp⟩
  have hleft := hl.reads (follows_cons ⟨start, stop, _⟩ (r ++ rest) hends)
  have hstop : stopOf (l ++ ⟨start, stop, .operator "**"⟩ :: r) = stopOf r := by
    rw [stopOf_append_cons hne]
  rw [← span_eq_cover size rest (by simp) rfl, hstop, List.append_assoc, List.cons_append]
  exact reads_power_iff.2 (.inl ⟨_, _, _, _, _, _, hleft, hr.reads hf, rfl⟩)

theorem Complete.noPower (h : Complete size .signed ts e) : Complete size (.level 0) ts e := by
  intro rest hf
  have hf' : Follows .signed rest := hf.mono fun _ hl => hl.signed
  have hnone : ¬ Heads (.operator "**") rest := by
    intro hp
    exact absurd ((hf _ hp).2.2 _ 0 rfl rfl) (Nat.lt_irrefl 0)
  exact reads_power_iff.2 (.inr ⟨h.reads hf', hnone⟩)

theorem Complete.prefixed {o : Token} {op : String} {node : Span → Expr Span → Expr Span}
    (ho : o.lexeme = .operator op) (hnode : prefixed? op = some node)
    (h : Complete size .signed ts e) (hne : ts ≠ []) :
    Complete size .signed (o :: ts) (node (cover (o :: ts)) e) := by
  obtain ⟨start, stop, _⟩ := o
  cases ho
  intro rest hf
  rw [cover, startOf_cons, stopOf_cons hne, List.cons_append]
  exact reads_signed_iff.2 (.inl ⟨_, _, _, _, _, _, rfl, hnode, h.reads hf, rfl⟩)

theorem Complete.noSign (h : Complete size .access ts e) : Complete size .signed ts e := by
  intro rest hf
  have hf' : Follows .access rest := hf
  exact reads_signed_iff.2 (.inr (h.reads hf'))

theorem Complete.keyed {o c : Token} {k : List Token} {ek : Expr Span}
    (hr : Complete size .access r er) (ho : o.lexeme = .mark .openBracket)
    (hk : Complete size .conditional k ek) (hc : c.lexeme = .mark .closeBracket) :
    Complete size .access (r ++ o :: (k ++ [c]))
      (.keyed (cover (r ++ o :: (k ++ [c]))) er ek) := by
  obtain ⟨start, stop, _⟩ := o
  obtain ⟨start', stop', _⟩ := c
  cases ho
  cases hc
  intro rest
  have hclose := Category.endsAt_mark .closeBracket (by decide) (by decide)
  have hkey := hk.reads (follows_cons ⟨start', stop', _⟩ rest hclose)
  obtain ⟨s₀, hr₀, hsteps⟩ := hr (⟨start, stop, .mark .openBracket⟩ ::
    (k ++ ⟨start', stop', .mark .closeBracket⟩ :: rest))
  have hts : (r ++ ⟨start, stop, .mark .openBracket⟩ ::
        (k ++ [⟨start', stop', .mark .closeBracket⟩])) ++ rest =
      r ++ ⟨start, stop, .mark .openBracket⟩ ::
        (k ++ ⟨start', stop', .mark .closeBracket⟩ :: rest) := by simp
  have hstop : stopOf (r ++ ⟨start, stop, .mark .openBracket⟩ ::
      (k ++ [⟨start', stop', .mark .closeBracket⟩])) = stop' := by
    rw [stopOf_append_cons (by simp), stopOf_concat]
  rw [← span_eq_cover size rest (by simp) rfl, hstop, hts]
  exact ⟨s₀, hr₀, hsteps.tail (.keyed hkey)⟩

theorem Complete.member {o m : Token} {path : String} (hr : Complete size .access r er)
    (ho : o.lexeme = .mark .dot) (hm : name? m.lexeme = some path) :
    Complete size .access (r ++ [o, m]) (.member (cover (r ++ [o, m])) er path) := by
  obtain ⟨start, stop, _⟩ := o
  obtain ⟨start', stop', name⟩ := m
  cases ho
  intro rest
  obtain ⟨s₀, hr₀, hsteps⟩ := hr (⟨start, stop, .mark .dot⟩ :: ⟨start', stop', name⟩ :: rest)
  have hstop : stopOf (r ++ [⟨start, stop, .mark .dot⟩, ⟨start', stop', name⟩]) = stop' := by
    rw [stopOf_append_cons (by simp)]
    rfl
  rw [← span_eq_cover size rest (by simp) rfl, hstop, List.append_assoc]
  exact ⟨s₀, hr₀, hsteps.tail (.member hm)⟩

theorem Complete.noAccess (h : Complete size .primary ts e) : Complete size .access ts e :=
  fun _ => ⟨_, h.reads fun _ _ => trivial, .refl⟩

theorem Complete.leaf {tok : Token} {node : Span → Expr Span} (h : leaf? tok.lexeme = some node) :
    Complete size .primary [tok] (node (cover [tok])) :=
  fun _ _ => reads_primary_iff.2 (.inr ⟨_, _, _, rfl, h, rfl⟩)

theorem Complete.parens {o c : Token} (ho : o.lexeme = .mark .openParen)
    (h : Complete size .conditional ts e) (hc : c.lexeme = .mark .closeParen) :
    Complete size .primary (o :: (ts ++ [c])) e := by
  obtain ⟨start, stop, _⟩ := o
  obtain ⟨start', stop', _⟩ := c
  cases ho
  cases hc
  intro rest _
  have hclose := Category.endsAt_mark .closeParen (by decide) (by decide)
  have he := h.reads (follows_cons ⟨start', stop', _⟩ rest hclose)
  rw [stopOf_cons (by simp), stopOf_concat, List.cons_append, List.append_assoc]
  exact reads_primary_iff.2 (.inl ⟨_, _, _, _, _, rfl, he⟩)

end

/-- Whatever is located is read. -/
theorem Located.complete {c : Category} (h : Located c ts e) (size : Nat) :
    Complete size c ts e := by
  induction h with
  | choice _ hq _ hk hn ihc ihy ihn => exact ihc.choice hq ihy hk ihn hn.ne_nil
  | noChoice _ ih => exact ih.noChoice
  | binary hop ho _ hr ihl ihr => exact ihl.binary hop ho ihr hr.ne_nil
  | tighter _ ih => exact ih.tighter
  | power ho _ hr ihl ihr => exact ihl.power ho ihr hr.ne_nil
  | noPower _ ih => exact ih.noPower
  | prefixed ho hnode h ih => exact ih.prefixed ho hnode h.ne_nil
  | noSign _ ih => exact ih.noSign
  | keyed _ ho _ hc ihr ihk => exact ihr.keyed ho ihk hc
  | member _ ho hm ih => exact ih.member ho hm
  | noAccess _ ih => exact ih.noAccess
  | leaf h => exact .leaf h
  | parens ho _ hc ih => exact ih.parens ho hc

/-! ## Whole lists of tokens -/

/-- The parser accepts what is located, with the same tree and places. -/
theorem parseTokens_eq_ok_iff (size : Nat) :
    parseTokens size ts = .ok e ↔ Located .conditional ts e := by
  have hwhole : parseTokens size ts = .ok e ↔
      ∃ stop, Reads size .conditional ts ⟨e, stop, []⟩ := by
    simp only [Reads, parserOf, Outcome.Yields]
    unfold parseTokens
    cases hp : parseConditional size ts with
    | error e => simp
    | ok p =>
      simp only
      split
      · next hnil => simp [Parsed.state, hnil]
      · next hcons => simp [Parsed.state, hcons, failAt]
  rw [hwhole]
  constructor
  · rintro ⟨stop, h⟩
    obtain ⟨front, hf, -, hd⟩ := accounted size ts h
    rw [List.append_nil] at hf
    rwa [hf]
  · intro h
    have hnil : Follows .conditional [] := fun l hl => by simp [Heads] at hl
    have hr := (h.complete size).reads hnil
    rw [List.append_nil] at hr
    exact ⟨_, hr⟩

/-- The parser accepts what the grammar derives, with the same tree. -/
theorem parseTokens_iff (size : Nat) :
    (∃ e, parseTokens size ts = .ok e ∧ e.bare = t) ↔
      Derives .conditional (ts.map Token.lexeme) t := by
  simp only [parseTokens_eq_ok_iff]
  constructor
  · rintro ⟨e, he, rfl⟩
    exact he.derives
  · intro h
    exact h.locatable ts rfl

/-! ## Texts -/

theorem lexicalError?_eq_none_iff :
    lexicalError? ts = none ↔ ∀ tok ∈ ts, tok.lexeme.isError = false := by
  unfold lexicalError?
  rw [List.findSome?_eq_none_iff]
  refine forall_congr' fun tok => imp_congr_right fun _ => ?_
  cases tok.lexeme <;> simp [Lexeme.isError]

/-- A text is parsed if it is made of tokens, without errors, that are located. -/
theorem parse_eq_ok_iff {text : String} :
    parse text = .ok e ↔ ∃ ts, Spelled 0 text.toList ts ∧ Located .conditional ts e := by
  have hopen (hno : lexicalError? (tokenize text) = none) :
      parse text = .ok e ↔ Located .conditional (tokenize text) e := by
    rw [← parseTokens_eq_ok_iff (Text.byteLength text.toList)]
    simp only [parse, hno]
    cases parseTokens (Text.byteLength text.toList) (tokenize text) <;> simp
  constructor
  · intro h
    have hno : lexicalError? (tokenize text) = none := by
      cases hlex : lexicalError? (tokenize text) with
      | none => rfl
      | some error => simp [parse, hlex] at h
    exact ⟨_, spelled_tokensFrom (lexicalError?_eq_none_iff.1 hno), (hopen hno).1 h⟩
  · rintro ⟨ts, hspelled, hlocated⟩
    obtain rfl : tokenize text = ts := hspelled.tokensFrom_eq
    exact (hopen (lexicalError?_eq_none_iff.2 hspelled.no_error)).2 hlocated

/-- What a text stands for is read off the tree that the grammar derives of it. -/
theorem evaluate_of_derives {scope : Scope} {text : String} {a : Operand}
    (hno : lexicalError? (tokenize text) = none)
    (h : Derives .conditional ((tokenize text).map Token.lexeme) t)
    (ha : t.eval scope = .ok a) : evaluate scope text = .ok a := by
  obtain ⟨e, he, rfl⟩ := (parseTokens_iff (Text.byteLength text.toList)).2 h
  have hparse : parse text = .ok e := by simp [parse, hno, he]
  rw [bare, eval_map] at ha
  simp only [evaluate, hparse, ha]

/-! ## The grammar has one tree -/

/-- No list of lexemes has two trees. -/
theorem Derives.unique {l : List Lexeme} {t' : Expr Unit} (h : Derives .conditional l t)
    (h' : Derives .conditional l t') : t = t' := by
  -- Any tokens with these lexemes are parsed into both trees.
  have hl : (l.map fun x => (⟨0, 0, x⟩ : Token)).map Token.lexeme = l := by
    simp [Function.comp_def]
  rw [← hl] at h h'
  obtain ⟨e, he, rfl⟩ := (parseTokens_iff 0).2 h
  obtain ⟨e', he', rfl⟩ := (parseTokens_iff 0).2 h'
  rw [he] at he'
  cases he'
  rfl

/-- A list of tokens is parsed exactly if the grammar derives it, with the only tree that it has,
and what is not derived has a grammatical error. So it is with a text whose tokens have no error. -/
theorem parse_eq_grammar :
    (∀ size ts t, (∃ e, parseTokens size ts = .ok e ∧ e.bare = t) ↔
      Derives .conditional (ts.map Token.lexeme) t) ∧
    (∀ size ts, (¬ ∃ t, Derives .conditional (ts.map Token.lexeme) t) →
      ∃ error, parseTokens size ts = .error error) ∧
    (∀ l t t', Derives .conditional l t → Derives .conditional l t' → t = t') ∧
    ∀ text, lexicalError? (tokenize text) = none →
      (∀ t, (∃ e, parse text = .ok e ∧ e.bare = t) ↔
        Derives .conditional ((tokenize text).map Token.lexeme) t) ∧
      ((¬ ∃ t, Derives .conditional ((tokenize text).map Token.lexeme) t) →
        ∃ error, parse text = .error (.grammatical error)) := by
  have hfails : ∀ size ts, (¬ ∃ t, Derives .conditional (ts.map Token.lexeme) t) →
      ∃ error, parseTokens size ts = .error error := by
    intro size ts h
    cases hp : parseTokens size ts with
    | error e => exact ⟨e, rfl⟩
    | ok e => exact absurd ⟨_, (parseTokens_iff size).1 ⟨e, hp, rfl⟩⟩ h
  refine ⟨fun size ts t => parseTokens_iff size, hfails, fun l t t' => Derives.unique, ?_⟩
  intro text hno
  simp only [parse, hno]
  constructor
  · intro t
    rw [← parseTokens_iff (Text.byteLength text.toList)]
    cases parseTokens (Text.byteLength text.toList) (tokenize text) <;> simp
  · intro h
    obtain ⟨error, he⟩ := hfails (Text.byteLength text.toList) _ h
    simp [he]

/-- A choice between powers: the tree and the derivation of `a ? -b ** c : d.e`. -/
theorem parse_eq_grammar_choice :
    lexicalError? (tokenize "a ? -b ** c : d.e") = none ∧
    ∃ e, parse "a ? -b ** c : d.e" = .ok e ∧ e.bare =
      .conditional () (.lookup () "a")
        (.binary () "**" (.signed () "-" (.lookup () "b")) (.lookup () "c"))
        (.lookup () "d.e") := by
  have hno : lexicalError? (tokenize "a ? -b ** c : d.e") = none := by decide +kernel
  refine ⟨hno, ((parse_eq_grammar.2.2.2 _ hno).1 _).2 ?_⟩
  have hl : (tokenize "a ? -b ** c : d.e").map Token.lexeme =
      [.identifier "a"] ++ .operator "?" ::
        (([.operator "-", .identifier "b"] ++
          .operator "**" :: [.identifier "c"]) ++
          .mark .colon :: [.identifier "d.e"]) := by decide +kernel
  rw [hl]
  have hpath (p : String) : Derives .signed [.identifier p] (.lookup () p) :=
    .noSign (.noAccess (.path p))
  have hlevel {l : List Lexeme} {t : Expr Unit} (h : Derives (.level 0) l t) :
      Derives (.level 7) l t :=
    .tighter (.tighter (.tighter (.tighter (.tighter (.tighter (.tighter h))))))
  exact .choice (hlevel (.noPower (hpath "a")))
    (.noChoice (hlevel (.power (.minus (hpath "b")) (.noPower (hpath "c")))))
    (.noChoice (hlevel (.noPower (hpath "d.e"))))

end Stencil.Expr
