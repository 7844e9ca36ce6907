import Mathlib.Logic.Relation
import Stencil.Expr.Parser
import Stencil.Proofs.Expr.Grammar
namespace Stencil.Expr

/-! # What the parsing functions read

Each parsing function as a statement about the trees, the ends and the rests that it returns,
without errors. The loops of the parser are chains of steps there.
-/

/-! ## What the parsing functions return -/

/-- Where a parse stands: the tree so far, the end of its last token, and what is left. -/
structure State where
  expr : Expr Span
  stop : Nat
  rest : List Token

/-- Where a parse stands that a parsing function returns. -/
def Parsed.state {base : List Token} (p : Parsed base) : State :=
  ⟨p.expr, p.stop, p.rest.tail⟩

theorem Parsed.state_eq {base rest : List Token} {p : Parsed base} (h : p.rest.tail = rest) :
    p.state = ⟨p.expr, p.stop, rest⟩ := by
  rw [← h]
  rfl

/-- The outcome is a parse that stands there. -/
def Outcome.Yields {ts : List Token} (o : Outcome ts) (s : State) : Prop :=
  ∃ p, o = .ok p ∧ p.state = s

theorem Outcome.yields_ok {ts : List Token} (p : Parsed ts) : Outcome.Yields (.ok p) p.state :=
  ⟨p, rfl, rfl⟩

@[simp] theorem Outcome.yields_ok_iff {ts : List Token} {p : Parsed ts} {s : State} :
    Outcome.Yields (.ok p) s ↔ p.state = s := by
  simp [Outcome.Yields]

@[simp] theorem Outcome.not_yields_error {ts : List Token} {e : ParseError} {s : State} :
    ¬ Outcome.Yields (.error e : Outcome ts) s := by
  simp [Outcome.Yields]

/-- A primary and the accesses behind it. -/
def parseAccess (size : Nat) (ts : List Token) : Outcome ts :=
  match parsePrimary size ts with
  | .error e => .error e
  | .ok p => extendAccess size ts p

/-- The parsing function of a category. -/
def parserOf (size : Nat) (ts : List Token) : Category → Outcome ts
  | .conditional => parseConditional size ts
  | .level n => parseLevel size n ts
  | .signed => parseUnary size ts
  | .access => parseAccess size ts
  | .primary => parsePrimary size ts

/-- The parsing function of the category reads a tree off the front and stands there. -/
def Reads (size : Nat) (c : Category) (ts : List Token) (s : State) : Prop :=
  (parserOf size ts c).Yields s

/-- The first token is the given lexeme. -/
def Heads (l : Lexeme) (ts : List Token) : Prop :=
  (ts.map Token.lexeme).head? = some l

theorem heads_iff {l : Lexeme} {ts : List Token} :
    Heads l ts ↔ ∃ start stop more, ts = ⟨start, stop, l⟩ :: more := by
  cases ts with
  | nil => simp [Heads]
  | cons a more =>
    obtain ⟨start, stop, l'⟩ := a
    simp [Heads]

variable {size n stop : Nat} {ts rest : List Token} {e : Expr Span} {s : State}

/-! ## The categories one by one -/

/-- A choice, or what binds tighter with no question mark behind it. -/
theorem reads_conditional_iff :
    Reads size .conditional ts ⟨e, stop, rest⟩ ↔
      (∃ c i q y yes j k m no, Reads size (.level 7) ts ⟨c, i, q :: y⟩ ∧
        q.lexeme = .operator "?" ∧
        Reads size .conditional y ⟨yes, j, k :: m⟩ ∧ k.lexeme = .mark .colon ∧
        Reads size .conditional m ⟨no, stop, rest⟩ ∧
        e = .conditional ⟨column size ts, stop⟩ c yes no) ∨
      (Reads size (.level 7) ts ⟨e, stop, rest⟩ ∧ ¬ Heads (.operator "?") rest) := by
  constructor
  · intro h
    simp only [Reads, parserOf] at h
    unfold parseConditional at h
    split at h
    · simp at h
    next p hp =>
    split at h
    · next start stop y hq =>
      have hc : Reads size (.level 7) ts ⟨p.expr, p.stop, _ :: y⟩ := ⟨p, hp, Parsed.state_eq hq⟩
      split at h
      · simp at h
      next yes hy =>
      split at h
      · next start' stop' m hs =>
        have hyes : Reads size .conditional y ⟨yes.expr, yes.stop, _ :: m⟩ :=
          ⟨yes, hy, Parsed.state_eq hs⟩
        split at h
        · simp at h
        next no hn =>
        obtain ⟨rfl, rfl, rfl⟩ := State.mk.inj (Outcome.yields_ok_iff.1 h)
        exact .inl ⟨_, _, _, _, _, _, _, _, _, hc, rfl, hyes, rfl, ⟨no, hn, rfl⟩, rfl⟩
      · simp [failAt] at h
    · next hne =>
      obtain ⟨rfl, rfl, rfl⟩ := State.mk.inj (Outcome.yields_ok_iff.1 h)
      refine .inr ⟨⟨p, hp, rfl⟩, fun hh => ?_⟩
      obtain ⟨start, stop, more, hm⟩ := heads_iff.1 hh
      exact hne start stop more hm
  · rintro (⟨c, i, q, y, yes, j, k, m, no, ⟨pc, hc, hcs⟩, hq, ⟨py, hy, hys⟩, hk, ⟨pn, hn, hns⟩,
      rfl⟩ | ⟨⟨p, hp, hps⟩, hne⟩)
    · obtain ⟨_, _, _⟩ := q
      obtain ⟨_, _, _⟩ := k
      cases hq
      cases hk
      obtain ⟨rfl, -, hcr⟩ := State.mk.inj hcs
      obtain ⟨rfl, -, hyr⟩ := State.mk.inj hys
      obtain ⟨rfl, rfl, rfl⟩ := State.mk.inj hns
      simp only [Reads, parserOf] at hc hy hn ⊢
      unfold parseConditional
      simp only [hc]
      split
      · next hq' =>
        rw [hcr] at hq'
        cases hq'
        simp only [hy]
        split
        · next hk' =>
          rw [hyr] at hk'
          cases hk'
          simp only [hn]
          exact Outcome.yields_ok _
        · next hne => exact absurd hyr (hne _ _ _)
      · next hne => exact absurd hcr (hne _ _ _)
    · obtain ⟨rfl, rfl, rfl⟩ := State.mk.inj hps
      simp only [Reads, parserOf] at hp ⊢
      unfold parseConditional
      simp only [hp]
      split
      · next hq => exact absurd (heads_iff.2 ⟨_, _, _, hq⟩) hne
      · exact Outcome.yields_ok _

/-- A loop of the parser: it stops where it can, and otherwise takes a step, which leaves fewer
tokens, or fails. -/
structure IsLoop (step : State → State → Prop) (stop : List Token → Prop) {base : List Token}
    (loop : Parsed base → Outcome base) : Prop where
  stops : ∀ p, stop p.rest.tail → loop p = .ok p
  goes : ∀ p s, step p.state s → ∃ q, q.state = s ∧ loop p = loop q
  cases : ∀ p, (∃ e, loop p = .error e) ∨ stop p.rest.tail ∨
    ∃ q, loop p = loop q ∧ step p.state q.state ∧ q.rest.tail.length < p.rest.tail.length

/-- A loop takes steps for as long as it can. -/
theorem IsLoop.yields_iff {step : State → State → Prop} {stop : List Token → Prop}
    {base : List Token} {loop : Parsed base → Outcome base} (hloop : IsLoop step stop loop)
    (p : Parsed base) :
    (loop p).Yields s ↔ Relation.ReflTransGen step p.state s ∧ stop s.rest := by
  constructor
  · intro h
    induction hk : p.rest.tail.length using Nat.strongRecOn generalizing p with
    | _ k ih =>
    rcases hloop.cases p with ⟨e, he⟩ | hstop | ⟨q, hq, hstep, hlt⟩
    · rw [he] at h
      exact absurd h Outcome.not_yields_error
    · rw [hloop.stops p hstop] at h
      obtain rfl := Outcome.yields_ok_iff.1 h
      exact ⟨.refl, hstop⟩
    · rw [hq] at h
      obtain ⟨hsteps, hstop⟩ := ih _ (hk ▸ hlt) q h rfl
      exact ⟨.head hstep hsteps, hstop⟩
  · rintro ⟨hsteps, hstop⟩
    generalize hp : p.state = a at hsteps
    induction hsteps using Relation.ReflTransGen.head_induction_on generalizing p with
    | refl =>
      subst hp
      rw [hloop.stops p hstop]
      exact Outcome.yields_ok p
    | head hstep _ ih =>
      subst hp
      obtain ⟨q, hq, heq⟩ := hloop.goes p _ hstep
      rw [heq]
      exact ih q hq

/-- An operator of the level `n + 1` and its right operand are joined to what was read before,
from the first token of `base` on. -/
inductive LevelStep (size n : Nat) (base : List Token) : State → State → Prop
  | intro {l r : Expr Span} {i j start stop : Nat} {op : String} {more rest : List Token}
      (hop : op ∈ leftOperators (n + 1)) (hr : Reads size (.level n) more ⟨r, j, rest⟩) :
      LevelStep size n base ⟨l, i, ⟨start, stop, .operator op⟩ :: more⟩
        ⟨.binary ⟨column size base, j⟩ op l r, j, rest⟩

/-- No operator of the level `n + 1` comes first. -/
def NoOperator (n : Nat) (ts : List Token) : Prop :=
  ∀ op : String, Heads (.operator op) ts → op ∉ leftOperators (n + 1)

/-- The loop of a level. -/
theorem isLoop_extendLevel (size n : Nat) (base : List Token) :
    IsLoop (LevelStep size n base) (NoOperator n) (extendLevel size n base) where
  stops := by
    intro left hstop
    unfold extendLevel
    split
    · next hl => rw [if_neg (hstop _ (heads_iff.2 ⟨_, _, _, hl⟩))]
    · rfl
  goes := by
    intro left s hstep
    generalize hs : left.state = state at hstep
    obtain @⟨l, r, i, j, start, stop, op, more, rest, hop, p, hp, hps⟩ := hstep
    obtain ⟨rfl, rfl, hl⟩ := State.mk.inj hs
    obtain ⟨rfl, rfl, rfl⟩ := State.mk.inj hps
    have hp : parseLevel size n more = .ok p := hp
    rw [extendLevel]
    split
    · next hl' =>
      rw [hl] at hl'
      cases hl'
      rw [if_pos hop, hp]
      exact ⟨_, rfl, rfl⟩
    · next hne => exact absurd hl (hne _ _ _ _)
  cases := by
    intro left
    rw [extendLevel]
    split
    · next start stop op more hl =>
      split
      · next hop =>
        split
        · exact .inl ⟨_, rfl⟩
        · next p hp =>
          have hstep : LevelStep size n base left.state
              ⟨.binary ⟨column size base, p.stop⟩ op left.expr p.expr, p.stop, p.rest.tail⟩ := by
            rw [Parsed.state_eq hl]
            exact .intro hop ⟨p, hp, rfl⟩
          have hlt : p.rest.tail.length < left.rest.tail.length := by
            rw [hl]
            exact Nat.lt_succ_of_lt p.rest.shorter
          exact .inr (.inr ⟨_, rfl, hstep, hlt⟩)
      · next hop =>
        refine .inr (.inl fun op' hh => ?_)
        obtain ⟨_, _, _, hm⟩ := heads_iff.1 hh
        rw [hl] at hm
        cases hm
        exact hop
    · next hne =>
      refine .inr (.inl fun op' hh => ?_)
      obtain ⟨_, _, _, hm⟩ := heads_iff.1 hh
      exact absurd hm (hne _ _ _ _)

/-- An operand of the level below, and the steps of the loop behind it. -/
theorem reads_level_succ_iff :
    Reads size (.level (n + 1)) ts s ↔
      (∃ s₀, Reads size (.level n) ts s₀ ∧ Relation.ReflTransGen (LevelStep size n ts) s₀ s) ∧
        NoOperator n s.rest := by
  simp only [Reads, parserOf]
  rw [parseLevel]
  constructor
  · intro h
    split at h
    · simp at h
    next p hp =>
    obtain ⟨hsteps, hstop⟩ := ((isLoop_extendLevel size n ts).yields_iff p).1 h
    exact ⟨⟨_, ⟨p, hp, rfl⟩, hsteps⟩, hstop⟩
  · rintro ⟨⟨_, ⟨p, hp, rfl⟩, hsteps⟩, hstop⟩
    simp only [hp]
    exact ((isLoop_extendLevel size n ts).yields_iff p).2 ⟨hsteps, hstop⟩

/-- A power, or an operand with no power sign behind it. -/
theorem reads_power_iff :
    Reads size (.level 0) ts ⟨e, stop, rest⟩ ↔
      (∃ l r i start stop' more, Reads size .signed ts
          ⟨l, i, ⟨start, stop', .operator "**"⟩ :: more⟩ ∧
        Reads size (.level 0) more ⟨r, stop, rest⟩ ∧
        e = .binary ⟨column size ts, stop⟩ "**" l r) ∨
      (Reads size .signed ts ⟨e, stop, rest⟩ ∧ ¬ Heads (.operator "**") rest) := by
  simp only [Reads, parserOf]
  rw [parseLevel]
  constructor
  · intro h
    unfold parsePower at h
    split at h
    · simp at h
    next p hp =>
    split at h
    · next start stop more hl =>
      split at h
      · simp at h
      next q hq =>
      obtain ⟨rfl, rfl, rfl⟩ := State.mk.inj (Outcome.yields_ok_iff.1 h)
      refine .inl ⟨p.expr, _, p.stop, start, stop, more, ⟨p, hp, Parsed.state_eq hl⟩,
        ⟨q, ?_, rfl⟩, rfl⟩
      rw [parseLevel]
      exact hq
    · next hne =>
      obtain ⟨rfl, rfl, rfl⟩ := State.mk.inj (Outcome.yields_ok_iff.1 h)
      refine .inr ⟨⟨p, hp, rfl⟩, fun hh => ?_⟩
      obtain ⟨_, _, _, hm⟩ := heads_iff.1 hh
      exact hne _ _ _ hm
  · unfold parsePower
    rintro (⟨l, r, i, start, stop', more, ⟨p, hp, hps⟩, ⟨q, hq, hqs⟩, rfl⟩ |
      ⟨⟨p, hp, hps⟩, hne⟩)
    · obtain ⟨rfl, -, hl⟩ := State.mk.inj hps
      obtain ⟨rfl, rfl, rfl⟩ := State.mk.inj hqs
      rw [parseLevel] at hq
      simp only [hp]
      split
      · next hl' =>
        rw [hl] at hl'
        cases hl'
        simp only [hq]
        exact Outcome.yields_ok _
      · next hne => exact absurd hl (hne _ _ _)
    · obtain ⟨rfl, rfl, rfl⟩ := State.mk.inj hps
      simp only [hp]
      split
      · next hl => exact absurd (heads_iff.2 ⟨_, _, _, hl⟩) hne
      · exact Outcome.yields_ok _

/-- What an operator makes of the operand behind it. -/
def prefixed? {α : Type} : String → Option (α → Expr α → Expr α)
  | "!" => some .negation
  | "+" => some fun a => .signed a "+"
  | "-" => some fun a => .signed a "-"
  | _ => none

/-- A sign or negation and an operand that may have more of them, or an operand with accesses. -/
theorem reads_signed_iff :
    Reads size .signed ts ⟨e, stop, rest⟩ ↔
      (∃ start stop' o node more e', ts = ⟨start, stop', .operator o⟩ :: more ∧
        prefixed? o = some node ∧ Reads size .signed more ⟨e', stop, rest⟩ ∧
        e = node ⟨start, stop⟩ e') ∨
      Reads size .access ts ⟨e, stop, rest⟩ := by
  simp only [Reads, parserOf]
  constructor
  · intro h
    unfold parseUnary at h
    split at h
    · split at h
      · simp at h
      next p hp =>
      obtain ⟨rfl, rfl, rfl⟩ := State.mk.inj (Outcome.yields_ok_iff.1 h)
      exact .inl ⟨_, _, _, _, _, _, rfl, rfl, ⟨p, hp, rfl⟩, rfl⟩
    · split at h
      · simp at h
      next p hp =>
      obtain ⟨rfl, rfl, rfl⟩ := State.mk.inj (Outcome.yields_ok_iff.1 h)
      exact .inl ⟨_, _, _, _, _, _, rfl, rfl, ⟨p, hp, rfl⟩, rfl⟩
    · split at h
      · simp at h
      next p hp =>
      obtain ⟨rfl, rfl, rfl⟩ := State.mk.inj (Outcome.yields_ok_iff.1 h)
      exact .inl ⟨_, _, _, _, _, _, rfl, rfl, ⟨p, hp, rfl⟩, rfl⟩
    · exact .inr h
  · rintro (⟨start, stop', o, node, more, e', rfl, hnode, ⟨p, hp, hps⟩, rfl⟩ | h)
    · obtain ⟨rfl, rfl, rfl⟩ := State.mk.inj hps
      unfold parseUnary
      unfold prefixed? at hnode
      split at hnode
      · cases hnode
        simp only [hp]
        exact Outcome.yields_ok _
      · cases hnode
        simp only [hp]
        exact Outcome.yields_ok _
      · cases hnode
        simp only [hp]
        exact Outcome.yields_ok _
      · cases hnode
    · unfold parseUnary
      split
      · simp [parseAccess, parsePrimary, failAt] at h
      · simp [parseAccess, parsePrimary, failAt] at h
      · simp [parseAccess, parsePrimary, failAt] at h
      · exact h

/-- What a lexeme names behind a dot. -/
def name? : Lexeme → Option String
  | .identifier path => some path
  | .keyword k => some k.text
  | _ => none

/-- An access is added to what was read before, from the first token of `base` on. -/
inductive AccessStep (size : Nat) (base : List Token) : State → State → Prop
  | keyed {r k : Expr Span} {i j start stop start' stop' : Nat} {more rest : List Token}
      (hk : Reads size .conditional more
        ⟨k, j, ⟨start', stop', .mark .closeBracket⟩ :: rest⟩) :
      AccessStep size base ⟨r, i, ⟨start, stop, .mark .openBracket⟩ :: more⟩
        ⟨.keyed ⟨column size base, stop'⟩ r k, stop', rest⟩
  | member {r : Expr Span} {i start stop start' stop' : Nat} {name : Lexeme} {path : String}
      {rest : List Token} (hname : name? name = some path) :
      AccessStep size base ⟨r, i, ⟨start, stop, .mark .dot⟩ :: ⟨start', stop', name⟩ :: rest⟩
        ⟨.member ⟨column size base, stop'⟩ r path, stop', rest⟩

/-- Neither a bracket nor a dot comes first. -/
def NoAccess (ts : List Token) : Prop :=
  ¬ Heads (.mark .openBracket) ts ∧ ¬ Heads (.mark .dot) ts

section

variable {base more rest : List Token} {receiver : Parsed base} {start stop start' stop' : Nat}

theorem exists_extendAccess_keyed {k : Expr Span} {j : Nat}
    (hr : receiver.rest.tail = ⟨start, stop, .mark .openBracket⟩ :: more)
    (hk : Reads size .conditional more ⟨k, j, ⟨start', stop', .mark .closeBracket⟩ :: rest⟩) :
    ∃ q : Parsed base,
      q.state = ⟨.keyed ⟨column size base, stop'⟩ receiver.expr k, stop', rest⟩ ∧
      extendAccess size base receiver = extendAccess size base q := by
  obtain ⟨key, hkey, hks⟩ := hk
  obtain ⟨rfl, -, hb⟩ := State.mk.inj hks
  simp only [parserOf] at hkey
  rw [extendAccess]
  split
  · next hr' =>
    rw [hr] at hr'
    cases hr'
    simp only [hkey]
    split
    · next hb' =>
      rw [hb] at hb'
      cases hb'
      exact ⟨_, rfl, rfl⟩
    · next hne => exact absurd hb (hne _ _ _)
  · next hr' =>
    rw [hr] at hr'
    cases hr'
  · next hne _ => exact absurd hr (hne _ _ _)

theorem exists_extendAccess_member {name : Lexeme} {path : String}
    (hr : receiver.rest.tail = ⟨start, stop, .mark .dot⟩ :: ⟨start', stop', name⟩ :: rest)
    (hname : name? name = some path) :
    ∃ q : Parsed base,
      q.state = ⟨.member ⟨column size base, stop'⟩ receiver.expr path, stop', rest⟩ ∧
      extendAccess size base receiver = extendAccess size base q := by
  rw [extendAccess]
  split
  · next hr' =>
    rw [hr] at hr'
    cases hr'
  · split
    · next hr' _ =>
      rw [hr] at hr'
      cases hr'
      cases hname
      exact ⟨_, rfl, rfl⟩
    · next hr' _ =>
      rw [hr] at hr'
      cases hr'
      cases hname
      exact ⟨_, rfl, rfl⟩
    · next hr' hi hk =>
      rw [hr] at hr'
      cases hr'
      cases name with
      | identifier path => exact (hi _ _ _ _ hr rfl HEq.rfl).elim
      | keyword k => exact (hk _ _ _ _ hr rfl HEq.rfl).elim
      | _ => cases hname
  · next hne => exact absurd hr (hne _ _ _)

end

/-- The loop of the accesses. -/
theorem isLoop_extendAccess (size : Nat) (base : List Token) :
    IsLoop (AccessStep size base) NoAccess (extendAccess size base) where
  stops := by
    intro receiver hstop
    unfold extendAccess
    split
    · next hr => exact absurd (heads_iff.2 ⟨_, _, _, hr⟩) hstop.1
    · next hr => exact absurd (heads_iff.2 ⟨_, _, _, hr⟩) hstop.2
    · rfl
  goes := by
    intro receiver s hstep
    generalize hs : receiver.state = state at hstep
    cases hstep with
    | keyed hkey =>
      obtain ⟨rfl, -, hr⟩ := State.mk.inj hs
      exact exists_extendAccess_keyed hr hkey
    | member hname =>
      obtain ⟨rfl, -, hr⟩ := State.mk.inj hs
      exact exists_extendAccess_member hr hname
  cases := by
    intro receiver
    -- a name behind a dot is a step, whichever kind of name it is
    have hmember {start stop start' stop' : Nat} {name : Lexeme} {path : String}
        {rest : List Token} (hname : name? name = some path)
        (hr : receiver.rest.tail = ⟨start, stop, .mark .dot⟩ :: ⟨start', stop', name⟩ :: rest) :
        AccessStep size base receiver.state
          ⟨.member ⟨column size base, stop'⟩ receiver.expr path, stop', rest⟩ ∧
        rest.length < receiver.rest.tail.length := by
      rw [Parsed.state_eq hr, hr]
      exact ⟨.member hname, Nat.lt_succ_of_lt (Nat.lt_succ_self _)⟩
    rw [extendAccess]
    split
    · next start stop more hr =>
      split
      · exact .inl ⟨_, rfl⟩
      next key hkey =>
      split
      · next start' stop' rest' hb =>
        have hstep : AccessStep size base receiver.state
            ⟨.keyed ⟨column size base, stop'⟩ receiver.expr key.expr, stop', rest'⟩ := by
          rw [Parsed.state_eq hr]
          exact .keyed ⟨key, hkey, Parsed.state_eq hb⟩
        have hlt : rest'.length < receiver.rest.tail.length := by
          have := key.rest.shorter
          rw [hb, List.length_cons] at this
          rw [hr, List.length_cons]
          omega
        exact .inr (.inr ⟨_, rfl, hstep, hlt⟩)
      · exact .inl ⟨_, rfl⟩
    · split
      · next path rest' hr _ _ =>
        obtain ⟨hstep, hlt⟩ := hmember rfl hr
        exact .inr (.inr ⟨_, rfl, hstep, hlt⟩)
      · next k rest' hr _ _ =>
        obtain ⟨hstep, hlt⟩ := hmember rfl hr
        exact .inr (.inr ⟨_, rfl, hstep, hlt⟩)
      · exact .inl ⟨_, rfl⟩
    · next hb hd =>
      refine .inr (.inl ⟨fun hh => ?_, fun hh => ?_⟩)
      · obtain ⟨_, _, _, hm⟩ := heads_iff.1 hh
        exact hb _ _ _ hm
      · obtain ⟨_, _, _, hm⟩ := heads_iff.1 hh
        exact hd _ _ _ hm

/-- A primary, and the steps of the loop behind it. -/
theorem reads_access_iff :
    Reads size .access ts s ↔
      (∃ s₀, Reads size .primary ts s₀ ∧ Relation.ReflTransGen (AccessStep size ts) s₀ s) ∧
        NoAccess s.rest := by
  simp only [Reads, parserOf, parseAccess]
  constructor
  · intro h
    split at h
    · simp at h
    next p hp =>
    obtain ⟨hsteps, hstop⟩ := ((isLoop_extendAccess size ts).yields_iff p).1 h
    exact ⟨⟨_, ⟨p, hp, rfl⟩, hsteps⟩, hstop⟩
  · rintro ⟨⟨_, ⟨p, hp, rfl⟩, hsteps⟩, hstop⟩
    simp only [hp]
    exact ((isLoop_extendAccess size ts).yields_iff p).2 ⟨hsteps, hstop⟩

/-- The node that a lexeme is by itself. -/
def leaf? {α : Type} : Lexeme → Option (α → Expr α)
  | .keyword k => some fun a => .literal a k.literal
  | .number _ x => some fun a => .literal a (.number x)
  | .string s => some fun a => .literal a (.string s)
  | .identifier path => some fun a => .lookup a path
  | _ => none

/-- An expression in parentheses, or one token that is a primary. -/
theorem reads_primary_iff :
    Reads size .primary ts ⟨e, stop, rest⟩ ↔
      (∃ start stop' start' j more, ts = ⟨start, stop', .mark .openParen⟩ :: more ∧
        Reads size .conditional more
          ⟨e, j, ⟨start', stop, .mark .closeParen⟩ :: rest⟩) ∨
      (∃ start l node, ts = ⟨start, stop, l⟩ :: rest ∧ leaf? l = some node ∧
        e = node ⟨start, stop⟩) := by
  simp only [Reads, parserOf]
  constructor
  · intro h
    unfold parsePrimary at h
    split at h
    · simp [failAt] at h
    next tok more =>
    obtain ⟨start, stop, l⟩ := tok
    simp only at h
    split at h
    · split at h
      · simp at h
      next p hp =>
      split at h
      · next start' stop' rest' hr =>
        obtain ⟨rfl, rfl, rfl⟩ := State.mk.inj (Outcome.yields_ok_iff.1 h)
        exact .inl ⟨_, _, start', p.stop, _, rfl, ⟨p, hp, Parsed.state_eq hr⟩⟩
      · simp [failAt] at h
    · obtain ⟨rfl, rfl, rfl⟩ := State.mk.inj (Outcome.yields_ok_iff.1 h)
      exact .inr ⟨_, _, _, rfl, rfl, rfl⟩
    · obtain ⟨rfl, rfl, rfl⟩ := State.mk.inj (Outcome.yields_ok_iff.1 h)
      exact .inr ⟨_, _, _, rfl, rfl, rfl⟩
    · obtain ⟨rfl, rfl, rfl⟩ := State.mk.inj (Outcome.yields_ok_iff.1 h)
      exact .inr ⟨_, _, _, rfl, rfl, rfl⟩
    · obtain ⟨rfl, rfl, rfl⟩ := State.mk.inj (Outcome.yields_ok_iff.1 h)
      exact .inr ⟨_, _, _, rfl, rfl, rfl⟩
    · simp [failAt] at h
  · rintro (⟨start, stop', start', j, more, rfl, p, hp, hps⟩ | ⟨start, l, node, rfl, hl, rfl⟩)
    · obtain ⟨rfl, -, hr⟩ := State.mk.inj hps
      unfold parsePrimary
      simp only [hp]
      split
      · next hr' =>
        rw [hr] at hr'
        cases hr'
        exact Outcome.yields_ok _
      · next hne => exact absurd hr (hne _ _ _)
    · unfold parsePrimary
      unfold leaf? at hl
      split at hl <;> cases hl <;> exact Outcome.yields_ok _

end Stencil.Expr
