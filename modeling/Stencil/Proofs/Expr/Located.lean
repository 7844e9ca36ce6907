import Stencil.Proofs.Expr.Reads
namespace Stencil.Expr

/-! # The grammar with places

Which lists of tokens are expressions, and their trees, each node with the bytes from its first
token to its last. The trees without their notes are those of the grammar, and the places move with
the tokens.
-/

/-! ## Places of tokens -/

/-- Where the first of the tokens begins. -/
def startOf (ts : List Token) : Nat :=
  (ts.head?.map Token.start).getD 0

/-- Where the last of the tokens ends. -/
def stopOf (ts : List Token) : Nat :=
  (ts.getLast?.map Token.stop).getD 0

/-- The bytes from the first of the tokens to the last. -/
def cover (ts : List Token) : Span :=
  ⟨startOf ts, stopOf ts⟩

@[simp] theorem startOf_cons (t : Token) (ts : List Token) : startOf (t :: ts) = t.start := rfl

@[simp] theorem stopOf_concat (ts : List Token) (t : Token) : stopOf (ts ++ [t]) = t.stop := by
  simp [stopOf]

theorem stopOf_append {us : List Token} (h : us ≠ []) (ts : List Token) :
    stopOf (ts ++ us) = stopOf us := by
  obtain ⟨us, t, rfl⟩ := List.eq_nil_or_concat us |>.resolve_left h
  rw [List.concat_eq_append, ← List.append_assoc, stopOf_concat, stopOf_concat]

theorem stopOf_cons {us : List Token} (h : us ≠ []) (t : Token) :
    stopOf (t :: us) = stopOf us :=
  stopOf_append h [t]

theorem stopOf_append_cons {us : List Token} (h : us ≠ []) (ts : List Token) (t : Token) :
    stopOf (ts ++ t :: us) = stopOf us := by
  rw [stopOf_append (by simp), stopOf_cons h]

theorem column_append {ts : List Token} (h : ts ≠ []) (size : Nat) (us : List Token) :
    column size (ts ++ us) = startOf ts := by
  obtain ⟨t, ts, rfl⟩ := List.exists_cons_of_ne_nil h
  rfl

/-- A place moved elsewhere. -/
def Span.moved (f : Nat → Nat) (s : Span) : Span :=
  ⟨f s.start, f s.stop⟩

/-- A token moved elsewhere. -/
def Token.moved (f : Nat → Nat) (t : Token) : Token :=
  ⟨f t.start, f t.stop, t.lexeme⟩

theorem cover_moved (f : Nat → Nat) {ts : List Token} (h : ts ≠ []) :
    cover (ts.map (Token.moved f)) = (cover ts).moved f := by
  obtain ⟨us, t, rfl⟩ := List.eq_nil_or_concat ts |>.resolve_left h
  rw [List.concat_eq_append, cover, cover, List.map_append, List.map_singleton, stopOf_concat,
    stopOf_concat]
  cases us <;> rfl

/-! ## The grammar -/

/-- The tokens can be read as the category, with the given tree and the places of its nodes. -/
inductive Located : Category → List Token → Expr Span → Prop
  | choice {c y n : List Token} {q k : Token} {ec ey en : Expr Span}
      (hc : Located (.level 7) c ec) (hq : q.lexeme = .operator "?")
      (hy : Located .conditional y ey) (hk : k.lexeme = .mark .colon)
      (hn : Located .conditional n en) :
      Located .conditional (c ++ q :: (y ++ k :: n))
        (.conditional (cover (c ++ q :: (y ++ k :: n))) ec ey en)
  | noChoice {ts : List Token} {e : Expr Span} (h : Located (.level 7) ts e) :
      Located .conditional ts e
  | binary {n : Nat} {o : Token} {op : String} {l r : List Token} {el er : Expr Span}
      (hop : operatorLevel? op = some (n + 1)) (ho : o.lexeme = .operator op)
      (hl : Located (.level (n + 1)) l el) (hr : Located (.level n) r er) :
      Located (.level (n + 1)) (l ++ o :: r) (.binary (cover (l ++ o :: r)) op el er)
  | tighter {n : Nat} {ts : List Token} {e : Expr Span} (h : Located (.level n) ts e) :
      Located (.level (n + 1)) ts e
  | power {o : Token} {l r : List Token} {el er : Expr Span}
      (ho : o.lexeme = .operator "**") (hl : Located .signed l el)
      (hr : Located (.level 0) r er) :
      Located (.level 0) (l ++ o :: r) (.binary (cover (l ++ o :: r)) "**" el er)
  | noPower {ts : List Token} {e : Expr Span} (h : Located .signed ts e) :
      Located (.level 0) ts e
  | prefixed {o : Token} {op : String} {node : Span → Expr Span → Expr Span} {ts : List Token}
      {e : Expr Span} (ho : o.lexeme = .operator op) (hnode : prefixed? op = some node)
      (h : Located .signed ts e) :
      Located .signed (o :: ts) (node (cover (o :: ts)) e)
  | noSign {ts : List Token} {e : Expr Span} (h : Located .access ts e) : Located .signed ts e
  | keyed {o c : Token} {r k : List Token} {er ek : Expr Span} (hr : Located .access r er)
      (ho : o.lexeme = .mark .openBracket) (hk : Located .conditional k ek)
      (hc : c.lexeme = .mark .closeBracket) :
      Located .access (r ++ o :: (k ++ [c])) (.keyed (cover (r ++ o :: (k ++ [c]))) er ek)
  | member {o m : Token} {path : String} {r : List Token} {er : Expr Span}
      (hr : Located .access r er) (ho : o.lexeme = .mark .dot) (hm : name? m.lexeme = some path) :
      Located .access (r ++ [o, m]) (.member (cover (r ++ [o, m])) er path)
  | noAccess {ts : List Token} {e : Expr Span} (h : Located .primary ts e) : Located .access ts e
  | leaf {t : Token} {node : Span → Expr Span} (h : leaf? t.lexeme = some node) :
      Located .primary [t] (node (cover [t]))
  /-- The node of an expression in parentheses does not cover them. -/
  | parens {o c : Token} {ts : List Token} {e : Expr Span} (ho : o.lexeme = .mark .openParen)
      (h : Located .conditional ts e) (hc : c.lexeme = .mark .closeParen) :
      Located .primary (o :: (ts ++ [c])) e

variable {c : Category} {n : Nat} {ts : List Token} {e : Expr Span} {l : List Lexeme}
  {t : Expr Unit}

theorem Located.ne_nil (h : Located c ts e) : ts ≠ [] := by
  induction h with
  | noChoice _ ih => exact ih
  | tighter _ ih => exact ih
  | noPower _ ih => exact ih
  | noSign _ ih => exact ih
  | noAccess _ ih => exact ih
  | _ => simp

/-! ## Looser categories -/

theorem le_of_operatorLevel? {op : String} (h : operatorLevel? op = some n) : n ≤ 7 := by
  unfold operatorLevel? at h
  split at h <;> cases h
  all_goals decide

theorem Located.level {m : Nat} (h : Located (.level n) ts e) (hnm : n ≤ m) :
    Located (.level m) ts e := by
  induction hnm with
  | refl => exact h
  | step _ ih => exact .tighter ih

/-- Whatever tokens are located as, they are an expression. -/
theorem Located.conditional (h : Located c ts e) : Located .conditional ts e := by
  have hlevel {n : Nat} {ts : List Token} {e : Expr Span} (h : Located (.level n) ts e)
      (hn : n ≤ 7) : Located .conditional ts e := .noChoice (h.level hn)
  have hsigned {ts : List Token} {e : Expr Span} (h : Located .signed ts e) :
      Located .conditional ts e := hlevel (.noPower h) (by decide)
  induction h with
  | choice hc hq hy hk hn => exact .choice hc hq hy hk hn
  | noChoice h => exact .noChoice h
  | binary hop ho hl hr => exact hlevel (.binary hop ho hl hr) (le_of_operatorLevel? hop)
  | tighter _ ih => exact ih
  | power ho hl hr => exact hlevel (.power ho hl hr) (by decide)
  | noPower _ ih => exact ih
  | prefixed ho hnode h => exact hsigned (.prefixed ho hnode h)
  | noSign _ ih => exact ih
  | keyed hr ho hk hc => exact hsigned (.noSign (.keyed hr ho hk hc))
  | member hr ho hm => exact hsigned (.noSign (.member hr ho hm))
  | noAccess _ ih => exact ih
  | leaf h => exact hsigned (.noSign (.noAccess (.leaf h)))
  | parens ho h hc => exact hsigned (.noSign (.noAccess (.parens ho h hc)))

/-! ## Trees with other notes -/

/-- An operator makes the same node whatever the notes are. -/
theorem exists_prefixed? {α β : Type} (f : α → β) {op : String} {node : α → Expr α → Expr α}
    (h : prefixed? op = some node) :
    ∃ node', prefixed? op = some node' ∧ ∀ a e, (node a e).map f = node' (f a) (e.map f) := by
  unfold prefixed? at h
  split at h
  · cases h
    exact ⟨_, rfl, fun _ _ => rfl⟩
  · cases h
    exact ⟨_, rfl, fun _ _ => rfl⟩
  · cases h
    exact ⟨_, rfl, fun _ _ => rfl⟩
  · cases h

/-- A lexeme is the same node whatever the notes are. -/
theorem exists_leaf? {α β : Type} (f : α → β) {l : Lexeme} {node : α → Expr α}
    (h : leaf? l = some node) :
    ∃ node', leaf? l = some node' ∧ ∀ a, (node a).map f = node' (f a) := by
  unfold leaf? at h
  split at h
  · cases h
    exact ⟨_, rfl, fun _ => rfl⟩
  · cases h
    exact ⟨_, rfl, fun _ => rfl⟩
  · cases h
    exact ⟨_, rfl, fun _ => rfl⟩
  · cases h
    exact ⟨_, rfl, fun _ => rfl⟩
  · cases h

/-- Tokens that are moved have the same tree, which is moved with them. -/
theorem Located.moved (f : Nat → Nat) (h : Located c ts e) :
    Located c (ts.map (Token.moved f)) (e.map (Span.moved f)) := by
  induction h with
  | @choice c y n q k ec ey en _ hq _ hk _ ihc ihy ihn =>
    have := Located.choice ihc (q := q.moved f) hq ihy (k := k.moved f) hk ihn
    rw [map, ← cover_moved f (by simp)]
    simpa using this
  | noChoice _ ih => exact .noChoice ih
  | @binary n o op l r el er hop ho _ _ ihl ihr =>
    have := Located.binary hop (o := o.moved f) ho ihl ihr
    rw [map, ← cover_moved f (by simp)]
    simpa using this
  | tighter _ ih => exact .tighter ih
  | @power o l r el er ho _ _ ihl ihr =>
    have := Located.power (o := o.moved f) ho ihl ihr
    rw [map, ← cover_moved f (by simp)]
    simpa using this
  | noPower _ ih => exact .noPower ih
  | @prefixed o op node ts e ho hnode _ ih =>
    obtain ⟨node', hnode', hmap⟩ := exists_prefixed? (Span.moved f) hnode
    have := Located.prefixed (o := o.moved f) ho hnode' ih
    rw [hmap, ← cover_moved f (by simp)]
    simpa using this
  | noSign _ ih => exact .noSign ih
  | @keyed o c r k er ek _ ho _ hc ihr ihk =>
    have := Located.keyed ihr (o := o.moved f) ho ihk (c := c.moved f) hc
    rw [map, ← cover_moved f (by simp)]
    simpa using this
  | @member o m path r er _ ho hm ihr =>
    have := Located.member ihr (o := o.moved f) ho (m := m.moved f) hm
    rw [map, ← cover_moved f (by simp)]
    simpa using this
  | noAccess _ ih => exact .noAccess ih
  | @leaf t node h =>
    obtain ⟨node', hnode', hmap⟩ := exists_leaf? (Span.moved f) h
    have := Located.leaf (t := t.moved f) hnode'
    rw [hmap, ← cover_moved f (by simp)]
    exact this
  | @parens o c ts e ho _ hc ih =>
    have := Located.parens (o := o.moved f) ho ih (c := c.moved f) hc
    simpa using this

/-! ## The grammar without places -/

/-- The primaries of one lexeme. -/
theorem derives_leaf {l : Lexeme} {node : Unit → Expr Unit} (h : leaf? l = some node) :
    Derives .primary [l] (node ()) := by
  unfold leaf? at h
  split at h
  · next k =>
    cases h
    cases k with
    | truth b => exact .truth b
    | null => exact .null
    | undefined => exact .undefined
  · cases h
    exact .number _ _
  · cases h
    exact .string _
  · cases h
    exact .path _
  · cases h

theorem Located.derives (h : Located c ts e) : Derives c (ts.map Token.lexeme) e.bare := by
  induction h with
  | choice _ hq _ hk _ ihc ihy ihn =>
    have := Derives.choice ihc ihy ihn
    simpa [bare, map, hq, hk] using this
  | noChoice _ ih => exact .noChoice ih
  | binary hop ho _ _ ihl ihr =>
    have := Derives.binary hop ihl ihr
    simpa [bare, map, ho] using this
  | tighter _ ih => exact .tighter ih
  | power ho _ _ ihl ihr =>
    have := Derives.power ihl ihr
    simpa [bare, map, ho] using this
  | noPower _ ih => exact .noPower ih
  | prefixed ho hnode _ ih =>
    rw [List.map_cons, ho]
    unfold prefixed? at hnode
    split at hnode
    · cases hnode
      exact .negation ih
    · cases hnode
      exact .plus ih
    · cases hnode
      exact .minus ih
    · cases hnode
  | noSign _ ih => exact .noSign ih
  | keyed _ ho _ hc ihr ihk =>
    have := Derives.keyed ihr ihk
    simpa [bare, map, ho, hc] using this
  | @member o m path r er _ ho hm ihr =>
    rw [List.map_append, List.map_cons, List.map_singleton, ho]
    unfold name? at hm
    split at hm
    · next hp =>
      cases hm
      rw [hp]
      exact .member _ ihr
    · next hk =>
      cases hm
      rw [hk]
      exact .keywordMember _ ihr
    · cases hm
  | noAccess _ ih => exact .noAccess ih
  | leaf h =>
    obtain ⟨node', hnode', hmap⟩ := exists_leaf? (fun _ => ()) h
    rw [bare, hmap]
    exact derives_leaf hnode'
  | parens ho _ hc ih =>
    have := Derives.parens ih
    simpa [ho, hc] using this

/-- Tokens with these lexemes have the tree, with places. -/
def Locatable (c : Category) (l : List Lexeme) (t : Expr Unit) : Prop :=
  ∀ ts : List Token, ts.map Token.lexeme = l → ∃ e, Located c ts e ∧ e.bare = t

theorem Locatable.mono {c' : Category} (hc : ∀ {ts e}, Located c ts e → Located c' ts e)
    (h : Locatable c l t) : Locatable c' l t := by
  intro ts hts
  obtain ⟨e, he, het⟩ := h _ hts
  exact ⟨e, hc he, het⟩

theorem Locatable.leaf {a : Lexeme} (node : Span → Expr Span) (hnode : leaf? a = some node)
    (hbare : ∀ place, (node place).bare = t) : Locatable .primary [a] t := by
  intro ts hts
  obtain ⟨tok, more, rfl, htok, hmore⟩ := List.map_eq_cons_iff.1 hts
  obtain rfl := List.map_eq_nil_iff.1 hmore
  exact ⟨_, .leaf (by rw [htok]; exact hnode), hbare _⟩

theorem Locatable.prefixed {op : String} {t' : Expr Unit} (node : Span → Expr Span → Expr Span)
    (hnode : prefixed? op = some node)
    (hbare : ∀ place (e : Expr Span), e.bare = t → (node place e).bare = t')
    (h : Locatable .signed l t) : Locatable .signed (.operator op :: l) t' := by
  intro ts hts
  obtain ⟨o, ts, rfl, ho, hts⟩ := List.map_eq_cons_iff.1 hts
  obtain ⟨e, he, het⟩ := h _ hts
  exact ⟨_, .prefixed ho hnode he, hbare _ e het⟩

theorem Locatable.member {name : Lexeme} {path : String} (hname : name? name = some path)
    (h : Locatable .access l t) :
    Locatable .access (l ++ [.mark .dot, name]) (.member () t path) := by
  intro ts hts
  obtain ⟨ls, ts₁, rfl, hls, h₁⟩ := List.map_eq_append_iff.1 hts
  obtain ⟨o, ts₂, rfl, ho, h₂⟩ := List.map_eq_cons_iff.1 h₁
  obtain ⟨m, ts₃, rfl, hm, h₃⟩ := List.map_eq_cons_iff.1 h₂
  obtain rfl := List.map_eq_nil_iff.1 h₃
  obtain ⟨er, hr, rfl⟩ := h _ hls
  exact ⟨_, .member hr ho (by rw [hm]; exact hname), rfl⟩

/-- An operator between two operands. -/
theorem Locatable.between {cl cr c' : Category} {o : String} {r : List Lexeme} {tr : Expr Unit}
    (node : Span → Expr Span → Expr Span → Expr Span) (node' : Expr Unit → Expr Unit → Expr Unit)
    (hnode : ∀ {ls rs : List Token} {k : Token} {el er : Expr Span}, k.lexeme = .operator o →
      Located cl ls el → Located cr rs er →
      Located c' (ls ++ k :: rs) (node (cover (ls ++ k :: rs)) el er))
    (hbare : ∀ place (el er : Expr Span), (node place el er).bare = node' el.bare er.bare)
    (hl : Locatable cl l t) (hr : Locatable cr r tr) :
    Locatable c' (l ++ .operator o :: r) (node' t tr) := by
  intro ts hts
  obtain ⟨ls, ts₁, rfl, hls, h₁⟩ := List.map_eq_append_iff.1 hts
  obtain ⟨k, rs, rfl, hk, hrs⟩ := List.map_eq_cons_iff.1 h₁
  obtain ⟨el, hel, rfl⟩ := hl _ hls
  obtain ⟨er, her, rfl⟩ := hr _ hrs
  exact ⟨_, hnode hk hel her, hbare _ _ _⟩

/-- Tokens with derived lexemes have a tree with places. -/
theorem Derives.locatable (h : Derives c l t) : Locatable c l t := by
  induction h with
  | choice _ _ _ ihc ihy ihn =>
    intro ts hts
    obtain ⟨cs, ts₁, rfl, hcs, h₁⟩ := List.map_eq_append_iff.1 hts
    obtain ⟨q, ts₂, rfl, hq, h₂⟩ := List.map_eq_cons_iff.1 h₁
    obtain ⟨ys, ts₃, rfl, hys, h₃⟩ := List.map_eq_append_iff.1 h₂
    obtain ⟨k, ms, rfl, hk, hms⟩ := List.map_eq_cons_iff.1 h₃
    obtain ⟨ec, hc, rfl⟩ := ihc _ hcs
    obtain ⟨ey, hy, rfl⟩ := ihy _ hys
    obtain ⟨en, hn, rfl⟩ := ihn _ hms
    exact ⟨_, .choice hc hq hy hk hn, rfl⟩
  | noChoice _ ih => exact ih.mono .noChoice
  | binary hop _ _ ihl ihr =>
    exact .between (.binary · _) (.binary () _) (.binary hop) (fun _ _ _ => rfl) ihl ihr
  | tighter _ ih => exact ih.mono .tighter
  | power _ _ ihl ihr =>
    exact .between (.binary · "**") (.binary () "**") .power (fun _ _ _ => rfl) ihl ihr
  | noPower _ ih => exact ih.mono .noPower
  | negation _ ih => exact ih.prefixed .negation rfl fun _ _ het => congrArg (Expr.negation ()) het
  | plus _ ih =>
    exact ih.prefixed (.signed · "+") rfl fun _ _ het => congrArg (Expr.signed () "+") het
  | minus _ ih =>
    exact ih.prefixed (.signed · "-") rfl fun _ _ het => congrArg (Expr.signed () "-") het
  | noSign _ ih => exact ih.mono .noSign
  | keyed _ _ ihl ihk =>
    intro ts hts
    obtain ⟨rs, ts₁, rfl, hrs, h₁⟩ := List.map_eq_append_iff.1 hts
    obtain ⟨o, ts₂, rfl, ho, h₂⟩ := List.map_eq_cons_iff.1 h₁
    obtain ⟨ks, ts₃, rfl, hks, h₃⟩ := List.map_eq_append_iff.1 h₂
    obtain ⟨c, ts₄, rfl, hc, h₄⟩ := List.map_eq_cons_iff.1 h₃
    obtain rfl := List.map_eq_nil_iff.1 h₄
    obtain ⟨er, hr, rfl⟩ := ihl _ hrs
    obtain ⟨ek, hk, rfl⟩ := ihk _ hks
    exact ⟨_, .keyed hr ho hk hc, rfl⟩
  | member path _ ih => exact ih.member rfl
  | keywordMember k _ ih => exact ih.member rfl
  | noAccess _ ih => exact ih.mono .noAccess
  | parens _ ih =>
    intro ts hts
    obtain ⟨o, ts₁, rfl, ho, h₁⟩ := List.map_eq_cons_iff.1 hts
    obtain ⟨es, ts₂, rfl, hes, h₂⟩ := List.map_eq_append_iff.1 h₁
    obtain ⟨c, ts₃, rfl, hc, h₃⟩ := List.map_eq_cons_iff.1 h₂
    obtain rfl := List.map_eq_nil_iff.1 h₃
    obtain ⟨e, he, het⟩ := ih _ hes
    exact ⟨e, .parens ho he hc, het⟩
  | number text x => exact .leaf (.literal · (.number x)) rfl fun _ => rfl
  | string s => exact .leaf (.literal · (.string s)) rfl fun _ => rfl
  | truth b => exact .leaf (.literal · (.bool b)) rfl fun _ => rfl
  | null => exact .leaf (.literal · .null) rfl fun _ => rfl
  | undefined => exact .leaf (.literal · .undefined) rfl fun _ => rfl
  | path p => exact .leaf (.lookup · p) rfl fun _ => rfl

end Stencil.Expr
