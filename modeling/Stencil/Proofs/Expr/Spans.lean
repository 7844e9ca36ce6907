import Stencil.Proofs.Expr.Parsing
namespace Stencil.Expr

/-! # Where the nodes of a parsed text stand

Every node of a parsed text stands at the piece of the text that is the node: parsed by itself, the
piece gives the node again. The tokens of a node are an infix of the tokens of the text, so the
piece is cut into the same tokens, and in the grammar they are an expression at whatever place they
stood.
-/

/-! ## Nodes -/

/-- The nodes directly below the root. -/
def children {α : Type} : Expr α → List (Expr α)
  | .literal _ _ | .lookup _ _ => []
  | .keyed _ r k => [r, k]
  | .member _ r _ => [r]
  | .binary _ _ l r => [l, r]
  | .negation _ e | .signed _ _ e => [e]
  | .conditional _ c y n => [c, y, n]

/-- The tree has the node, at any depth. -/
def HasNode {α : Type} (e n : Expr α) : Prop :=
  Relation.ReflTransGen (fun parent child => child ∈ parent.children) e n

/-- The tokens are those that the node covers, and the nodes below it stand among them. -/
structure Owns (ts : List Token) (e : Expr Span) : Prop where
  located : Located .conditional ts e
  note : e.note = cover ts
  below : ∀ child ∈ e.children, ∃ mid, mid <:+: ts ∧ Located .conditional mid child

variable {c : Category} {ts mid : List Token} {e n : Expr Span}

theorem children_prefixed? {op : String} {node : Span → Expr Span → Expr Span}
    (h : prefixed? op = some node) (place : Span) (e : Expr Span) :
    (node place e).note = place ∧ (node place e).children = [e] := by
  unfold prefixed? at h
  split at h
  · cases h
    exact ⟨rfl, rfl⟩
  · cases h
    exact ⟨rfl, rfl⟩
  · cases h
    exact ⟨rfl, rfl⟩
  · cases h

theorem children_leaf? {l : Lexeme} {node : Span → Expr Span} (h : leaf? l = some node)
    (place : Span) : (node place).note = place ∧ (node place).children = [] := by
  unfold leaf? at h
  split at h
  · cases h
    exact ⟨rfl, rfl⟩
  · cases h
    exact ⟨rfl, rfl⟩
  · cases h
    exact ⟨rfl, rfl⟩
  · cases h
    exact ⟨rfl, rfl⟩
  · cases h

/-- Of the tokens of an expression, those that are not parentheses around it are its own. -/
theorem Located.exists_owns (h : Located c ts e) : ∃ mid, mid <:+: ts ∧ Owns mid e := by
  have hself {c : Category} {ts : List Token} {e : Expr Span} (h : Located c ts e)
      (hnote : e.note = cover ts)
      (hbelow : ∀ child ∈ e.children, ∃ mid, mid <:+: ts ∧ Located .conditional mid child) :
      ∃ mid, mid <:+: ts ∧ Owns mid e :=
    ⟨ts, List.infix_refl ts, h.conditional, hnote, hbelow⟩
  have hbinary {l r : List Token} {o : Token} {cl cr : Category} {op : String}
      {el er : Expr Span} (hl : Located cl l el) (hr : Located cr r er) :
      ∀ child ∈ children (.binary (cover (l ++ o :: r)) op el er),
        ∃ mid, mid <:+: l ++ o :: r ∧ Located .conditional mid child := by
    simp only [children, List.forall_mem_cons]
    exact ⟨⟨l, ⟨[], o :: r, by simp⟩, hl.conditional⟩,
      ⟨r, ⟨l ++ [o], [], by simp⟩, hr.conditional⟩, by simp⟩
  induction h with
  | @choice c y n q k _ _ _ hc hq hy hk hn =>
    refine hself (.choice hc hq hy hk hn) rfl ?_
    simp only [children, List.forall_mem_cons]
    exact ⟨⟨c, ⟨[], q :: (y ++ k :: n), by simp⟩, hc.conditional⟩,
      ⟨y, ⟨c ++ [q], k :: n, by simp⟩, hy⟩, ⟨n, ⟨c ++ q :: (y ++ [k]), [], by simp⟩, hn⟩, by simp⟩
  | noChoice _ ih => exact ih
  | binary hop ho hl hr => exact hself (.binary hop ho hl hr) rfl (hbinary hl hr)
  | tighter _ ih => exact ih
  | power ho hl hr => exact hself (.power ho hl hr) rfl (hbinary hl hr)
  | noPower _ ih => exact ih
  | @prefixed o _ _ ts e ho hnode h =>
    obtain ⟨hnote, hchildren⟩ := children_prefixed? hnode (cover (o :: ts)) e
    refine hself (.prefixed ho hnode h) hnote ?_
    rw [hchildren, List.forall_mem_singleton]
    exact ⟨ts, ⟨[o], [], by simp⟩, h.conditional⟩
  | noSign _ ih => exact ih
  | @keyed o c r k _ _ hr ho hk hc =>
    refine hself (.keyed hr ho hk hc) rfl ?_
    simp only [children, List.forall_mem_cons]
    exact ⟨⟨r, ⟨[], o :: (k ++ [c]), by simp⟩, hr.conditional⟩,
      ⟨k, ⟨r ++ [o], [c], by simp⟩, hk⟩, by simp⟩
  | @member o m _ r _ hr ho hm =>
    refine hself (.member hr ho hm) rfl ?_
    simp only [children, List.forall_mem_singleton]
    exact ⟨r, ⟨[], [o, m], by simp⟩, hr.conditional⟩
  | noAccess _ ih => exact ih
  | @leaf t _ h =>
    obtain ⟨hnote, hchildren⟩ := children_leaf? h (cover [t])
    refine hself (.leaf h) hnote ?_
    rw [hchildren]
    exact List.forall_mem_nil _
  | @parens o c ts _ _ _ _ ih =>
    obtain ⟨mid, hmid, howns⟩ := ih
    exact ⟨mid, hmid.trans ⟨[o], [c], by simp⟩, howns⟩

/-- The tokens of a node stand together among those of the tree. -/
theorem Located.exists_owns_node (h : Located .conditional ts e) (hn : HasNode e n) :
    ∃ mid, mid <:+: ts ∧ Owns mid n := by
  induction hn with
  | refl => exact h.exists_owns
  | tail _ hchild ih =>
    obtain ⟨mid, hmid, howns⟩ := ih
    obtain ⟨sub, hsub, hlocated⟩ := howns.below _ hchild
    obtain ⟨own, hown, howns⟩ := hlocated.exists_owns
    exact ⟨own, hown.trans (hsub.trans hmid), howns⟩

/-! ## Pieces of a text -/

/-- The bytes from `start` up to `stop` are the piece of the text. -/
def Span.Delimits (s : Span) (text piece : String) : Prop :=
  ∃ before after, text.toList = before ++ (piece.toList ++ after) ∧
    s.start = Text.byteLength before ∧ s.stop = s.start + Text.byteLength piece.toList

/-- Tokens of a text lie inside it. -/
theorem Spelled.cover_within {start : Nat} {cs : List Char} (h : Spelled start cs ts)
    (hmid : mid <:+: ts) (hne : mid ≠ []) :
    start ≤ startOf mid ∧ stopOf mid ≤ start + Text.byteLength cs := by
  obtain ⟨front, back, rfl⟩ := hmid
  rw [List.append_assoc] at h
  obtain ⟨before, inside, after, rfl, hstart, hstop, -, -⟩ := h.exists_inside hne
  simp only [Text.byteLength_append]
  omega

/-- Every node of a parsed text has the span of a piece of the text that is not empty, and which
parsed by itself is the node, moved to the beginning. The nodes below it lie inside its span. -/
theorem exists_piece_of_node {text : String} (h : parse text = .ok e) (hn : HasNode e n) :
    (∃ piece, piece ≠ "" ∧ n.note.Delimits text piece ∧
      parse piece = .ok (n.map (Span.moved (· - n.note.start)))) ∧
    ∀ child ∈ n.children, n.note.start ≤ child.note.start ∧ child.note.stop ≤ n.note.stop := by
  obtain ⟨ts, hspelled, hlocated⟩ := parse_eq_ok_iff.1 h
  obtain ⟨mid, ⟨front, back, rfl⟩, howns⟩ := hlocated.exists_owns_node hn
  rw [List.append_assoc] at hspelled
  obtain ⟨before, inside, after, htext, hstart, hstop, hne, hinside⟩ :=
    hspelled.exists_inside howns.located.ne_nil
  rw [howns.note]
  refine ⟨⟨String.ofList inside, by simpa using hne, ⟨before, after, ?_, ?_, ?_⟩, ?_⟩, ?_⟩
  · rw [String.toList_ofList, htext]
  · rw [cover, ← hstart, Nat.zero_add]
  · rw [String.toList_ofList]
    exact hstop.symm
  · have hmoved := hinside.moved (Nat.le_refl _)
    rw [Nat.sub_self] at hmoved
    rw [parse_eq_ok_iff, String.toList_ofList]
    exact ⟨_, hmoved, howns.located.moved _⟩
  · intro child hchild
    obtain ⟨sub, hsub, hchild⟩ := howns.below _ hchild
    obtain ⟨own, hown, hchild⟩ := hchild.exists_owns
    have hwithin := hinside.cover_within (hown.trans hsub) hchild.located.ne_nil
    rw [hchild.note]
    exact ⟨hwithin.1, hwithin.2.trans_eq hstop⟩

/-- An access behind a parenthesis: the node of `( 'é' )[k]`, in which a character has two bytes. -/
theorem exists_piece_of_node_keyed :
    let keyed : Expr Span :=
      .keyed ⟨5, 16⟩ (.literal ⟨7, 11⟩ (.string "é")) (.lookup ⟨14, 15⟩ "k")
    let whole : Expr Span := .binary ⟨0, 16⟩ "||" (.lookup ⟨0, 1⟩ "y") keyed
    parse "y || ( 'é' )[k]" = .ok whole ∧ HasNode whole keyed ∧
      ∃ piece, piece ≠ "" ∧ Span.Delimits ⟨5, 16⟩ "y || ( 'é' )[k]" piece ∧
        parse piece =
          .ok (.keyed ⟨0, 11⟩ (.literal ⟨2, 6⟩ (.string "é")) (.lookup ⟨9, 10⟩ "k")) := by
  intro keyed whole
  have hts : tokenize "y || ( 'é' )[k]" =
      [⟨0, 1, .identifier "y"⟩] ++ ⟨2, 4, .operator "||"⟩ ::
        (⟨5, 6, .mark .openParen⟩ :: ([⟨7, 11, .string "é"⟩] ++ [⟨12, 13, .mark .closeParen⟩]) ++
          ⟨13, 14, .mark .openBracket⟩ ::
            ([⟨14, 15, .identifier "k"⟩] ++ [⟨15, 16, .mark .closeBracket⟩])) := by
    decide +kernel
  have hparse : parse "y || ( 'é' )[k]" = .ok whole := by
    have hspelled : Spelled 0 "y || ( 'é' )[k]".toList (tokenize "y || ( 'é' )[k]") := by
      refine spelled_tokensFrom ?_
      change ∀ t ∈ tokenize "y || ( 'é' )[k]", t.lexeme.isError = false
      simp [hts, Lexeme.isError]
    refine parse_eq_ok_iff.2 ⟨_, hspelled, ?_⟩
    rw [hts]
    have hleaf (start stop : Nat) (l : Lexeme) {node : Span → Expr Span}
        (hnode : leaf? l = some node) :
        Located .primary [⟨start, stop, l⟩] (node ⟨start, stop⟩) :=
      .leaf (t := ⟨start, stop, l⟩) hnode
    have hy := hleaf 0 1 (.identifier "y") rfl
    have hinner := hleaf 7 11 (.string "é") rfl
    have hkey := hleaf 14 15 (.identifier "k") rfl
    have hparens := Located.parens (o := ⟨5, 6, .mark .openParen⟩)
      (c := ⟨12, 13, .mark .closeParen⟩) rfl hinner.conditional rfl
    have hkeyed := Located.keyed (o := ⟨13, 14, .mark .openBracket⟩)
      (c := ⟨15, 16, .mark .closeBracket⟩) (.noAccess hparens) rfl hkey.conditional rfl
    have hleft := (Located.noPower (.noSign (.noAccess hy))).level (Nat.zero_le 7)
    have hright := (Located.noPower (.noSign hkeyed)).level (Nat.zero_le 6)
    exact .noChoice (.binary (by decide) rfl hleft hright)
  have hnode : HasNode whole keyed := .single (by simp [whole, children])
  exact ⟨hparse, hnode, (exists_piece_of_node hparse hnode).1⟩

end Stencil.Expr
