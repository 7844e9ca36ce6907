import Mathlib.Data.List.TakeWhile
import Stencil.Expr.Lexer
import Stencil.Proofs.Expr.Located
namespace Stencil.Expr

/-! # How a text is cut into tokens

The tokens of a text as a relation: spaces and tokens in turn. Where a token ends depends on the
next characters, but on nothing behind a space, so that a part of the text from the front of a
token to the end of a token has the same tokens by itself.
-/

/-! ## One token -/

/-- The word is cut off the text in front of the rest, as this lexeme. -/
def Cuts (l : Lexeme) (word rest : List Char) : Prop :=
  l.isError = false ∧ ∃ c cs, word = c :: cs ∧ isSpace c = false ∧
    cutToken c (cs ++ rest) = ⟨l, word, rest⟩

/-- A text ends a token that the other text ends: it is empty, or begins with a space or like the
other one. -/
def EndsLike (rest' rest : List Char) : Prop :=
  ∀ x ∈ rest'.head?, isSpace x = true ∨ x ∈ rest.head?

variable {c : Char} {cs rest rest' word : List Char} {l : Lexeme} {start k : Nat}
  {ts ts' : List Token}

/-- What goes on with a token, and so neither is a space nor begins what ends the token, does not
begin anything that ends it. -/
theorem EndsLike.head_eq_false (h : EndsLike rest' rest) (p : Char → Bool)
    (hspace : ∀ x, isSpace x = true → p x = false) (hrest : ∀ x ∈ rest.head?, p x = false) :
    ∀ x ∈ rest'.head?, p x = false :=
  fun x hx => (h x hx).elim (hspace x) (hrest x)

theorem EndsLike.ne_cons {x : Char} (h : EndsLike rest' rest) (hx : isSpace x = false)
    (hrest : ∀ cs, rest = x :: cs → False) : ∀ cs, rest' = x :: cs → False := by
  rintro cs rfl
  rcases h x rfl with hs | hs
  · simp [hx] at hs
  · obtain ⟨cs, rfl⟩ := List.head?_eq_some_iff.1 hs
    exact hrest cs rfl

theorem endsLike_nil : EndsLike [] rest := by
  simp [EndsLike]

theorem endsLike_space (cs : List Char) : EndsLike (' ' :: cs) rest := by
  rintro x ⟨⟩
  exact .inl rfl

theorem EndsLike.append (h : EndsLike rest' rest) (front : List Char) :
    EndsLike (front ++ rest') (front ++ rest) := by
  cases front with
  | nil => exact h
  | cons x front => exact fun y hy => .inr hy

theorem endsLike_append (front back : List Char) : EndsLike front (front ++ back) := by
  cases front with
  | nil => exact endsLike_nil
  | cons x front => exact fun y hy => .inr hy

theorem isSpace_eq_true_iff {x : Char} : isSpace x = true ↔
    x = ' ' ∨ x = '\t' ∨ x = '\n' ∨ x = '\r' ∨ x = '\x0b' ∨ x = '\x0c' ∨ x = '\xa0' := by
  simp [isSpace, or_assoc]

theorem isSpace_eq_false (p : Char → Bool) (hspace : ∀ x, isSpace x = true → p x = false)
    (hc : p c = true) : isSpace c = false := by
  cases hs : isSpace c with
  | false => rfl
  | true => rw [hspace c hs] at hc; cases hc

theorem isPathPart_of_isSpace {x : Char} (h : isSpace x = true) : isPathPart x = false := by
  rcases isSpace_eq_true_iff.1 h with rfl | rfl | rfl | rfl | rfl | rfl | rfl <;> decide

theorem takeWhile_eq_nil {p : Char → Bool} (h : ∀ x ∈ rest.head?, p x = false) :
    rest.takeWhile p = [] := by
  cases rest with
  | nil => rfl
  | cons x rest => exact List.takeWhile_cons_of_neg (by simp [h x rfl])

theorem dropWhile_eq_self {p : Char → Bool} (h : ∀ x ∈ rest.head?, p x = false) :
    rest.dropWhile p = rest := by
  cases rest with
  | nil => rfl
  | cons x rest => exact List.dropWhile_cons_of_neg (by simp [h x rfl])

theorem cutWord_behind (h : EndsLike rest (cutWord c cs).rest) :
    cutWord c (cs.takeWhile isPathPart ++ rest) = { cutWord c cs with rest := rest } := by
  have hrest : ∀ x ∈ rest.head?, isPathPart x = false := by
    refine h.head_eq_false isPathPart (fun _ => isPathPart_of_isSpace) fun x hx => ?_
    have := List.head?_dropWhile_not isPathPart cs
    simp_all [cutWord]
  have hall : ∀ x ∈ cs.takeWhile isPathPart, isPathPart x = true := by
    intro x hx
    exact List.mem_takeWhile_imp hx
  unfold cutWord
  rw [List.takeWhile_append_of_pos hall, List.dropWhile_append_of_pos hall, takeWhile_eq_nil hrest,
    dropWhile_eq_self hrest, List.append_nil]

/-- The characters that go on with a number, other than signs. -/
def isNumberPart (c : Char) : Bool :=
  c.isDigit || c == '.' || c == 'e' || c == 'E'

theorem isNumberPart_of_isSpace {x : Char} (h : isSpace x = true) : isNumberPart x = false := by
  rcases isSpace_eq_true_iff.1 h with rfl | rfl | rfl | rfl | rfl | rfl | rfl <;> decide

theorem spanNumber_eq_nil (h : ∀ x ∈ rest.head?, isNumberPart x = false) :
    spanNumber rest = ([], rest) := by
  cases rest with
  | nil => rfl
  | cons x rest =>
    have hx := h x rfl
    simp only [isNumberPart, Bool.or_eq_false_iff] at hx
    rw [spanNumber.eq_def]
    simp [hx]

theorem spanNumber_cons (h : (c.isDigit || c == '.') = true) :
    spanNumber (c :: cs) = (c :: (spanNumber cs).1, (spanNumber cs).2) := by
  rw [spanNumber.eq_def]
  simp [h]

theorem head?_spanNumber : ∀ x ∈ (spanNumber cs).2.head?, isNumberPart x = false := by
  fun_induction spanNumber cs with
  | case6 => simp_all [isNumberPart]
  | _ => simp_all

theorem spanNumber_behind (h : EndsLike rest (spanNumber cs).2) :
    spanNumber ((spanNumber cs).1 ++ rest) = ((spanNumber cs).1, rest) := by
  have hrest : ∀ x ∈ rest.head?, isNumberPart x = false :=
    h.head_eq_false isNumberPart (fun _ => isNumberPart_of_isSpace) head?_spanNumber
  fun_induction spanNumber cs with
  | case1 => exact spanNumber_eq_nil hrest
  | case2 c cs hc run tail hrun ih =>
    rw [hrun] at ih
    rw [List.cons_append, spanNumber_cons hc, ih h]
  | case3 c hc he more run tail hrun ih =>
    rw [hrun] at ih
    rw [List.cons_append, spanNumber.eq_def]
    simp [hc, he, ih h]
  | case4 c hc he more run tail hrun ih =>
    rw [hrun] at ih
    rw [List.cons_append, spanNumber.eq_def]
    simp [hc, he, ih h]
  | case5 c hc he more hplus hminus run tail hrun ih =>
    rw [hrun] at ih
    have hmore : run ++ tail = more := by
      simpa [hrun] using spanNumber_append more
    have hlike : EndsLike (run ++ rest) more := hmore ▸ h.append run
    have hplus' := hlike.ne_cons (by decide) hplus
    have hminus' := hlike.ne_cons (by decide) hminus
    rw [List.cons_append, spanNumber.eq_def]
    dsimp only
    rw [if_neg hc, if_pos he]
    split
    · next hcons => exact (hplus' _ hcons).elim
    · next hcons => exact (hminus' _ hcons).elim
    · simp [ih h]
  | case6 => exact spanNumber_eq_nil hrest

theorem cutSymbol_behind : (cutSymbol c cs).lexeme.isError = false →
    EndsLike rest (cutSymbol c cs).rest →
    cutSymbol c ((cutSymbol c cs).taken.tail ++ rest) = { cutSymbol c cs with rest := rest } := by
  fun_cases cutSymbol c cs <;> intro herr h
  -- an operator that may be the front of a longer one
  case case12 hne | case16 hne | case18 hne | case20 hne =>
    change cutSymbol _ rest = _
    rw [cutSymbol]
    · rfl
    · exact h.ne_cons (by decide) hne
  case case22 _ hne | case25 _ hne =>
    change cutSymbol _ ('=' :: rest) = _
    rw [cutSymbol]
    · rfl
    · exact h.ne_cons (by decide) hne
  case case23 hne =>
    have hne' := h.ne_cons (by decide) hne
    change cutSymbol _ rest = _
    rw [cutSymbol]
    · rfl
    · exact fun more => hne' _
    · exact hne'
  -- no token begins here
  case case26 | case27 => cases herr
  all_goals rfl

theorem cutNumber_taken : (cutNumber cs).taken = (spanNumber cs).1 := by
  unfold cutNumber
  dsimp only
  split <;> rfl

theorem cutNumber_rest : (cutNumber cs).rest = (spanNumber cs).2 := by
  unfold cutNumber
  dsimp only
  split <;> rfl

theorem cutNumber_behind (h : EndsLike rest (cutNumber cs).rest) :
    cutNumber ((cutNumber cs).taken ++ rest) = { cutNumber cs with rest := rest } := by
  have hspan := spanNumber_behind (cutNumber_rest ▸ h)
  rw [cutNumber_taken]
  unfold cutNumber
  simp only [hspan]
  split <;> rfl

section

variable {quote : Char} {content taken : List Char}

theorem cutString_close : cutString quote content taken (quote :: rest) =
    ⟨.string (String.ofList content.reverse), (quote :: taken).reverse, rest⟩ := by
  rw [cutString.eq_def]
  simp

theorem cutString_escaped (h : ¬ '\\' = quote) : cutString quote content taken ('\\' :: c :: cs) =
    cutString quote (unescape c :: content) (c :: '\\' :: taken) cs := by
  rw [cutString.eq_def]
  simp [h]

theorem cutString_plain (hquote : ¬ c = quote) (hescape : ¬ c = '\\') :
    cutString quote content taken (c :: cs) = cutString quote (c :: content) (c :: taken) cs := by
  rw [cutString.eq_def]
  simp [hquote, hescape]

/-- A string ends with its quote, whatever is behind it. -/
theorem cutString_behind : (cutString quote content taken cs).lexeme.isError = false →
    ∃ consumed, (cutString quote content taken cs).taken = taken.reverse ++ consumed ∧
      ∀ rest, cutString quote content taken (consumed ++ rest) =
        { cutString quote content taken cs with rest := rest } := by
  fun_induction cutString quote content taken cs with
  | case1 => simp [Lexeme.isError]
  | case2 content taken cs => exact fun _ => ⟨[quote], by simp, fun rest => cutString_close⟩
  | case3 => simp [Lexeme.isError]
  | case4 content taken e more hquote ih =>
    intro herr
    obtain ⟨consumed, htaken, hcut⟩ := ih herr
    refine ⟨'\\' :: e :: consumed, by simp [htaken], fun rest => ?_⟩
    exact (cutString_escaped hquote).trans (hcut rest)
  | case5 content taken c cs hquote hescape ih =>
    intro herr
    obtain ⟨consumed, htaken, hcut⟩ := ih herr
    refine ⟨c :: consumed, by simp [htaken], fun rest => ?_⟩
    exact (cutString_plain hquote hescape).trans (hcut rest)

end

theorem isDigit_of_isSpace {x : Char} (h : isSpace x = true) : x.isDigit = false := by
  have := isNumberPart_of_isSpace h
  simp only [isNumberPart, Bool.or_eq_false_iff] at this
  exact this.1.1.1

/-- A point that begins a number does so still, and one that does not stays a mark. -/
theorem beginsNumber_behind (h : EndsLike rest (cutToken c cs).rest) :
    beginsNumber c ((cutToken c cs).taken.tail ++ rest) = beginsNumber c cs := by
  by_cases hc : c = '.'
  · subst hc
    have hpath : isPathStart '.' = false := by decide
    cases hn : beginsNumber '.' cs with
    | true =>
      obtain ⟨d, more, rfl, hd⟩ : ∃ d more, cs = d :: more ∧ d.isDigit = true := by
        cases cs with
        | nil => simp [beginsNumber] at hn
        | cons d more => exact ⟨d, more, rfl, by simpa [beginsNumber] using hn⟩
      have htaken : (cutToken '.' (d :: more)).taken = '.' :: d :: (spanNumber more).1 := by
        have hnumber : (cutToken '.' (d :: more)).taken = (spanNumber ('.' :: d :: more)).1 := by
          simp [cutToken, hpath, hn, cutNumber_taken]
        rw [hnumber, spanNumber_cons (by decide), spanNumber_cons (by simp [hd])]
      simp [htaken, beginsNumber, hd]
    | false =>
      have hcut : cutToken '.' cs = ⟨.mark .dot, ['.'], cs⟩ := by
        simp [cutToken, hpath, hn, cutSymbol]
      have hdigit : ∀ x ∈ cs.head?, x.isDigit = false := by
        cases cs <;> simp_all [beginsNumber]
      rw [hcut] at h ⊢
      have := h.head_eq_false Char.isDigit (fun _ => isDigit_of_isSpace) hdigit
      cases rest <;> simp_all [beginsNumber]
  · simp [beginsNumber, beq_eq_false_iff_ne.2 hc]

theorem cons_taken_tail (c : Char) (cs : List Char) :
    c :: (cutToken c cs).taken.tail = (cutToken c cs).taken := by
  have happend := cutToken_append c cs
  obtain ⟨x, taken, htaken⟩ := List.exists_cons_of_ne_nil (cutToken_taken_ne_nil c cs)
  rw [htaken] at happend ⊢
  rw [(List.cons.inj happend).1, List.tail_cons]

/-- What is behind a token may be exchanged for anything that ends it as well. -/
theorem cutToken_behind (herr : (cutToken c cs).lexeme.isError = false)
    (h : EndsLike rest (cutToken c cs).rest) :
    cutToken c ((cutToken c cs).taken.tail ++ rest) = { cutToken c cs with rest := rest } := by
  have hbegins := beginsNumber_behind h
  have hcons := cons_taken_tail c cs
  by_cases hp : isPathStart c = true
  · have hcut (tail : List Char) : cutToken c tail = cutWord c tail := by simp [cutToken, hp]
    rw [hcut] at h ⊢
    rw [hcut]
    exact cutWord_behind h
  by_cases hn : beginsNumber c cs = true
  · have hcut (tail : List Char) (hn : beginsNumber c tail = true) :
        cutToken c tail = cutNumber (c :: tail) := by simp [cutToken, hp, hn]
    rw [hcut _ (hbegins.trans hn), ← List.cons_append, hcons]
    rw [hcut _ hn] at h ⊢
    exact cutNumber_behind h
  by_cases hq : c = '\'' ∨ c = '"'
  · have hcut (tail : List Char) (hn : beginsNumber c tail ≠ true) :
        cutToken c tail = cutString c [] [c] tail := by simp [cutToken, hp, hn, hq]
    rw [hcut _ (hbegins.trans_ne hn)]
    rw [hcut _ hn] at herr ⊢
    obtain ⟨consumed, htaken, hrest⟩ := cutString_behind herr
    rw [htaken]
    exact hrest rest
  · have hcut (tail : List Char) (hn : beginsNumber c tail ≠ true) :
        cutToken c tail = cutSymbol c tail := by simp [cutToken, hp, hn, hq]
    rw [hcut _ (hbegins.trans_ne hn)]
    rw [hcut _ hn] at h herr ⊢
    exact cutSymbol_behind herr h

theorem cuts_cutToken (hc : isSpace c = false) (herr : (cutToken c cs).lexeme.isError = false) :
    Cuts (cutToken c cs).lexeme (cutToken c cs).taken (cutToken c cs).rest := by
  have hcons := cons_taken_tail c cs
  have hcs : (cutToken c cs).taken.tail ++ (cutToken c cs).rest = cs := by
    have happend := cutToken_append c cs
    rw [← hcons, List.cons_append] at happend
    exact (List.cons.inj happend).2
  exact ⟨herr, c, _, hcons.symm, hc, by rw [hcs]⟩

/-- A word that is cut off one text is cut off any other that ends it as well. -/
theorem Cuts.behind (h : Cuts l word rest) (hlike : EndsLike rest' rest) : Cuts l word rest' := by
  obtain ⟨herr, c, cs, rfl, hc, hcut⟩ := h
  refine ⟨herr, c, cs, rfl, hc, ?_⟩
  have hlike' : EndsLike rest' (cutToken c (cs ++ rest)).rest := by rwa [hcut]
  have hbehind := cutToken_behind (by rwa [hcut]) hlike'
  rwa [hcut] at hbehind

theorem Cuts.word_ne_nil (h : Cuts l word rest) : word ≠ [] := by
  obtain ⟨-, c, cs, rfl, -⟩ := h
  simp

/-! ## All tokens -/

/-- The text, which begins at this byte, is made of the tokens with spaces between them. -/
inductive Spelled : Nat → List Char → List Token → Prop
  | nothing {start : Nat} {space : List Char} (hspace : ∀ c ∈ space, isSpace c = true) :
      Spelled start space []
  | token {start first stop : Nat} {space word rest : List Char} {l : Lexeme} {ts : List Token}
      (hspace : ∀ c ∈ space, isSpace c = true) (hfirst : first = start + Text.byteLength space)
      (hword : Cuts l word rest) (hstop : stop = first + Text.byteLength word)
      (hrest : Spelled stop rest ts) :
      Spelled start (space ++ (word ++ rest)) (⟨first, stop, l⟩ :: ts)

theorem tokensFrom_space {space : List Char} (hspace : ∀ c ∈ space, isSpace c = true) :
    tokensFrom start space = [] := by
  rw [tokensFrom]
  split
  · rfl
  · next hdrop =>
    rw [List.dropWhile_eq_nil_iff.2 hspace] at hdrop
    cases hdrop

theorem tokensFrom_cut {space word : List Char} (hspace : ∀ c ∈ space, isSpace c = true)
    (hword : Cuts l word rest) :
    tokensFrom start (space ++ (word ++ rest)) =
      ⟨start + Text.byteLength space, start + Text.byteLength space + Text.byteLength word, l⟩ ::
        tokensFrom (start + Text.byteLength space + Text.byteLength word) rest := by
  obtain ⟨herr, c, cs, rfl, hc, hcut⟩ := hword
  have hdrop : (space ++ (c :: cs ++ rest)).dropWhile isSpace = c :: (cs ++ rest) := by
    rw [List.dropWhile_append_of_pos hspace, List.cons_append,
      List.dropWhile_cons_of_neg (by simp [hc])]
  have htake : (space ++ (c :: cs ++ rest)).takeWhile isSpace = space := by
    rw [List.takeWhile_append_of_pos hspace, List.cons_append,
      List.takeWhile_cons_of_neg (by simp [hc]), List.append_nil]
  rw [tokensFrom]
  split
  · next h =>
    rw [hdrop] at h
    cases h
  · next h =>
    rw [hdrop] at h
    cases h
    simp only [htake, hcut, herr]
    simp

theorem Spelled.tokensFrom_eq (h : Spelled start cs ts) : tokensFrom start cs = ts := by
  induction h with
  | nothing hspace => exact tokensFrom_space hspace
  | token hspace hfirst hword hstop _ ih =>
    subst hfirst hstop
    rw [tokensFrom_cut hspace hword, ih]

theorem spelled_tokensFrom (h : ∀ t ∈ tokensFrom start cs, t.lexeme.isError = false) :
    Spelled start cs (tokensFrom start cs) := by
  fun_induction tokensFrom start cs with
  | case1 start cs hnil => exact .nothing (List.dropWhile_eq_nil_iff.1 hnil)
  | case2 start cs c rest hcons first cut stop hlt token herr =>
    have := h _ (List.mem_singleton_self _)
    simp [token, herr] at this
  | case3 start cs c rest hcons first cut stop hlt token herr ih =>
    have hspace : ∀ x ∈ cs.takeWhile isSpace, isSpace x = true := fun x hx =>
      List.mem_takeWhile_imp hx
    have hcs : cs = cs.takeWhile isSpace ++ (cut.taken ++ cut.rest) := by
      rw [cutToken_append, ← hcons, List.takeWhile_append_dropWhile]
    have hc : isSpace c = false := by
      have := List.head?_dropWhile_not isSpace cs
      simpa [hcons] using this
    have hword : Cuts cut.lexeme cut.taken cut.rest := cuts_cutToken hc (by simpa using herr)
    have hrest := ih fun t ht => h t (List.mem_cons_of_mem _ ht)
    have := Spelled.token hspace rfl hword rfl hrest
    rwa [← hcs] at this

theorem Spelled.no_error (h : Spelled start cs ts) : ∀ t ∈ ts, t.lexeme.isError = false := by
  induction h with
  | nothing => simp
  | token _ _ hword _ _ ih =>
    intro t ht
    rcases List.mem_cons.1 ht with rfl | ht
    · exact hword.1
    · exact ih t ht

/-! ## Parts of a text -/

/-- Tokens that come first are spelled by a part of the text that comes first. -/
theorem Spelled.exists_front (h : Spelled start cs (ts ++ ts')) (hne : ts ≠ []) :
    ∃ front back, cs = front ++ back ∧ Spelled start front ts ∧
      start + Text.byteLength front = stopOf ts ∧ Spelled (stopOf ts) back ts' := by
  induction ts generalizing start cs with
  | nil => exact absurd rfl hne
  | cons t ts ih =>
    rw [List.cons_append] at h
    cases h with
    | @token _ first stop space word rest l _ hspace hfirst hword hstop hrest =>
      subst hfirst hstop
      by_cases hts : ts = []
      · subst hts
        refine ⟨space ++ (word ++ []), rest, by simp,
          .token hspace rfl (hword.behind endsLike_nil) rfl (.nothing (by simp)), ?_, hrest⟩
        simp [stopOf, Nat.add_assoc]
      · obtain ⟨front, back, rfl, hfront, hend, hback⟩ := ih hrest hts
        have hword' := hword.behind (endsLike_append front back)
        refine ⟨space ++ (word ++ front), back, by simp, .token hspace rfl hword' rfl hfront, ?_,
          ?_⟩
        · rw [stopOf_cons hts, ← hend]
          simp [Nat.add_assoc]
        · rwa [stopOf_cons hts]

/-- The spaces in front of the first token are no part of it. -/
theorem Spelled.exists_space (h : Spelled start cs ts) (hne : ts ≠ []) :
    ∃ space inside, cs = space ++ inside ∧ start + Text.byteLength space = startOf ts ∧
      inside ≠ [] ∧ Spelled (startOf ts) inside ts := by
  cases h with
  | nothing => exact absurd rfl hne
  | @token _ first stop space word rest l ts hspace hfirst hword hstop hrest =>
    have hinside : Spelled first ([] ++ (word ++ rest)) (⟨first, stop, l⟩ :: ts) :=
      .token (by simp) rfl hword hstop hrest
    exact ⟨space, word ++ rest, rfl, hfirst.symm, by simp [hword.word_ne_nil], hinside⟩

/-- Tokens that stand together are spelled by the part of the text that they cover. -/
theorem Spelled.exists_inside {mid : List Token} (h : Spelled start cs (ts ++ (mid ++ ts')))
    (hne : mid ≠ []) :
    ∃ before inside after, cs = before ++ (inside ++ after) ∧
      start + Text.byteLength before = startOf mid ∧
      startOf mid + Text.byteLength inside = stopOf mid ∧ inside ≠ [] ∧
      Spelled (startOf mid) inside mid := by
  have hmid : ∃ before rest, cs = before ++ rest ∧
      Spelled (start + Text.byteLength before) rest (mid ++ ts') := by
    by_cases hts : ts = []
    · exact ⟨[], cs, rfl, by simpa [hts] using h⟩
    · obtain ⟨front, back, rfl, -, hstop, hback⟩ := h.exists_front hts
      exact ⟨front, back, rfl, hstop ▸ hback⟩
  obtain ⟨before, rest, rfl, hrest⟩ := hmid
  obtain ⟨front, after, rfl, hfront, hstop, -⟩ := hrest.exists_front hne
  obtain ⟨space, inside, rfl, hspace, hinside, hspelled⟩ := hfront.exists_space hne
  refine ⟨before ++ space, inside, after, by simp, ?_, ?_, hinside, hspelled⟩
  · rw [← hspace, Text.byteLength_append, Nat.add_assoc]
  · rw [← hspace, ← hstop, Text.byteLength_append]
    omega

/-- The same text has the same tokens nearer to the beginning. -/
theorem Spelled.moved (h : Spelled start cs ts) (hk : k ≤ start) :
    Spelled (start - k) cs (ts.map (Token.moved (· - k))) := by
  induction h with
  | nothing hspace => exact .nothing hspace
  | @token start first stop _ _ _ _ _ hspace hfirst hword hstop _ ih =>
    have hfirst' : first - k = start - k + _ := hfirst ▸ Nat.sub_add_comm hk
    have hle : k ≤ first := hfirst ▸ Nat.le_add_right_of_le hk
    have hstop' : stop - k = first - k + _ := hstop ▸ Nat.sub_add_comm hle
    exact .token hspace hfirst' hword hstop' (ih (hstop ▸ Nat.le_add_right_of_le hle))

end Stencil.Expr
