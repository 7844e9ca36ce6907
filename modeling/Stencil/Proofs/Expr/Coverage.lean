import Mathlib.Data.List.Chain
import Mathlib.Data.List.Pairwise
import Stencil.Proofs.Expr.Spans
namespace Stencil.Expr

/-! # What the tokens of a text cover

The tokens lie in the text one after the other with nothing but spaces around them, and each of them
is written as the piece of the text that it covers. Only an error leaves the rest of a text without
tokens, and it comes last.
-/

/-! ## One token -/

/-- The characters are those that the lexeme is written with. A string keeps neither its quotes nor
its escapes, and of an error nothing is said. -/
def Lexeme.IsWrittenAs (word : List Char) : Lexeme → Prop
  | .mark m => word = [m.char]
  | .identifier path => word = path.toList
  | .keyword k => word = k.text.toList
  | .operator o => word = o.toList
  | .number text _ => word = text.toList
  | .string _ =>
    ∃ quote inside, (quote = '\'' ∨ quote = '"') ∧ word = quote :: (inside ++ [quote])
  | .error _ => True

variable {c : Char} {cs before space word : List Char} {t : Token} {ts : List Token}

theorem isWrittenAs_of_isError {l : Lexeme} (h : l.isError = true) : l.IsWrittenAs word := by
  cases l <;> first | exact trivial | cases h

theorem cutWord_isWrittenAs : (cutWord c cs).lexeme.IsWrittenAs (cutWord c cs).taken := by
  unfold cutWord
  dsimp only
  split
  · next k hk =>
    rw [Keyword.ofText?_eq_some_iff] at hk
    show _ = k.text.toList
    rw [← hk, String.toList_ofList]
  · exact String.toList_ofList.symm

theorem cutNumber_isWrittenAs : (cutNumber cs).lexeme.IsWrittenAs (cutNumber cs).taken := by
  unfold cutNumber
  dsimp only
  split
  · exact String.toList_ofList.symm
  · exact trivial

theorem cutSymbol_isWrittenAs : (cutSymbol c cs).lexeme.IsWrittenAs (cutSymbol c cs).taken := by
  fun_cases cutSymbol c cs <;> first | rfl | exact trivial

/-- A string ends with the quote that it is waiting for. -/
theorem cutString_closed (quote : Char) (content taken cs : List Char) :
    (cutString quote content taken cs).lexeme.isError = true ∨
      ∃ s inside, (cutString quote content taken cs).lexeme = .string s ∧
        (cutString quote content taken cs).taken = taken.reverse ++ (inside ++ [quote]) := by
  fun_induction cutString quote content taken cs with
  | case1 => exact Or.inl rfl
  | case2 content taken cs => exact Or.inr ⟨_, [], rfl, by simp⟩
  | case3 => exact Or.inl rfl
  | case4 content taken e more hquote ih =>
    -- an escaped character is inside of the string even if it is the quote
    refine ih.imp_right ?_
    rintro ⟨s, inside, hs, htaken⟩
    exact ⟨s, '\\' :: e :: inside, hs, by simp [htaken]⟩
  | case5 content taken c cs hquote hescape ih =>
    refine ih.imp_right ?_
    rintro ⟨s, inside, hs, htaken⟩
    exact ⟨s, c :: inside, hs, by simp [htaken]⟩

theorem cutToken_isWrittenAs : (cutToken c cs).lexeme.IsWrittenAs (cutToken c cs).taken := by
  unfold cutToken
  split
  · exact cutWord_isWrittenAs
  split
  · exact cutNumber_isWrittenAs
  split
  · next hquote =>
    rcases cutString_closed c [] [c] cs with herr | ⟨s, inside, hs, htaken⟩
    · exact isWrittenAs_of_isError herr
    · rw [hs]
      exact ⟨c, inside, by simpa using hquote, htaken⟩
  · exact cutSymbol_isWrittenAs

/-! ## All tokens -/

/-- The token covers the word that stands behind some space behind `before`. -/
structure Token.Stands (t : Token) (before space word : List Char) : Prop where
  isSpace_eq : ∀ c ∈ space, isSpace c = true
  ne_nil : word ≠ []
  start_eq : t.start = Text.byteLength (before ++ space)
  stop_eq : t.stop = Text.byteLength (before ++ (space ++ word))
  written : t.lexeme.IsWrittenAs word

/-- The text goes on behind `before` with spaces and tokens in turn, until it ends or a token is an
error. -/
inductive Scanned : List Char → List Char → List Token → Prop
  | nothing {before space : List Char} (hspace : ∀ c ∈ space, isSpace c = true) :
      Scanned before space []
  | failure {before space word : List Char} {t : Token} (ht : t.Stands before space word)
      (herr : t.lexeme.isError = true) (rest : List Char) :
      Scanned before (space ++ (word ++ rest)) [t]
  | token {before space word rest : List Char} {t : Token} {ts : List Token}
      (ht : t.Stands before space word) (herr : t.lexeme.isError = false)
      (h : Scanned (before ++ (space ++ word)) rest ts) :
      Scanned before (space ++ (word ++ rest)) (t :: ts)

/-- The token that is cut behind the space stands there, whether it is an error or not. -/
theorem stands_cutToken (before : List Char) {start : Nat} {rest : List Char}
    (hstart : start = Text.byteLength before) (hcons : cs.dropWhile isSpace = c :: rest) :
    cs = cs.takeWhile isSpace ++ ((cutToken c rest).taken ++ (cutToken c rest).rest) ∧
      Token.Stands ⟨start + Text.byteLength (cs.takeWhile isSpace),
        start + Text.byteLength (cs.takeWhile isSpace) + Text.byteLength (cutToken c rest).taken,
        (cutToken c rest).lexeme⟩ before (cs.takeWhile isSpace) (cutToken c rest).taken := by
  refine ⟨?_, fun x hx => List.mem_takeWhile_imp hx, cutToken_taken_ne_nil c rest, ?_, ?_,
    cutToken_isWrittenAs⟩
  · rw [cutToken_append, ← hcons, List.takeWhile_append_dropWhile]
  · simp [hstart]
  · simp [hstart, Nat.add_assoc]

theorem scanned_tokensFrom (before : List Char) {start : Nat}
    (hstart : start = Text.byteLength before) : Scanned before cs (tokensFrom start cs) := by
  fun_induction tokensFrom start cs generalizing before with
  | case1 start cs hnil => exact .nothing (List.dropWhile_eq_nil_iff.1 hnil)
  | case2 start cs c rest hcons first cut stop hlt token herr =>
    obtain ⟨hcs, ht⟩ := stands_cutToken before hstart hcons
    rw [hcs]
    exact .failure ht herr _
  | case3 start cs c rest hcons first cut stop hlt token herr ih =>
    obtain ⟨hcs, ht⟩ := stands_cutToken before hstart hcons
    rw [hcs]
    exact .token ht (by simpa using herr) (ih _ ht.stop_eq)

/-- Every token is behind what was there before. -/
theorem Scanned.le_start (h : Scanned before cs ts) :
    ∀ t ∈ ts, Text.byteLength before ≤ t.start := by
  induction h with
  | nothing => exact fun t ht => absurd ht List.not_mem_nil
  | failure ht _ _ =>
    intro t' hmem
    rw [List.mem_singleton.1 hmem, ht.start_eq, Text.byteLength_append]
    omega
  | token ht _ _ ih =>
    intro t' hmem
    rcases List.mem_cons.1 hmem with rfl | hmem
    · rw [ht.start_eq, Text.byteLength_append]
      omega
    · have := ih t' hmem
      simp only [Text.byteLength_append] at this
      omega

/-- A token covers something. -/
theorem Token.Stands.start_lt_stop (h : t.Stands before space word) : t.start < t.stop := by
  obtain ⟨c, cs, hword⟩ := List.exists_cons_of_ne_nil h.ne_nil
  have hpos := c.utf8Size_pos
  rw [h.start_eq, h.stop_eq, hword]
  simp only [Text.byteLength_append, Text.byteLength_cons]
  omega

/-- Each token stands somewhere in the whole text, what was there before included. -/
theorem Scanned.exists_stands (h : Scanned before cs ts) :
    ∀ t ∈ ts, ∃ front space word back,
      before ++ cs = front ++ (space ++ (word ++ back)) ∧ t.Stands front space word := by
  induction h with
  | nothing => exact fun t ht => absurd ht List.not_mem_nil
  | failure ht _ rest =>
    intro t' hmem
    rw [List.mem_singleton.1 hmem]
    exact ⟨_, _, _, rest, rfl, ht⟩
  | @token before space word rest t ts ht _ _ ih =>
    intro t' hmem
    rcases List.mem_cons.1 hmem with rfl | hmem
    · exact ⟨_, _, _, rest, rfl, ht⟩
    · obtain ⟨front, space', word', back, htext, hstands⟩ := ih t' hmem
      exact ⟨front, space', word', back, by rw [← htext]; simp, hstands⟩

/-- The tokens are in the order of the text, and no two of them overlap. -/
theorem Scanned.pairwise (h : Scanned before cs ts) :
    ts.Pairwise fun t u => t.stop ≤ u.start := by
  induction h with
  | nothing => exact List.Pairwise.nil
  | failure => exact List.pairwise_singleton _ _
  | token ht _ h ih => exact List.pairwise_cons.2 ⟨fun u hu => ht.stop_eq ▸ h.le_start u hu, ih⟩

/-- Only the last token may be an error. -/
theorem Scanned.isError_dropLast (h : Scanned before cs ts) :
    ∀ t ∈ ts.dropLast, t.lexeme.isError = false := by
  induction h with
  | nothing => simp
  | failure => simp
  | @token _ _ _ _ t ts _ herr _ ih =>
    intro u hu
    cases ts with
    | nil => simp at hu
    | cons t' ts =>
      rw [List.dropLast_cons_cons, List.mem_cons] at hu
      rcases hu with rfl | hu
      · exact herr
      · exact ih u hu

/-! ### Between the tokens -/

/-- Nothing but spaces stands from the one byte of the text up to the other. -/
def SpaceBetween (text : String) (start stop : Nat) : Prop :=
  ∃ gap, Span.Delimits ⟨start, stop⟩ text gap ∧ ∀ c ∈ gap.toList, isSpace c = true

theorem spaceBetween_of_append {text : String} {front space back : List Char} {start stop : Nat}
    (htext : text.toList = front ++ (space ++ back)) (hspace : ∀ c ∈ space, isSpace c = true)
    (hstart : start = Text.byteLength front) (hstop : stop = Text.byteLength (front ++ space)) :
    SpaceBetween text start stop := by
  refine ⟨String.ofList space, ⟨front, back, ?_, hstart, ?_⟩, ?_⟩
  · rw [String.toList_ofList, htext]
  · simp [hstart, hstop]
  · rw [String.toList_ofList]
    exact hspace

/-- Only spaces stand before each token, back to the token before it or to what was there before. -/
theorem Scanned.spaceBetween {text : String} (h : Scanned before cs ts)
    (htext : text.toList = before ++ cs) :
    (∀ t ∈ ts.head?, SpaceBetween text (Text.byteLength before) t.start) ∧
      ts.IsChain fun t u => SpaceBetween text t.stop u.start := by
  induction h with
  | nothing => simp
  | failure ht _ rest =>
    refine ⟨?_, List.isChain_singleton _⟩
    rintro t ⟨⟩
    exact spaceBetween_of_append htext ht.isSpace_eq rfl ht.start_eq
  | token ht _ _ ih =>
    obtain ⟨hfirst, hchain⟩ := ih (by simp [htext])
    refine ⟨?_, List.isChain_cons.2 ⟨?_, hchain⟩⟩
    · rintro t ⟨⟩
      exact spaceBetween_of_append htext ht.isSpace_eq rfl ht.start_eq
    · rw [ht.stop_eq]
      exact hfirst

/-- Without an error only spaces stand behind the last token. -/
theorem Scanned.spaceBehind {text : String} (h : Scanned before cs ts)
    (htext : text.toList = before ++ cs) (herr : ∀ t ∈ ts, t.lexeme.isError = false) :
    SpaceBetween text ((ts.getLast?.map Token.stop).getD (Text.byteLength before))
      (Text.byteLength text.toList) := by
  induction h with
  | nothing hspace =>
    rw [htext]
    have hpieces := htext.trans (List.append_nil _).symm
    rw [List.append_assoc] at hpieces
    exact spaceBetween_of_append hpieces hspace rfl rfl
  | failure ht hfail _ =>
    rw [herr _ (List.mem_singleton_self _)] at hfail
    cases hfail
  | @token _ _ _ _ t ts ht _ h ih =>
    have hrest := ih (by simp [htext]) fun u hu => herr u (List.mem_cons_of_mem _ hu)
    rw [← ht.stop_eq] at hrest
    cases ts with
    | nil => exact hrest
    | cons u us =>
      rw [List.getLast?_cons_cons]
      rwa [List.getLast?_eq_some_getLast (List.cons_ne_nil u us)] at hrest ⊢

/-! ### Every character -/

/-- The token covers the character that stands right behind `front`. -/
def Token.CoversAt (t : Token) (front : List Char) (c : Char) : Prop :=
  t.start ≤ Text.byteLength front ∧ Text.byteLength front + c.utf8Size ≤ t.stop

/-- A character of two texts in a row belongs to the first one or to the second. -/
theorem split_of_append_eq {xs ys mid back : List Char} (h : xs ++ ys = mid ++ c :: back) :
    (∃ rest, xs = mid ++ c :: rest) ∨ ∃ m, mid = xs ++ m ∧ ys = m ++ c :: back := by
  rcases List.append_eq_append_iff.1 h with ⟨m, hmid, hys⟩ | ⟨rest, hxs, hback⟩
  · exact Or.inr ⟨m, hmid, hys⟩
  · cases rest with
    | nil => exact Or.inr ⟨[], by simp [hxs], by simpa using hback.symm⟩
    | cons c' rest =>
      obtain ⟨rfl, -⟩ := List.cons.inj hback
      exact Or.inl ⟨rest, hxs⟩

/-- Without an error some token covers each character that is no space. -/
theorem Scanned.exists_coversAt (h : Scanned before cs ts)
    (herr : ∀ t ∈ ts, t.lexeme.isError = false) {mid back : List Char}
    (hcs : cs = mid ++ c :: back) (hc : isSpace c = false) :
    ∃ t ∈ ts, t.CoversAt (before ++ mid) c := by
  have hnotSpace : ∀ {space mid rest : List Char}, (∀ x ∈ space, isSpace x = true) →
      space ≠ mid ++ c :: rest := by
    intro space mid rest hspace heq
    have := hspace c (by simp [heq])
    simp [hc] at this
  induction h generalizing mid with
  | nothing hspace => exact absurd hcs (hnotSpace hspace)
  | failure ht hfail _ =>
    rw [herr _ (List.mem_singleton_self _)] at hfail
    cases hfail
  | @token before space word rest t ts ht _ _ ih =>
    -- the character stands in the word, or else behind it, since it is no space
    rcases split_of_append_eq hcs with ⟨_, hspace⟩ | ⟨m, rfl, hbehind⟩
    · exact absurd hspace (hnotSpace ht.isSpace_eq)
    rcases split_of_append_eq hbehind with ⟨_, rfl⟩ | ⟨m', rfl, hrest⟩
    · refine ⟨t, List.mem_cons_self, ?_, ?_⟩
      · rw [ht.start_eq]
        simp only [Text.byteLength_append]
        omega
      · rw [ht.stop_eq]
        simp only [Text.byteLength_append, Text.byteLength_cons]
        omega
    · obtain ⟨u, hu, hcovers⟩ := ih (fun u hu => herr u (List.mem_cons_of_mem _ hu)) hrest
      exact ⟨u, List.mem_cons_of_mem _ hu, by simpa using hcovers⟩

/-- No two tokens cover the same character. -/
theorem Scanned.eq_of_coversAt (h : Scanned before cs ts) {t u : Token} (ht : t ∈ ts) (hu : u ∈ ts)
    {front : List Char} (hct : t.CoversAt front c) (hcu : u.CoversAt front c) : t = u := by
  by_contra hne
  have hapart : ts.Pairwise fun t u => t.stop ≤ u.start ∨ u.stop ≤ t.start := h.pairwise.imp Or.inl
  have : Std.Symm fun t u : Token => t.stop ≤ u.start ∨ u.stop ≤ t.start := ⟨fun _ _ => Or.symm⟩
  have hpos := c.utf8Size_pos
  rcases hapart.forall ht hu hne with hle | hle
  · have h₁ := hct.2
    have h₂ := hcu.1
    omega
  · have h₁ := hcu.2
    have h₂ := hct.1
    omega

/-! ## The whole text -/

/-- What the tokens of a text cover. -/
structure Covering (text : String) (ts : List Token) : Prop where
  /-- No token is empty. -/
  start_lt_stop : ∀ t ∈ ts, t.start < t.stop
  /-- The tokens are in order and do not overlap. -/
  inOrder : ts.Pairwise fun t u => t.stop ≤ u.start
  /-- Each token covers whole characters of the text, and they are what it is written as. -/
  written : ∀ t ∈ ts, ∃ piece, Span.Delimits ⟨t.start, t.stop⟩ text piece ∧
    t.lexeme.IsWrittenAs piece.toList
  spaceBefore : ∀ t ∈ ts.head?, SpaceBetween text 0 t.start
  spaceBetween : ts.IsChain fun t u => SpaceBetween text t.stop u.start
  /-- Only the last token may be an error. -/
  errorLast : ∀ t ∈ ts.dropLast, t.lexeme.isError = false
  spaceBehind : (∀ t ∈ ts, t.lexeme.isError = false) →
    SpaceBetween text (stopOf ts) (Text.byteLength text.toList)
  /-- Without an error, each character that is no space belongs to exactly one token. -/
  coveredOnce : (∀ t ∈ ts, t.lexeme.isError = false) → ∀ front c back,
    text.toList = front ++ c :: back → isSpace c = false → ∃! t, t ∈ ts ∧ t.CoversAt front c

/-- The tokens of every text cover it but for spaces, up to the first error. -/
theorem covering_tokenize (text : String) : Covering text (tokenize text) := by
  have h : Scanned [] text.toList (tokenize text) := scanned_tokensFrom [] rfl
  obtain ⟨hbefore, hbetween⟩ := h.spaceBetween rfl
  constructor
  · intro t ht
    obtain ⟨front, space, word, back, -, hstands⟩ := h.exists_stands t ht
    exact hstands.start_lt_stop
  · exact h.pairwise
  · intro t ht
    obtain ⟨front, space, word, back, htext, hstands⟩ := h.exists_stands t ht
    refine ⟨String.ofList word, ⟨front ++ space, back, ?_, hstands.start_eq, ?_⟩, ?_⟩
    · simpa using htext
    · simp [hstands.start_eq, hstands.stop_eq, Nat.add_assoc]
    · rw [String.toList_ofList]
      exact hstands.written
  · exact hbefore
  · exact hbetween
  · exact h.isError_dropLast
  · exact h.spaceBehind rfl
  · intro herr front c back htext hc
    obtain ⟨t, ht, hcovers⟩ := h.exists_coversAt herr htext hc
    refine ⟨t, ⟨ht, hcovers⟩, ?_⟩
    rintro u ⟨hu, hcu⟩
    exact h.eq_of_coversAt hu ht hcu hcovers

end Stencil.Expr
