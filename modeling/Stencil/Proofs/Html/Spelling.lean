import Stencil.Html.Document.Basic
import Stencil.Html.Tokenizer.Markup
namespace Stencil.Html

/-! # Spelling

Names and comments as the tokenizer puts them out. They are what it reads as the same name or
comment when it is written again.
-/

/-! ## Characters of names -/

namespace Tokenizer

/-- A character of a name is a small letter for a capital one, a replacement for the null character,
or what it was. -/
theorem nameChar_ind {motive : Char → Char → Prop}
    (same : ∀ c, nameChar c = c → motive c c)
    (letter : ∀ n < 26, motive (Char.ofNat (65 + n)) (Char.ofNat (97 + n)))
    (null : motive '\x00' replacement) (c : Char) : motive c (nameChar c) := by
  by_cases hnull : c = '\x00'
  · subst hnull
    exact null
  by_cases hupper : 65 ≤ c.toNat ∧ c.toNat ≤ 90
  · obtain ⟨hlow, hhigh⟩ := hupper
    have hc : c = Char.ofNat (65 + (c.toNat - 65)) := by
      rw [Nat.add_sub_cancel' hlow, Char.ofNat_toNat]
    have hsmall : ∀ n < 26, nameChar (Char.ofNat (65 + n)) = Char.ofNat (97 + n) := by decide
    have hlt : c.toNat - 65 < 26 := by omega
    have h := letter _ hlt
    rwa [← hsmall _ hlt, ← hc] at h
  · have hlower : c.toLower = c := by
      unfold Char.toLower
      rw [dif_neg]
      rintro ⟨h1, h2⟩
      exact hupper ⟨UInt32.le_iff_toNat_le.1 h1, UInt32.le_iff_toNat_le.1 h2⟩
    have hsame : nameChar c = c := by
      unfold nameChar cleaned
      rw [hlower, if_neg (by simpa using hnull)]
    rw [hsame]
    exact same c hsame

theorem nameChar_nameChar (c : Char) : nameChar (nameChar c) = nameChar c :=
  nameChar_ind (motive := fun _ d => nameChar d = d) (fun _ h => h) (by decide) (by decide) c

theorem isMarkupSpace_nameChar (c : Char) :
    Text.isMarkupSpace (nameChar c) = Text.isMarkupSpace c :=
  nameChar_ind (motive := fun c d => Text.isMarkupSpace d = Text.isMarkupSpace c)
    (fun _ _ => rfl) (by decide) (by decide) c

theorem nameChar_eq_iff (c : Char) : ∀ d ∈ ['/', '>', '='], nameChar c = d ↔ c = d := by
  have hmarks : (nameChar c = '/' ↔ c = '/') ∧ (nameChar c = '>' ↔ c = '>') ∧
      (nameChar c = '=' ↔ c = '=') :=
    nameChar_ind
      (motive := fun c d => (d = '/' ↔ c = '/') ∧ (d = '>' ↔ c = '>') ∧ (d = '=' ↔ c = '='))
      (fun _ _ => ⟨Iff.rfl, Iff.rfl, Iff.rfl⟩) (by decide) (by decide) c
  simpa using hmarks

/-- Only the null character is changed outside of names. -/
theorem cleaned_eq_self {c : Char} (h : c ≠ '\x00') : cleaned c = c :=
  if_neg (by simpa using h)

theorem cleaned_ne_null (c : Char) : cleaned c ≠ '\x00' := by
  by_cases h : c = '\x00'
  · subst h
    decide
  · rwa [cleaned_eq_self h]

/-- A letter is read as a small letter, as in the rest of a name. -/
theorem toLower_of_isAlpha {c : Char} (h : c.isAlpha = true) : c.toLower = nameChar c := by
  refine (cleaned_eq_self ?_).symm
  intro hnull
  have hname : nameChar c = replacement := by
    unfold nameChar
    rw [hnull]
    rfl
  revert h hname
  refine nameChar_ind (motive := fun c d => c.isAlpha = true → d = replacement → False)
    ?_ (by decide) (by decide) c
  intro c _ halpha hc
  rw [hc] at halpha
  revert halpha
  decide

theorem isAlpha_nameChar {c : Char} (h : c.isAlpha = true) : (nameChar c).isAlpha = true :=
  nameChar_ind (motive := fun c d => c.isAlpha = true → d.isAlpha = true)
    (fun _ _ h => h) (by decide) (by decide) c h

end Tokenizer

/-! ## Names -/

/-- A character as it stands in the name of a document type. -/
def IsNamePart (c : Char) : Prop :=
  Tokenizer.nameChar c = c ∧ Text.isMarkupSpace c = false ∧ c ≠ '>'

/-- A character as it stands in the name of a tag or an attribute. -/
def IsTagPart (c : Char) : Prop :=
  IsNamePart c ∧ c ≠ '/'

/-- The name of a tag. -/
structure IsTagName (cs : List Char) : Prop where
  letter : ∃ c ∈ cs.head?, c.isAlpha = true
  parts : ∀ c ∈ cs, IsTagPart c

/-- The name of an attribute. An equals sign can only be its first character. -/
structure IsAttributeName (cs : List Char) : Prop where
  nonempty : cs ≠ []
  parts : ∀ c ∈ cs, IsTagPart c
  noEquals : '=' ∉ cs.tail

/-- An element as a start tag can give it. The values of its attributes are free. -/
structure Element.IsSpelled (e : Element) : Prop where
  name : IsTagName e.name.toList
  attributes : ∀ a ∈ e.attrs.entries, IsAttributeName a.1.toList

theorem IsTagName.exists_cons {cs : List Char} (h : IsTagName cs) :
    ∃ c rest, cs = c :: rest ∧ c.isAlpha = true ∧ Tokenizer.nameChar c = c ∧
      ∀ d ∈ rest, IsTagPart d := by
  obtain ⟨c, hc, halpha⟩ := h.letter
  cases cs with
  | nil => cases hc
  | cons d rest =>
    obtain rfl : d = c := by simpa using hc
    have hparts := List.forall_mem_cons.1 h.parts
    exact ⟨d, rest, rfl, halpha, hparts.1.1.1, hparts.2⟩

/-- One more attribute with the name of one. -/
theorem Element.IsSpelled.setAttr {e : Element} (h : e.IsSpelled) {name : String}
    (hname : IsAttributeName name.toList) (value : String) : (e.setAttr name value).IsSpelled := by
  refine ⟨h.name, ?_⟩
  intro a ha
  have hmem : a.1 ∈ (Attributes.setIn name value e.attrs.entries).map Prod.fst :=
    List.mem_map_of_mem ha
  rcases Attributes.mem_names_setIn.1 hmem with hnew | hold
  · rw [hnew]
    exact hname
  · obtain ⟨b, hb, hba⟩ := List.mem_map.1 hold
    rw [← hba]
    exact h.attributes b hb

/-- What is read as part of a name is part of one. -/
theorem isNamePart_nameChar {c : Char} (hspace : Text.isMarkupSpace c = false) (hend : c ≠ '>') :
    IsNamePart (Tokenizer.nameChar c) := by
  refine ⟨Tokenizer.nameChar_nameChar c, ?_, ?_⟩
  · rw [Tokenizer.isMarkupSpace_nameChar, hspace]
  · rwa [Ne, Tokenizer.nameChar_eq_iff c '>' (by decide)]

theorem isTagPart_nameChar {c : Char} (hspace : Text.isMarkupSpace c = false) (hend : c ≠ '>')
    (hslash : c ≠ '/') : IsTagPart (Tokenizer.nameChar c) := by
  refine ⟨isNamePart_nameChar hspace hend, ?_⟩
  rwa [Ne, Tokenizer.nameChar_eq_iff c '/' (by decide)]

theorem isTagName_singleton {c : Char} (h : c.isAlpha = true) : IsTagName [c.toLower] := by
  have hall : ∀ d : Char, Text.isMarkupSpace d = true ∨ d = '>' ∨ d = '/' → d.isAlpha = false := by
    intro d hd
    simp only [Text.isMarkupSpace, Bool.or_eq_true, beq_iff_eq] at hd
    rcases hd with ((((rfl | rfl) | rfl) | rfl) | rfl) | rfl | rfl <;> decide
  have hnot : ∀ {p : Prop}, (p → c.isAlpha = false) → ¬ p := by
    intro p hp hc
    rw [hp hc] at h
    cases h
  rw [Tokenizer.toLower_of_isAlpha h]
  constructor
  · exact ⟨_, rfl, Tokenizer.isAlpha_nameChar h⟩
  · intro d hd
    rw [List.mem_singleton.1 hd]
    refine isTagPart_nameChar ?_ (hnot fun hc => hall c (Or.inr (Or.inl hc)))
      (hnot fun hc => hall c (Or.inr (Or.inr hc)))
    simpa using hnot fun hc => hall c (Or.inl hc)

theorem IsTagName.concat {cs : List Char} {c : Char} (h : IsTagName cs) (hc : IsTagPart c) :
    IsTagName (cs ++ [c]) := by
  obtain ⟨d, hd, halpha⟩ := h.letter
  constructor
  · refine ⟨d, ?_, halpha⟩
    rw [List.head?_append, hd]
    rfl
  · intro e he
    rcases List.mem_append.1 he with he | he
    · exact h.parts e he
    · rw [List.mem_singleton.1 he]
      exact hc

theorem isAttributeName_singleton {c : Char} (hc : IsTagPart c) : IsAttributeName [c] where
  nonempty := by simp
  parts := by
    intro d hd
    rw [List.mem_singleton.1 hd]
    exact hc
  noEquals := by simp

theorem IsAttributeName.concat {cs : List Char} {c : Char} (h : IsAttributeName cs)
    (hc : IsTagPart c) (hequals : c ≠ '=') : IsAttributeName (cs ++ [c]) where
  nonempty := by simp
  parts := by
    intro d hd
    rcases List.mem_append.1 hd with hd | hd
    · exact h.parts d hd
    · rw [List.mem_singleton.1 hd]
      exact hc
  noEquals := by
    rw [List.tail_append_of_ne_nil h.nonempty, List.mem_append, not_or]
    exact ⟨h.noEquals, by simpa using hequals.symm⟩

/-! ## Comments -/

/-- What has been read of the end of a comment. It is text of the comment if that goes on. -/
def CommentPhase.held : CommentPhase → List Char
  | .start | .body => []
  | .startDash | .dash => ['-']
  | .dashes => ['-', '-']
  | .bang => ['-', '-', '!']

namespace Tokenizer

/-- How a comment goes on with a character, unless it ends there. -/
def commentNext (phase : CommentPhase) (data : List Char) (c : Char) :
    Option (CommentPhase × List Char) :=
  match (start.commentStep phase data c).1.phase with
  | .comment phase data => some (phase, data)
  | _ => none

/-- How a comment goes on with a text. -/
def readComment (phase : CommentPhase) (data : List Char) (cs : List Char) :
    Option (CommentPhase × List Char) :=
  cs.foldlM (fun s c => commentNext s.1 s.2 c) (phase, data)

/-- The characters that a comment looks at, and all the others. -/
theorem commentChar_cases (c : Char) :
    c = '-' ∨ c = '>' ∨ c = '!' ∨ (c ≠ '-' ∧ c ≠ '>' ∧ c ≠ '!') := by
  by_cases hdash : c = '-'
  · exact Or.inl hdash
  by_cases hend : c = '>'
  · exact Or.inr (Or.inl hend)
  by_cases hbang : c = '!'
  · exact Or.inr (Or.inr (Or.inl hbang))
  · exact Or.inr (Or.inr (Or.inr ⟨hdash, hend, hbang⟩))

/-- A comment grows or ends with what it has grown to, whatever stands before it. -/
theorem commentStep_eq (t : Tokenizer) (phase : CommentPhase) (data : List Char) (c : Char) :
    t.commentStep phase data c =
      match commentNext phase data c with
      | some (phase, data) => t.goto (.comment phase data)
      | none => t.emitComment data := by
  unfold commentNext
  rcases commentChar_cases c with rfl | rfl | rfl | ⟨h1, h2, h3⟩
  · cases phase <;> rfl
  · cases phase <;> rfl
  · cases phase <;> rfl
  · cases phase <;> simp [commentStep, commentBodyStep, goto, h1, h2, h3]

/-- A comment ends at nothing but a `>`. -/
theorem isSome_commentNext {c : Char} (h : c ≠ '>') (phase : CommentPhase) (data : List Char) :
    (commentNext phase data c).isSome = true := by
  unfold commentNext
  rcases commentChar_cases c with rfl | rfl | rfl | ⟨h1, h2, h3⟩
  · cases phase <;> rfl
  · exact absurd rfl h
  · cases phase <;> rfl
  · cases phase <;> simp [commentStep, commentBodyStep, goto, h1, h2, h3]

/-- A comment that goes on has the character behind what it was and what was held back. -/
theorem held_commentNext {phase phase' : CommentPhase} {data data' : List Char} {c : Char}
    (h : commentNext phase data c = some (phase', data')) :
    data'.reverse ++ phase'.held = data.reverse ++ phase.held ++ [cleaned c] := by
  revert h
  unfold commentNext
  rcases commentChar_cases c with rfl | rfl | rfl | ⟨h1, h2, h3⟩
  · cases phase <;> rintro ⟨⟩ <;> simp [CommentPhase.held, cleaned]
  · cases phase <;> rintro ⟨⟩ <;> simp [CommentPhase.held, cleaned]
  · cases phase <;> rintro ⟨⟩ <;> simp [CommentPhase.held, cleaned]
  · cases phase <;> simp [commentStep, commentBodyStep, goto, h1, h2, h3] <;> rintro rfl rfl <;>
      simp [CommentPhase.held]

theorem commentNext_cleaned (phase : CommentPhase) (data : List Char) (c : Char) :
    commentNext phase data (cleaned c) = commentNext phase data c := by
  by_cases hnull : c = '\x00'
  · subst hnull
    cases phase <;> rfl
  · rw [cleaned_eq_self hnull]

theorem readComment_append (phase : CommentPhase) (data cs rest : List Char) :
    readComment phase data (cs ++ rest) =
      (readComment phase data cs).bind fun s => readComment s.1 s.2 rest :=
  List.foldlM_append

theorem readComment_singleton (phase : CommentPhase) (data : List Char) (c : Char) :
    readComment phase data [c] = commentNext phase data c := by
  simp [readComment]

/-- Without a `>` a comment does not end. -/
theorem isSome_readComment {cs : List Char} (h : '>' ∉ cs) (phase : CommentPhase)
    (data : List Char) : (readComment phase data cs).isSome = true := by
  induction cs generalizing phase data with
  | nil => rfl
  | cons c cs ih =>
    rw [List.mem_cons, not_or] at h
    obtain ⟨⟨phase', data'⟩, hnext⟩ :=
      Option.isSome_iff_exists.1 (isSome_commentNext (Ne.symm h.1) phase data)
    unfold readComment
    rw [List.foldlM_cons, hnext]
    exact ih h.2 phase' data'

/-- A comment that goes on is all that has been read of it. -/
theorem held_readComment {cs : List Char} (hnull : '\x00' ∉ cs) {phase phase' : CommentPhase}
    {data data' : List Char} (h : readComment phase data cs = some (phase', data')) :
    data'.reverse ++ phase'.held = data.reverse ++ phase.held ++ cs := by
  induction cs generalizing phase data with
  | nil =>
    obtain ⟨rfl, rfl⟩ := Prod.mk.inj (Option.some.inj h)
    rw [List.append_nil]
  | cons c cs ih =>
    rw [List.mem_cons, not_or] at hnull
    unfold readComment at h
    rw [List.foldlM_cons] at h
    obtain ⟨⟨phase₁, data₁⟩, hnext, hrest⟩ := Option.bind_eq_some_iff.1 h
    rw [ih hnull.2 hrest, held_commentNext hnext, cleaned_eq_self (Ne.symm hnull.1)]
    simp

end Tokenizer

/-- The text of a comment: read as a comment it does not end before it is over. -/
structure IsCommentText (cs : List Char) : Prop where
  noReturn : '\r' ∉ cs
  noNull : '\x00' ∉ cs
  reads : (Tokenizer.readComment .start [] cs).isSome = true

/-- The text of a comment that ends at the next `>`, in either direction. -/
structure IsBogusText (cs : List Char) : Prop where
  noReturn : '\r' ∉ cs
  noNull : '\x00' ∉ cs
  noEnd : '>' ∉ cs

namespace IsBogusText

variable {cs : List Char}

theorem isCommentText (h : IsBogusText cs) : IsCommentText cs :=
  ⟨h.noReturn, h.noNull, Tokenizer.isSome_readComment h.noEnd _ _⟩

theorem reverse (h : IsBogusText cs) : IsBogusText cs.reverse :=
  ⟨by simpa using h.noReturn, by simpa using h.noNull, by simpa using h.noEnd⟩

theorem nil : IsBogusText [] :=
  ⟨by simp, by simp, by simp⟩

theorem cons (h : IsBogusText cs) {c : Char} (hreturn : c ≠ '\r') (hend : c ≠ '>') :
    IsBogusText (Tokenizer.cleaned c :: cs) := by
  have hne : ∀ d ∈ ['\r', '>'], c ≠ d → Tokenizer.cleaned c ≠ d := by
    intro d hd hc
    unfold Tokenizer.cleaned
    split
    · simp only [List.mem_cons, List.not_mem_nil, or_false] at hd
      rcases hd with rfl | rfl <;> decide
    · exact hc
  constructor
  · exact List.not_mem_cons_of_ne_of_not_mem (hne _ (by simp) hreturn).symm h.noReturn
  · exact List.not_mem_cons_of_ne_of_not_mem (Tokenizer.cleaned_ne_null c).symm h.noNull
  · exact List.not_mem_cons_of_ne_of_not_mem (hne _ (by simp) hend).symm h.noEnd

end IsBogusText

namespace Tokenizer

/-- A comment that has been read up to here, read again from its own text. -/
structure CommentReached (phase : CommentPhase) (data : List Char) : Prop where
  read : readComment .start [] (data.reverse ++ phase.held) = some (phase, data)
  noReturn : '\r' ∉ data
  noNull : '\x00' ∉ data

namespace CommentReached

variable {phase : CommentPhase} {data : List Char}

theorem start : CommentReached .start [] :=
  ⟨rfl, by simp, by simp⟩

theorem next (h : CommentReached phase data) {c : Char} (hreturn : c ≠ '\r')
    {phase' : CommentPhase} {data' : List Char}
    (hnext : commentNext phase data c = some (phase', data')) : CommentReached phase' data' := by
  have hheld := held_commentNext hnext
  -- a character of the new text is one of the old text, a mark, or the new one
  have hmem : ∀ d ∈ data', d ∈ data ∨ d = '-' ∨ d = '!' ∨ d = cleaned c := by
    intro d hd
    have hall : d ∈ data.reverse ++ phase.held ++ [cleaned c] := by
      rw [← hheld]
      exact List.mem_append_left _ (List.mem_reverse.2 hd)
    have hmarks : ∀ e ∈ phase.held, e = '-' ∨ e = '!' := by
      cases phase <;> simp [CommentPhase.held]
    simp only [List.mem_append, List.mem_reverse, List.mem_singleton] at hall
    rcases hall with (hdata | hmark) | hnew
    · exact Or.inl hdata
    · exact Or.inr ((hmarks d hmark).imp_right Or.inl)
    · exact Or.inr (Or.inr (Or.inr hnew))
  constructor
  · rw [hheld, readComment_append, h.read, Option.bind_some, readComment_singleton,
      commentNext_cleaned]
    exact hnext
  · intro hr
    rcases hmem _ hr with hdata | hmark | hmark | hnew
    · exact h.noReturn hdata
    · exact absurd hmark (by decide)
    · exact absurd hmark (by decide)
    · unfold cleaned at hnew
      split at hnew
      · exact absurd hnew (by decide)
      · exact hreturn hnew.symm
  · intro hn
    rcases hmem _ hn with hdata | hmark | hmark | hnew
    · exact h.noNull hdata
    · exact absurd hmark (by decide)
    · exact absurd hmark (by decide)
    · exact cleaned_ne_null c hnew.symm

/-- Wherever a comment is ended, its text is that of a comment. -/
theorem isCommentText (h : CommentReached phase data) : IsCommentText data.reverse := by
  refine ⟨by simpa using h.noReturn, by simpa using h.noNull, ?_⟩
  have hread := h.read
  rw [readComment_append] at hread
  obtain ⟨s, hs, -⟩ := Option.bind_eq_some_iff.1 hread
  rw [hs]
  rfl

end CommentReached

end Tokenizer

/-! ## Nodes and tokens -/

/-- A node as a token can give it. Text is free. -/
def Kind.IsSpelled : Kind → Prop
  | .document | .text _ => True
  | .element e => e.IsSpelled
  | .comment s => IsCommentText s.toList
  | .doctype name => ∀ c ∈ name.toList, IsNamePart c

/-- A token whose node is spelled. End tags are free. -/
def Token.IsSpelled : Token → Prop
  | .startTag name attrs _ => Element.IsSpelled ⟨name, attrs⟩
  | .endTag _ | .text _ => True
  | .comment s => IsCommentText s.toList
  | .doctype name => ∀ c ∈ name.toList, IsNamePart c

end Stencil.Html
