import Stencil.Proofs.Html.Spelling
import Stencil.Proofs.Html.Tokens
namespace Stencil.Html

/-! # Order of tokens

What comes out of the tokenizer is spelled, and behind the start of an element that holds only text
there is nothing but text up to the end tag of that element.
-/

/-- The name that alone ends the text behind a token, if only text is read there. -/
def Token.closer? (token : Token) : Option (List Char) :=
  ((⟨.text, .markup, []⟩ : Tokenizer).after token).closer?

/-- A token, other than a text, that may come next where this name alone ends the text. -/
def Token.Comes (closer : Option (List Char)) (token : Token) : Prop :=
  match closer with
  | none => token.IsSpelled
  | some name => token = .endTag (String.ofList name)

/-- The tokens may come one after the other, where this name alone ends the text at first. -/
def Ordered : Option (List Char) → List Token → Prop
  | _, [] => True
  | closer, .text _ :: rest => Ordered closer rest
  | closer, token :: rest => token.Comes closer ∧ Ordered token.closer? rest

namespace Ordered

variable {closer : Option (List Char)} {tokens : List Token}

theorem append_texts {texts : List Token} (htexts : ∀ u ∈ texts, ∃ s, u = .text s)
    (h : Ordered closer tokens) : Ordered closer (texts ++ tokens) := by
  induction texts with
  | nil => exact h
  | cons u texts ih =>
    obtain ⟨s, rfl⟩ := htexts u List.mem_cons_self
    exact ih fun v hv => htexts v (List.mem_cons_of_mem _ hv)

theorem cons {token : Token} (hcomes : token.Comes closer) (h : Ordered token.closer? tokens) :
    Ordered closer (token :: tokens) := by
  cases token with
  | text s =>
    -- a text comes only where elements may come, and they may come after it
    cases closer with
    | none => exact h
    | some name => cases hcomes
  | _ => exact ⟨hcomes, h⟩

end Ordered

/-! ## The machine -/

/-- A tag in a text that this name alone ends is an end tag of that name; elsewhere a start tag is
spelled. -/
def Draft.Fits (closer : Option (List Char)) (tag : Draft) : Prop :=
  match closer with
  | none => tag.isEnd = false → Element.IsSpelled ⟨spelled tag.name, tag.attrs⟩
  | some name => tag.isEnd = true ∧ tag.name.reverse = name

namespace Draft.Fits

variable {closer : Option (List Char)} {tag : Draft}

theorem addAttribute (h : tag.Fits closer) {name : List Char} (hname : IsAttributeName name.reverse)
    (value : List Char) : (tag.addAttribute name value).Fits closer := by
  unfold Draft.Fits at h ⊢
  split at h
  · intro hend
    unfold Draft.addAttribute Attributes.addNew
    simp only
    split
    · exact h hend
    · refine (h hend).setAttr ?_ _
      rwa [spelled, String.toList_ofList]
  · exact h

theorem grow (h : tag.Fits none) {c : Char} (hc : IsTagPart c) :
    Draft.Fits none { tag with name := c :: tag.name } := by
  intro hend
  obtain ⟨htag, hattrs⟩ := h hend
  refine ⟨?_, hattrs⟩
  simp only [spelled, String.toList_ofList, List.reverse_cons] at htag ⊢
  exact htag.concat hc

end Draft.Fits

theorem Draft.fits_begin {c : Char} (h : c.isAlpha = true) :
    (Draft.begin false [c.toLower]).Fits none := by
  intro _
  refine ⟨?_, by simp [Draft.begin, Attributes.empty]⟩
  simp only [Draft.begin, spelled, String.toList_ofList, List.reverse_singleton]
  exact isTagName_singleton h

/-- A reference in a value stands in a tag that may stand there. -/
def Target.Fits (closer : Option (List Char)) : Target → Prop
  | .text => True
  | .value tag name _ _ => tag.Fits closer ∧ IsAttributeName name.reverse

/-- What the machine may be in the middle of, where this name alone ends the text. -/
def Phase.Fits (closer : Option (List Char)) : Phase → Prop
  | .text => True
  | .tagOpen | .endTagOpen | .beforeDoctype => closer = none
  | .tagName tag => closer = none ∧ tag.Fits closer
  | .beforeAttribute tag | .afterValue tag | .slash tag => tag.Fits closer
  | .attributeName tag name | .afterAttributeName tag name | .beforeValue tag name
  | .value tag name _ _ => tag.Fits closer ∧ IsAttributeName name.reverse
  | .declaration seen => closer = none ∧ IsBogusText seen
  | .bogusComment data => closer = none ∧ IsBogusText data
  | .comment phase data => closer = none ∧ Tokenizer.CommentReached phase data
  | .doctype name | .afterDoctype name => closer = none ∧ ∀ c ∈ name, IsNamePart c
  | .reference _ target => target.Fits closer
  | .textLess | .textEndOpen | .textEndName _ | .nestedStart _ | .nestedLess | .nestedEnd _ =>
    closer ≠ none

namespace Tokenizer

variable {t : Tokenizer} {c : Char}

/-- What one character may do: nothing is complete, or a token is, behind the text before it. -/
inductive Goes (closer : Option (List Char)) : Result → Prop
  | silent {t : Tokenizer} (hcloser : t.closer? = closer) (hphase : t.phase.Fits closer) :
    Goes closer (t, [])
  | emits {texts : List Token} {token : Token} (htexts : ∀ u ∈ texts, ∃ s, u = .text s)
    (hcomes : token.Comes closer) : Goes closer (⟨.text, .markup, []⟩, texts ++ [token])

theorem reading_eq_markup (h : t.closer? = none) : t.reading = .markup := by
  unfold closer? at h
  split at h
  · assumption
  · cases h
  · cases h

namespace Goes

theorem goto {p : Phase} (hp : p.Fits t.closer?) : Goes t.closer? (t.goto p) :=
  .silent rfl hp

theorem say (cs : List Char) {p : Phase} (hp : p.Fits t.closer?) :
    Goes t.closer? (t.say cs p) :=
  .silent rfl hp

theorem sayScript {closer : List Char} (h : t.closer? = some closer) (e : Escape) (cs : List Char)
    {p : Phase} (hp : p.Fits (some closer)) : Goes t.closer? (t.sayScript closer e cs p) := by
  rw [h]
  exact .silent rfl hp

theorem emitTag {tag : Draft} (h : tag.Fits t.closer?) : Goes t.closer? (t.emitTag tag) := by
  refine .emits (fun _ => isText_of_mem_pending) ?_
  unfold Token.Comes Draft.token
  unfold Draft.Fits at h
  split at h
  · by_cases hend : tag.isEnd = true
    · rw [if_pos hend]
      exact trivial
    · rw [if_neg hend]
      obtain ⟨hname, hattrs⟩ := h (by simpa using hend)
      refine ⟨hname, ?_⟩
      intro a ha
      exact hattrs a ((List.mergeSort_perm tag.attrs.entries _).mem_iff.1 ha)
  · next name _ =>
    obtain ⟨hend, hname⟩ := h
    rw [if_pos hend, spelled, hname]

theorem emitComment {data : List Char} (h : t.closer? = none) (hdata : IsCommentText data.reverse) :
    Goes t.closer? (t.emitComment data) := by
  unfold Tokenizer.emitComment
  rw [h, reading_eq_markup h]
  refine .emits (fun _ => isText_of_mem_pending) ?_
  show IsCommentText (spelled data).toList
  rwa [spelled, String.toList_ofList]

theorem emitDoctype {name : List Char} (h : t.closer? = none) (hname : ∀ c ∈ name, IsNamePart c) :
    Goes t.closer? (t.emitDoctype name) := by
  unfold Tokenizer.emitDoctype
  rw [h, reading_eq_markup h]
  refine .emits (fun _ => isText_of_mem_pending) ?_
  show ∀ c ∈ (spelled name).toList, IsNamePart c
  rw [spelled, String.toList_ofList]
  exact fun c hc => hname c (List.mem_reverse.1 hc)

end Goes

/-! ### Text -/

theorem goes_scriptStep {closer : List Char} (h : t.closer? = some closer) (e : Escape)
    (c : Char) : Goes t.closer? (t.scriptStep closer e c) := by
  have htext : Phase.text.Fits (some closer) := trivial
  have hother : (some closer : Option (List Char)) ≠ none := by simp
  unfold scriptStep
  split <;> (repeat' split) <;> first
    | exact .sayScript h _ _ htext
    | exact .sayScript h _ _ hother

theorem goes_textStep (t : Tokenizer) (c : Char) : Goes t.closer? (t.textStep c) := by
  unfold textStep
  split
  · next hreading =>
    have hcloser : t.closer? = none := by rw [closer?, hreading]
    split
    · exact .goto trivial
    · split
      · exact .goto hcloser
      · exact .say _ trivial
  · next name hreading =>
    have hcloser : t.closer? = some name := by rw [closer?, hreading]
    split
    · exact .goto trivial
    · split
      · exact .goto (by simp [Phase.Fits, hcloser])
      · exact .say _ trivial
  · next name e hreading => exact goes_scriptStep (by rw [closer?, hreading]) e c

theorem goes_sayThenText (t : Tokenizer) (cs : List Char) (c : Char) :
    Goes t.closer? (t.sayThenText cs c) :=
  goes_textStep ⟨.text, t.reading, cs.reverse ++ t.run⟩ c

theorem goes_textLessStep (h : t.closer? ≠ none) (c : Char) :
    Goes t.closer? (t.textLessStep c) := by
  unfold textLessStep
  split
  · exact .goto h
  · split
    · next hreading =>
      split
      · exact .sayScript (by rw [closer?, hreading]) _ _ trivial
      · exact goes_sayThenText t _ c
    · next hreading =>
      split
      · exact .sayScript (by rw [closer?, hreading]) _ _ (by simp [Phase.Fits])
      · exact goes_sayThenText t _ c
    · exact goes_sayThenText t _ c

theorem goes_textEndOpenStep (h : t.closer? ≠ none) (c : Char) :
    Goes t.closer? (t.textEndOpenStep c) := by
  unfold textEndOpenStep
  split
  · exact .goto h
  · exact goes_sayThenText t _ c

theorem goes_textEndNameStep (h : t.closer? ≠ none) (name : List Char) (c : Char) :
    Goes t.closer? (t.textEndNameStep name c) := by
  unfold textEndNameStep
  simp only
  split
  · exact .goto h
  split
  · next hend =>
    rw [Bool.and_eq_true, beq_iff_eq] at hend
    -- the letters are those of the end tag that counts
    have htag : (Draft.begin true (name.map Char.toLower)).Fits t.closer? := by
      rw [hend.2]
      exact ⟨rfl, rfl⟩
    split
    · exact .goto htag
    split
    · exact .emitTag htag
    · exact .goto htag
  · exact goes_sayThenText t _ c

theorem goes_nestedStep (t : Tokenizer) (inside outside stay : Escape)
    {again : List Char → Phase} (hagain : ∀ closer name, (again name).Fits (some closer))
    (name : List Char) (c : Char) :
    Goes t.closer? (t.nestedStep inside outside stay again name c) := by
  unfold nestedStep
  split
  · next closer e hreading =>
    have hcloser : t.closer? = some closer := by rw [closer?, hreading]
    split
    · exact .sayScript hcloser _ _ trivial
    split
    · exact .sayScript hcloser _ _ (hagain _ _)
    · exact goes_scriptStep hcloser _ c
  · exact goes_textStep t c

/-! ### Comments and document types -/

theorem goes_bogusStep (h : t.closer? = none) {data : List Char} (hdata : IsBogusText data)
    (hc : c ≠ '\r') : Goes t.closer? (t.bogusStep data c) := by
  unfold bogusStep
  split
  · exact .emitComment h hdata.reverse.isCommentText
  · next hend => exact .goto ⟨h, hdata.cons hc (by simpa using hend)⟩

theorem goes_commentStep (h : t.closer? = none) {phase : CommentPhase} {data : List Char}
    (hdata : CommentReached phase data) (hc : c ≠ '\r') :
    Goes t.closer? (t.commentStep phase data c) := by
  rw [commentStep_eq]
  split
  · next hnext => exact .goto ⟨h, hdata.next hc hnext⟩
  · exact .emitComment h hdata.isCommentText

/-- The characters of a declaration are a dash or letters. -/
theorem isBogusText_declaration {seen : List Char} (h : IsBogusText seen)
    (hc : seen ++ [c] = ['-'] ∨ ((seen ++ [c]).map Char.toLower).isPrefixOf doctypeWord = true) :
    IsBogusText (seen ++ [c]) := by
  have hmem : c = '-' ∨ c.toLower ∈ doctypeWord := by
    rcases hc with hc | hc
    · exact Or.inl (List.mem_singleton.1 (hc ▸ List.mem_append_right _ (List.mem_singleton_self c)))
    · refine Or.inr ((List.isPrefixOf_iff_prefix.1 hc).subset ?_)
      simp
  have hne : ∀ d ∈ ['\r', '\x00', '>'], c ≠ d := by
    rintro d hd rfl
    revert hmem
    revert hd
    simp only [List.mem_cons, List.not_mem_nil, or_false]
    rintro (rfl | rfl | rfl) <;> decide
  constructor
  · simpa using ⟨h.noReturn, (hne _ (by simp)).symm⟩
  · simpa using ⟨h.noNull, (hne _ (by simp)).symm⟩
  · simpa using ⟨h.noEnd, (hne _ (by simp)).symm⟩

theorem goes_declarationStep (h : t.closer? = none) {seen : List Char} (hseen : IsBogusText seen)
    (hc : c ≠ '\r') : Goes t.closer? (t.declarationStep seen c) := by
  unfold declarationStep
  simp only
  split
  · exact .goto ⟨h, .start⟩
  split
  · exact .goto h
  split
  · next hword =>
    rw [Bool.or_eq_true, decide_eq_true_eq] at hword
    exact .goto ⟨h, isBogusText_declaration hseen hword⟩
  · exact goes_bogusStep h hseen.reverse hc

theorem goes_doctypeStep (h : t.closer? = none) {name : List Char}
    (hname : ∀ c ∈ name, IsNamePart c) (c : Char) : Goes t.closer? (t.doctypeStep name c) := by
  unfold doctypeStep
  split
  · exact .emitDoctype h hname
  next hend =>
  split
  · exact .goto ⟨h, hname⟩
  · next hspace =>
    refine .goto ⟨h, List.forall_mem_cons.2 ⟨?_, hname⟩⟩
    exact isNamePart_nameChar (by simpa using hspace) (by simpa using hend)

theorem goes_beforeDoctypeStep (h : t.closer? = none) (c : Char) :
    Goes t.closer? (t.beforeDoctypeStep c) := by
  unfold beforeDoctypeStep
  split
  · exact .goto h
  · exact goes_doctypeStep h (by simp) c

/-! ### Tags -/

theorem goes_beforeAttributeStep {tag : Draft} (h : tag.Fits t.closer?) (c : Char) :
    Goes t.closer? (t.beforeAttributeStep tag c) := by
  unfold beforeAttributeStep
  split
  · exact .goto h
  next hspace =>
  split
  · exact .goto h
  next hslash =>
  split
  · exact .emitTag h
  · next hend =>
    refine .goto ⟨h, isAttributeName_singleton ?_⟩
    exact isTagPart_nameChar (by simpa using hspace) (by simpa using hend) (by simpa using hslash)

theorem goes_tagNameStep {tag : Draft} (hcloser : t.closer? = none) (h : tag.Fits t.closer?)
    (c : Char) : Goes t.closer? (t.tagNameStep tag c) := by
  unfold tagNameStep
  split
  · exact .goto h
  next hspace =>
  split
  · exact .goto h
  next hslash =>
  split
  · exact .emitTag h
  · next hend =>
    refine .goto ⟨hcloser, ?_⟩
    rw [hcloser] at h ⊢
    exact h.grow (isTagPart_nameChar (by simpa using hspace) (by simpa using hend)
      (by simpa using hslash))

theorem goes_attributeNameStep {tag : Draft} (h : tag.Fits t.closer?) {name : List Char}
    (hname : IsAttributeName name.reverse) (c : Char) :
    Goes t.closer? (t.attributeNameStep tag name c) := by
  unfold attributeNameStep
  split
  · exact .goto ⟨h, hname⟩
  next hspace =>
  split
  · exact .goto (h.addAttribute hname _)
  next hslash =>
  split
  · exact .emitTag (h.addAttribute hname _)
  next hend =>
  split
  · exact .goto ⟨h, hname⟩
  · next hequals =>
    refine .goto ⟨h, ?_⟩
    rw [List.reverse_cons]
    refine hname.concat ?_ ?_
    · exact isTagPart_nameChar (by simpa using hspace) (by simpa using hend)
        (by simpa using hslash)
    · rw [Ne, nameChar_eq_iff c '=' (by decide)]
      simpa using hequals

theorem goes_afterAttributeNameStep {tag : Draft} (h : tag.Fits t.closer?) {name : List Char}
    (hname : IsAttributeName name.reverse) (c : Char) :
    Goes t.closer? (t.afterAttributeNameStep tag name c) := by
  unfold afterAttributeNameStep
  split
  · exact .goto ⟨h, hname⟩
  split
  · exact .goto ⟨h, hname⟩
  · exact goes_beforeAttributeStep (h.addAttribute hname _) c

theorem goes_valueStep {tag : Draft} (h : tag.Fits t.closer?) {name : List Char}
    (hname : IsAttributeName name.reverse) (quote : Quote) (value : List Char) (c : Char) :
    Goes t.closer? (t.valueStep tag name quote value c) := by
  have hmore := h.addAttribute hname value
  unfold valueStep
  split
  · exact .goto ⟨h, hname⟩
  · cases quote with
    | double =>
      simp only
      split
      · exact .goto hmore
      · exact .goto ⟨h, hname⟩
    | single =>
      simp only
      split
      · exact .goto hmore
      · exact .goto ⟨h, hname⟩
    | none =>
      simp only
      split
      · exact .goto hmore
      split
      · exact .emitTag hmore
      · exact .goto ⟨h, hname⟩

theorem goes_beforeValueStep {tag : Draft} (h : tag.Fits t.closer?) {name : List Char}
    (hname : IsAttributeName name.reverse) (c : Char) :
    Goes t.closer? (t.beforeValueStep tag name c) := by
  unfold beforeValueStep
  split
  · exact .goto ⟨h, hname⟩
  split
  · exact .goto ⟨h, hname⟩
  split
  · exact .goto ⟨h, hname⟩
  split
  · exact .emitTag (h.addAttribute hname _)
  · exact goes_valueStep h hname _ _ c

theorem goes_slashStep {tag : Draft} (h : tag.Fits t.closer?) (c : Char) :
    Goes t.closer? (t.slashStep tag c) := by
  unfold slashStep
  split
  · exact .emitTag h
  · exact goes_beforeAttributeStep h c

theorem goes_tagOpenStep (h : t.closer? = none) (hc : c ≠ '\r') :
    Goes t.closer? (t.tagOpenStep c) := by
  unfold tagOpenStep
  split
  · exact .goto ⟨h, .nil⟩
  split
  · exact .goto h
  split
  · exact goes_bogusStep h .nil hc
  split
  · next halpha => exact .goto ⟨h, h ▸ Draft.fits_begin halpha⟩
  · exact goes_sayThenText t _ c

theorem goes_endTagOpenStep (h : t.closer? = none) (hc : c ≠ '\r') :
    Goes t.closer? (t.endTagOpenStep c) := by
  unfold endTagOpenStep
  split
  · exact .goto ⟨h, h ▸ nofun⟩
  split
  · exact .goto trivial
  · exact goes_bogusStep h .nil hc

/-! ### References -/

theorem goes_giveThen {target : Target} (h : target.Fits t.closer?) (cs : List Char) (c : Char) :
    Goes t.closer? (t.giveThen target cs c) := by
  cases target with
  | text => exact goes_sayThenText t cs c
  | value tag name quote value => exact goes_valueStep h.1 h.2 quote _ c

theorem goes_give {target : Target} (h : target.Fits t.closer?) (cs : List Char) :
    Goes t.closer? (t.give target cs, []) := by
  cases target with
  | text => exact .silent rfl trivial
  | value tag name quote value => exact .silent rfl h

theorem goes_referenceStep {target : Target} (h : target.Fits t.closer?) (r : ReferencePhase)
    (c : Char) : Goes t.closer? (t.referenceStep r target c) := by
  unfold referenceStep
  cases r with
  | name seen =>
    simp only
    split
    · exact .goto h
    split
    · exact .goto h
    · exact goes_giveThen h _ c
  | hash =>
    simp only
    split
    · exact .goto h
    split
    · exact .goto h
    · exact goes_giveThen h _ c
  | hexMark x =>
    simp only
    split
    · exact .goto h
    · exact goes_giveThen h _ c
  | number base n =>
    simp only
    split
    · exact .goto h
    split
    · exact goes_give h _
    · exact goes_giveThen h _ c

/-! ### All steps -/

/-- One character leads on to where the machine may be, or completes a token that may come. -/
theorem goes_step (h : t.phase.Fits t.closer?) (hc : c ≠ '\r') : Goes t.closer? (t.step c) := by
  unfold step
  cases hphase : t.phase <;> rw [hphase] at h
  case text => exact goes_textStep t c
  case tagOpen => exact goes_tagOpenStep h hc
  case endTagOpen => exact goes_endTagOpenStep h hc
  case tagName tag => exact goes_tagNameStep h.1 h.2 c
  case beforeAttribute tag => exact goes_beforeAttributeStep h c
  case attributeName tag name => exact goes_attributeNameStep h.1 h.2 c
  case afterAttributeName tag name => exact goes_afterAttributeNameStep h.1 h.2 c
  case beforeValue tag name => exact goes_beforeValueStep h.1 h.2 c
  case value tag name quote value => exact goes_valueStep h.1 h.2 quote value c
  case afterValue tag => exact goes_beforeAttributeStep h c
  case slash tag => exact goes_slashStep h c
  case declaration seen => exact goes_declarationStep h.1 h.2 hc
  case bogusComment data => exact goes_bogusStep h.1 h.2 hc
  case comment phase data => exact goes_commentStep h.1 h.2 hc
  case beforeDoctype => exact goes_beforeDoctypeStep h c
  case doctype name => exact goes_doctypeStep h.1 h.2 c
  case afterDoctype name =>
    simp only
    split
    · exact .emitDoctype h.1 h.2
    · exact .goto h
  case reference r target => exact goes_referenceStep h r c
  case textLess => exact goes_textLessStep h c
  case textEndOpen => exact goes_textEndOpenStep h c
  case textEndName name => exact goes_textEndNameStep h name c
  case nestedStart name => exact goes_nestedStep t _ _ _ (by simp [Phase.Fits]) name c
  case nestedEnd name => exact goes_nestedStep t _ _ _ (by simp [Phase.Fits]) name c
  case nestedLess =>
    simp only
    split
    · next closer e hreading =>
      have hcloser : t.closer? = some closer := by rw [closer?, hreading]
      split
      · exact .sayScript hcloser _ _ (by simp [Phase.Fits])
      · exact goes_scriptStep hcloser _ c
    · exact goes_textStep t c

@[simp] theorem phase_after (t : Tokenizer) (token : Token) : (t.after token).phase = t.phase := by
  unfold after
  split
  · split <;> rfl
  · rfl

/-- The tokens of a character are in order with what may follow them. -/
theorem ordered_step (h : t.phase.Fits t.closer?) (hc : c ≠ '\r') :
    (t.next c).phase.Fits (t.next c).closer? ∧
      ∀ {rest}, Ordered (t.next c).closer? rest → Ordered t.closer? ((t.step c).2 ++ rest) := by
  have hgoes := goes_step h hc
  unfold next
  generalize t.closer? = closer at hgoes
  generalize t.step c = r at hgoes
  cases hgoes with
  | silent hcloser hphase =>
    refine ⟨hcloser ▸ hphase, ?_⟩
    intro rest hrest
    exact hcloser ▸ hrest
  | @emits texts token htexts hcomes =>
    simp only [List.foldl_append, foldl_after_texts htexts, List.foldl_cons, List.foldl_nil]
    constructor
    · rw [phase_after]
      exact trivial
    · intro rest hrest
      rw [List.append_assoc]
      exact .append_texts htexts (.cons hcomes hrest)

/-- What the end of the text completes is in order. -/
theorem ordered_finish (h : t.phase.Fits t.closer?) : Ordered t.closer? t.finish := by
  have htexts : ∀ u : Tokenizer, Ordered t.closer? u.pending := by
    intro u
    rw [← List.append_nil u.pending]
    exact .append_texts (fun _ => isText_of_mem_pending) trivial
  have hlast : ∀ token : Token, token.Comes t.closer? →
      Ordered t.closer? (t.pending ++ [token]) := by
    intro token hcomes
    exact .append_texts (fun _ => isText_of_mem_pending) (.cons hcomes trivial)
  unfold finish
  cases hphase : t.phase <;> rw [hphase] at h
  case declaration seen =>
    refine hlast _ (h.1 ▸ ?_)
    show IsCommentText _
    rw [String.toList_ofList]
    exact h.2.isCommentText
  case bogusComment data =>
    refine hlast _ (h.1 ▸ ?_)
    show IsCommentText _
    rw [spelled, String.toList_ofList]
    exact h.2.reverse.isCommentText
  case comment phase data =>
    refine hlast _ (h.1 ▸ ?_)
    show IsCommentText _
    rw [spelled, String.toList_ofList]
    exact h.2.isCommentText
  case beforeDoctype =>
    refine hlast _ ?_
    rw [show t.closer? = none from h]
    show ∀ c ∈ _, _
    simp
  case doctype name =>
    refine hlast _ (h.1 ▸ ?_)
    show ∀ c ∈ _, _
    rw [spelled, String.toList_ofList]
    exact fun c hc => h.2 c (List.mem_reverse.1 hc)
  case afterDoctype name =>
    refine hlast _ (h.1 ▸ ?_)
    show ∀ c ∈ _, _
    rw [spelled, String.toList_ofList]
    exact fun c hc => h.2 c (List.mem_reverse.1 hc)
  case reference r target => cases target <;> exact htexts _
  all_goals exact htexts _

/-- The tokens of a text are in order. -/
theorem ordered_tokens {cs : List Char} (hcs : '\r' ∉ cs) :
    ∀ {t : Tokenizer}, t.phase.Fits t.closer? → Ordered t.closer? (t.tokens cs) := by
  induction cs with
  | nil => exact ordered_finish
  | cons c cs ih =>
    rw [List.mem_cons, not_or] at hcs
    intro t h
    obtain ⟨hnext, hordered⟩ := ordered_step h (Ne.symm hcs.1)
    exact hordered (ih hcs.2 hnext)

/-- A text that completes no token leaves the same name to end it. -/
theorem fits_silently {cs : List Char} (hcs : '\r' ∉ cs) :
    ∀ {t t' : Tokenizer}, t.phase.Fits t.closer? → t.silently cs = some t' →
      t'.closer? = t.closer? ∧ t'.phase.Fits t.closer? := by
  induction cs with
  | nil =>
    intro t t' h hsilent
    obtain rfl := Option.some.inj hsilent
    exact ⟨rfl, h⟩
  | cons c cs ih =>
    rw [List.mem_cons, not_or] at hcs
    intro t t' h hsilent
    have hgoes := goes_step h (Ne.symm hcs.1)
    rw [silently] at hsilent
    split at hsilent
    · next u hstep =>
      rw [hstep] at hgoes
      generalize t.closer? = closer at hgoes
      generalize hr : ((u, []) : Result) = r at hgoes
      cases hgoes with
      | silent hcloser hphase =>
        obtain ⟨rfl, -⟩ := Prod.mk.inj hr
        subst hcloser
        exact ih hcs.2 hphase hsilent
      | emits htexts hcomes => simp at hr
    · cases hsilent

end Tokenizer

end Stencil.Html
