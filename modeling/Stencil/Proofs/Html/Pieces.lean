import Stencil.Html.Serializer
import Stencil.Proofs.Html.Attributes
import Stencil.Proofs.Html.References
import Stencil.Proofs.Html.Spelling
namespace Stencil.Html

/-! # Written pieces

What the tokenizer reads where the writer has written a text, a value, a tag, a comment or a
document type: that piece, whatever follows it.
-/

/-- The machine between tags, with the text since the last one spelled backwards. -/
def Tokenizer.between (run : List Char) : Tokenizer :=
  ⟨.text, .markup, run⟩

/-- A tag with more attributes. -/
def Draft.addAll (tag : Draft) (l : List (String × String)) : Draft :=
  { tag with attrs := l.foldl (fun a p => a.addNew p.1 p.2) tag.attrs }

namespace Tokenizer

variable {r : Reading} {run rest : List Char}

theorem pending_between {s : String} (h : s ≠ "") :
    (between s.toList.reverse).pending = [.text s] := by
  have hne : s.toList.reverse ≠ [] := by simpa using h
  unfold pending between
  rw [if_neg hne, List.reverse_reverse, String.ofList_toList]

theorem silently_singleton {t t' : Tokenizer} {c : Char} (h : t.step c = (t', [])) :
    t.silently [c] = some t' := by
  rw [silently_cons h]
  rfl

/-! ## Text and values -/

/-- The reading in which a character of text is written with references. -/
def ReadsReferences (r : Reading) (c : Char) : Prop :=
  r = .markup ∨ (∃ closer, r = .escapable closer) ∧ c ≠ '\x00'

theorem tokens_escapeTextChar {c : Char} (h : ReadsReferences r c) (run rest : List Char) :
    tokens ⟨.text, r, run⟩ (escapeTextChar c ++ rest) = tokens ⟨.text, r, c :: run⟩ rest := by
  have hreference : ∀ {name : List Char} {c : Char}, IsReference name [c] →
      tokens ⟨.text, r, run⟩ (('&' :: name) ++ rest) = tokens ⟨.text, r, c :: run⟩ rest := by
    intro name d hname
    have hstep : step ⟨.text, r, run⟩ '&' = (⟨.reference (.name []) .text, r, run⟩, []) := by
      rcases h with rfl | ⟨⟨closer, rfl⟩, -⟩ <;> rfl
    rw [List.cons_append, tokens_silent hstep, tokens_reference hname]
    rfl
  unfold escapeTextChar
  split
  · next hc =>
    rw [hc]
    exact hreference isReference_amp
  split
  · next hc =>
    rw [hc]
    exact hreference isReference_lt
  split
  · next hc =>
    rw [hc]
    exact hreference isReference_gt
  split
  · next hc =>
    rw [hc]
    exact hreference isReference_nbsp
  · next hamp hlt _ _ =>
    refine tokens_silent ?_ rest
    rcases h with rfl | ⟨⟨closer, rfl⟩, hnull⟩
    · simp [step, textStep, hamp, hlt, say]
    · simp [step, textStep, hamp, hlt, say, cleaned_eq_self hnull]

/-- Text that is written with references is read as itself. -/
theorem tokens_escapeText {cs : List Char} (h : ∀ c ∈ cs, ReadsReferences r c)
    (run rest : List Char) :
    tokens ⟨.text, r, run⟩ (cs.flatMap escapeTextChar ++ rest) =
      tokens ⟨.text, r, cs.reverse ++ run⟩ rest := by
  induction cs generalizing run with
  | nil => rfl
  | cons c cs ih =>
    rw [List.forall_mem_cons] at h
    rw [List.flatMap_cons, List.append_assoc, tokens_escapeTextChar h.1, ih h.2]
    simp

theorem tokens_escapeValueChar {c : Char} (h : c ≠ '\x00') (tag : Draft)
    (name value rest : List Char) :
    tokens ⟨.value tag name .double value, r, run⟩ (escapeValueChar c ++ rest) =
      tokens ⟨.value tag name .double (c :: value), r, run⟩ rest := by
  have hreference : ∀ {key : List Char} {c : Char}, IsReference key [c] →
      tokens ⟨.value tag name .double value, r, run⟩ (('&' :: key) ++ rest) =
        tokens ⟨.value tag name .double (c :: value), r, run⟩ rest := by
    intro key d hkey
    rw [List.cons_append, tokens_silent rfl, tokens_reference hkey]
    rfl
  unfold escapeValueChar
  split
  · next hc =>
    rw [hc]
    exact hreference isReference_amp
  split
  · next hc =>
    rw [hc]
    exact hreference isReference_quot
  split
  · next hc =>
    rw [hc]
    exact hreference isReference_nbsp
  · next hamp hquot _ =>
    refine tokens_silent ?_ rest
    simp [step, valueStep, hamp, hquot, goto, cleaned_eq_self h]

/-- A value that is written with references is read as itself. -/
theorem tokens_escapeValue {cs : List Char} (h : '\x00' ∉ cs) (tag : Draft)
    (name value rest : List Char) :
    tokens ⟨.value tag name .double value, r, run⟩ (cs.flatMap escapeValueChar ++ rest) =
      tokens ⟨.value tag name .double (cs.reverse ++ value), r, run⟩ rest := by
  induction cs generalizing value with
  | nil => rfl
  | cons c cs ih =>
    rw [List.mem_cons, not_or] at h
    rw [List.flatMap_cons, List.append_assoc, tokens_escapeValueChar (Ne.symm h.1), ih h.2]
    simp

/-! ## Tags -/

theorem tokens_tagName {cs : List Char} (h : ∀ c ∈ cs, IsTagPart c) (tag : Draft)
    (rest : List Char) :
    tokens ⟨.tagName tag, r, run⟩ (cs ++ rest) =
      tokens ⟨.tagName { tag with name := cs.reverse ++ tag.name }, r, run⟩ rest := by
  induction cs generalizing tag with
  | nil => rfl
  | cons c cs ih =>
    rw [List.forall_mem_cons] at h
    obtain ⟨⟨⟨hname, hspace, hend⟩, hslash⟩, hcs⟩ := h
    have hstep : step ⟨.tagName tag, r, run⟩ c =
        (⟨.tagName { tag with name := c :: tag.name }, r, run⟩, []) := by
      simp [step, tagNameStep, hspace, hend, hslash, hname, goto]
    rw [List.cons_append, tokens_silent hstep, ih hcs]
    simp

theorem tokens_attributeName {cs : List Char} (h : ∀ c ∈ cs, IsTagPart c ∧ c ≠ '=') (tag : Draft)
    (name rest : List Char) :
    tokens ⟨.attributeName tag name, r, run⟩ (cs ++ rest) =
      tokens ⟨.attributeName tag (cs.reverse ++ name), r, run⟩ rest := by
  induction cs generalizing name with
  | nil => rfl
  | cons c cs ih =>
    rw [List.forall_mem_cons] at h
    obtain ⟨⟨⟨⟨hname, hspace, hend⟩, hslash⟩, hequals⟩, hcs⟩ := h
    have hstep : step ⟨.attributeName tag name, r, run⟩ c =
        (⟨.attributeName tag (c :: name), r, run⟩, []) := by
      simp [step, attributeNameStep, hspace, hend, hslash, hequals, hname, goto]
    rw [List.cons_append, tokens_silent hstep, ih hcs]
    simp

/-- Behind the name of a tag or behind an attribute. -/
def BehindPart (tag : Draft) (p : Phase) : Prop :=
  p = .tagName tag ∨ p = .afterValue tag

theorem spelled_reverse_toList (s : String) : spelled s.toList.reverse = s := by
  rw [spelled, List.reverse_reverse, String.ofList_toList]

/-- An attribute is read as itself. -/
theorem tokens_writeAttribute {tag : Draft} {p : Phase} (hp : BehindPart tag p)
    {a : String × String} (hname : IsAttributeName a.1.toList) (hvalue : '\x00' ∉ a.2.toList)
    (rest : List Char) :
    tokens ⟨p, r, run⟩ (writeAttribute a ++ rest) =
      tokens ⟨.afterValue { tag with attrs := tag.attrs.addNew a.1 a.2 }, r, run⟩ rest := by
  obtain ⟨c, cs, hcs⟩ := List.exists_cons_of_ne_nil hname.nonempty
  have hparts := hname.parts
  have hequals := hname.noEquals
  rw [hcs, List.forall_mem_cons] at hparts
  rw [hcs, List.tail_cons] at hequals
  obtain ⟨⟨⟨hc, hspace, hend⟩, hslash⟩, htail⟩ := hparts
  have hbegin : silently ⟨p, r, run⟩ [' ', c] = some ⟨.attributeName tag [c], r, run⟩ := by
    have hblank : step ⟨p, r, run⟩ ' ' = (⟨.beforeAttribute tag, r, run⟩, []) := by
      rcases hp with rfl | rfl <;> rfl
    have hfirst : step ⟨.beforeAttribute tag, r, run⟩ c =
        (⟨.attributeName tag [c], r, run⟩, []) := by
      simp [step, beforeAttributeStep, hspace, hslash, hend, hc, goto]
    rw [silently_cons hblank, silently_singleton hfirst]
  have hopen : silently ⟨.attributeName tag (cs.reverse ++ [c]), r, run⟩ ['=', '"'] =
      some ⟨.value tag a.1.toList.reverse .double [], r, run⟩ := by
    rw [hcs, List.reverse_cons]
    rfl
  have hclose :
      step ⟨.value tag a.1.toList.reverse .double (a.2.toList.reverse ++ []), r, run⟩ '"' =
        (⟨.afterValue { tag with attrs := tag.attrs.addNew a.1 a.2 }, r, run⟩, []) := by
    rw [List.append_nil]
    show (_, _) = _
    rw [Draft.addAttribute, spelled_reverse_toList, spelled_reverse_toList]
  calc tokens ⟨p, r, run⟩ (writeAttribute a ++ rest)
      = tokens ⟨p, r, run⟩
          ([' ', c] ++ (cs ++ (['=', '"'] ++ (escapeValue a.2 ++ '"' :: rest)))) := by
        rw [writeAttribute, hcs]
        simp
    _ = tokens ⟨.attributeName tag [c], r, run⟩
          (cs ++ (['=', '"'] ++ (escapeValue a.2 ++ '"' :: rest))) :=
        tokens_of_silently hbegin _
    _ = tokens ⟨.value tag a.1.toList.reverse .double [], r, run⟩
          (escapeValue a.2 ++ '"' :: rest) := by
        rw [tokens_attributeName fun d hd => ⟨htail d hd, fun he => hequals (he ▸ hd)⟩,
          tokens_of_silently hopen]
    _ = tokens ⟨.afterValue { tag with attrs := tag.attrs.addNew a.1 a.2 }, r, run⟩ rest := by
        rw [escapeValue, tokens_escapeValue hvalue, tokens_silent hclose]

/-- The rest of a tag puts out the tag with all its attributes. -/
theorem tokens_writeAttributes {l : List (String × String)}
    (h : ∀ a ∈ l, IsAttributeName a.1.toList ∧ '\x00' ∉ a.2.toList) (r : Reading)
    (run rest : List Char) :
    ∀ {tag : Draft} {p : Phase}, BehindPart tag p →
      tokens ⟨p, r, run⟩ (l.flatMap writeAttribute ++ '>' :: rest) =
        (between run).pending ++
          (tag.addAll l).token :: (after (between []) (tag.addAll l).token).tokens rest := by
  induction l with
  | nil =>
    intro tag p hp
    have hstep : step ⟨p, r, run⟩ '>' = emit ⟨p, r, run⟩ tag.token .markup := by
      rcases hp with rfl | rfl <;> rfl
    exact tokens_emit hstep rest
  | cons a l ih =>
    rw [List.forall_mem_cons] at h
    intro tag p hp
    rw [List.flatMap_cons, List.append_assoc, tokens_writeAttribute hp h.1.1 h.1.2,
      ih h.2 (Or.inr rfl)]
    rfl

/-- The first letter of a tag. -/
theorem silently_tagOpen {c : Char} (halpha : c.isAlpha = true) (hname : nameChar c = c)
    (run : List Char) :
    silently (between run) ['<', c] = some ⟨.tagName (Draft.begin false [c]), .markup, run⟩ ∧
      silently (between run) ['<', '/', c] =
        some ⟨.tagName (Draft.begin true [c]), .markup, run⟩ := by
  have hlower : c.toLower = c := (toLower_of_isAlpha halpha).trans hname
  have hne : ∀ d ∈ ['!', '/', '?'], c ≠ d := by
    rintro d hd rfl
    revert halpha
    revert hd
    simp only [List.mem_cons, List.not_mem_nil, or_false]
    rintro (rfl | rfl | rfl) <;> decide
  have hstart : step ⟨.tagOpen, .markup, run⟩ c =
      (⟨.tagName (Draft.begin false [c]), .markup, run⟩, []) := by
    simp [step, tagOpenStep, hne, halpha, hlower, goto]
  have hend : step ⟨.endTagOpen, .markup, run⟩ c =
      (⟨.tagName (Draft.begin true [c]), .markup, run⟩, []) := by
    simp [step, endTagOpenStep, halpha, hlower, goto]
  have hopen : step (between run) '<' = (⟨.tagOpen, .markup, run⟩, []) := rfl
  have hslash : step ⟨.tagOpen, .markup, run⟩ '/' = (⟨.endTagOpen, .markup, run⟩, []) := rfl
  constructor
  · rw [silently_cons hopen, silently_singleton hstart]
  · rw [silently_cons hopen, silently_cons hslash, silently_singleton hend]

/-- A start tag is read as itself, with its attributes in the order of their names. -/
theorem tokens_writeStart {e : Element} (h : e.IsSpelled)
    (hvalues : ∀ a ∈ e.attrs.entries, '\x00' ∉ a.2.toList) (run rest : List Char) :
    (between run).tokens (writeStart e ++ rest) =
      (between run).pending ++ .startTag e.name e.attrs.sorted false ::
        (after (between []) (.startTag e.name e.attrs.sorted false)).tokens rest := by
  obtain ⟨c, cs, hcs, halpha, hname, htail⟩ := h.name.exists_cons
  have htag : ((⟨false, cs.reverse ++ [c], .empty, false⟩ : Draft).addAll e.attrs.entries).token =
      .startTag e.name e.attrs.sorted false := by
    have hattrs : e.attrs.entries.foldl (fun a p => a.addNew p.1 p.2) .empty = e.attrs :=
      Attributes.ext (Attributes.entries_foldl_addNew e.attrs.entries e.attrs.nodup)
    have hspelled : spelled (cs.reverse ++ [c]) = e.name := by
      rw [← List.reverse_cons, ← hcs, spelled_reverse_toList]
    simp only [Draft.addAll, hattrs, Draft.token, hspelled]
    rfl
  have hsplit : writeStart e ++ rest =
      ['<', c] ++ (cs ++ (e.attrs.entries.flatMap writeAttribute ++ '>' :: rest)) := by
    rw [writeStart, hcs]
    simp
  rw [hsplit, tokens_of_silently (silently_tagOpen halpha hname run).1, tokens_tagName htail,
    tokens_writeAttributes (fun a ha => ⟨h.attributes a ha, hvalues a ha⟩) _ _ _ (Or.inl rfl)]
  simp only [Draft.begin, htag]

/-- An end tag is read as itself. -/
theorem tokens_writeEnd {e : Element} (h : IsTagName e.name.toList) (run rest : List Char) :
    (between run).tokens (writeEnd e ++ rest) =
      (between run).pending ++ .endTag e.name :: (between []).tokens rest := by
  obtain ⟨c, cs, hcs, halpha, hname, htail⟩ := h.exists_cons
  have hspelled : spelled (cs.reverse ++ [c]) = e.name := by
    rw [← List.reverse_cons, ← hcs, spelled_reverse_toList]
  have hsplit : writeEnd e ++ rest = ['<', '/', c] ++ (cs ++ '>' :: rest) := by
    rw [writeEnd, hcs]
    simp
  have hemit : step ⟨.tagName ⟨true, cs.reverse ++ [c], .empty, false⟩, .markup, run⟩ '>' =
      emit ⟨.tagName ⟨true, cs.reverse ++ [c], .empty, false⟩, .markup, run⟩ (.endTag e.name)
        .markup := by
    rw [← hspelled]
    rfl
  rw [hsplit, tokens_of_silently (silently_tagOpen halpha hname run).2, tokens_tagName htail]
  exact tokens_emit hemit rest

/-! ## Elements that are read as text -/

/-- The letters of the end tag that alone ends a text. -/
def IsCloser (name : List Char) : Prop :=
  name ≠ [] ∧ ∀ c ∈ name, c.isAlpha = true ∧ c.toLower = c

instance (name : List Char) : Decidable (IsCloser name) :=
  have := List.decidableBAll (fun c : Char => c.isAlpha = true ∧ c.toLower = c) name
  inferInstanceAs (Decidable (name ≠ [] ∧ ∀ c ∈ name, c.isAlpha = true ∧ c.toLower = c))

theorem tokens_textEndName {cs : List Char} (h : ∀ c ∈ cs, c.isAlpha = true)
    (name rest : List Char) :
    tokens ⟨.textEndName name, r, run⟩ (cs ++ rest) =
      tokens ⟨.textEndName (cs.reverse ++ name), r, run⟩ rest := by
  induction cs generalizing name with
  | nil => rfl
  | cons c cs ih =>
    rw [List.forall_mem_cons] at h
    have hstep : step ⟨.textEndName name, r, run⟩ c = (⟨.textEndName (c :: name), r, run⟩, []) := by
      simp [step, textEndNameStep, h.1, goto]
    rw [List.cons_append, tokens_silent hstep, ih h.2]
    simp

/-- The end tag that alone ends a text is read as itself. -/
theorem tokens_closer {name : List Char} (h : IsCloser name)
    (hcloser : ∀ phase run, closer? ⟨phase, r, run⟩ = some name) (run rest : List Char) :
    tokens ⟨.textLess, r, run⟩ ('/' :: (name ++ '>' :: rest)) =
      (between run).pending ++ .endTag (String.ofList name) :: (between []).tokens rest := by
  obtain ⟨hne, hletters⟩ := h
  obtain ⟨c, cs, rfl⟩ := List.exists_cons_of_ne_nil hne
  have hfirst : step ⟨.textEndOpen, r, run⟩ c = (⟨.textEndName [c], r, run⟩, []) := by
    simp [step, textEndOpenStep, (hletters c List.mem_cons_self).1, goto]
  have hsmall : ((cs.reverse ++ [c]).map Char.toLower).reverse = c :: cs := by
    have hall : (c :: cs).map Char.toLower = c :: cs :=
      (List.map_congr_left fun d hd => (hletters d hd).2).trans (List.map_id _)
    rw [← List.map_reverse]
    simpa using hall
  have hemit : step ⟨.textEndName (cs.reverse ++ [c]), r, run⟩ '>' =
      emit ⟨.textEndName (cs.reverse ++ [c]), r, run⟩ (.endTag (String.ofList (c :: cs)))
        .markup := by
    have hends : (endsName '>' && closer? ⟨.textEndName (cs.reverse ++ [c]), r, run⟩ ==
        some ((cs.reverse ++ [c]).map Char.toLower).reverse) = true := by
      rw [hcloser, hsmall]
      simp [endsName]
    simp only [step, textEndNameStep]
    rw [if_neg (by decide), if_pos hends, if_neg (by decide), if_pos (by decide), emitTag]
    simp only [Draft.begin, Draft.token, spelled, hsmall, if_true]
  have hslash : step ⟨.textLess, r, run⟩ '/' = (⟨.textEndOpen, r, run⟩, []) := rfl
  rw [tokens_silent hslash, List.cons_append, tokens_silent hfirst,
    tokens_textEndName fun d hd => (hletters d (List.mem_cons_of_mem _ hd)).1]
  exact tokens_emit hemit rest

/-! ## Comments and document types -/

theorem tokens_readComment {cs : List Char} {phase phase' : CommentPhase} {data data' : List Char}
    (h : readComment phase data cs = some (phase', data')) (r : Reading) (run rest : List Char) :
    tokens ⟨.comment phase data, r, run⟩ (cs ++ rest) =
      tokens ⟨.comment phase' data', r, run⟩ rest := by
  induction cs generalizing phase data with
  | nil =>
    obtain ⟨rfl, rfl⟩ := Prod.mk.inj (Option.some.inj h)
    rfl
  | cons c cs ih =>
    unfold readComment at h
    rw [List.foldlM_cons] at h
    obtain ⟨⟨phase₁, data₁⟩, hnext, hrest⟩ := Option.bind_eq_some_iff.1 h
    have hstep : step ⟨.comment phase data, r, run⟩ c = (⟨.comment phase₁ data₁, r, run⟩, []) := by
      show commentStep _ phase data c = _
      rw [commentStep_eq, hnext]
      rfl
    rw [List.cons_append, tokens_silent hstep, ih hrest]

/-- Two dashes end a comment with all that has been read of it. -/
theorem readComment_dashes (phase : CommentPhase) (data : List Char) :
    ∃ data', readComment phase data ['-', '-'] = some (.dashes, data') ∧
      data'.reverse = data.reverse ++ phase.held := by
  cases phase with
  | start => exact ⟨data, rfl, by simp [CommentPhase.held]⟩
  | startDash => exact ⟨'-' :: data, rfl, by simp [CommentPhase.held]⟩
  | body => exact ⟨data, rfl, by simp [CommentPhase.held]⟩
  | dash => exact ⟨'-' :: data, rfl, by simp [CommentPhase.held]⟩
  | dashes => exact ⟨'-' :: '-' :: data, rfl, by simp [CommentPhase.held]⟩
  | bang => exact ⟨'!' :: '-' :: '-' :: data, rfl, by simp [CommentPhase.held]⟩

/-- A comment is read as itself. -/
theorem tokens_writeComment {s : String} (h : IsCommentText s.toList) (run rest : List Char) :
    (between run).tokens (writeComment s ++ rest) =
      (between run).pending ++ .comment s :: (between []).tokens rest := by
  obtain ⟨⟨phase, data⟩, hread⟩ := Option.isSome_iff_exists.1 h.reads
  obtain ⟨data', hdashes, hdata'⟩ := readComment_dashes phase data
  have hheld := held_readComment h.noNull hread
  have hspelled : spelled data' = s := by
    rw [spelled, hdata', hheld]
    exact String.ofList_toList
  have hopen : silently (between run) ['<', '!', '-', '-'] =
      some ⟨.comment .start [], .markup, run⟩ := rfl
  have hemit : step ⟨.comment .dashes data', .markup, run⟩ '>' =
      emit ⟨.comment .dashes data', .markup, run⟩ (.comment s) .markup := by
    rw [← hspelled]
    rfl
  have hsplit : writeComment s ++ rest =
      ['<', '!', '-', '-'] ++ (s.toList ++ (['-', '-'] ++ '>' :: rest)) := by
    simp [writeComment]
  rw [hsplit, tokens_of_silently hopen, tokens_readComment hread, tokens_readComment hdashes]
  exact tokens_emit hemit rest

theorem tokens_doctype {cs : List Char} (h : ∀ c ∈ cs, IsNamePart c) (name rest : List Char) :
    tokens ⟨.doctype name, r, run⟩ (cs ++ rest) =
      tokens ⟨.doctype (cs.reverse ++ name), r, run⟩ rest := by
  induction cs generalizing name with
  | nil => rfl
  | cons c cs ih =>
    rw [List.forall_mem_cons] at h
    obtain ⟨⟨hname, hspace, hend⟩, hcs⟩ := h
    have hstep : step ⟨.doctype name, r, run⟩ c = (⟨.doctype (c :: name), r, run⟩, []) := by
      simp [step, doctypeStep, hspace, hend, hname, goto]
    rw [List.cons_append, tokens_silent hstep, ih hcs]
    simp

/-- A document type is read as itself. -/
theorem tokens_writeDoctype {name : String} (h : ∀ c ∈ name.toList, IsNamePart c)
    (run rest : List Char) :
    (between run).tokens (writeDoctype name ++ rest) =
      (between run).pending ++ .doctype name :: (between []).tokens rest := by
  have hword : silently ⟨.declaration [], .markup, run⟩ ['D', 'O', 'C', 'T', 'Y', 'P', 'E'] =
      some ⟨.beforeDoctype, .markup, run⟩ := by
    simp [silently, step, declarationStep, doctypeWord, goto]
  have hbegin : "<!DOCTYPE ".toList = ['<', '!', 'D', 'O', 'C', 'T', 'Y', 'P', 'E', ' '] := by
    decide
  have hsplit : writeDoctype name ++ rest = ['<', '!'] ++
      (['D', 'O', 'C', 'T', 'Y', 'P', 'E'] ++ (' ' :: (name.toList ++ '>' :: rest))) := by
    show "<!DOCTYPE ".toList ++ name.toList ++ ['>'] ++ rest = _
    rw [hbegin]
    simp
  have hopen : silently (between run) ['<', '!'] = some ⟨.declaration [], .markup, run⟩ := rfl
  have hblank : step ⟨.beforeDoctype, .markup, run⟩ ' ' =
      (⟨.beforeDoctype, .markup, run⟩, []) := rfl
  rw [hsplit, tokens_of_silently hopen, tokens_of_silently hword, tokens_silent hblank]
  have hname := spelled_reverse_toList name
  cases hcs : name.toList with
  | nil =>
    rw [hcs] at hname
    rw [← hname]
    exact tokens_emit rfl rest
  | cons c cs =>
    rw [hcs] at h hname
    obtain ⟨⟨hc, hspace, hend⟩, htail⟩ := List.forall_mem_cons.1 h
    have hfirst : step ⟨.beforeDoctype, .markup, run⟩ c = (⟨.doctype [c], .markup, run⟩, []) := by
      simp [step, beforeDoctypeStep, doctypeStep, hspace, hend, hc, goto]
    rw [List.cons_append, tokens_silent hfirst, tokens_doctype htail, ← hname, List.reverse_cons]
    exact tokens_emit rfl rest

end Tokenizer

end Stencil.Html
