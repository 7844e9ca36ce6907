import Stencil.Proofs.Html.Pieces
namespace Stencil.Html

/-! # Escaping

What is written of a text or a value has none of the characters that would end it, and the tokenizer
reads back what was written. Neither depends on what the text looks like: an `&` is always written
as a reference, so a text that looks like one is not taken for one.
-/

/-! ## Characters of what is written -/

/-- The characters of which references are written. -/
def referenceChars : List Char :=
  ['&', ';', 'a', 'b', 'g', 'l', 'm', 'n', 'o', 'p', 'q', 's', 't', 'u']

/-- A way to write single characters: marks with a reference, all others as they are. -/
structure WritesMarks (marks : List Char) (write : Char → List Char) : Prop where
  reference : ∀ c ∈ marks, ∀ d ∈ write c, d ∈ referenceChars
  self : ∀ c ∉ marks, write c = [c]

theorem writesMarks_escapeTextChar : WritesMarks ['&', '<', '>', noBreakSpace] escapeTextChar where
  reference := by
    intro c hc
    simp only [List.mem_cons, List.not_mem_nil, or_false] at hc
    rcases hc with rfl | rfl | rfl | rfl
    all_goals simp [escapeTextChar, referenceChars, noBreakSpace]
  self := by
    intro c hc
    simp only [List.mem_cons, List.not_mem_nil, or_false, not_or] at hc
    obtain ⟨hamp, hlt, hgt, hspace⟩ := hc
    simp only [escapeTextChar, hamp, hlt, hgt, hspace, if_false]

theorem writesMarks_escapeValueChar : WritesMarks ['&', '"', noBreakSpace] escapeValueChar where
  reference := by
    intro c hc
    simp only [List.mem_cons, List.not_mem_nil, or_false] at hc
    rcases hc with rfl | rfl | rfl
    all_goals simp [escapeValueChar, referenceChars, noBreakSpace]
  self := by
    intro c hc
    simp only [List.mem_cons, List.not_mem_nil, or_false, not_or] at hc
    obtain ⟨hamp, hquot, hspace⟩ := hc
    simp only [escapeValueChar, hamp, hquot, hspace, if_false]

/-- What is written and does not belong to a reference stands for itself. -/
theorem WritesMarks.mem_of_mem_flatMap {marks : List Char} {write : Char → List Char}
    (h : WritesMarks marks write) {cs : List Char} {d : Char} (href : d ∉ referenceChars)
    (hd : d ∈ cs.flatMap write) : d ∈ cs ∧ d ∉ marks := by
  obtain ⟨c, hc, hdc⟩ := List.mem_flatMap.1 hd
  by_cases hmark : c ∈ marks
  · exact absurd (h.reference c hmark d hdc) href
  · rw [h.self c hmark, List.mem_singleton] at hdc
    rw [hdc]
    exact ⟨hc, hmark⟩

/-- No mark but `&` belongs to a reference. -/
theorem notMem_referenceChars {c : Char} (h : c ∈ ['<', '>', '"', noBreakSpace]) :
    c ∉ referenceChars := by
  simp only [List.mem_cons, List.not_mem_nil, or_false] at h
  rcases h with rfl | rfl | rfl | rfl
  all_goals simp [referenceChars, noBreakSpace]

theorem notMem_escapeText (s : String) {c : Char} (h : c ∈ ['<', '>', noBreakSpace]) :
    c ∉ escapeText s := by
  have hmark : c ∈ ['&', '<', '>', noBreakSpace] := List.mem_cons_of_mem _ h
  have href : c ∉ referenceChars := by
    refine notMem_referenceChars ?_
    simp only [List.mem_cons] at h ⊢
    tauto
  intro hc
  exact (writesMarks_escapeTextChar.mem_of_mem_flatMap href hc).2 hmark

theorem notMem_escapeValue (s : String) {c : Char} (h : c ∈ ['"', noBreakSpace]) :
    c ∉ escapeValue s := by
  have hmark : c ∈ ['&', '"', noBreakSpace] := List.mem_cons_of_mem _ h
  have href : c ∉ referenceChars := by
    refine notMem_referenceChars ?_
    simp only [List.mem_cons] at h ⊢
    tauto
  intro hc
  exact (writesMarks_escapeValueChar.mem_of_mem_flatMap href hc).2 hmark

/-! ## Carriage returns -/

theorem return_notMem_escape {cs : List Char} (h : '\r' ∉ cs) :
    '\r' ∉ cs.flatMap escapeTextChar ∧ '\r' ∉ cs.flatMap escapeValueChar := by
  have href : '\r' ∉ referenceChars := by
    decide
  constructor
  · intro hr
    exact h (writesMarks_escapeTextChar.mem_of_mem_flatMap href hr).1
  · intro hr
    exact h (writesMarks_escapeValueChar.mem_of_mem_flatMap href hr).1

theorem normalizeNewlines_eq_self {cs : List Char} (h : '\r' ∉ cs) :
    Text.normalizeNewlines cs = cs := by
  induction cs with
  | nil => rfl
  | cons c cs ih =>
    rw [List.mem_cons, not_or] at h
    have hc : c ≠ '\r' := Ne.symm h.1
    rw [Text.normalizeNewlines]
    · rw [ih h.2]
    · rintro rest rfl
      exact absurd rfl hc
    · rintro rfl
      exact absurd rfl hc

/-! ## Reading back -/

/-- A paragraph with nothing but an attribute of a one-letter name, or with none. -/
theorem isSpelled_paragraph {attrs : Attributes} (h : ∀ a ∈ attrs.entries, a.1 = "a") :
    Element.IsSpelled ⟨"p", attrs⟩ where
  name := by
    have hp : "p".toList = [Char.toLower 'p'] := by decide
    show IsTagName "p".toList
    rw [hp]
    exact isTagName_singleton (by decide)
  attributes := by
    intro a hmem
    have hname : "a".toList = ['a'] := by decide
    have ha : IsTagPart 'a' := by
      unfold IsTagPart IsNamePart
      decide
    rw [h a hmem, hname]
    exact isAttributeName_singleton ha

namespace Tokenizer

/-- A paragraph changes nothing in how the rest is read. -/
theorem after_paragraph (t : Tokenizer) (h : t.reading = .markup) (attrs : Attributes) :
    after t (.startTag "p" attrs false) = t := by
  have hreading : readingOf "p" = .markup := by decide
  unfold after
  simp only
  rw [hreading, ← h, ite_self]

/-- The text of a paragraph is read as what it was before it was written. -/
theorem tokens_paragraph {s : String} (h : '\r' ∉ s.toList) :
    start.tokens (Text.normalizeNewlines ("<p>".toList ++ escapeText s ++ "</p>".toList)) =
      .startTag "p" .empty false :: (if s = "" then [] else [.text s]) ++ [.endTag "p"] := by
  have hspelled : Element.IsSpelled ⟨"p", .empty⟩ :=
    isSpelled_paragraph (by simp [Attributes.empty])
  have hreturn : '\r' ∉ "<p>".toList ++ escapeText s ++ "</p>".toList := by
    simp [escapeText, (return_notMem_escape h).1]
  have hsplit : "<p>".toList ++ escapeText s ++ "</p>".toList =
      writeStart ⟨"p", .empty⟩ ++ (s.toList.flatMap escapeTextChar ++
        (writeEnd ⟨"p", .empty⟩ ++ [])) := by
    simp [writeStart, writeEnd, escapeText, Attributes.empty]
  have hinside : (between []).tokens (s.toList.flatMap escapeTextChar ++
      (writeEnd ⟨"p", .empty⟩ ++ [])) =
        (between s.toList.reverse).pending ++ [.endTag "p"] := by
    have hread := tokens_escapeText (r := .markup) (fun c (_ : c ∈ s.toList) => Or.inl rfl) []
      (writeEnd ⟨"p", .empty⟩ ++ [])
    rw [List.append_nil s.toList.reverse] at hread
    exact hread.trans (tokens_writeEnd hspelled.name _ _)
  have htext : (between s.toList.reverse).pending = if s = "" then [] else [.text s] := by
    split
    · next hs =>
      rw [hs]
      rfl
    · next hs => exact pending_between hs
  have hsorted : Attributes.empty.sorted = .empty := Attributes.ext List.mergeSort_nil
  rw [normalizeNewlines_eq_self hreturn, hsplit]
  refine (tokens_writeStart hspelled (by simp [Attributes.empty]) [] _).trans ?_
  rw [after_paragraph _ rfl, hinside, htext, hsorted]
  rfl

/-- The value of an attribute is read as what it was before it was written. -/
theorem tokens_value {s : String} (h : '\r' ∉ s.toList) (hnull : '\x00' ∉ s.toList) :
    start.tokens (Text.normalizeNewlines ("<p a=\"".toList ++ escapeValue s ++ "\">".toList)) =
      [.startTag "p" (Attributes.empty.set "a" s) false] := by
  have hentries : (Attributes.empty.set "a" s).entries = [("a", s)] := rfl
  have hspelled : Element.IsSpelled ⟨"p", Attributes.empty.set "a" s⟩ :=
    isSpelled_paragraph (by simp [hentries])
  have hreturn : '\r' ∉ "<p a=\"".toList ++ escapeValue s ++ "\">".toList := by
    simp [escapeValue, (return_notMem_escape h).2]
  have hsplit : "<p a=\"".toList ++ escapeValue s ++ "\">".toList =
      writeStart ⟨"p", Attributes.empty.set "a" s⟩ ++ [] := by
    simp [writeStart, writeAttribute, hentries]
  have hsorted : (Attributes.empty.set "a" s).sorted = Attributes.empty.set "a" s :=
    Attributes.ext (List.mergeSort_singleton _)
  rw [normalizeNewlines_eq_self hreturn, hsplit]
  refine (tokens_writeStart hspelled (by simpa [hentries] using hnull) [] _).trans ?_
  rw [after_paragraph _ rfl, hsorted]
  rfl

/-- Reading undoes escaping. Written text has no mark that could end it and is read as the same
text, and a written value has no quote and is read as the same value. -/
theorem tokens_escape {s : String} (h : '\r' ∉ s.toList) :
    ((∀ c ∈ ['<', '>', noBreakSpace], c ∉ escapeText s) ∧
      start.tokens (Text.normalizeNewlines ("<p>".toList ++ escapeText s ++ "</p>".toList)) =
        .startTag "p" .empty false :: (if s = "" then [] else [.text s]) ++ [.endTag "p"]) ∧
    ('\x00' ∉ s.toList →
      (∀ c ∈ ['"', noBreakSpace], c ∉ escapeValue s) ∧
      start.tokens (Text.normalizeNewlines ("<p a=\"".toList ++ escapeValue s ++ "\">".toList)) =
        [.startTag "p" (Attributes.empty.set "a" s) false]) := by
  refine ⟨⟨?_, tokens_paragraph h⟩, ?_⟩
  · intro c hc
    exact notMem_escapeText s hc
  · intro hnull
    refine ⟨?_, tokens_value h hnull⟩
    intro c hc
    exact notMem_escapeValue s hc

/-- A text that looks like markup and references. -/
theorem tokens_escape_markup :
    '\r' ∉ "&amp; <b> \"&ltx\"".toList ∧
      start.tokens (Text.normalizeNewlines
        ("<p>".toList ++ escapeText "&amp; <b> \"&ltx\"" ++ "</p>".toList)) =
          [.startTag "p" .empty false, .text "&amp; <b> \"&ltx\"", .endTag "p"] ∧
      '\x00' ∉ "&amp; <b> \"&ltx\"".toList ∧
      start.tokens (Text.normalizeNewlines
        ("<p a=\"".toList ++ escapeValue "&amp; <b> \"&ltx\"" ++ "\">".toList)) =
          [.startTag "p" (Attributes.empty.set "a" "&amp; <b> \"&ltx\"") false] := by
  have hreturn : '\r' ∉ "&amp; <b> \"&ltx\"".toList := by decide
  have hnull : '\x00' ∉ "&amp; <b> \"&ltx\"".toList := by decide
  obtain ⟨⟨-, htext⟩, hvalue⟩ := tokens_escape hreturn
  exact ⟨hreturn, htext, hnull, (hvalue hnull).2⟩

end Tokenizer

end Stencil.Html
