import Stencil.Proofs.Html.Merged
import Stencil.Proofs.Html.Pieces
namespace Stencil

open Stencil.Html

/-! # Reading what is written

The tokenizer reads the markup of a tree as the tokens of the tree. It reads text that is written
with references as itself. Text that is written as it is has to be read as itself too, and no
carriage return and no null character may be left where the tokenizer changes them.
-/

namespace Html

/-- A text that is read as itself by the given reading, up to a `<` that may open a tag. -/
def Kept (r : Reading) (s : String) : Prop :=
  ∃ t ∈ Tokenizer.silently ⟨.text, r, []⟩ (s.toList ++ ['<']),
    t.run = s.toList.reverse ∧ (t.phase = .tagOpen ∨ t.phase = .textLess)

instance (r : Reading) (s : String) : Decidable (Kept r s) :=
  inferInstanceAs (Decidable (∃ t ∈ Tokenizer.silently ⟨.text, r, []⟩ (s.toList ++ ['<']),
    t.run = s.toList.reverse ∧ (t.phase = .tagOpen ∨ t.phase = .textLess)))

/-- A text below an element of the given name is read as itself. -/
def LegibleText (name : String) (s : String) : Prop :=
  match (tagRule name).content with
  | .raw => Kept (readingOf name) s
  | .escapable => '\x00' ∉ s.toList
  | .markup => True

instance (name s : String) : Decidable (LegibleText name s) :=
  match h : (tagRule name).content with
  | .raw => decidable_of_iff (Kept (readingOf name) s) (by rw [LegibleText, h])
  | .escapable => decidable_of_iff ('\x00' ∉ s.toList) (by rw [LegibleText, h])
  | .markup => .isTrue (by rw [LegibleText, h]; trivial)

/-- Neither a text nor a value has a carriage return in it. -/
def Kind.HasNoReturn : Kind → Prop
  | .text s => '\r' ∉ s.toList
  | .element e => ∀ a ∈ e.attrs.entries, '\r' ∉ a.2.toList
  | .document | .doctype _ | .comment _ => True

instance (k : Kind) : Decidable k.HasNoReturn :=
  match k with
  | .text s => inferInstanceAs (Decidable ('\r' ∉ s.toList))
  | .element e => inferInstanceAs (Decidable (∀ a ∈ e.attrs.entries, '\r' ∉ a.2.toList))
  | .document | .doctype _ | .comment _ => .isTrue trivial

/-- The text of the lower one of two nodes, or its values, are read as themselves. -/
def Legible : Side := fun k c =>
  c.HasNoReturn ∧
    match c with
    | .text s => LegibleText k.name s
    | .element e => ∀ a ∈ e.attrs.entries, '\x00' ∉ a.2.toList
    | .document | .doctype _ | .comment _ => True

instance (k c : Kind) : Decidable (Legible k c) :=
  match c with
  | .text s => inferInstanceAs (Decidable ('\r' ∉ s.toList ∧ LegibleText k.name s))
  | .element e => inferInstanceAs (Decidable ((∀ a ∈ e.attrs.entries, '\r' ∉ a.2.toList) ∧
      ∀ a ∈ e.attrs.entries, '\x00' ∉ a.2.toList))
  | .document | .doctype _ | .comment _ => .isTrue ⟨trivial, trivial⟩

/-- What is true of every edge of a tree that is read as itself. -/
abbrev Readable : Side := fun k c => SpelledBelow k c ∧ Legible k c

/-! ## Elements that are read as text -/

/-- How an element is read agrees with how it is written. -/
theorem reading_cases (name : String) :
    (readingOf name = .markup) ∨
    (readingOf name = .script name.toList .none ∧ (tagRule name).content = .raw ∧
      Tokenizer.IsCloser name.toList) ∨
    (readingOf name = .escapable name.toList ∧ (tagRule name).content = .escapable ∧
      Tokenizer.IsCloser name.toList) := by
  unfold readingOf
  split
  · next hmem =>
    refine Or.inr (Or.inl ⟨rfl, ?_⟩)
    have hall : ∀ n ∈ ["script", "style", "xmp", "iframe", "noembed", "noframes"],
        (tagRule n).content = .raw ∧ Tokenizer.IsCloser n.toList := by
      decide +kernel
    exact hall name (List.contains_iff_mem.1 hmem)
  split
  · next hmem =>
    refine Or.inr (Or.inr ⟨rfl, ?_⟩)
    have hall : ∀ n ∈ ["textarea", "title"],
        (tagRule n).content = .escapable ∧ Tokenizer.IsCloser n.toList := by
      decide +kernel
    exact hall name (List.contains_iff_mem.1 hmem)
  · exact Or.inl rfl

/-- Text that is written as it is keeps its line feeds. -/
theorem dropsNewline_of_raw {name : String} (h : (tagRule name).content = .raw) :
    (tagRule name).dropsNewline = false := by
  have hall : ∀ r ∈ tagRules, r.2.content = .raw → r.2.dropsNewline = false := by
    decide
  rcases tagRule_cases name with hplain | hmem
  · rw [hplain]
    rfl
  · exact hall _ hmem h

/-! ## Texts -/

open Tokenizer

/-- The machine behind a text that is kept, and the `<` that follows it. -/
theorem Kept.exists_opening {r : Reading} {s : String} (h : Kept r s) (hs : '\r' ∉ s.toList) :
    ∃ p r', (∀ rest, tokens ⟨.text, r, []⟩ (s.toList ++ '<' :: rest) =
        tokens ⟨p, r', s.toList.reverse⟩ rest) ∧
      (∀ phase run, closer? ⟨phase, r', run⟩ = closer? ⟨phase, r, run⟩) ∧
      (p = .tagOpen ∧ r' = .markup ∨ p = .textLess ∧ r ≠ .markup) := by
  obtain ⟨t, ht, hrun, hphase⟩ := h
  have hcs : '\r' ∉ s.toList ++ ['<'] := by simpa using hs
  obtain ⟨hcloser, hfits⟩ := fits_silently hcs (t := ⟨.text, r, []⟩) trivial ht
  obtain ⟨p, r', run⟩ := t
  obtain rfl : run = s.toList.reverse := hrun
  refine ⟨p, r', ?_, fun _ _ => hcloser, ?_⟩
  · intro rest
    have := tokens_of_silently ht rest
    rwa [List.append_assoc] at this
  · rcases hphase with rfl | rfl
    · refine Or.inl ⟨rfl, reading_eq_markup (t := ⟨.tagOpen, r', s.toList.reverse⟩) ?_⟩
      exact hcloser.trans hfits
    · refine Or.inr ⟨rfl, ?_⟩
      rintro rfl
      exact hfits rfl

/-- A `<` before another character than a slash or an exclamation mark is text of a script. -/
theorem step_textLess_script {c : Char} (hslash : c ≠ '/') (hmark : c ≠ '!')
    (closer run : List Char) :
    step ⟨.textLess, .script closer .none, run⟩ c =
      step ⟨.text, .script closer .none, '<' :: run⟩ c := by
  simp [step, textLessStep, sayThenText, hslash, hmark]

theorem silently_script {cs : List Char} (hnull : '\x00' ∉ cs)
    (h : cs.IsChain fun c d => c = '<' → d ≠ '/' ∧ d ≠ '!') (closer run : List Char) :
    silently ⟨.text, .script closer .none, run⟩ (cs ++ ['<']) =
      some ⟨.textLess, .script closer .none, cs.reverse ++ run⟩ := by
  induction cs generalizing run with
  | nil => rfl
  | cons c cs ih =>
    rw [List.mem_cons, not_or] at hnull
    obtain ⟨hc, hcs⟩ := hnull
    obtain ⟨hnext, hchain⟩ := List.isChain_cons.1 h
    have hrest := ih hcs hchain (c :: run)
    rw [List.reverse_cons, List.append_assoc]
    refine Eq.trans ?_ hrest
    by_cases hless : c = '<'
    · subst hless
      have hstep : step ⟨.text, .script closer .none, run⟩ '<' =
          (⟨.textLess, .script closer .none, run⟩, []) := rfl
      rw [List.cons_append, silently_cons hstep]
      cases cs with
      | nil => rfl
      | cons d ds =>
        obtain ⟨hslash, hmark⟩ := hnext d rfl rfl
        rw [List.cons_append, silently, silently, step_textLess_script hslash hmark]
    · have hstep : step ⟨.text, .script closer .none, run⟩ c =
          (⟨.text, .script closer .none, c :: run⟩, []) := by
        simp [step, textStep, scriptStep, hless, sayScript, cleaned_eq_self (Ne.symm hc)]
      rw [List.cons_append, silently_cons hstep]

theorem Kept.script {s : String} (hnull : '\x00' ∉ s.toList)
    (h : s.toList.IsChain fun c d => c = '<' → d ≠ '/' ∧ d ≠ '!') (closer : List Char) :
    Kept (.script closer .none) s := by
  refine ⟨_, silently_script hnull h closer [], ?_, Or.inr rfl⟩
  exact List.append_nil _

theorem silently_markup {cs : List Char} (hless : '<' ∉ cs) (hamp : '&' ∉ cs) (run : List Char) :
    silently ⟨.text, .markup, run⟩ (cs ++ ['<']) = some ⟨.tagOpen, .markup, cs.reverse ++ run⟩ := by
  induction cs generalizing run with
  | nil => rfl
  | cons c cs ih =>
    rw [List.mem_cons, not_or] at hless hamp
    have hstep : step ⟨.text, .markup, run⟩ c = (⟨.text, .markup, c :: run⟩, []) := by
      simp [step, textStep, Ne.symm hless.1, Ne.symm hamp.1, say]
    rw [List.cons_append, silently_cons hstep, ih hless.2 hamp.2]
    simp

theorem Kept.markup {s : String} (hless : '<' ∉ s.toList) (hamp : '&' ∉ s.toList) :
    Kept .markup s := by
  refine ⟨_, silently_markup hless hamp [], ?_, Or.inl rfl⟩
  exact List.append_nil _

/-- The characters of a text do not keep it from being read as itself below an element of the given
name. Text that is written as it is has no null character and no `<` before a slash or an
exclamation mark in it, or no `<` and no `&` where it is read as markup. -/
def PlainText (name s : String) : Prop :=
  match (tagRule name).content with
  | .raw =>
    if readingOf name = .markup then '<' ∉ s.toList ∧ '&' ∉ s.toList
    else '\x00' ∉ s.toList ∧ s.toList.IsChain fun c d => c = '<' → d ≠ '/' ∧ d ≠ '!'
  | .escapable => '\x00' ∉ s.toList
  | .markup => True

theorem legibleText_of_plainText {name s : String} (h : PlainText name s) : LegibleText name s := by
  unfold PlainText at h
  unfold LegibleText
  cases hcontent : (tagRule name).content with
  | markup => trivial
  | escapable =>
    rw [hcontent] at h
    exact h
  | raw =>
    simp only [hcontent] at h
    rcases reading_cases name with hread | ⟨hread, -, -⟩ | ⟨-, hescapable, -⟩
    · rw [if_pos hread] at h
      rw [hread]
      exact Kept.markup h.1 h.2
    · rw [hread, if_neg (by simp)] at h
      rw [hread]
      exact Kept.script h.1 h.2 _
    · rw [hcontent] at hescapable
      cases hescapable

/-- The characters of the text of the lower one of two nodes, or of its values, do not keep them
from being read as themselves. -/
def Plain : Side := fun k c =>
  c.HasNoReturn ∧ (∀ s, c = .text s → PlainText k.name s) ∧
    ∀ e, c = .element e → ∀ a ∈ e.attrs.entries, '\x00' ∉ a.2.toList

theorem legible_of_plain (k c : Kind) (h : Plain k c) : Legible k c := by
  obtain ⟨hreturn, htext, hvalues⟩ := h
  refine ⟨hreturn, ?_⟩
  cases c with
  | text s => exact legibleText_of_plainText (htext s rfl)
  | element e => exact hvalues e rfl
  | document | doctype _ | comment _ => trivial

namespace Tokenizer

/-- Tokens that put out the text before them. -/
def Flushes (rest : List Char) : Prop :=
  ∀ run, (between run).tokens rest = (between run).pending ++ (between []).tokens rest

theorem flushes_nil : Flushes [] :=
  fun _ => (List.append_nil _).symm

end Tokenizer

/-! ## Up to the end tag -/

/-- What is written in an element that is read as text is read as the given text, and then comes
the `<` of the end tag. -/
def ReachesEnd (name : String) (written text : List Char) : Prop :=
  ∃ r, (∀ phase run, closer? ⟨phase, r, run⟩ = some name.toList) ∧
    ∀ rest, tokens ⟨.text, readingOf name, []⟩ (written ++ '<' :: rest) =
      tokens ⟨.textLess, r, text.reverse⟩ rest

theorem closer?_of_ne_markup {name : String} (h : readingOf name ≠ .markup) (phase : Phase)
    (run : List Char) : closer? ⟨phase, readingOf name, run⟩ = some name.toList := by
  rw [closer?_readingOf, if_neg h]

theorem reachesEnd_nil {name : String} (h : readingOf name ≠ .markup) :
    ReachesEnd name [] [] := by
  refine ⟨readingOf name, closer?_of_ne_markup h, fun rest => tokens_silent ?_ rest⟩
  rcases reading_cases name with hread | ⟨hread, -⟩ | ⟨hread, -⟩
  · exact absurd hread h
  · rw [hread]
    rfl
  · rw [hread]
    rfl

theorem Kept.reachesEnd {name s : String} (hkept : Kept (readingOf name) s)
    (h : readingOf name ≠ .markup) (hreturn : '\r' ∉ s.toList) :
    ReachesEnd name s.toList s.toList := by
  obtain ⟨p, r, htokens, hsame, hphase⟩ := hkept.exists_opening hreturn
  have hcloser : ∀ phase run, closer? ⟨phase, r, run⟩ = some name.toList := fun phase run =>
    (hsame phase run).trans (closer?_of_ne_markup h phase run)
  rcases hphase with ⟨-, rfl⟩ | ⟨rfl, -⟩
  · -- where markup is read no name ends the text
    cases hcloser .text []
  · exact ⟨r, hcloser, htokens⟩

theorem reachesEnd_escapeText {name s : String} (h : readingOf name = .escapable name.toList)
    (hnull : '\x00' ∉ s.toList) : ReachesEnd name (escapeText s) s.toList := by
  have hchars : ∀ c ∈ s.toList, ReadsReferences (readingOf name) c := by
    intro c hc
    exact Or.inr ⟨⟨_, h⟩, fun hc' => hnull (hc' ▸ hc)⟩
  refine ⟨readingOf name, closer?_of_ne_markup (by simp [h]), ?_⟩
  intro rest
  have htext := tokens_escapeText hchars [] ('<' :: rest)
  rw [List.append_nil] at htext
  rw [escapeText, htext]
  refine tokens_silent ?_ rest
  rw [h]
  rfl

/-! ## Trees -/

end Html

namespace Tree

/-! ## Trees -/

open Tokenizer

/-- What the lemma on reading the markup of a tree says: its tokens come, and the text before it and
the rest are left alone. -/
def ReadsMarkup (t : Tree Kind) : Prop :=
  ∀ {k : Kind}, Regular Readable t → k.Allows Readable t.label → t.label.isText = false →
    ∀ (raw : Bool) (run rest : List Char),
      (between run).tokens (t.markup raw ++ rest) =
        (between run).pending ++ t.inOrder.events ++ (between []).tokens rest

theorem head?_markup {t : Tree Kind} (htext : t.label.isText = false) (hdoc : t.label ≠ .document)
    (raw : Bool) (rest : List Char) : (t.markup raw ++ rest).head? = some '<' := by
  obtain ⟨k, ts⟩ := t
  cases k with
  | document => exact absurd rfl hdoc
  | text s => cases htext
  | element e =>
    rw [markup_element]
    split <;> simp [writeStart]
  | doctype name =>
    rw [markup]
    rfl
  | comment s =>
    rw [markup]
    rfl

theorem content_of_holdsRaw {k : Kind} (h : k.holdsRaw = true) :
    (tagRule k.name).content = .raw := by
  cases k with
  | element e =>
    show (tagRule e.name).content = .raw
    simpa [Kind.holdsRaw, Kind.element?] using h
  | _ => cases h

/-- A text among others is read as itself, if what follows it puts it out. -/
theorem tokens_text {k : Kind} {s : String} {us : List (Tree Kind)}
    (hk : readingOf k.name = .markup) (hlegible : Legible k (.text s)) (hne : s ≠ "")
    {rest : List Char} (hflush : Flushes rest)
    (hraw : k.holdsRaw = true → rest.head? = some '<') :
    (between []).tokens ((node (.text s) us).markup k.holdsRaw ++ rest) =
      .text s :: (between []).tokens rest := by
  have hread : (between []).tokens ((node (.text s) us).markup k.holdsRaw ++ rest) =
      (between s.toList.reverse).tokens rest := by
    rw [markup_text]
    cases hholds : k.holdsRaw with
    | false =>
      have htext :=
        tokens_escapeText (r := .markup) (fun c (_ : c ∈ s.toList) => Or.inl rfl) [] rest
      rwa [List.append_nil] at htext
    | true =>
      obtain ⟨rest', rfl⟩ : ∃ rest', rest = '<' :: rest' := by
        cases rest with
        | nil => cases hraw hholds
        | cons c rest' => exact ⟨rest', by rw [Option.some.inj (hraw hholds)]⟩
      have hkept : Kept .markup s := by
        have : LegibleText k.name s := hlegible.2
        rwa [LegibleText, content_of_holdsRaw hholds, hk] at this
      obtain ⟨p, r', htokens, -, hphase⟩ := hkept.exists_opening hlegible.1
      rcases hphase with ⟨rfl, rfl⟩ | ⟨-, hne⟩
      · exact (htokens rest').trans (tokens_silent rfl rest').symm
      · exact absurd rfl hne
  rw [hread, hflush, pending_between hne]
  rfl

/-- Trees that do not begin with a text put out the text before them. -/
theorem flushes_contents {k : Kind} {ts : List (Tree Kind)} (ih : ∀ t ∈ ts, ReadsMarkup t)
    (h : Regular Readable (node k ts)) (hfirst : ∀ t ∈ ts.head?, t.label.isText = false)
    (raw : Bool) {rest : List Char} (hflush : Flushes rest)
    (hraw : raw = true → rest.head? = some '<') :
    Flushes (ts.flatMap (markup raw) ++ rest) ∧
      (raw = true → (ts.flatMap (markup raw) ++ rest).head? = some '<') := by
  cases ts with
  | nil => exact ⟨hflush, hraw⟩
  | cons t ts =>
    obtain ⟨hnode, hregular⟩ := regular_node_iff.1 h
    have htext := hfirst t rfl
    have hallows := hnode.allows t List.mem_cons_self
    have hread := ih t List.mem_cons_self (hregular t List.mem_cons_self) hallows htext raw
    have hdoc : t.label ≠ .document := by
      intro hdoc
      have := hallows.2
      rwa [hdoc] at this
    rw [List.flatMap_cons, List.append_assoc]
    constructor
    · intro run
      rw [hread, hread]
      simp [pending, between]
    · exact fun _ => head?_markup htext hdoc raw _

/-- Trees side by side are read one after the other. -/
theorem tokens_contents {k : Kind} {ts : List (Tree Kind)} (ih : ∀ t ∈ ts, ReadsMarkup t)
    (h : Regular Readable (node k ts)) (hk : readingOf k.name = .markup) {rest : List Char}
    (hflush : Flushes rest) (hraw : k.holdsRaw = true → rest.head? = some '<') :
    (between []).tokens (ts.flatMap (markup k.holdsRaw) ++ rest) =
      (ts.flatMap fun t => t.inOrder.events) ++ (between []).tokens rest := by
  induction ts with
  | nil => rfl
  | cons t ts ihts =>
    have hrest := ihts (fun u hu => ih u (List.mem_cons_of_mem _ hu)) h.tail
    obtain ⟨hnode, hregular⟩ := regular_node_iff.1 h
    have hallows := hnode.allows t List.mem_cons_self
    rw [List.flatMap_cons, List.flatMap_cons, List.append_assoc, List.append_assoc, ← hrest]
    by_cases htext : t.label.isText = true
    · obtain ⟨l, us⟩ := t
      cases l with
      | text s =>
        -- what follows a text is none
        obtain ⟨hflush', hraw'⟩ := flushes_contents (fun u hu => ih u (List.mem_cons_of_mem _ hu))
          h.tail (fun u hu => by
            have := (List.isChain_cons.1 hnode.apart).1 u hu
            simpa [Kind.isText] using this) k.holdsRaw hflush hraw
        rw [tokens_text hk hallows.1.2 hallows.2 hflush' hraw']
        simp [inOrder, events, Kind.mapElement]
      | _ => cases htext
    · have hread := ih t List.mem_cons_self (hregular t List.mem_cons_self) hallows
        (by simpa using htext) k.holdsRaw []
      rw [hread]
      simp [pending, between]

/-! ### Elements -/

theorem newlineOf_inOrder (e : Element) (ts : List (Tree Kind)) :
    newlineOf e.inOrder (ts.map inOrder) = newlineOf e ts := by
  unfold newlineOf inOrder
  cases ts with
  | nil => rfl
  | cons t ts =>
    simp only [List.map_cons, List.head?_cons, Option.map_some, label_map]
    cases t.label <;> rfl

theorem events_inOrder_element (e : Element) (ts : List (Tree Kind)) :
    (node (.element e) ts).inOrder.events =
      if (tagRule e.name).isVoid then [.startTag e.name e.attrs.sorted false]
      else
        .startTag e.name e.attrs.sorted false ::
          prependText (newlineOf e ts) (ts.flatMap fun t => t.inOrder.events)
          ++ [.endTag e.name] := by
  have hnode : (node (.element e) ts).inOrder = node (.element e.inOrder) (ts.map inOrder) :=
    map_node ..
  rw [hnode, events, newlineOf_inOrder, List.flatMap_map]
  rfl

/-- What an element holds, with the line feed that is written before it as part of its text. -/
def withNewline (e : Element) : List (Tree Kind) → List (Tree Kind)
  | .node (.text s) us :: ts =>
    .node (.text (String.ofList (newlineOf e (.node (.text s) us :: ts) ++ s.toList))) us :: ts
  | ts => ts

theorem newlineOf_cases (e : Element) (ts : List (Tree Kind)) :
    newlineOf e ts = [] ∨ newlineOf e ts = ['\n'] ∧ (tagRule e.name).dropsNewline = true := by
  unfold newlineOf
  split
  · split
    · next h =>
      rw [Bool.and_eq_true] at h
      exact Or.inr ⟨rfl, h.1⟩
    · exact Or.inl rfl
  · exact Or.inl rfl

/-- Without a text at the front there is no line feed before it. -/
theorem newlineOf_of_not_text (e : Element) {t : Tree Kind} (ts : List (Tree Kind))
    (h : t.label.isText = false) :
    newlineOf e (t :: ts) = [] ∧ withNewline e (t :: ts) = t :: ts := by
  obtain ⟨k, us⟩ := t
  cases k with
  | text s => cases h
  | _ => exact ⟨rfl, rfl⟩

theorem flatMap_markup_withNewline (e : Element) (ts : List (Tree Kind)) (raw : Bool) :
    newlineOf e ts ++ ts.flatMap (markup raw) = (withNewline e ts).flatMap (markup raw) := by
  cases ts with
  | nil => rfl
  | cons t ts =>
    by_cases htext : t.label.isText = true
    · obtain ⟨k, us⟩ := t
      cases k with
      | text s =>
        have hescape : (newlineOf e (node (.text s) us :: ts)).flatMap escapeTextChar =
            newlineOf e (node (.text s) us :: ts) := by
          rcases newlineOf_cases e (node (.text s) us :: ts) with h | ⟨h, -⟩ <;> rw [h] <;> decide
        rw [withNewline, List.flatMap_cons, List.flatMap_cons, markup_text, markup_text,
          ← List.append_assoc]
        cases raw with
        | true => simp
        | false => simp [escapeText, hescape]
      | _ => cases htext
    · obtain ⟨hnewline, hwith⟩ := newlineOf_of_not_text e ts (by simpa using htext)
      rw [hnewline, hwith, List.nil_append]

theorem flatMap_events_withNewline (e : Element) (ts : List (Tree Kind)) :
    prependText (newlineOf e ts) (ts.flatMap fun t => t.inOrder.events) =
      (withNewline e ts).flatMap fun t => t.inOrder.events := by
  have hnil : ∀ tokens, prependText [] tokens = tokens := by
    intro tokens
    unfold prependText
    split
    · simp
    · rfl
  cases ts with
  | nil => rfl
  | cons t ts =>
    by_cases htext : t.label.isText = true
    · obtain ⟨k, us⟩ := t
      cases k with
      | text s => simp [withNewline, inOrder, Kind.mapElement, events, prependText]
      | _ => cases htext
    · obtain ⟨hnewline, hwith⟩ := newlineOf_of_not_text e ts (by simpa using htext)
      rw [hnewline, hwith, hnil]

/-- The line feed may be counted as part of the text. -/
theorem regular_withNewline {e : Element} {ts : List (Tree Kind)}
    (h : Regular Readable (node (.element e) ts)) :
    Regular Readable (node (.element e) (withNewline e ts)) := by
  cases ts with
  | nil => exact h
  | cons t ts =>
    by_cases htext : t.label.isText = true
    · obtain ⟨k, us⟩ := t
      cases k with
      | text s =>
        obtain ⟨hnode, hts⟩ := regular_node_iff.1 h
        obtain ⟨⟨-, hreturn, htextLegible⟩, hnonempty⟩ := hnode.allows _ List.mem_cons_self
        have hlegible : LegibleText e.name s := htextLegible
        have hne : s ≠ "" := hnonempty
        have hfree : '\r' ∉ s.toList := hreturn
        obtain rfl : us = [] := (hts _ List.mem_cons_self).eq_nil (Kind.not_branches_text s)
        have hnewline := newlineOf_cases e (node (.text s) [] :: ts)
        rw [withNewline]
        generalize newlineOf e (node (.text s) [] :: ts) = newline at hnewline
        have hlegible' : LegibleText e.name (String.ofList (newline ++ s.toList)) := by
          rcases hnewline with rfl | ⟨rfl, hdrops⟩
          · simpa using hlegible
          · unfold LegibleText at hlegible ⊢
            split
            · next hraw =>
              rw [dropsNewline_of_raw hraw] at hdrops
              cases hdrops
            · next hcontent =>
              rw [hcontent] at hlegible
              simpa using hlegible
            · trivial
        have hallows : (Kind.element e).Allows Readable
            (.text (String.ofList (newline ++ s.toList))) := by
          refine ⟨⟨spelledBelow_text _ _, ?_, hlegible'⟩, ?_⟩
          · show '\r' ∉ (String.ofList (newline ++ s.toList)).toList
            rcases hnewline with rfl | ⟨rfl, -⟩ <;> simpa using hfree
          · rcases hnewline with rfl | ⟨rfl, -⟩ <;> simp [hne]
        refine regular_node_iff.2 ⟨⟨?_, ?_, fun _ => hnode.branch (by simp)⟩, ?_⟩
        · exact List.isChain_cons.2 (List.isChain_cons.1 hnode.apart)
        · rw [List.forall_mem_cons]
          exact ⟨hallows, fun t ht => hnode.allows t (List.mem_cons_of_mem _ ht)⟩
        · rw [List.forall_mem_cons]
          exact ⟨regular_leaf _, fun t ht => hts t (List.mem_cons_of_mem _ ht)⟩
      | _ => cases htext
    · rw [(newlineOf_of_not_text e ts (by simpa using htext)).2]
      exact h

theorem mem_withNewline {e : Element} {ts : List (Tree Kind)} {t : Tree Kind}
    (h : t ∈ withNewline e ts) : t ∈ ts ∨ t.label.isText = true := by
  unfold withNewline at h
  split at h
  · rcases List.mem_cons.1 h with rfl | h
    · exact Or.inr rfl
    · exact Or.inl (List.mem_cons_of_mem _ h)
  · exact Or.inl h

/-- The content of an element that is read as text is no text at all, or one. -/
theorem textual_cases {k : Kind} {ts : List (Tree Kind)} (h : Regular Readable (node k ts))
    (hk : readingOf k.name ≠ .markup) :
    ts = [] ∨ ∃ s, ts = [node (.text s) []] ∧ Legible k (.text s) ∧ s ≠ "" := by
  obtain ⟨hnode, hts⟩ := regular_node_iff.1 h
  have htexts : ∀ t ∈ ts, t.label.isText = true := by
    intro t ht
    by_contra htext
    exact hk ((hnode.allows t ht).1.1.2 (by simpa using htext))
  match ts with
  | [] => exact Or.inl rfl
  | [t] =>
    have htext := htexts t List.mem_cons_self
    have hallows := hnode.allows t List.mem_cons_self
    have hregular := hts t List.mem_cons_self
    obtain ⟨l, us⟩ := t
    cases l with
    | text s =>
      obtain rfl : us = [] := hregular.eq_nil (Kind.not_branches_text s)
      exact Or.inr ⟨s, rfl, hallows.1.2, hallows.2⟩
    | _ => cases htext
  | t :: u :: ts =>
    exact absurd (And.intro (htexts t (by simp)) (htexts u (by simp)))
      (List.isChain_cons_cons.1 hnode.apart).1

/-- The content of an element that is read as text is read as one text, or none, up to the `<` of
its end tag. -/
theorem exists_reachesEnd {e : Element} {ts : List (Tree Kind)}
    (h : Regular Readable (node (.element e) ts)) (hr : readingOf e.name ≠ .markup) :
    ∃ text : List Char, ReachesEnd e.name (ts.flatMap (markup (Kind.element e).holdsRaw)) text ∧
      (between text.reverse).pending = ts.flatMap fun t => t.inOrder.events := by
  rcases textual_cases h hr with rfl | ⟨s, rfl, ⟨hreturn, hlegible⟩, hne⟩
  · exact ⟨[], reachesEnd_nil hr, rfl⟩
  have hlegible : LegibleText e.name s := hlegible
  refine ⟨s.toList, ?_, ?_⟩
  · rw [List.flatMap_cons, List.flatMap_nil, List.append_nil, markup_text]
    unfold LegibleText at hlegible
    rcases reading_cases e.name with hread | ⟨hread, hcontent, -⟩ | ⟨hread, hcontent, -⟩
    · exact absurd hread hr
    · have hraw : (Kind.element e).holdsRaw = true := by
        simp [Kind.holdsRaw, Kind.element?, hcontent]
      rw [hcontent] at hlegible
      rw [hraw, if_pos rfl]
      exact hlegible.reachesEnd hr hreturn
    · have hraw : (Kind.element e).holdsRaw = false := by
        simp [Kind.holdsRaw, Kind.element?, hcontent]
      rw [hcontent] at hlegible
      rw [hraw, if_neg (by simp)]
      exact reachesEnd_escapeText hread hlegible
  · rw [pending_between hne]
    simp [inOrder, Kind.mapElement, events]

/-- The content of an element and its end tag are read as themselves. -/
theorem tokens_inside {e : Element} {ts : List (Tree Kind)} (ih : ∀ t ∈ ts, ReadsMarkup t)
    (h : Regular Readable (node (.element e) ts)) (hname : IsTagName e.name.toList)
    (rest : List Char) :
    tokens ⟨.text, readingOf e.name, []⟩
        (ts.flatMap (markup (Kind.element e).holdsRaw) ++ (writeEnd e ++ rest)) =
      (ts.flatMap fun t => t.inOrder.events) ++ .endTag e.name :: (between []).tokens rest := by
  by_cases hr : readingOf e.name = .markup
  · have hend : ∀ run, (between run).tokens (writeEnd e ++ rest) =
        (between run).pending ++ .endTag e.name :: (between []).tokens rest := fun run =>
      tokens_writeEnd hname run rest
    have hflush : Flushes (writeEnd e ++ rest) := by
      intro run
      rw [hend, hend]
      rfl
    have hcontents := tokens_contents ih h hr hflush (fun _ => rfl)
    rw [hend []] at hcontents
    rw [hr]
    exact hcontents
  · obtain ⟨text, ⟨r, hcloser, htokens⟩, hpending⟩ := exists_reachesEnd h hr
    have hletters : IsCloser e.name.toList := by
      rcases reading_cases e.name with hread | ⟨-, -, hletters⟩ | ⟨-, -, hletters⟩
      · exact absurd hread hr
      · exact hletters
      · exact hletters
    have hend : writeEnd e ++ rest = '<' :: '/' :: (e.name.toList ++ '>' :: rest) := by
      simp [writeEnd]
    rw [hend, htokens, tokens_closer hletters hcloser, hpending, String.ofList_toList]

/-- The markup of a tree is read as the tokens of the tree. -/
theorem readsMarkup (t : Tree Kind) : t.ReadsMarkup := by
  induction t with
  | node l ts ih =>
    intro k hregular hallows htext raw run rest
    obtain ⟨⟨⟨hspelled, -⟩, hlegible⟩, hallowed⟩ := hallows
    cases l with
    | document => exact False.elim hallowed
    | text s => cases htext
    | comment s =>
      rw [markup, tokens_writeComment hspelled, List.append_assoc]
      simp [inOrder, Kind.mapElement, events]
    | doctype name =>
      rw [markup, tokens_writeDoctype hspelled, List.append_assoc]
      simp [inOrder, Kind.mapElement, events]
    | element e =>
      have hspelled : e.IsSpelled := hspelled
      have hstart := fun rest => tokens_writeStart hspelled hlegible.2 run rest
      rw [markup_element, events_inOrder_element]
      by_cases hvoid : (tagRule e.name).isVoid = true
      · rw [if_pos hvoid, if_pos hvoid, hstart, List.append_assoc]
        simp [after, Builder.staysOpen, hvoid]
      · rw [if_neg hvoid, if_neg hvoid]
        -- the line feed that is written for the reader counts as text of the element
        have hwith : ∀ t ∈ withNewline e ts, ReadsMarkup t := by
          intro t ht
          rcases mem_withNewline ht with ht | htext
          · exact ih t ht
          · intro k _ _ hnot
            rw [htext] at hnot
            cases hnot
        have hinside := tokens_inside hwith (regular_withNewline hregular) hspelled.name rest
        rw [← flatMap_markup_withNewline, ← flatMap_events_withNewline] at hinside
        have hafter : after (between []) (.startTag e.name e.attrs.sorted false) =
            ⟨.text, readingOf e.name, []⟩ := by
          simp [after, Builder.staysOpen, hvoid, between]
        have hsplit : writeStart e ++ newlineOf e ts ++
            ts.flatMap (markup (Kind.element e).holdsRaw) ++ writeEnd e ++ rest =
            writeStart e ++ (newlineOf e ts ++ ts.flatMap (markup (Kind.element e).holdsRaw) ++
              (writeEnd e ++ rest)) := by
          simp
        rw [hsplit, hstart, hafter, hinside]
        simp

end Tree

end Stencil
