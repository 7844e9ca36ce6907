import Stencil.Proofs.Html.Built
namespace Stencil.Html

/-! # Tokens of a text

The tokenizer on its own. What the builder decides about the reading of a text it decides by the
token alone, so a text has its tokens before anything is built, and a parse builds from them.
-/

namespace Tokenizer

variable {t t' : Tokenizer} {c : Char} {cs rest : List Char}

/-- The machine once one of its tokens has been taken. -/
def after (t : Tokenizer) : Token → Tokenizer
  | .startTag name _ selfClosing =>
    if Builder.staysOpen name selfClosing then { t with reading := readingOf name } else t
  | _ => t

/-- The machine after a character whose tokens have been taken. -/
def next (t : Tokenizer) (c : Char) : Tokenizer :=
  (t.step c).2.foldl after (t.step c).1

/-- The tokens of what is still to be read. -/
def tokens (t : Tokenizer) : List Char → List Token
  | [] => t.finish
  | c :: cs => (t.step c).2 ++ (t.next c).tokens cs

/-- The machine after a text that completes no token. -/
def silently (t : Tokenizer) : List Char → Option Tokenizer
  | [] => some t
  | c :: cs =>
    match t.step c with
    | (t', []) => t'.silently cs
    | (_, _ :: _) => none

theorem silently_cons (h : t.step c = (t', [])) (cs : List Char) :
    t.silently (c :: cs) = t'.silently cs := by
  rw [silently, h]

/-- A text that completes no token leaves the tokens to what follows it. -/
theorem tokens_of_silently (h : t.silently cs = some t') (rest : List Char) :
    t.tokens (cs ++ rest) = t'.tokens rest := by
  induction cs generalizing t with
  | nil => rw [List.nil_append, Option.some.inj h]
  | cons c cs ih =>
    rw [silently] at h
    split at h
    · next u hstep =>
      rw [List.cons_append, tokens, next, hstep]
      exact ih h
    · cases h

theorem tokens_silent (h : t.step c = (t', [])) (rest : List Char) :
    t.tokens (c :: rest) = t'.tokens rest := by
  rw [tokens, next, h]
  rfl

theorem isText_of_mem_pending {u : Token} (h : u ∈ t.pending) : ∃ s, u = .text s := by
  unfold pending at h
  split at h
  · cases h
  · exact ⟨_, List.mem_singleton.1 h⟩

/-- A text does not change how the rest is read. -/
theorem foldl_after_texts {texts : List Token} (h : ∀ u ∈ texts, ∃ s, u = .text s)
    (t : Tokenizer) : texts.foldl after t = t := by
  refine List.foldlRecOn (motive := fun u => u = t) texts after rfl ?_
  rintro _ rfl u hu
  obtain ⟨s, rfl⟩ := h u hu
  rfl

/-- A token that is put out comes behind the text before it. -/
theorem tokens_emit {token : Token} {reading : Reading} (h : t.step c = t.emit token reading)
    (rest : List Char) :
    t.tokens (c :: rest) =
      t.pending ++ token :: (after ⟨.text, reading, []⟩ token).tokens rest := by
  have hpending := foldl_after_texts (fun _ => isText_of_mem_pending (t := t)) ⟨.text, reading, []⟩
  rw [tokens, next, h, emit, List.foldl_append, hpending, List.append_assoc]
  rfl

end Tokenizer

namespace Parse

theorem accept_eq (p : Parse) (token : Token) :
    p.accept token = ⟨p.tokenizer.after token, p.builder.feed token⟩ := by
  cases token with
  | startTag name attrs selfClosing =>
    unfold accept Tokenizer.after
    simp only
    split <;> rfl
  | _ => rfl

theorem foldl_accept_eq (tokens : List Token) (p : Parse) :
    tokens.foldl accept p =
      ⟨tokens.foldl Tokenizer.after p.tokenizer, tokens.foldl Builder.feed p.builder⟩ := by
  induction tokens generalizing p with
  | nil => rfl
  | cons token tokens ih => rw [List.foldl_cons, ih, accept_eq, List.foldl_cons, List.foldl_cons]

/-- A parse builds from the tokens of what is still to be read. -/
theorem finish_foldl_feed (cs : List Char) (p : Parse) :
    (cs.foldl feed p).finish = ((p.tokenizer.tokens cs).foldl Builder.feed p.builder).finish := by
  induction cs generalizing p with
  | nil =>
    rw [List.foldl_nil, finish, foldl_accept_eq]
    rfl
  | cons c cs ih =>
    have hfeed : p.feed c =
        ⟨p.tokenizer.next c, (p.tokenizer.step c).2.foldl Builder.feed p.builder⟩ :=
      foldl_accept_eq _ _
    rw [List.foldl_cons, ih, hfeed, Tokenizer.tokens, List.foldl_append]

end Parse

/-- The document of a text is built from its tokens. -/
theorem document_parse (text : String) :
    (parse text).document =
      (Builder.build (Tokenizer.start.tokens (Text.normalizeNewlines text.toList))).document := by
  unfold parse
  rw [Parse.finish_foldl_feed]
  rfl

end Stencil.Html
