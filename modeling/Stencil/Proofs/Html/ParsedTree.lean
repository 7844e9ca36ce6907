import Stencil.Proofs.Document.Forest
import Stencil.Proofs.Html.Regular
import Stencil.Proofs.Html.TokenOrder
namespace Stencil.Html

/-! # Trees of parsed documents

What the order of the tokens says about the tree that the builder makes of them: its nodes are
spelled, and an element that is read as text holds nothing else.
-/

/-- The lower one of two nodes is spelled, and is a text if the upper one is read as text. -/
def SpelledBelow : Side := fun k c =>
  c.IsSpelled ∧ (c.isText = false → readingOf k.name = .markup)

theorem spelledBelow_text (k : Kind) (s : String) : SpelledBelow k (.text s) :=
  ⟨trivial, nofun⟩

/-- The name that alone ends the text in an element is its own. -/
theorem closer?_readingOf (phase : Phase) (name : String) (run : List Char) :
    (⟨phase, readingOf name, run⟩ : Tokenizer).closer? =
      if readingOf name = .markup then none else some name.toList := by
  unfold Tokenizer.closer? readingOf
  split <;> rename_i hreading <;> revert hreading <;> (repeat' split) <;> simp_all

/-- What is open where this name alone ends the text: only the innermost element is read as text, if
any is. -/
def Suits (closer : Option (List Char)) (kinds : List Kind) : Prop :=
  match closer with
  | none => ∀ k ∈ kinds, readingOf k.name = .markup
  | some name =>
    ∃ k rest, kinds = k :: rest ∧ k.name = String.ofList name ∧ (tagRule k.name).isVoid = false ∧
      ∀ l ∈ rest, readingOf l.name = .markup

namespace TreeBuilder

variable {b : TreeBuilder} {closer : Option (List Char)} {token : Token}

/-- The kinds of the open nodes, the innermost first. -/
def openKinds (g : Growing Kind) : List Kind :=
  g.opened.map Prod.fst

@[simp] theorem openKinds_change (g : Growing Kind) (f : List (Tree Kind) → List (Tree Kind)) :
    openKinds (g.change f) = openKinds g :=
  Growing.opened_change g f

@[simp] theorem openKinds_add (g : Growing Kind) (t : Tree Kind) :
    openKinds (g.add t) = openKinds g :=
  Growing.opened_change g _

@[simp] theorem openKinds_push (g : Growing Kind) (k : Kind) :
    openKinds (g.push k) = k :: openKinds g := rfl

@[simp] theorem openKinds_closeMany (n : Nat) (g : Growing Kind) :
    openKinds (Growing.closeMany n g) = (openKinds g).drop n :=
  Growing.opened_closeMany n g

/-- Where elements may come, they come into an element that is read as markup. -/
theorem readingOf_container {g : Growing Kind} (h : Suits none (openKinds g)) :
    readingOf (container g).name = .markup := by
  have hkinds : container g = (openKinds g).head?.getD .document := rfl
  rw [hkinds]
  cases hopen : openKinds g with
  | nil => decide
  | cons k rest => exact h k (hopen ▸ List.mem_cons_self)

theorem suits_drop {kinds : List Kind} (h : Suits none kinds) (n : Nat) :
    Suits none (kinds.drop n) :=
  fun k hk => h k (List.mem_of_mem_drop hk)

/-- The start of an element leaves open what suits the text behind it. -/
theorem suits_startTag (h : Suits none (openKinds b.tree)) (name : String) (attrs : Attributes)
    (selfClosing : Bool) :
    Suits (Token.startTag name attrs selfClosing).closer?
      (openKinds (b.startTag ⟨name, attrs⟩ selfClosing).tree) := by
  unfold TreeBuilder.startTag Token.closer? Tokenizer.after
  simp only
  split
  · next hopen =>
    simp only [Builder.staysOpen, Bool.not_eq_true', Bool.or_eq_false_iff] at hopen
    rw [closer?_readingOf, openKinds_push, openKinds_closeMany]
    split
    · next hmarkup => exact List.forall_mem_cons.2 ⟨hmarkup, suits_drop h _⟩
    · exact ⟨_, _, rfl, (String.ofList_toList).symm, hopen.2, suits_drop h _⟩
  · rw [openKinds_add, openKinds_closeMany]
    exact suits_drop h _

/-- The end tag that alone counts ends the innermost element. -/
theorem suits_endTag {name : List Char} (h : Suits (some name) (openKinds b.tree)) :
    Suits none (openKinds (b.endTag (String.ofList name)).tree) := by
  obtain ⟨k, rest, hkinds, hname, hvoid, hrest⟩ := h
  have hfind : (b.tree.opened.findIdx? fun o => o.1.name = String.ofList name) = some 0 := by
    unfold openKinds at hkinds
    cases hopened : b.tree.opened with
    | nil =>
      rw [hopened] at hkinds
      cases hkinds
    | cons o os =>
      rw [hopened, List.map_cons, List.cons.injEq] at hkinds
      simp [List.findIdx?_cons, hkinds.1, hname]
  unfold TreeBuilder.endTag
  rw [← hname, hvoid, hname, hfind]
  simp only [Bool.false_eq_true, if_false, openKinds_closeMany, hkinds]
  exact hrest

theorem spelledBelow_joins : Side.Joins SpelledBelow :=
  fun _ _ => spelledBelow_text _ _

/-- A text may come everywhere and leaves open what is open. -/
theorem regular_text (hsuits : Suits closer (openKinds b.tree))
    (h : RegularGrowing SpelledBelow b.tree) (s : String) :
    RegularGrowing SpelledBelow (b.feed (.text s)).tree ∧
      Suits closer (openKinds (b.feed (.text s)).tree) := by
  refine ⟨h.feed spelledBelow_joins fun _ _ => spelledBelow_text _ _, ?_⟩
  show Suits closer (openKinds (b.tree.change _))
  rwa [openKinds_change]

/-- A token in order keeps the tree regular and what is open suitable. -/
theorem regular_feed (hsuits : Suits closer (openKinds b.tree))
    (h : RegularGrowing SpelledBelow b.tree) (hcomes : token.Comes closer) :
    RegularGrowing SpelledBelow (b.feed token).tree ∧
      Suits token.closer? (openKinds (b.feed token).tree) := by
  cases closer with
  | some name =>
    obtain rfl : token = .endTag (String.ofList name) := hcomes
    exact ⟨h.endTag _, suits_endTag hsuits⟩
  | none =>
    have hmarkup := readingOf_container hsuits
    cases token with
    | startTag name attrs selfClosing =>
      refine ⟨h.feed spelledBelow_joins ⟨hcomes, fun _ => ?_⟩, suits_startTag hsuits ..⟩
      refine readingOf_container ?_
      rw [openKinds_closeMany]
      exact suits_drop hsuits _
    | endTag name =>
      refine ⟨h.endTag name, ?_⟩
      show Suits none (openKinds (b.endTag name).tree)
      unfold TreeBuilder.endTag
      split
      · exact hsuits
      · split
        · rw [openKinds_closeMany]
          exact suits_drop hsuits _
        · exact hsuits
    | text s => exact regular_text hsuits h s
    | comment s =>
      refine ⟨h.feed spelledBelow_joins ⟨hcomes, fun _ => hmarkup⟩, ?_⟩
      show Suits none (openKinds (b.tree.add _))
      rwa [openKinds_add]
    | doctype name =>
      refine ⟨h.feed spelledBelow_joins ⟨hcomes, fun _ => hmarkup⟩, ?_⟩
      show Suits none (openKinds (b.tree.add _))
      rwa [openKinds_add]

/-- Tokens in order keep the tree regular. -/
theorem regular_foldl_feed {tokens : List Token} (hordered : Ordered closer tokens)
    (hsuits : Suits closer (openKinds b.tree)) (h : RegularGrowing SpelledBelow b.tree) :
    RegularGrowing SpelledBelow (tokens.foldl feed b).tree := by
  induction tokens generalizing b closer with
  | nil => exact h
  | cons token tokens ih =>
    rw [List.foldl_cons]
    cases token with
    | text s =>
      obtain ⟨hnext, hopen⟩ := regular_text hsuits h s
      exact ih hordered hopen hnext
    | _ =>
      obtain ⟨hnext, hopen⟩ := regular_feed hsuits h hordered.1
      exact ih hordered.2 hopen hnext

end TreeBuilder

/-- The tree of a document in document order. -/
theorem Document.IsLaid.tree_eq {d : Document} {t : Tree Kind} (h : d.IsLaid t) : d.tree = t := by
  obtain ⟨u, hu, hroot, hids, hkinds⟩ := h.exists_root
  have hn : u.ids.Nodup := by
    rw [hids]
    exact List.nodup_range
  rw [tree, ← hroot, hu.treeOf_eq hn, hkinds]

/-- Ends of lines are line feeds. -/
theorem return_notMem_normalizeNewlines (cs : List Char) :
    '\r' ∉ Text.normalizeNewlines cs := by
  fun_induction Text.normalizeNewlines cs <;> simp_all [eq_comm]

/-- The tree of a parsed document is regular, spelled, and texts where it is read as text. -/
theorem regular_parse (text : String) : Regular SpelledBelow (parse text).document.tree := by
  rw [document_parse, (isLaid_build _).1.tree_eq]
  have hordered : Ordered none
      (Tokenizer.start.tokens (Text.normalizeNewlines text.toList)) :=
    Tokenizer.ordered_tokens (t := .start) (return_notMem_normalizeNewlines _) trivial
  refine TreeBuilder.regular_of_foldl (TreeBuilder.regular_foldl_feed hordered ?_ ?_)
  · exact nofun
  · exact regular_leaf .document

end Stencil.Html
