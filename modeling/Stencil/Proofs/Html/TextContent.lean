import Stencil.Proofs.Document.TextContent
import Stencil.Proofs.Html.Events
import Stencil.Proofs.Html.LastBranch
import Stencil.Proofs.Html.Tokens
namespace Stencil

open Stencil.Html

/-! # The text of built documents

Text goes through implied ends of elements, end tags that end nothing and texts that stand there
already, and comes out in the order of the tokens. All that is lost is a newline at the start of an
element that drops one. The invariant of one token is that the text of the growing tree, read in
document order, has grown at its end by what the token leaves.
-/

namespace Html.Document

variable {d : Document}

/-- The text of a document in document order is that of its tree. -/
theorem IsLaid.textContent_eq {t : Tree Kind} (h : d.IsLaid t) :
    (d.textContent root).toList = t.text := by
  obtain ⟨u, hu, hroot, hids, hkinds⟩ := h.exists_root
  rw [textContent, String.toList_ofList, ← hroot]
  rw [hu.textLevels_eq (by rw [hids, List.length_range]), hkinds]

end Html.Document

/-! ## The text of a growing tree -/

namespace Growing

/-- The text of all that is finished, in document order: what is below an open node stands behind
what was finished before that node was opened. -/
def text (g : Growing Kind) : List Char :=
  g.opened.foldr (fun o before => before ++ o.2.flatMap Tree.text) (g.top.flatMap Tree.text)

theorem text_push (g : Growing Kind) (k : Kind) : (g.push k).text = g.text := by
  simp [text, push]

/-- What is put behind the content of the innermost open node stands behind all other text. -/
theorem text_change {g : Growing Kind} {f : List (Tree Kind) → List (Tree Kind)} {more : List Char}
    (h : (f g.content).flatMap Tree.text = g.content.flatMap Tree.text ++ more) :
    (g.change f).text = g.text ++ more := by
  obtain ⟨top, opened⟩ := g
  cases opened with
  | nil => exact h
  | cons o rest =>
    simp only [content] at h
    simp only [change, text, List.foldr_cons, h, List.append_assoc]

theorem text_add (g : Growing Kind) (t : Tree Kind) : (g.add t).text = g.text ++ t.text := by
  refine text_change ?_
  rw [List.flatMap_append, List.flatMap_singleton]

/-- Finishing an element moves no text. -/
theorem text_close {g : Growing Kind} (h : ∀ o ∈ g.opened, o.1.isElement = true) :
    g.close.text = g.text := by
  obtain ⟨top, opened⟩ := g
  cases opened with
  | nil => rfl
  | cons o rest =>
    have helement : o.1.isElement = true := h o List.mem_cons_self
    unfold close
    simp only
    rw [text_add, Tree.text_node_of_isElement helement]
    rfl

theorem isElement_close {g : Growing Kind} (h : ∀ o ∈ g.opened, o.1.isElement = true) :
    ∀ o ∈ g.close.opened, o.1.isElement = true := by
  intro o ho
  have hmem : o.1 ∈ g.close.opened.map Prod.fst := List.mem_map_of_mem ho
  rw [opened_close] at hmem
  obtain ⟨o', ho', heq⟩ := List.mem_map.1 (List.mem_of_mem_tail hmem)
  rw [← heq]
  exact h o' ho'

theorem text_closeMany {g : Growing Kind} (h : ∀ o ∈ g.opened, o.1.isElement = true) (n : Nat) :
    (closeMany n g).text = g.text := by
  induction n generalizing g with
  | zero => rfl
  | succ n ih =>
    rw [closeMany, ih (isElement_close h)]
    exact text_close h

end Growing

namespace Html

/-- What a token adds to the text of a document, where a newline at its start is dropped, or is
not. -/
def Token.kept (drops : Bool) : Token → List Char
  | .text s => if drops then Text.dropNewline s.toList else s.toList
  | .startTag _ _ _ | .endTag _ | .comment _ | .doctype _ => []

namespace TreeBuilder

/-- A text that goes into the last text adds as much as a text of its own. -/
theorem flatMap_text_withText (s : String) (ts : List (Tree Kind)) :
    (withText s ts).flatMap Tree.text = ts.flatMap Tree.text ++ s.toList := by
  by_cases hs : s = ""
  · subst hs
    simp
  rcases List.eq_nil_or_concat ts with rfl | ⟨us, u, rfl⟩
  · rw [withText_append hs (by simp)]
    simp [Tree.text]
  rw [List.concat_eq_append]
  by_cases hu : u.label.isText = true
  · obtain ⟨k, vs⟩ := u
    cases k with
    | text old =>
      rw [withText_text hs]
      simp [Tree.text]
    | _ => cases hu
  · rw [withText_append hs (by simpa using hu)]
    simp [Tree.text]

/-- One token puts what it leaves behind all text so far. -/
theorem text_feed {b : TreeBuilder} (h : ∀ o ∈ b.tree.opened, o.1.isElement = true)
    (token : Token) :
    (b.feed token).tree.text = b.tree.text ++ token.kept (dropsNewline b.tree) := by
  cases token with
  | startTag name attrs selfClosing =>
    have hclosed := Growing.text_closeMany h (closedCount b.tree name)
    unfold feed startTag
    simp only
    split
    · rw [Growing.text_push, hclosed]
      simp [Token.kept]
    · rw [Growing.text_add, hclosed]
      simp [Tree.text, Token.kept]
  | endTag name =>
    have hnothing : b.tree.text = b.tree.text ++ (Token.endTag name).kept (dropsNewline b.tree) :=
      (List.append_nil _).symm
    unfold feed endTag
    simp only
    split
    · exact hnothing
    · split
      · next n _ =>
        rw [Growing.text_closeMany h (n + 1)]
        exact hnothing
      · exact hnothing
  | text s =>
    unfold feed addText
    refine Growing.text_change ?_
    rw [flatMap_text_withText, Token.kept]
    cases dropsNewline b.tree with
    | true => simp
    | false => simp
  | comment s =>
    unfold feed
    rw [Growing.text_add]
    simp [Tree.text, Token.kept]
  | doctype name =>
    unfold feed
    rw [Growing.text_add]
    simp [Tree.text, Token.kept]

end TreeBuilder

/-! ## Where a newline is dropped -/

/-- The names of the elements that drop a newline at the start of their text. -/
def newlineNames : List String :=
  ["pre", "listing", "textarea"]

theorem dropsNewline_iff (name : String) :
    (tagRule name).dropsNewline = true ↔ Text.lowercase name ∈ newlineNames := by
  constructor
  · intro h
    have hall : ∀ r ∈ tagRules, r.2.dropsNewline = true → r.1 ∈ newlineNames := by
      decide
    rcases tagRule_cases name with hplain | hmem
    · rw [hplain] at h
      cases h
    · exact hall _ hmem h
  · intro h
    have hall : ∀ n ∈ newlineNames, ((tagRules.lookup n).getD .plain).dropsNewline = true := by
      decide
    exact hall _ h

/-- An element that drops a newline may have something inside. -/
theorem isVoid_of_dropsNewline {name : String} (h : (tagRule name).dropsNewline = true) :
    (tagRule name).isVoid = false := by
  have hall : ∀ r ∈ tagRules, r.2.dropsNewline = true → r.2.isVoid = false := by
    decide
  rcases tagRule_cases name with hplain | hmem
  · rw [hplain]
    rfl
  · exact hall _ hmem h

/-- A token that does nothing while the innermost open element is empty and drops a newline: a text
that is no more than the newline, or an end tag that ends none of the open elements. -/
def Token.IsIdle (openNames : List String) : Token → Prop
  | .text s => Text.dropNewline s.toList = []
  | .endTag name => (tagRule name).isVoid = true ∨ name ∉ openNames
  | .startTag _ _ _ | .comment _ | .doctype _ => False

namespace TreeBuilder

/-- The names of the open elements, the innermost first. -/
def openNames (g : Growing Kind) : List String :=
  g.opened.map fun o => o.1.name

/-- What has just been finished stands in the element around it. -/
theorem dropsNewline_close {g : Growing Kind} (h : g.opened ≠ []) :
    dropsNewline g.close = false := by
  obtain ⟨top, opened⟩ := g
  cases opened with
  | nil => exact absurd rfl h
  | cons o rest => exact dropsNewline_add ⟨top, rest⟩ _

theorem dropsNewline_closeMany {g : Growing Kind} {n : Nat} (h : n < g.opened.length) :
    dropsNewline (Growing.closeMany (n + 1) g) = false := by
  induction n generalizing g with
  | zero => exact dropsNewline_close (List.ne_nil_of_length_pos h)
  | succ n ih =>
    have hopened := congrArg List.length (Growing.opened_close g)
    simp only [List.length_map, List.length_tail] at hopened
    have hlt : n < g.close.opened.length := by omega
    exact ih hlt

/-- Where a newline is dropped there is no content yet. -/
theorem dropsNewline_change {g : Growing Kind} {f : List (Tree Kind) → List (Tree Kind)}
    (h : f g.content ≠ []) : dropsNewline (g.change f) = false := by
  obtain ⟨top, opened⟩ := g
  cases opened with
  | nil => rfl
  | cons o rest =>
    have hne : f o.2 ≠ [] := h
    simp [dropsNewline, Growing.change, hne]

theorem withText_ne_nil {s : String} (h : s ≠ "") (ts : List (Tree Kind)) :
    withText s ts ≠ [] := by
  unfold withText
  rw [if_neg h]
  split
  · simp
  · simp

/-- The start tag of such an element makes it the innermost open element, and it is empty. -/
theorem dropsNewline_startTag (b : TreeBuilder) {name : String} (attrs : Attributes)
    (h : (tagRule name).dropsNewline = true) :
    dropsNewline (b.feed (.startTag name attrs false)).tree = true := by
  have hopen : Builder.staysOpen name false = true := by
    simp [Builder.staysOpen, isVoid_of_dropsNewline h]
  unfold feed startTag
  simp only
  rw [if_pos hopen]
  simpa [dropsNewline, Growing.push, Kind.name, Kind.element?] using h

/-- A newline is dropped behind the start tag of an element that drops one, and behind a token that
does nothing where one is dropped already. -/
theorem dropsNewline_feed {b : TreeBuilder} {token : Token}
    (h : dropsNewline (b.feed token).tree = true) :
    (∃ name attrs, token = .startTag name attrs false ∧ (tagRule name).dropsNewline = true) ∨
      (dropsNewline b.tree = true ∧ token.IsIdle (openNames b.tree)) := by
  have hno : ∀ {x : Bool} {p : Prop}, x = false → x = true → p := by
    rintro _ _ rfl hx
    cases hx
  cases token with
  | startTag name attrs selfClosing =>
    unfold feed startTag at h
    simp only at h
    split at h
    · next hopen =>
      simp only [Builder.staysOpen, Bool.not_eq_true', Bool.or_eq_false_iff] at hopen
      obtain ⟨rfl, -⟩ := hopen
      refine Or.inl ⟨name, attrs, rfl, ?_⟩
      simpa [dropsNewline, Growing.push, Kind.name, Kind.element?] using h
    · exact hno (dropsNewline_add _ _) h
  | endTag name =>
    unfold feed endTag at h
    simp only at h
    split at h
    · next hvoid => exact Or.inr ⟨h, Or.inl hvoid⟩
    split at h
    · next n hn =>
      obtain ⟨hlt, -⟩ := List.findIdx?_eq_some_iff_getElem.1 hn
      exact hno (dropsNewline_closeMany hlt) h
    · next hnone =>
      refine Or.inr ⟨h, Or.inr ?_⟩
      intro hmem
      obtain ⟨o, ho, hname⟩ := List.mem_map.1 hmem
      have := List.findIdx?_eq_none_iff.1 hnone o ho
      simp [hname] at this
  | text s =>
    unfold feed addText at h
    simp only at h
    generalize hkept : (if dropsNewline b.tree then String.ofList (Text.dropNewline s.toList)
      else s) = kept at h
    by_cases hempty : kept = ""
    · -- nothing is left of the text, so nothing has changed
      subst hempty
      rw [Growing.change_eq_self (withText_empty _)] at h
      rw [if_pos h] at hkept
      have hnil := congrArg String.toList hkept
      rw [String.toList_ofList] at hnil
      exact Or.inr ⟨h, hnil⟩
    · exact hno (dropsNewline_change (withText_ne_nil hempty _)) h
  | comment s => exact hno (dropsNewline_add _ _) h
  | doctype name => exact hno (dropsNewline_add _ _) h

/-- A token that does nothing leaves the tree as it is. -/
theorem feed_of_isIdle {b : TreeBuilder} (hdrops : dropsNewline b.tree = true) {token : Token}
    (h : token.IsIdle (openNames b.tree)) : (b.feed token).tree = b.tree := by
  cases token with
  | text s =>
    have hkept : String.ofList (Text.dropNewline s.toList) = "" := by
      rw [show Text.dropNewline s.toList = [] from h, String.ofList_nil]
    unfold feed addText
    simp only
    rw [if_pos hdrops, hkept]
    exact Growing.change_eq_self (withText_empty _)
  | endTag name =>
    unfold feed endTag
    simp only
    split
    · rfl
    · next hvoid =>
      have hname : name ∉ openNames b.tree := h.resolve_left hvoid
      have hnone : (b.tree.opened.findIdx? fun o => o.1.name = name) = none := by
        refine List.findIdx?_eq_none_iff.2 ?_
        intro o ho
        have hne : o.1.name ≠ name := fun he => hname (he ▸ List.mem_map_of_mem ho)
        simpa using hne
      rw [hnone]
  | startTag name attrs selfClosing => exact h.elim
  | comment s => exact h.elim
  | doctype name => exact h.elim

theorem foldl_feed_of_isIdle {b : TreeBuilder} (hdrops : dropsNewline b.tree = true)
    {idle : List Token} (h : ∀ token ∈ idle, token.IsIdle (openNames b.tree)) :
    (idle.foldl feed b).tree = b.tree := by
  refine List.foldlRecOn (motive := fun b' : TreeBuilder => b'.tree = b.tree) idle feed rfl ?_
  intro b' hb' token htoken
  rw [← hb'] at hdrops
  rw [← hb']
  refine feed_of_isIdle hdrops ?_
  rw [hb']
  exact h token htoken

/-- A newline is dropped exactly where the last thing that has happened is the start of an element
that drops one. -/
theorem dropsNewline_foldl_feed_iff (tokens : List Token) :
    dropsNewline (tokens.foldl feed start).tree = true ↔
      ∃ before name attrs idle, tokens = before ++ Token.startTag name attrs false :: idle ∧
        (tagRule name).dropsNewline = true ∧
        ∀ token ∈ idle, token.IsIdle
          (openNames ((before ++ [Token.startTag name attrs false]).foldl feed start).tree) := by
  have hopened : ∀ (before : List Token) {name : String} (attrs : Attributes),
      (tagRule name).dropsNewline = true →
        dropsNewline ((before ++ [Token.startTag name attrs false]).foldl feed start).tree =
          true := by
    intro before name attrs hname
    rw [List.foldl_append]
    exact dropsNewline_startTag _ attrs hname
  constructor
  · intro h
    induction tokens using List.reverseRecOn with
    | nil => cases h
    | append_singleton tokens token ih =>
      rw [List.foldl_append, List.foldl_cons, List.foldl_nil] at h
      rcases dropsNewline_feed h with ⟨name, attrs, rfl, hname⟩ | ⟨hdrops, hidle⟩
      · exact ⟨tokens, name, attrs, [], rfl, hname, by simp⟩
      · obtain ⟨before, name, attrs, idle, rfl, hname, hall⟩ := ih hdrops
        refine ⟨before, name, attrs, idle ++ [token], by simp, hname, ?_⟩
        intro token' htoken'
        rcases List.mem_append.1 htoken' with hold | hnew
        · exact hall token' hold
        · -- the tokens before this one have done nothing either
          have hsame := foldl_feed_of_isIdle (hopened before attrs hname) hall
          rw [← List.foldl_append, List.append_assoc, List.singleton_append] at hsame
          rw [hsame] at hidle
          rw [List.mem_singleton.1 hnew]
          exact hidle
  · rintro ⟨before, name, attrs, idle, rfl, hname, hall⟩
    have hsame := foldl_feed_of_isIdle (hopened before attrs hname) hall
    rw [← List.foldl_append, List.append_assoc, List.singleton_append] at hsame
    rw [hsame]
    exact hopened before attrs hname

end TreeBuilder

/-! ## The text of what the builder makes -/

namespace Builder

/-- The names of the open elements, the innermost first. -/
def openNames (b : Builder) : List String :=
  b.openElements.map (nameOf b.document)

/-- What the tokens add to the text of a document, one after the other. -/
def keptTexts (b : Builder) : List Token → List (List Char)
  | [] => []
  | token :: rest => token.kept b.dropsNewline :: keptTexts (b.feed token) rest

/-- The last thing that has happened is the start of an element that drops a newline: behind its
start tag nothing has been put into it, and it has not been ended. -/
def EndsFresh (tokens : List Token) : Prop :=
  ∃ before name attrs idle, tokens = before ++ Token.startTag name attrs false :: idle ∧
    Text.lowercase name ∈ newlineNames ∧
    ∀ token ∈ idle, token.IsIdle
      ((before ++ [Token.startTag name attrs false]).foldl feed start).openNames

/-- The builder follows the machine through all tokens, and all that is open are elements. -/
theorem exists_follows_foldl_feed (tokens : List Token) :
    ∃ g, Follows (tokens.foldl feed start) (tokens.foldl TreeBuilder.feed .start) g :=
  follows_start.foldl_feed tokens

theorem dropsNewline_foldl_feed_iff (tokens : List Token) :
    (tokens.foldl feed start).dropsNewline = true ↔ EndsFresh tokens := by
  have hnames : ∀ tokens : List Token, (tokens.foldl feed start).openNames =
      TreeBuilder.openNames (tokens.foldl TreeBuilder.feed .start).tree := by
    intro tokens
    obtain ⟨g, hg⟩ := exists_follows_foldl_feed tokens
    exact hg.names_eq
  obtain ⟨g, hg⟩ := exists_follows_foldl_feed tokens
  rw [hg.dropsNewline_eq, TreeBuilder.dropsNewline_foldl_feed_iff, EndsFresh]
  simp only [hnames, Html.dropsNewline_iff]

end Builder

namespace TreeBuilder

/-- All tokens put what they leave behind one another. -/
theorem text_foldl_feed (tokens : List Token) : ∀ {b : Builder} {t : TreeBuilder}
    {g : Growing Spot}, Builder.Follows b t g → RegularGrowing Anywhere t.tree →
      (tokens.foldl feed t).tree.text = t.tree.text ++ (b.keptTexts tokens).flatten := by
  induction tokens with
  | nil =>
    intro b t g _ _
    exact (List.append_nil _).symm
  | cons token tokens ih =>
    intro b t g hfollows hregular
    obtain ⟨g', hfollows'⟩ := hfollows.feed token
    have helements : ∀ o ∈ t.tree.opened, o.1.isElement = true := fun o ho =>
      (hregular.opened o ho).1
    have hrest := ih hfollows' (hregular.feed_anywhere token)
    rw [List.foldl_cons, hrest, text_feed helements, hfollows.dropsNewline_eq.symm,
      List.append_assoc]
    rfl

end TreeBuilder

namespace Builder

/-- The text of a document is made of the texts of its tokens, in order and each of them whole, but
for a newline at the start of a text. That is dropped exactly where the last thing that has happened
is the start of an element that drops one. -/
theorem textContent_build (tokens : List Token) :
    ((build tokens).document.textContent Document.root).toList =
        (start.keptTexts tokens).flatten ∧
      ∀ before : List Token,
        (before.foldl feed start).dropsNewline = true ↔ EndsFresh before := by
  refine ⟨?_, dropsNewline_foldl_feed_iff⟩
  have hregular : TreeBuilder.RegularGrowing TreeBuilder.Anywhere
      (tokens.foldl TreeBuilder.feed .start).tree := TreeBuilder.regularGrowing_foldl_feed tokens
  have hall := TreeBuilder.text_foldl_feed tokens follows_start (regular_leaf .document)
  have hclosed := Growing.text_closeMany (fun o ho => (hregular.opened o ho).1)
    (tokens.foldl TreeBuilder.feed .start).tree.opened.length
  have htop : (TreeBuilder.build tokens).tree.text =
      (Tree.node Kind.document (TreeBuilder.build tokens).tree.top).text := by
    rw [Growing.text, TreeBuilder.build, TreeBuilder.opened_finish, List.foldr_nil, Tree.text]
  rw [(isLaid_build tokens).1.textContent_eq, ← htop]
  exact hclosed.trans hall

/-- Two newlines are dropped at the start of one element: the end tag between them ends nothing, so
the element is still empty when the second one comes. -/
theorem textContent_newline_twice :
    Tokenizer.start.tokens "<pre>\n</b>\nx</pre>".toList =
        [Token.startTag "pre" .empty false, .text "\n", .endTag "b", .text "\nx", .endTag "pre"] ∧
      (build [Token.startTag "pre" .empty false, .text "\n", .endTag "b", .text "\nx",
        .endTag "pre"]).document.textContent Document.root = "x" := by
  decide +kernel

end Builder

end Html

end Stencil
