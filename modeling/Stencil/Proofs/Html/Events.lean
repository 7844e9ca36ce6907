import Stencil.Html.Serializer
import Stencil.Proofs.Document.Forest
import Stencil.Proofs.Html.Regular
namespace Stencil.Html

/-! # Tokens of a document

The tokens that the writer writes, in its order, and the proof that the builder makes a document
again from the tokens of what it has made.
-/

/-- Tokens with characters before their text, if they begin with a text. -/
def prependText (cs : List Char) : List Token → List Token
  | .text s :: rest => .text (String.ofList (cs ++ s.toList)) :: rest
  | tokens => tokens

namespace Document

/-- The tokens of the upper `levels` levels of a subtree. -/
def eventLevels (d : Document) : Nat → NodeId → List Token
  | 0, _ => []
  | levels + 1, id =>
    match d.kind? id with
    | none => []
    | some .document => (d.children id).flatMap (eventLevels d levels)
    | some (.doctype name) => [.doctype name]
    | some (.text s) => [.text s]
    | some (.comment s) => [.comment s]
    | some (.element e) =>
      if (tagRule e.name).isVoid then [.startTag e.name e.attrs false]
      else
        .startTag e.name e.attrs false ::
          prependText (d.writeNewline id e) ((d.children id).flatMap (eventLevels d levels))
          ++ [.endTag e.name]

/-- The tokens of the whole document. -/
def events (d : Document) : List Token :=
  d.eventLevels d.size root

end Document

end Stencil.Html

namespace Stencil.Tree

open Stencil.Html

/-- The line feed that makes up for one that is dropped when the element is read. -/
def newlineOf (e : Element) (ts : List (Tree Kind)) : List Char :=
  match ts.head?.map label with
  | some (.text s) =>
    if (tagRule e.name).dropsNewline && s.toList.head? == some '\n' then ['\n'] else []
  | _ => []

/-- The tokens of a tree. -/
def events : Tree Kind → List Token
  | .node .document ts => ts.flatMap events
  | .node (.doctype name) _ => [.doctype name]
  | .node (.text s) _ => [.text s]
  | .node (.comment s) _ => [.comment s]
  | .node (.element e) ts =>
    if (tagRule e.name).isVoid then [.startTag e.name e.attrs false]
    else
      .startTag e.name e.attrs false :: prependText (newlineOf e ts) (ts.flatMap events)
        ++ [.endTag e.name]

end Stencil.Tree

namespace Stencil.Html

/-! ## The tokens of a store and of its tree -/

namespace Document.Holds

variable {d : Document} {parent : Option NodeId}

theorem writeNewline_eq {s : Spot} {ts : List (Tree Spot)} (h : d.Holds parent (.node s ts))
    (e : Element) : d.writeNewline s.id e = Tree.newlineOf e (ts.map Tree.kinds) := by
  unfold writeNewline Tree.newlineOf
  rw [children_eq h.here]
  cases ts with
  | nil => rfl
  | cons t rest =>
    have hkind := kind?_eq (h.inside t List.mem_cons_self).top
    cases hlabel : t.label.kind <;>
      simp only [List.map_cons, List.head?_cons, Option.bind_some, Option.map_some, hkind,
        Tree.label_kinds, hlabel]

theorem eventLevels_eq {t : Tree Spot} (h : d.Holds parent t) :
    ∀ {n : Nat}, t.ids.length ≤ n → d.eventLevels n t.id = t.kinds.events := by
  induction h with
  | @node parent s ts here inside ih =>
    intro n hn
    rw [Tree.ids_node, List.length_cons] at hn
    cases n with
    | zero => exact absurd hn (Nat.not_succ_le_zero _)
    | succ n =>
      have hbelow : (ts.map Tree.id).flatMap (d.eventLevels n) =
          (ts.map Tree.kinds).flatMap Tree.events := by
        rw [List.flatMap_map, List.flatMap_map]
        refine List.flatMap_congr ?_
        intro t ht
        have hsub := Tree.length_ids_le_of_mem ht
        exact ih t ht (hsub.trans (Nat.le_of_succ_le_succ hn))
      obtain ⟨id, k⟩ := s
      rw [Tree.id_node, Tree.kinds_node, eventLevels, kind?_eq here]
      cases k with
      | element e =>
        simp only [children_eq here, hbelow, writeNewline_eq (.node here inside), Tree.events]
      | document => simp only [children_eq here, hbelow, Tree.events]
      | doctype name => simp only [Tree.events]
      | text s => simp only [Tree.events]
      | comment s => simp only [Tree.events]

end Document.Holds

/-- The tokens of a document in document order are those of its tree. -/
theorem Document.IsLaid.events_eq {d : Document} {ts : List (Tree Kind)}
    (h : d.IsLaid (.node .document ts)) : d.events = (Tree.node .document ts).events := by
  obtain ⟨u, hu, hroot, hids, hkinds⟩ := h.exists_root
  rw [events, ← hroot, hu.eventLevels_eq (by rw [hids, List.length_range]), hkinds]

/-! ## The builder reads the tokens of a regular tree -/

namespace TreeBuilder

/-- A tree that may be added next, where a text is not behind another one. -/
structure Fits (g : Growing Kind) (t : Tree Kind) : Prop where
  regular : Regular TextsHaveNoReturn t
  allows : (container g).Allows TextsHaveNoReturn t.label
  apart : t.label.isText = true → ∀ u ∈ g.content.getLast?, u.label.isText = false

theorem closedCount_eq_zero {g : Growing Kind} {name : String}
    (h : (tagRule (container g).name).isClosedBy name = false) : closedCount g name = 0 := by
  unfold closedCount
  unfold container at h
  cases hg : g.opened with
  | nil => rfl
  | cons o rest =>
    rw [hg] at h
    rw [List.takeWhile_cons_of_neg (by simpa using h), List.length_nil]

/-- A line feed that is put before a text is dropped again. -/
theorem dropNewline_prepend {cs : List Char} (h : '\r' ∉ cs) :
    Text.dropNewline ((if cs.head? == some '\n' then ['\n'] else []) ++ cs) = cs := by
  match cs with
  | [] => rfl
  | c :: rest =>
    by_cases hc : c = '\n'
    · subst hc
      rfl
    · have hcr : c ≠ '\r' := fun he => h (by simp [he])
      have hhead : ((c :: rest).head? == some '\n') = false := by simpa using hc
      rw [hhead]
      simp only [Bool.false_eq_true, if_false, List.nil_append]
      unfold Text.dropNewline
      split
      · next heq => exact absurd (List.cons.inj heq).1 hcr
      · next heq => exact absurd (List.cons.inj heq).1 hc
      · rfl

/-- A text comes back without the line feed that was put before it. -/
theorem feed_text {b : TreeBuilder} {s : String} {us : List (Tree Kind)}
    (h : Fits b.tree (.node (.text s) us)) {cs : List Char}
    (hcs : cs = if dropsNewline b.tree && s.toList.head? == some '\n' then ['\n'] else []) :
    b.feed (.text (String.ofList (cs ++ s.toList))) =
      ⟨b.tree.add (.node (.text s) us), b.errors⟩ := by
  obtain ⟨hcr, hempty⟩ := h.allows
  obtain rfl : us = [] := h.regular.eq_nil (Kind.not_branches_text s)
  have hkept : (if dropsNewline b.tree then
      String.ofList (Text.dropNewline (String.ofList (cs ++ s.toList)).toList)
      else String.ofList (cs ++ s.toList)) = s := by
    rw [hcs]
    cases dropsNewline b.tree with
    | false => simp
    | true =>
      simp only [Bool.true_and, if_true, String.toList_ofList]
      rw [dropNewline_prepend hcr, String.ofList_toList]
  have hadd : b.tree.change (withText s) = b.tree.add (.node (.text s) []) :=
    Growing.change_congr (withText_append hempty (h.apart rfl))
  unfold feed addText
  simp only
  rw [hkept, hadd]

@[simp] theorem container_add (g : Growing Kind) (t : Tree Kind) :
    container (g.add t) = container g := by
  unfold container Growing.add
  rw [Growing.opened_change]

/-- What is finished below the innermost open node, with one more tree. -/
theorem content_add (g : Growing Kind) (t : Tree Kind) : (g.add t).content = g.content ++ [t] := by
  obtain ⟨top, opened⟩ := g
  cases opened <;> rfl

theorem dropsNewline_add (g : Growing Kind) (t : Tree Kind) : dropsNewline (g.add t) = false := by
  obtain ⟨top, opened⟩ := g
  cases opened with
  | nil => rfl
  | cons o rest => simp [dropsNewline, Growing.add, Growing.change]

/-- What the lemma on the tokens of a tree says. -/
def ReadsBack (t : Tree Kind) : Prop :=
  ∀ {b : TreeBuilder}, Fits b.tree t → (t.label.isText = true → dropsNewline b.tree = false) →
    t.events.foldl feed b = ⟨b.tree.add t, b.errors⟩

/-- A tree fits behind the content if the whole is regular. -/
theorem fits_of_regular {g : Growing Kind} {t : Tree Kind} {ts : List (Tree Kind)}
    (h : Regular TextsHaveNoReturn (.node (container g) (g.content ++ t :: ts))) : Fits g t := by
  obtain ⟨hnode, hts⟩ := regular_node_iff.1 h
  obtain ⟨-, -, hlast⟩ := List.isChain_append.1 hnode.apart
  refine ⟨hts t (by simp), hnode.allows t (by simp), ?_⟩
  intro ht u hu
  exact Bool.eq_false_of_not_eq_true fun hut => hlast u hu t rfl ⟨hut, ht⟩

/-- Trees side by side are read one after the other. -/
theorem foldl_feed_flatMap {ts : List (Tree Kind)} (ih : ∀ t ∈ ts, ReadsBack t) {b : TreeBuilder}
    (hregular : Regular TextsHaveNoReturn (.node (container b.tree) (b.tree.content ++ ts)))
    (hnewline : ∀ t ∈ ts.head?, t.label.isText = true → dropsNewline b.tree = false) :
    (ts.flatMap Tree.events).foldl feed b = ⟨b.tree.change (· ++ ts), b.errors⟩ := by
  induction ts generalizing b with
  | nil =>
    rw [Growing.change_eq_self (List.append_nil _)]
    rfl
  | cons t ts ihts =>
    rw [List.flatMap_cons, List.foldl_append,
      ih t List.mem_cons_self (fits_of_regular hregular) (hnewline t rfl)]
    have hnext : Regular TextsHaveNoReturn
        (.node (container (b.tree.add t)) ((b.tree.add t).content ++ ts)) := by
      rw [container_add, content_add, List.append_assoc]
      exact hregular
    rw [ihts (fun u hu => ih u (List.mem_cons_of_mem _ hu)) hnext
      fun _ _ _ => dropsNewline_add b.tree t, Growing.add, Growing.change_change]
    simp

/-- What is no text is not written as a text. -/
theorem prependText_events {t : Tree Kind} (ht : t.label.isText = false)
    (hd : t.label ≠ .document) (cs : List Char) (tokens : List Token) :
    prependText cs (t.events ++ tokens) = t.events ++ tokens := by
  obtain ⟨k, ts⟩ := t
  cases k with
  | document => exact absurd rfl hd
  | text s => cases ht
  | element e =>
    rw [Tree.events]
    split <;> rfl
  | doctype name =>
    rw [Tree.events]
    rfl
  | comment s =>
    rw [Tree.events]
    rfl

/-- The content of an element that has just been opened. -/
theorem foldl_feed_content {e : Element} {ts : List (Tree Kind)} (ih : ∀ t ∈ ts, ReadsBack t)
    {b : TreeBuilder} (h : Regular TextsHaveNoReturn (.node (.element e) ts)) :
    (prependText (Tree.newlineOf e ts) (ts.flatMap Tree.events)).foldl feed
        ⟨b.tree.push (.element e), b.errors⟩ =
      ⟨(b.tree.push (.element e)).change (· ++ ts), b.errors⟩ := by
  cases ts with
  | nil => rfl
  | cons t ts =>
    have hfits : Fits (b.tree.push (.element e)) t := fits_of_regular h
    by_cases ht : t.label.isText = true
    · obtain ⟨k, us⟩ := t
      cases k with
      | text s =>
        have hnext : Regular TextsHaveNoReturn (.node
            (container ((b.tree.push (.element e)).add (.node (.text s) us)))
            (((b.tree.push (.element e)).add (.node (.text s) us)).content ++ ts)) := by
          rw [container_add, content_add, List.append_assoc]
          exact h
        have hread : feed ⟨b.tree.push (.element e), b.errors⟩ (.text (String.ofList
            (Tree.newlineOf e (.node (.text s) us :: ts) ++ s.toList))) =
            ⟨(b.tree.push (.element e)).add (.node (.text s) us), b.errors⟩ :=
          feed_text hfits rfl
        rw [List.flatMap_cons, Tree.events, List.singleton_append, prependText, List.foldl_cons,
          hread]
        rw [foldl_feed_flatMap (fun u hu => ih u (List.mem_cons_of_mem _ hu)) hnext
          fun _ _ _ => dropsNewline_add (b.tree.push (.element e)) _]
        rfl
      | _ => cases ht
    · have hd : t.label ≠ .document := fun hd => by
        have := hfits.allows
        rw [hd] at this
        exact this.2
      rw [List.flatMap_cons, prependText_events (Bool.eq_false_of_not_eq_true ht) hd,
        ← List.flatMap_cons]
      refine foldl_feed_flatMap ih h ?_
      intro u hu hut
      obtain rfl : t = u := by simpa using hu
      exact absurd hut ht

/-- The tokens of a tree that may be added add it. -/
theorem readsBack (t : Tree Kind) : ReadsBack t := by
  induction t with
  | node k ts ih =>
    intro b hfits hnewline
    cases k with
    | document => exact absurd hfits.allows.2 id
    | doctype name =>
      obtain rfl : ts = [] := hfits.regular.eq_nil (Kind.not_branches_of_not_element nofun rfl)
      rw [Tree.events]
      rfl
    | comment s =>
      obtain rfl : ts = [] := hfits.regular.eq_nil (Kind.not_branches_of_not_element nofun rfl)
      rw [Tree.events]
      rfl
    | text s =>
      have hread : b.feed (.text (String.ofList ([] ++ s.toList))) =
          ⟨b.tree.add (.node (.text s) ts), b.errors⟩ :=
        feed_text hfits (by rw [hnewline rfl]; rfl)
      rw [List.nil_append, String.ofList_toList] at hread
      rw [Tree.events]
      exact hread
    | element e =>
      have hcount : closedCount b.tree e.name = 0 := closedCount_eq_zero hfits.allows.2
      rw [Tree.events]
      split
      · next hvoid =>
        obtain rfl : ts = [] := hfits.regular.eq_nil (by
          rintro (h | ⟨-, h⟩)
          · cases h
          · rw [show (Kind.element e).name = e.name from rfl, hvoid] at h
            cases h)
        simp [feed, startTag, hcount, Growing.closeMany, Builder.staysOpen, hvoid]
      · next hvoid =>
        have hopen : b.feed (.startTag e.name e.attrs false) =
            ⟨b.tree.push (.element e), b.errors⟩ := by
          simp [feed, startTag, hcount, Growing.closeMany, Builder.staysOpen, hvoid]
        have hclose : feed ⟨(b.tree.push (.element e)).change (· ++ ts), b.errors⟩
            (.endTag e.name) = ⟨b.tree.add (.node (.element e) ts), b.errors⟩ := by
          simp [feed, endTag, hvoid, Growing.push, Growing.change, Growing.closeMany,
            Growing.close, Kind.name, Kind.element?, unclosed, List.findIdx?_cons]
        rw [List.cons_append, List.foldl_cons, hopen, List.foldl_append,
          foldl_feed_content ih hfits.regular]
        exact hclose

/-- The tokens of a regular tree make the tree, and no error. -/
theorem build_events {ts : List (Tree Kind)} (h : Regular TextsHaveNoReturn (.node .document ts)) :
    build (Tree.node .document ts).events = ⟨⟨ts, []⟩, #[]⟩ := by
  have hall : ((ts.flatMap Tree.events).foldl feed start) = ⟨⟨ts, []⟩, #[]⟩ :=
    foldl_feed_flatMap (fun t _ => readsBack t) h fun _ _ _ => rfl
  rw [Tree.events, build, hall]
  simp [finish, Growing.closeMany, unclosed]

end TreeBuilder

/-- The builder makes the same document again from the tokens of what it has made, and no error. -/
theorem build_events_build {tokens : List Token}
    (htext : ∀ s, .text s ∈ tokens → '\r' ∉ s.toList) :
    Builder.build (Builder.build tokens).document.events =
      ⟨(Builder.build tokens).document, [], #[]⟩ := by
  have hlaid := (isLaid_build tokens).1
  have hagain := TreeBuilder.build_events (TreeBuilder.regular_build htext)
  rw [← hlaid.events_eq] at hagain
  obtain ⟨hlaid', herrors⟩ := isLaid_build (Builder.build tokens).document.events
  rw [hagain] at hlaid' herrors
  have hdocument := hlaid'.unique hlaid
  have hopen : (Builder.build (Builder.build tokens).document.events).openElements = [] := rfl
  calc Builder.build (Builder.build tokens).document.events
      = ⟨(Builder.build (Builder.build tokens).document.events).document,
          (Builder.build (Builder.build tokens).document.events).openElements,
          (Builder.build (Builder.build tokens).document.events).errors⟩ := rfl
    _ = ⟨(Builder.build tokens).document, [], #[]⟩ := by rw [hdocument, hopen, herrors]

/-- A preformatted text that begins with a line feed, a paragraph that a block ends, and an end tag
that ends nothing. -/
def paragraphTokens : List Token :=
  [.startTag "pre" .empty false, .text "\n", .text "\n\nx", .startTag "p" .empty false, .text "y",
    .startTag "div" .empty true, .endTag "ul", .startTag "br" .empty false, .endTag "pre"]

theorem build_events_build_paragraph :
    (∀ s, .text s ∈ paragraphTokens → '\r' ∉ s.toList) ∧
      Builder.build (Builder.build paragraphTokens).document.events =
        ⟨(Builder.build paragraphTokens).document, [], #[]⟩ := by
  have htext : ∀ s, .text s ∈ paragraphTokens → '\r' ∉ s.toList := by
    intro s hs
    simp only [paragraphTokens, List.mem_cons, Token.text.injEq, reduceCtorEq, false_or,
      List.not_mem_nil, or_false] at hs
    rcases hs with rfl | rfl | rfl
    · decide
    · decide
    · decide
  exact ⟨htext, build_events_build htext⟩

end Stencil.Html
