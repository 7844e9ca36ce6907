import Mathlib.Data.List.Chain
import Stencil.Proofs.Html.TreeBuilder
namespace Stencil.Html

/-! # Regular trees

What is true of every tree that the builder makes: no text is empty or next to another text, an
element does not end at the start of what it holds, and elements without content have none. A
condition of one's own on what stands below what can be carried along. Without carriage returns in
the texts a second run of the builder makes the same tree from what is written of it.
-/

theorem Kind.isText_of_isElement {k : Kind} (h : k.isElement = true) : k.isText = false := by
  cases k <;> first | rfl | cases h

/-- A condition on a node and a node directly below it. -/
abbrev Side := Kind → Kind → Prop

/-- A node that may stand directly below the given one, where `side` is a further condition. -/
def Kind.Allows (side : Side) (k c : Kind) : Prop :=
  side k c ∧
    match c with
    | .document => False
    | .text s => s ≠ ""
    | .element e => (tagRule k.name).isClosedBy e.name = false
    | .doctype _ | .comment _ => True

/-- No text has a carriage return in it. -/
def TextsHaveNoReturn : Side := fun _ c =>
  match c with
  | .text s => '\r' ∉ s.toList
  | _ => True

/-- The condition is true of a text if it is true of its two parts. -/
def Side.Joins (side : Side) : Prop :=
  ∀ {k : Kind} {a b : String}, side k (.text a) → side k (.text b) → side k (.text (a ++ b))

theorem textsHaveNoReturn_joins : Side.Joins TextsHaveNoReturn := by
  intro k a b ha hb
  simp only [TextsHaveNoReturn, String.toList_append, List.mem_append, not_or]
  exact ⟨ha, hb⟩

/-- A node that may have something inside. -/
def Kind.Branches (k : Kind) : Prop :=
  k = .document ∨ (k.isElement = true ∧ (tagRule k.name).isVoid = false)

theorem Kind.not_branches_of_not_element {k : Kind} (hd : k ≠ .document)
    (hk : k.isElement = false) : ¬ k.Branches := by
  rintro (h | ⟨h, -⟩)
  · exact hd h
  · rw [hk] at h
    cases h

theorem Kind.not_branches_text (s : String) : ¬ (Kind.text s).Branches :=
  not_branches_of_not_element nofun rfl

/-- No text is next to another one. -/
def TextsApart (ts : List (Tree Kind)) : Prop :=
  ts.IsChain fun t u => ¬ (t.label.isText = true ∧ u.label.isText = true)

/-- A node with these trees directly below it is regular. -/
structure RegularNode (side : Side) (k : Kind) (ts : List (Tree Kind)) : Prop where
  apart : TextsApart ts
  allows : ∀ t ∈ ts, k.Allows side t.label
  branch : ts ≠ [] → k.Branches

/-- All nodes of the tree are regular. -/
def Regular (side : Side) (t : Tree Kind) : Prop :=
  ∀ u ∈ t.subtrees, RegularNode side u.label u.children

variable {side : Side}

theorem regular_node_iff {k : Kind} {ts : List (Tree Kind)} :
    Regular side (.node k ts) ↔ RegularNode side k ts ∧ ∀ t ∈ ts, Regular side t := by
  simp only [Regular, Tree.subtrees_node, List.forall_mem_cons, Tree.label_node,
    Tree.children_node, List.mem_flatMap]
  refine and_congr_right ?_
  intro _
  constructor
  · intro h t ht u hu
    exact h u ⟨t, ht, hu⟩
  · rintro h u ⟨t, ht, hu⟩
    exact h t ht u hu

theorem Regular.mono {side' : Side} (h : ∀ k c, side k c → side' k c) {t : Tree Kind}
    (ht : Regular side t) : Regular side' t := by
  intro u hu
  obtain ⟨hapart, hallows, hbranch⟩ := ht u hu
  exact ⟨hapart, fun v hv => ⟨h _ _ (hallows v hv).1, (hallows v hv).2⟩, hbranch⟩

theorem regularNode_nil (side : Side) (k : Kind) : RegularNode side k [] :=
  ⟨.nil, by simp, fun h => absurd rfl h⟩

theorem regular_leaf (k : Kind) : Regular side (.node k []) :=
  regular_node_iff.2 ⟨regularNode_nil side k, by simp⟩

/-- Nothing is inside of a node that must not have anything. -/
theorem Regular.eq_nil {k : Kind} {ts : List (Tree Kind)} (h : Regular side (.node k ts))
    (hk : ¬ k.Branches) : ts = [] := by
  by_contra hne
  exact hk ((regular_node_iff.1 h).1.branch hne)

/-- One tree less below a regular node. -/
theorem Regular.tail {k : Kind} {t : Tree Kind} {ts : List (Tree Kind)}
    (h : Regular side (.node k (t :: ts))) : Regular side (.node k ts) := by
  obtain ⟨hnode, hts⟩ := regular_node_iff.1 h
  refine regular_node_iff.2 ⟨⟨?_, ?_, fun _ => hnode.branch (by simp)⟩, ?_⟩
  · exact (List.isChain_cons.1 hnode.apart).2
  · intro u hu
    exact hnode.allows u (List.mem_cons_of_mem _ hu)
  · intro u hu
    exact hts u (List.mem_cons_of_mem _ hu)

/-- One more tree below a regular node. -/
theorem Regular.concat {k : Kind} {ts : List (Tree Kind)} {t : Tree Kind}
    (h : Regular side (.node k ts)) (hk : k.Branches) (ht : Regular side t)
    (hallows : k.Allows side t.label)
    (hlast : t.label.isText = true → ∀ u ∈ ts.getLast?, u.label.isText = false) :
    Regular side (.node k (ts ++ [t])) := by
  obtain ⟨hnode, hts⟩ := regular_node_iff.1 h
  refine regular_node_iff.2 ⟨⟨?_, ?_, fun _ => hk⟩, ?_⟩
  · refine List.isChain_append.2 ⟨hnode.apart, List.isChain_singleton t, ?_⟩
    rintro u hu v hv ⟨hut, hvt⟩
    obtain rfl : t = v := by simpa using hv
    rw [hlast hvt u hu] at hut
    cases hut
  · intro u hu
    rcases List.mem_append.1 hu with hu | hu
    · exact hnode.allows u hu
    · rw [List.mem_singleton.1 hu]
      exact hallows
  · intro u hu
    rcases List.mem_append.1 hu with hu | hu
    · exact hts u hu
    · rw [List.mem_singleton.1 hu]
      exact ht

/-- The last text below a regular node may be changed for another text. -/
theorem Regular.replaceText {k : Kind} {ts us : List (Tree Kind)} {old text : String}
    (h : Regular side (.node k (ts ++ [.node (.text old) us])))
    (hallows : k.Allows side (.text text)) :
    us = [] ∧ Regular side (.node k (ts ++ [.node (.text text) us])) := by
  obtain ⟨hnode, hts⟩ := regular_node_iff.1 h
  obtain rfl : us = [] := (hts _ (by simp)).eq_nil (Kind.not_branches_text old)
  obtain ⟨hchain, -, hlast⟩ := List.isChain_append.1 hnode.apart
  have hbefore : Regular side (.node k ts) := by
    refine regular_node_iff.2 ⟨⟨hchain, ?_, fun _ => hnode.branch (by simp)⟩, ?_⟩
    · intro u hu
      exact hnode.allows u (List.mem_append_left _ hu)
    · intro u hu
      exact hts u (List.mem_append_left _ hu)
  refine ⟨rfl, hbefore.concat (hnode.branch (by simp)) (regular_leaf _) hallows ?_⟩
  intro _ u hu
  simpa [Kind.isText] using hlast u hu _ rfl

namespace TreeBuilder

/-! ## The machine makes regular trees -/

/-- The kind of the innermost open node. -/
def container (g : Growing Kind) : Kind :=
  (g.opened.map Prod.fst).head?.getD .document

/-- What is finished inside of the open nodes is regular, and they may stay open. -/
def RegularOpen (side : Side) (top : List (Tree Kind)) : List (Kind × List (Tree Kind)) → Prop
  | [] => Regular side (.node .document top)
  | (k, ts) :: rest =>
    Regular side (.node k ts) ∧ (k.isElement = true ∧ (tagRule k.name).isVoid = false) ∧
      (container ⟨top, rest⟩).Allows side k ∧ RegularOpen side top rest

/-- A growing tree that is regular as far as it is finished. -/
def RegularGrowing (side : Side) (g : Growing Kind) : Prop :=
  RegularOpen side g.top g.opened

namespace RegularGrowing

variable {g : Growing Kind}

theorem content (h : RegularGrowing side g) : Regular side (.node (container g) g.content) := by
  obtain ⟨top, opened⟩ := g
  cases opened with
  | nil => exact h
  | cons o rest => exact h.1

theorem branches (h : RegularGrowing side g) : (container g).Branches := by
  obtain ⟨top, opened⟩ := g
  cases opened with
  | nil => exact Or.inl rfl
  | cons o rest => exact Or.inr h.2.1

theorem change (h : RegularGrowing side g) {f : List (Tree Kind) → List (Tree Kind)}
    (hf : Regular side (.node (container g) (f g.content))) : RegularGrowing side (g.change f) := by
  obtain ⟨top, opened⟩ := g
  cases opened with
  | nil => exact hf
  | cons o rest => exact ⟨hf, h.2⟩

theorem add (h : RegularGrowing side g) {t : Tree Kind} (ht : Regular side t)
    (hallows : (container g).Allows side t.label)
    (hlast : t.label.isText = true → ∀ u ∈ g.content.getLast?, u.label.isText = false) :
    RegularGrowing side (g.add t) :=
  h.change (h.content.concat h.branches ht hallows hlast)

theorem push (h : RegularGrowing side g) {k : Kind}
    (hk : k.isElement = true ∧ (tagRule k.name).isVoid = false)
    (hallows : (container g).Allows side k) : RegularGrowing side (g.push k) :=
  ⟨regular_leaf k, hk, hallows, h⟩

theorem close (h : RegularGrowing side g) : RegularGrowing side g.close := by
  obtain ⟨top, opened⟩ := g
  cases opened with
  | nil => exact h
  | cons o rest =>
    obtain ⟨hts, hk, hallows, hrest⟩ := h
    refine add (g := ⟨top, rest⟩) hrest hts hallows ?_
    intro ht
    have hnot : o.1.isText = false := Kind.isText_of_isElement hk.1
    rw [Tree.label_node, hnot] at ht
    cases ht

theorem closeMany (h : RegularGrowing side g) (n : Nat) :
    RegularGrowing side (Growing.closeMany n g) := by
  induction n generalizing g with
  | zero => exact h
  | succ n ih => exact ih h.close

/-- Behind the elements that end at the start of an element is one that does not. -/
theorem container_closeMany (g : Growing Kind) (name : String) :
    (tagRule (container (Growing.closeMany (closedCount g name) g)).name).isClosedBy name =
      false := by
  have hplain : (tagRule (Kind.document).name).isClosedBy name = false := by
    have hrule : tagRule "" = .plain := by decide +kernel
    simp [Kind.name, Kind.element?, hrule, TagRule.isClosedBy, TagRule.plain]
  unfold container
  rw [Growing.opened_closeMany, closedCount]
  induction g.opened with
  | nil => exact hplain
  | cons o rest ih =>
    rw [List.takeWhile_cons]
    split
    · exact ih
    · next ho => simpa using ho

/-- What the next token makes stands where the condition lets it stand. -/
def Takes (side : Side) (g : Growing Kind) : Token → Prop
  | .startTag name attrs _ =>
    side (container (Growing.closeMany (closedCount g name) g)) (.element ⟨name, attrs⟩)
  | .endTag _ => True
  -- the text may lose the end of a line
  | .text s => ∀ kept : String, (∀ c ∈ kept.toList, c ∈ s.toList) → side (container g) (.text kept)
  | .comment s => side (container g) (.comment s)
  | .doctype name => side (container g) (.doctype name)

theorem startTag {b : TreeBuilder} (h : RegularGrowing side b.tree) {e : Element}
    {selfClosing : Bool} (htakes : Takes side b.tree (.startTag e.name e.attrs selfClosing)) :
    RegularGrowing side (b.startTag e selfClosing).tree := by
  have hclosed := h.closeMany (closedCount b.tree e.name)
  have hallows : (container (Growing.closeMany (closedCount b.tree e.name) b.tree)).Allows side
      (.element e) := ⟨htakes, container_closeMany b.tree e.name⟩
  unfold TreeBuilder.startTag
  simp only
  split
  · next hopen =>
    refine hclosed.push ⟨rfl, ?_⟩ hallows
    simp only [Builder.staysOpen, Bool.not_eq_true', Bool.or_eq_false_iff] at hopen
    exact hopen.2
  · exact hclosed.add (regular_leaf _) hallows nofun

theorem endTag {b : TreeBuilder} (h : RegularGrowing side b.tree) (name : String) :
    RegularGrowing side (b.endTag name).tree := by
  unfold TreeBuilder.endTag
  split
  · exact h
  · split
    · exact h.closeMany _
    · exact h

theorem withText (hjoins : side.Joins) (h : RegularGrowing side g) {text : String}
    (htext : side (container g) (.text text)) :
    RegularGrowing side (g.change (TreeBuilder.withText text)) := by
  by_cases hempty : text = ""
  · subst hempty
    rwa [Growing.change_eq_self (withText_empty _)]
  refine h.change ?_
  have hcontent := h.content
  -- without a text at the end of the content the text is one more node
  have hnew (hlast : ∀ u ∈ g.content.getLast?, u.label.isText = false) :
      Regular side (.node (container g) (TreeBuilder.withText text g.content)) := by
    rw [withText_append hempty hlast]
    exact hcontent.concat h.branches (regular_leaf _) ⟨htext, hempty⟩ fun _ => hlast
  rcases List.eq_nil_or_concat g.content with hnil | ⟨ts, u, hlast⟩
  · exact hnew (by simp [hnil])
  rw [List.concat_eq_append] at hlast
  by_cases hu : u.label.isText = true
  · obtain ⟨k, us⟩ := u
    cases k with
    | text old =>
      rw [hlast] at hcontent ⊢
      rw [withText_text hempty]
      have hold : (container g).Allows side (.text old) :=
        (regular_node_iff.1 hcontent).1.allows (.node (.text old) us) (by simp)
      refine (hcontent.replaceText ⟨hjoins hold.1 htext, ?_⟩).2
      simp [hold.2]
    | _ => cases hu
  · exact hnew (by simpa [hlast] using hu)

/-- Dropping the end of a line brings no new characters. -/
theorem mem_dropNewline {c : Char} {cs : List Char} (h : c ∈ Text.dropNewline cs) : c ∈ cs := by
  unfold Text.dropNewline at h
  split at h
  · simp [h]
  · simp [h]
  · exact h

theorem feed (hjoins : side.Joins) {b : TreeBuilder} (h : RegularGrowing side b.tree)
    {token : Token} (htakes : Takes side b.tree token) :
    RegularGrowing side (b.feed token).tree := by
  cases token with
  | startTag name attrs selfClosing => exact h.startTag (e := ⟨name, attrs⟩) htakes
  | endTag name => exact h.endTag name
  | text s =>
    refine h.withText hjoins (htakes _ ?_)
    intro c hc
    split at hc
    · rw [String.toList_ofList] at hc
      exact mem_dropNewline hc
    · exact hc
  | comment s => exact h.add (regular_leaf _) ⟨htakes, trivial⟩ nofun
  | doctype name => exact h.add (regular_leaf _) ⟨htakes, trivial⟩ nofun

end RegularGrowing

/-- Whatever keeps a growing tree regular to the end of the tokens makes a regular tree. -/
theorem regular_of_foldl {tokens : List Token}
    (h : RegularGrowing side (tokens.foldl feed start).tree) :
    Regular side (.node .document (build tokens).tree.top) := by
  have hfinish : RegularGrowing side (build tokens).tree := h.closeMany _
  unfold RegularGrowing at hfinish
  rwa [build, opened_finish] at hfinish

/-- Without carriage returns in the texts the machine makes a regular tree. -/
theorem regular_build {tokens : List Token}
    (htext : ∀ s, .text s ∈ tokens → '\r' ∉ s.toList) :
    Regular TextsHaveNoReturn (.node .document (build tokens).tree.top) := by
  refine regular_of_foldl ?_
  refine List.foldlRecOn
    (motive := fun b : TreeBuilder => RegularGrowing TextsHaveNoReturn b.tree) tokens _
    (regular_leaf .document) ?_
  intro b hb token htoken
  refine hb.feed textsHaveNoReturn_joins ?_
  cases token with
  | text s =>
    intro kept hkept hcr
    exact htext s htoken (hkept _ hcr)
  | _ => exact trivial

end TreeBuilder

end Stencil.Html
