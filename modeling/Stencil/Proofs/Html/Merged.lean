import Stencil.Proofs.Directive.RenderedTree
import Stencil.Proofs.Html.Events
namespace Stencil

open Stencil.Html

/-! # Markup of trees

What the writer writes, without a store. Texts side by side are written like one text, and nothing
is written of what is inside of an element without content, so both may be cleared away first.
-/

/-- The element with its attributes in the order of their names. -/
def Html.Element.inOrder (e : Element) : Element :=
  { e with attrs := e.attrs.sorted }

/-- Whether the text directly below a node is written as it is. -/
def Html.Kind.holdsRaw (k : Kind) : Bool :=
  k.element?.any fun e => (tagRule e.name).content == .raw

namespace Tree

/-- The markup of a tree below a node that holds its text raw, or does not. -/
def markup (raw : Bool) : Tree Kind → List Char
  | .node .document ts => ts.flatMap (markup false)
  | .node (.doctype name) _ => writeDoctype name
  | .node (.text s) _ => if raw then s.toList else escapeText s
  | .node (.comment s) _ => writeComment s
  | .node (.element e) ts =>
    if (tagRule e.name).isVoid then writeStart e
    else
      writeStart e ++ newlineOf e ts ++ ts.flatMap (markup ((tagRule e.name).content == .raw))
        ++ writeEnd e

/-- A tree before others. A text goes into the first of them if that is a text. -/
def glue : Tree Kind → List (Tree Kind) → List (Tree Kind)
  | .node (.text s) us, .node (.text s') _ :: ts => .node (.text (s ++ s')) us :: ts
  | t, ts => t :: ts

/-- Trees with all texts side by side made one. -/
def mergeTexts (ts : List (Tree Kind)) : List (Tree Kind) :=
  ts.foldr glue []

/-- The tree with all texts side by side made one and without what is inside of elements without
content. -/
def merged : Tree Kind → Tree Kind
  | .node k ts => .node k (if (tagRule k.name).isVoid then [] else mergeTexts (ts.map merged))

theorem merged_node (k : Kind) (ts : List (Tree Kind)) :
    (node k ts).merged =
      .node k (if (tagRule k.name).isVoid then [] else mergeTexts (ts.map merged)) := by
  rw [merged]

@[simp] theorem label_merged (t : Tree Kind) : t.merged.label = t.label := by
  cases t
  rw [merged_node]
  rfl

/-- The tree with the attributes of every element in the order of their names. -/
def inOrder (t : Tree Kind) : Tree Kind :=
  t.map (Kind.mapElement Element.inOrder)

end Tree

/-! ## The writer -/

namespace Html.Document

variable {d : Document}

theorem Holds.holdsRawText_eq {parent : Option NodeId} {s : Spot} {ts : List (Tree Spot)}
    (h : d.Holds parent (.node s ts)) : d.holdsRawText s.id = s.kind.holdsRaw := by
  unfold holdsRawText element?
  rw [kind?_eq h.here]
  rfl

/-- The writer writes the markup of the tree that the store holds. -/
theorem Holds.writeLevels_eq {parent : Option NodeId} {t : Tree Spot} (h : d.Holds parent t) :
    ∀ {n : Nat}, t.ids.length ≤ n →
      d.writeLevels n t.id = t.kinds.markup (parent.any d.holdsRawText) := by
  induction h with
  | @node parent s ts here inside ih =>
    intro n hn
    have hnode : d.Holds parent (.node s ts) := .node here inside
    rw [Tree.ids_node, List.length_cons] at hn
    cases n with
    | zero => exact absurd hn (Nat.not_succ_le_zero _)
    | succ n =>
      have hbelow : (ts.map Tree.id).flatMap (d.writeLevels n) =
          (ts.map Tree.kinds).flatMap (Tree.markup s.kind.holdsRaw) := by
        rw [List.flatMap_map, List.flatMap_map]
        refine List.flatMap_congr ?_
        intro t ht
        have hsub := Tree.length_ids_le_of_mem ht
        rw [ih t ht (hsub.trans (Nat.le_of_succ_le_succ hn)), Option.any_some,
          hnode.holdsRawText_eq]
      have hnewline := writeNewline_eq hnode
      obtain ⟨id, k⟩ := s
      rw [Tree.id_node, Tree.kinds_node, writeLevels, kind?_eq here]
      cases k with
      | element e =>
        simp only [children_eq here, hbelow, hnewline, Tree.markup]
        rfl
      | document =>
        simp only [children_eq here, hbelow, Tree.markup]
        rfl
      | text s => simp only [writeText, parent?_eq here, Tree.markup]
      | doctype name => simp only [Tree.markup]
      | comment s => simp only [Tree.markup]

/-- What is written of a document is the markup of its tree. -/
theorem WellFormed.toList_serialize (hd : d.WellFormed) :
    d.serialize.toList = d.tree.markup false := by
  obtain ⟨ts, hholds, hn, htree⟩ := hd.holds_tree
  have hlevels := hholds.writeLevels_eq (hholds.length_ids_le hn)
  rw [Tree.id_node, Tree.kinds_node] at hlevels
  rw [htree, serialize, serializeNode, String.toList_ofList, hlevels, Tree.markup, Tree.markup]

end Html.Document

namespace Tree

/-! ## What merging leaves -/

theorem markup_text (raw : Bool) (s : String) (us : List (Tree Kind)) :
    (node (.text s) us).markup raw = if raw then s.toList else escapeText s := by
  rw [markup]

theorem markup_element (raw : Bool) (e : Element) (ts : List (Tree Kind)) :
    (node (.element e) ts).markup raw =
      if (tagRule e.name).isVoid then writeStart e
      else writeStart e ++ newlineOf e ts ++ ts.flatMap (markup (Kind.element e).holdsRaw)
        ++ writeEnd e := by
  rw [markup]
  rfl

/-- A text before another text goes into that, and every other tree stands by itself. -/
theorem glue_ind {motive : Tree Kind → List (Tree Kind) → List (Tree Kind) → Prop}
    (texts : ∀ s us s' us' ts, motive (.node (.text s) us) (.node (.text s') us' :: ts)
      (.node (.text (s ++ s')) us :: ts))
    (apart : ∀ t ts, (t.label.isText = true → ∀ u ∈ ts.head?, u.label.isText = false) →
      motive t ts (t :: ts)) (t : Tree Kind) (ts : List (Tree Kind)) : motive t ts (glue t ts) := by
  obtain ⟨k, us⟩ := t
  cases k with
  | text s =>
    cases ts with
    | nil => exact apart _ _ (by simp)
    | cons u ts =>
      obtain ⟨k', us'⟩ := u
      cases k' with
      | text s' => exact texts s us s' us' ts
      | _ =>
        refine apart _ _ ?_
        rintro - u hu
        rw [← Option.some.inj hu]
        rfl
  | _ => exact apart _ _ nofun

theorem flatMap_markup_mergeTexts (raw : Bool) (ts : List (Tree Kind)) :
    (mergeTexts ts).flatMap (markup raw) = ts.flatMap (markup raw) := by
  unfold mergeTexts
  induction ts with
  | nil => rfl
  | cons t ts ih =>
    rw [List.foldr_cons, List.flatMap_cons, ← ih]
    generalize ts.foldr glue [] = us
    refine glue_ind (motive := fun t us vs =>
      vs.flatMap (markup raw) = t.markup raw ++ us.flatMap (markup raw)) ?_ ?_ t us
    · intro s us s' us' ts
      simp only [List.flatMap_cons, markup_text]
      cases raw <;> simp [escapeText]
    · intro t ts _
      rw [List.flatMap_cons]

/-- What is true of every tree, and of every text made of two, is true of what they are merged
to. -/
theorem forall_mergeTexts {p : Tree Kind → Prop} {ts : List (Tree Kind)} (h : ∀ t ∈ ts, p t)
    (hjoin : ∀ s us s' us', p (.node (.text s) us) → p (.node (.text s') us') →
      p (.node (.text (s ++ s')) us)) : ∀ t ∈ mergeTexts ts, p t := by
  unfold mergeTexts
  induction ts with
  | nil => simp
  | cons t ts ih =>
    rw [List.forall_mem_cons] at h
    have hrest := ih h.2
    rw [List.foldr_cons]
    generalize ts.foldr glue [] = us at hrest
    refine glue_ind (motive := fun t us vs => p t → (∀ u ∈ us, p u) → ∀ v ∈ vs, p v) ?_ ?_ t us
      h.1 hrest
    · intro s us s' us' ts ht hts
      rw [List.forall_mem_cons] at hts
      exact List.forall_mem_cons.2 ⟨hjoin s us s' us' ht hts.1, hts.2⟩
    · intro t ts _ ht hts
      exact List.forall_mem_cons.2 ⟨ht, hts⟩

theorem textsApart_mergeTexts (ts : List (Tree Kind)) : TextsApart (mergeTexts ts) := by
  unfold mergeTexts
  induction ts with
  | nil => exact .nil
  | cons t ts ih =>
    rw [List.foldr_cons]
    generalize ts.foldr glue [] = us at ih
    refine glue_ind (motive := fun t us vs => TextsApart us → TextsApart vs) ?_ ?_ t us ih
    · intro s us s' us' ts hts
      -- the first of them is a text still
      obtain ⟨hhead, htail⟩ := List.isChain_cons.1 hts
      exact List.isChain_cons.2 ⟨hhead, htail⟩
    · intro t ts hapart hts
      refine List.isChain_cons.2 ⟨?_, hts⟩
      rintro u hu ⟨htext, hutext⟩
      rw [hapart htext u hu] at hutext
      cases hutext

/-- Merging keeps the line feed at the beginning of a text, if no text is empty. -/
theorem newlineOf_mergeTexts (e : Element) {ts : List (Tree Kind)}
    (h : ∀ t ∈ ts, t.label ≠ .text "") : newlineOf e (mergeTexts ts) = newlineOf e ts := by
  cases ts with
  | nil => rfl
  | cons t ts =>
    unfold mergeTexts
    rw [List.foldr_cons]
    generalize ts.foldr glue [] = us
    refine glue_ind (motive := fun t us vs => t.label ≠ .text "" →
      newlineOf e vs = newlineOf e (t :: ts)) ?_ ?_ t us (h t List.mem_cons_self)
    · intro s us s' us' vs hne
      have hs : s.toList ≠ [] := by
        intro hs
        refine hne ?_
        rw [label_node, String.toList_eq_nil_iff.1 hs]
      obtain ⟨c, cs, hcs⟩ := List.exists_cons_of_ne_nil hs
      simp [newlineOf, hcs]
    · intro t us _ _
      rfl

/-- Whether a line feed is written depends on labels only. -/
theorem newlineOf_congr (e : Element) {ts us : List (Tree Kind)}
    (h : ts.map label = us.map label) : newlineOf e ts = newlineOf e us := by
  unfold newlineOf
  rw [← List.head?_map, h, List.head?_map]

/-- The same is written of a merged tree. -/
theorem markup_merged {t : Tree Kind} (h : t.Edges Kind.Admits) (raw : Bool) :
    t.merged.markup raw = t.markup raw := by
  induction t generalizing raw with
  | node k ts ih =>
    rw [edges_node_iff] at h
    have hbelow : ∀ raw, (mergeTexts (ts.map merged)).flatMap (markup raw) =
        ts.flatMap (markup raw) := by
      intro raw
      rw [flatMap_markup_mergeTexts, List.flatMap_map]
      exact List.flatMap_congr fun t ht => ih t ht (h t ht).2 raw
    rw [merged_node]
    cases k with
    | element e =>
      have hname : (Kind.element e).name = e.name := rfl
      rw [hname, markup_element, markup_element]
      split
      · rfl
      · have hnewline : newlineOf e (mergeTexts (ts.map merged)) = newlineOf e ts := by
          rw [newlineOf_mergeTexts]
          · exact newlineOf_congr e (by simp [Function.comp_def])
          · intro u hu
            obtain ⟨t, ht, rfl⟩ := List.mem_map.1 hu
            rw [label_merged]
            intro hempty
            have hallows := (h t ht).1.allows.2
            rw [hempty] at hallows
            exact hallows rfl
        rw [hbelow, hnewline]
    | document =>
      have hvoid : (tagRule Kind.document.name).isVoid = false := by decide +kernel
      rw [hvoid, markup, markup]
      exact hbelow false
    | text s => rw [markup_text, markup_text]
    | doctype name => rw [markup, markup]
    | comment s => rw [markup, markup]

/-- In a merged tree no text is next to another one, and nothing is inside of an element without
content. -/
theorem apart_merged (t : Tree Kind) : ∀ u ∈ t.merged.subtrees,
    TextsApart u.children ∧ ((tagRule u.label.name).isVoid = true → u.children = []) := by
  induction t with
  | node k ts ih =>
    rw [merged_node]
    split
    · next hvoid =>
      intro u hu
      obtain rfl : u = node k [] := by simpa using hu
      exact ⟨.nil, fun _ => rfl⟩
    · next hvoid =>
      rw [subtrees_node, List.forall_mem_cons]
      refine ⟨⟨textsApart_mergeTexts _, fun h => absurd h hvoid⟩, ?_⟩
      have hall : ∀ v ∈ mergeTexts (ts.map merged), ∀ u ∈ v.subtrees,
          TextsApart u.children ∧ ((tagRule u.label.name).isVoid = true → u.children = []) := by
        refine forall_mergeTexts ?_ ?_
        · intro v hv
          obtain ⟨t, ht, rfl⟩ := List.mem_map.1 hv
          exact ih t ht
        · intro s us s' us' h _
          rw [subtrees_node, List.forall_mem_cons] at h ⊢
          exact h
      intro u hu
      obtain ⟨v, hv, huv⟩ := List.mem_flatMap.1 hu
      exact hall v hv u huv

/-- Nothing is inside of a text. -/
theorem eq_nil_of_edges_text {s : String} {us : List (Tree Kind)}
    (h : (node (.text s) us).Edges Kind.Admits) : us = [] := by
  rw [edges_node_iff] at h
  refine List.eq_nil_iff_forall_not_mem.2 ?_
  intro u hu
  rcases (h u hu).1.holder with hdoc | helement
  · cases hdoc
  · cases helement

theorem edges_merged {t : Tree Kind} (h : t.Edges Kind.Admits) :
    t.merged.Edges Kind.Admits := by
  induction t with
  | node k ts ih =>
    rw [edges_node_iff] at h
    rw [merged_node, edges_node_iff]
    split
    · simp
    · refine forall_mergeTexts ?_ ?_
      · intro u hu
        obtain ⟨t, ht, rfl⟩ := List.mem_map.1 hu
        rw [label_merged]
        exact ⟨(h t ht).1, ih t ht (h t ht).2⟩
      · rintro s us s' us' ⟨hs, hus⟩ -
        obtain rfl := eq_nil_of_edges_text hus
        refine ⟨⟨hs.holder, spelledBelow_text k _, ?_⟩, edges_node_iff.2 (by simp)⟩
        have hne : s ≠ "" := hs.allows.2
        simp [hne]

/-- A merged tree is regular, with every further condition on its edges. -/
theorem regular_merged {t : Tree Kind} (h : t.Edges Kind.Admits) {side : Side}
    (hside : t.merged.Edges side) :
    Regular (fun k c => SpelledBelow k c ∧ side k c) t.merged := by
  intro u hu
  have hedge := edges_merged h u hu
  obtain ⟨hapart, hvoid⟩ := apart_merged t u hu
  refine ⟨hapart, ?_, ?_⟩
  · intro v hv
    obtain ⟨-, hspelled, hallows⟩ := hedge v hv
    exact ⟨⟨hspelled, hside u hu v hv⟩, hallows⟩
  · intro hne
    obtain ⟨v, hv⟩ := List.exists_mem_of_ne_nil _ hne
    refine (hedge v hv).holder.imp_right fun helement => ⟨helement, ?_⟩
    cases hrule : (tagRule u.label.name).isVoid with
    | false => rfl
    | true => exact absurd (hvoid hrule) hne

/-! ## Attributes in order -/

theorem map_glue (f : Element → Element) (t : Tree Kind) (ts : List (Tree Kind)) :
    (glue t ts).map (map (Kind.mapElement f)) =
      glue (t.map (Kind.mapElement f)) (ts.map (map (Kind.mapElement f))) := by
  obtain ⟨k, us⟩ := t
  cases k with
  | text s =>
    cases ts with
    | nil => simp [glue, Kind.mapElement]
    | cons u ts =>
      obtain ⟨k', us'⟩ := u
      cases k' <;> simp [glue, Kind.mapElement]
  | _ => simp [glue, Kind.mapElement]

/-- Merging and ordering do not touch one another. -/
theorem merged_inOrder (t : Tree Kind) : t.inOrder.merged = t.merged.inOrder := by
  unfold inOrder
  induction t with
  | node k ts ih =>
    have hname : (k.mapElement Element.inOrder).name = k.name := by
      cases k <;> rfl
    rw [map_node, merged_node, merged_node, map_node, hname]
    congr 1
    split
    · rfl
    · have hmerge : ∀ us : List (Tree Kind),
          (mergeTexts us).map (map (Kind.mapElement Element.inOrder)) =
            mergeTexts (us.map (map (Kind.mapElement Element.inOrder))) := by
        intro us
        unfold mergeTexts
        induction us with
        | nil => rfl
        | cons u us ihus => rw [List.foldr_cons, map_glue, ihus, List.map_cons, List.foldr_cons]
      rw [hmerge, List.map_map, List.map_map]
      exact congrArg mergeTexts (List.map_congr_left ih)

end Tree

end Stencil
