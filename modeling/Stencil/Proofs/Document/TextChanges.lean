import Stencil.Proofs.Document.Extension
import Stencil.Proofs.Document.TextContent
import Stencil.Proofs.Html.Built
namespace Stencil.Html.Document

/-! # What a text edit changes

A text edit gives other children to one node, or a longer text to one of its children. The nodes of
every other subtree stay the same list, except that a subtree with the node inside has another part
where it stands. So its text is replaced in the texts of the nodes above, and all other texts are
what they were.
-/

variable {d d' : Document} {id : NodeId} {text : String} {extended : NodeId → Prop}

/-- The text of a node has become `text`. In the text of every node above it that is so at the place
where the node stands: behind the nodes of that subtree that come before it, and before those that
come behind its own. All other nodes have kept their texts, but for those that were extended. -/
structure Retexts (d d' : Document) (id : NodeId) (text : String) (extended : NodeId → Prop) :
    Prop where
  wellFormed : d'.WellFormed
  branch : d'.OnlyElementsBranch
  self : d'.textContent id = text
  others : ∀ j < d.size, ¬ Relation.ReflTransGen d.IsChild id j → ¬ extended j →
    d'.textContent j = d.textContent j
  above : ∀ a, Relation.ReflTransGen d.IsChild id a → ∃ before after,
    d.preorderOf a = before ++ d.preorderOf id ++ after ∧
      d.textContent a = d.textOf before ++ d.textContent id ++ d.textOf after ∧
      d'.textContent a = d.textOf before ++ text ++ d.textOf after

/-! ## Edits of one list of children -/

/-- The new store differs from the old one in the children of `id`, in the own texts of those of its
children that were extended, and in new nodes. -/
structure ChangesBelow (d d' : Document) (id : NodeId) (extended : NodeId → Prop) : Prop where
  wellFormed : d'.WellFormed
  branch : d'.OnlyElementsBranch
  size_le : d.size ≤ d'.size
  children_eq : ∀ q, q ≠ id → d'.children q = d.children q
  ownText_eq : ∀ j < d.size, ¬ extended j → d'.ownText j = d.ownText j
  child_of_extended : ∀ j, extended j → j ∈ d.children id

namespace ChangesBelow

variable (h : ChangesBelow d d' id extended) (hd : d.WellFormed) (hb : d.OnlyElementsBranch)

include h hd

/-- A subtree without the node inside has its old nodes. -/
theorem preorderOf_eq : ∀ {j : NodeId}, j < d.size → ¬ Relation.ReflTransGen d.IsChild id j →
    d'.preorderOf j = d.preorderOf j := by
  intro j
  -- from the leaves up: a child of such a node is not above the edited one either
  induction j using hd.wellFounded.induction with
  | h j ih =>
    intro hj hnot
    have hne : j ≠ id := by
      rintro rfl
      exact hnot .refl
    rw [h.wellFormed.preorderOf_eq (hj.trans_le h.size_le), hd.preorderOf_eq hj,
      h.children_eq j hne]
    congr 1
    refine List.flatMap_congr ?_
    intro c hc
    have hup : d.IsChild c j := (hd.parent_iff c j).2 hc
    exact ih c hup (hd.lt_size_of_child hc) fun habove => hnot (habove.tail hup)

/-- A child of the node has its old nodes below it. -/
theorem preorderOf_child {c : NodeId} (hc : c ∈ d.children id) :
    d'.preorderOf c = d.preorderOf c := by
  have hup : d.IsChild c id := (hd.parent_iff c id).2 hc
  refine h.preorderOf_eq hd (hd.lt_size_of_child hc) ?_
  intro habove
  exact hd.acyclic id (Relation.TransGen.tail' habove hup)

/-- What the node has got behind its old children comes behind its old nodes. -/
theorem preorderOf_eq_append (hid : id < d.size) {more : List NodeId}
    (hmore : d'.children id = d.children id ++ more) :
    d'.preorderOf id = d.preorderOf id ++ more.flatMap d'.preorderOf := by
  have hold : (d.children id).flatMap d'.preorderOf = (d.children id).flatMap d.preorderOf :=
    List.flatMap_congr fun c hc => h.preorderOf_child hd hc
  rw [h.wellFormed.preorderOf_eq (hid.trans_le h.size_le), hd.preorderOf_eq hid, hmore,
    List.flatMap_append, hold, List.cons_append]

/-- A subtree with the node inside has a new part where the node stands. -/
theorem exists_preorderOf_eq {a : NodeId} (ha : Relation.ReflTransGen d.IsChild id a) :
    ∃ before after, d.preorderOf a = before ++ d.preorderOf id ++ after ∧
      d'.preorderOf a = before ++ d'.preorderOf id ++ after := by
  -- on the way up from the edited node, each step puts the siblings around what is there
  induction ha with
  | refl => exact ⟨[], [], by simp, by simp⟩
  | @tail a p ha hap ih =>
    obtain ⟨before, after, hold, hnew⟩ := ih
    have hp : p < d.size := hd.parent_lt_size hap
    have hne : p ≠ id := by
      rintro rfl
      exact hd.acyclic p (Relation.TransGen.tail' ha hap)
    obtain ⟨l, r, hchildren⟩ := List.append_of_mem ((hd.parent_iff a p).1 hap)
    -- the node is below one child only, so the subtrees of the others are the old ones
    have hnodup : (l ++ a :: r).Nodup := hchildren ▸ hd.nodup p
    have hsame : ∀ c ∈ l ++ a :: r, c ≠ a → d'.preorderOf c = d.preorderOf c := by
      intro c hc hca
      have hmem : c ∈ d.children p := hchildren ▸ hc
      have hup : d.IsChild c p := (hd.parent_iff c p).2 hmem
      refine h.preorderOf_eq hd (hd.lt_size_of_child hmem) ?_
      intro habove
      exact hca (hd.eq_of_below_siblings hup hap habove ha)
    have hl : l.flatMap d'.preorderOf = l.flatMap d.preorderOf := by
      refine List.flatMap_congr ?_
      intro c hc
      refine hsame c (List.mem_append_left _ hc) ?_
      rintro rfl
      exact (List.nodup_append.1 hnodup).2.2 c hc c List.mem_cons_self rfl
    have hr : r.flatMap d'.preorderOf = r.flatMap d.preorderOf := by
      refine List.flatMap_congr ?_
      intro c hc
      refine hsame c (List.mem_append_right _ (List.mem_cons_of_mem _ hc)) ?_
      rintro rfl
      exact (List.nodup_cons.1 (List.nodup_append.1 hnodup).2.1).1 hc
    refine ⟨p :: l.flatMap d.preorderOf ++ before, after ++ r.flatMap d.preorderOf, ?_, ?_⟩
    · rw [hd.preorderOf_eq hp, hchildren, List.flatMap_append, List.flatMap_cons, hold]
      simp only [List.cons_append, List.append_assoc]
    · rw [h.wellFormed.preorderOf_eq (hp.trans_le h.size_le), h.children_eq p hne, hchildren,
        List.flatMap_append, List.flatMap_cons, hl, hr, hnew]
      simp only [List.cons_append, List.append_assoc]

omit hd in
/-- Nodes that were there and were not extended have their old texts. -/
theorem textOf_eq {l : List NodeId} (hl : ∀ j ∈ l, j < d.size ∧ ¬ extended j) :
    d'.textOf l = d.textOf l :=
  textOf_congr fun j hj => h.ownText_eq j (hl j hj).1 (hl j hj).2

/-- What was extended is only in the subtrees of nodes above, and in its own. -/
theorem eq_of_extended {x j : NodeId} (hx : extended x)
    (hj : Relation.ReflTransGen d.IsChild x j) :
    x = j ∨ Relation.ReflTransGen d.IsChild id j := by
  have hup : d.IsChild x id := (hd.parent_iff x id).2 (h.child_of_extended x hx)
  -- the first step up from a child of the node leads to the node
  rcases Relation.ReflTransGen.cases_head hj with heq | ⟨p, hp, hpj⟩
  · exact Or.inl heq
  · rw [WellFormed.isChild_rightUnique d hup hp]
    exact Or.inr hpj

/-- What was extended is inside of the node, so it is not among the nodes around. -/
theorem lt_size_of_outside {a : NodeId} {before after : List NodeId} (hid : id < d.size)
    (ha : a < d.size) (hold : d.preorderOf a = before ++ d.preorderOf id ++ after) :
    ∀ x ∈ before ++ after, x < d.size ∧ ¬ extended x := by
  have hperm : (d.preorderOf a).Perm (before ++ after ++ d.preorderOf id) := by
    rw [hold, List.append_assoc, List.append_assoc]
    exact List.perm_append_comm.append_left before
  -- no node comes twice, so none is both inside and around
  have hnodup := hperm.nodup_iff.1 (hd.nodup_preorderOf ha)
  intro x hx
  constructor
  · exact hd.lt_size_of_mem_preorderOf ha (hperm.mem_iff.2 (List.mem_append_left _ hx))
  · intro hxe
    have hup : d.IsChild x id := (hd.parent_iff x id).2 (h.child_of_extended x hxe)
    have hinside : x ∈ d.preorderOf id := (hd.mem_preorderOf_iff hid).2 (.single hup)
    exact (List.nodup_append.1 hnodup).2.2 x hx x hinside rfl

include hb

theorem retexts (hid : id < d.size) : Retexts d d' id (d'.textContent id) extended where
  wellFormed := h.wellFormed
  branch := h.branch
  self := rfl
  others := by
    intro j hj hnot hextended
    rw [h.wellFormed.textContent_eq h.branch (hj.trans_le h.size_le), hd.textContent_eq hb hj,
      h.preorderOf_eq hd hj hnot]
    refine h.textOf_eq ?_
    intro x hx
    have hxj : Relation.ReflTransGen d.IsChild x j := (hd.mem_preorderOf_iff hj).1 hx
    refine ⟨hd.lt_size_of_mem_preorderOf hj hx, ?_⟩
    intro hxe
    rcases h.eq_of_extended hd hxe hxj with rfl | habove
    · exact hextended hxe
    · exact hnot habove
  above := by
    intro a ha
    have halt : a < d.size := (Extends.refl hd).lt_size_of_above hd hid ha
    obtain ⟨before, after, hold, hnew⟩ := h.exists_preorderOf_eq hd ha
    have hside := h.lt_size_of_outside hd hid halt hold
    have hbefore : d'.textOf before = d.textOf before :=
      h.textOf_eq fun x hx => hside x (List.mem_append_left _ hx)
    have hafter : d'.textOf after = d.textOf after :=
      h.textOf_eq fun x hx => hside x (List.mem_append_right _ hx)
    refine ⟨before, after, hold, ?_, ?_⟩
    · rw [hd.textContent_eq hb halt, hold, textOf_append, textOf_append,
        hd.textContent_eq hb hid]
    · rw [h.wellFormed.textContent_eq h.branch (halt.trans_le h.size_le), hnew, textOf_append,
        textOf_append, hbefore, hafter,
        h.wellFormed.textContent_eq h.branch (hid.trans_le h.size_le)]

end ChangesBelow

/-! ## A text instead of the children -/

namespace WellFormed

variable (hd : d.WellFormed) (hb : d.OnlyElementsBranch)
  (hid : id = root ∨ d.isElement id = true)

include hd hid in
theorem lt_size_of_holder : id < d.size := by
  rcases hid with rfl | helement
  · exact hd.root_lt_size
  · exact lt_size_of_isElement helement

include hd hid in
theorem ownText_of_holder : d.ownText id = "" := by
  rcases hid with rfl | helement
  · exact ownText_eq hd.kind_root
  · exact ownText_of_isElement helement

include hd hb hid

theorem changesBelow_setText (text : String) :
    ChangesBelow d (d.setText id text) id fun _ => False := by
  have hlt : id < d.size := hd.lt_size_of_holder hid
  have hchildren : ∀ q, q ≠ id → (d.setText id text).children q = d.children q := by
    intro q hq
    rw [hd.children_setText hlt, if_neg hq]
  constructor
  · exact (hd.extends_setText hlt text).wellFormed
  · refine hb.of_children hid hchildren ?_
    intro q hq
    exact (isElement_congr (kind?_setText (lt_size_of_isElement hq) id text)).trans hq
  · exact size_le_setText d id text
  · exact hchildren
  · intro j hj _
    exact ownText_congr (kind?_setText hj id text)
  · exact fun _ => False.elim

theorem textContent_setText (text : String) : (d.setText id text).textContent id = text := by
  have hlt : id < d.size := hd.lt_size_of_holder hid
  have h := hd.changesBelow_setText hb hid text
  have hwf := h.wellFormed
  have hown : (d.setText id text).ownText id = "" := by
    rw [ownText_congr (kind?_setText hlt id text)]
    exact hd.ownText_of_holder hid
  rw [hwf.textContent_eq h.branch (hlt.trans_le h.size_le),
    hwf.preorderOf_eq (hlt.trans_le h.size_le), hd.children_setText hlt, if_pos rfl]
  by_cases htext : text = ""
  · rw [if_pos htext, List.flatMap_nil, textOf_singleton, hown, htext]
  · -- the new node is all there is below
    have hsize : d.size < (d.setText id text).size := by
      rw [setText_eq, if_neg htext, size_addText, size_clear]
      exact Nat.lt_succ_self _
    have hkind : (d.setText id text).kind? d.size = some (.text text) := by
      rw [setText_eq, if_neg htext, kind?_addText, size_clear, if_pos rfl]
    have hleaf := hwf.children_eq_nil_of_kind? h.branch hkind ⟨nofun, rfl⟩
    rw [if_neg htext, List.flatMap_singleton, hwf.preorderOf_leaf hsize hleaf,
      ← List.singleton_append, textOf_append, textOf_singleton, textOf_singleton, hown,
      ownText_eq hkind]
    exact String.empty_append

omit hb in
/-- The old children go on holding their trees, with no parent. -/
theorem exists_holds_setText (text : String) {c : NodeId} (hc : c ∈ d.children id) :
    ∃ t, t.id = c ∧ d.Holds (some id) t ∧ (d.setText id text).Holds none t := by
  have hlt : id < d.size := hd.lt_size_of_holder hid
  have hup : d.IsChild c id := (hd.parent_iff c id).2 hc
  obtain ⟨t, rfl, ht⟩ := hd.exists_holds c (hd.lt_size_of_child hc)
  rw [show d.parent? t.id = some id from hup] at ht
  refine ⟨t, rfl, ht, ?_⟩
  have hnot : id ∉ t.ids := by
    intro hmem
    exact hd.acyclic id (Relation.TransGen.tail' (ht.above id hmem) hup)
  -- the top of the tree is the only child of the node inside of it
  have hchild : ∀ j ∈ t.ids, j ∈ d.children id ↔ j = t.id := by
    intro j hj
    constructor
    · intro hmem
      exact hd.eq_of_above_sibling ((hd.parent_iff j id).2 hmem) hup (ht.above j hj)
    · rintro rfl
      exact hc
  refine (ht.setParent (hd.nodup_ids ht) none).congr ?_
  intro j hj
  have hne : j ≠ id := fun he => hnot (he ▸ hj)
  apply getElem?_congr
  · rw [kind?_setText (ht.lt_size j hj), kind?_setParent]
  · rw [hd.parent?_setText (ht.lt_size j hj), parent?_setParent d _ _ (ht.lt_size _ t.id_mem_ids)]
    simp only [hchild j hj]
  · rw [hd.children_setText hlt, if_neg hne, children_setParent]

/-! ## A text behind the children -/

theorem changesBelow_appendText (text : String) :
    ChangesBelow d (d.appendText id text) id (d.IsLastText id) := by
  have hlt : id < d.size := hd.lt_size_of_holder hid
  have hwf : (d.appendText id text).WellFormed := (hd.extends_appendText hlt text).wellFormed
  have hchild : ∀ j, d.IsLastText id j → j ∈ d.children id := fun j hj =>
    List.mem_of_getLast? hj.1
  rcases appendText_cases d id text with ⟨-, heq⟩ | ⟨last, old, hlast, hkind, heq⟩ | ⟨-, heq⟩
  · rw [heq]
    exact ⟨hd, hb, Nat.le_refl _, fun _ _ => rfl, fun _ _ _ => rfl, hchild⟩
  · -- the last child is longer, and no links have changed
    have hsame : ∀ j, j ≠ last → (d.appendText id text).kind? j = d.kind? j := by
      intro j hj
      rw [heq, kind?_setKind _ _ _ (lt_size_of_kind? hkind), if_neg hj]
    have hchildren : ∀ q, (d.appendText id text).children q = d.children q := by
      intro q
      rw [heq, children_setKind]
    refine ⟨hwf, hb.of_children hid (fun q _ => hchildren q) ?_, ?_, fun q _ => hchildren q, ?_,
      hchild⟩
    · intro q hq
      -- a text is not an element, so it is not the child that has changed
      have hne : q ≠ last := by
        rintro rfl
        simp [isElement, element?, hkind, Kind.element?] at hq
      exact (isElement_congr (hsame q hne)).trans hq
    · rw [heq, size_update]
    · intro j _ hj
      refine ownText_congr (hsame j ?_)
      rintro rfl
      exact hj ⟨hlast, old, hkind⟩
  · -- there is one node more, and all old ones are what they were
    have hsame : ∀ j < d.size, (d.appendText id text).kind? j = d.kind? j := by
      intro j hj
      rw [heq, kind?_addText, if_neg hj.ne]
    have hchildren : ∀ q, q ≠ id → (d.appendText id text).children q = d.children q := by
      intro q hq
      rw [heq, hd.children_addText hlt, if_neg hq]
    refine ⟨hwf, hb.of_children hid hchildren ?_, ?_, hchildren, ?_, hchild⟩
    · intro q hq
      exact (isElement_congr (hsame q (lt_size_of_isElement hq))).trans hq
    · rw [heq, size_addText]
      exact Nat.le_succ _
    · intro j hj _
      exact ownText_congr (hsame j hj)

omit hid in
/-- The last child is the last node of the subtree if it is a text. -/
theorem exists_preorderOf_concat {last : NodeId} (h : id < d.size) (hlast : d.IsLastText id last) :
    ∃ front, d.preorderOf id = front ++ [last] ∧ last ∉ front := by
  obtain ⟨hend, old, hkind⟩ := hlast
  obtain ⟨l, hchildren⟩ := List.getLast?_eq_some_iff.1 hend
  have hleaf : d.preorderOf last = [last] :=
    hd.preorderOf_leaf (lt_size_of_kind? hkind)
      (hd.children_eq_nil_of_kind? hb hkind ⟨nofun, rfl⟩)
  have hpreorder : d.preorderOf id = (id :: l.flatMap d.preorderOf) ++ [last] := by
    rw [hd.preorderOf_eq h, hchildren, List.flatMap_append, List.flatMap_singleton, hleaf,
      List.cons_append]
  refine ⟨_, hpreorder, ?_⟩
  have hnodup := hd.nodup_preorderOf h
  rw [hpreorder, List.nodup_append] at hnodup
  intro hmem
  exact hnodup.2.2 last hmem last List.mem_cons_self rfl

omit hd hb hid in
theorem ownText_lastText (text : String) {last : NodeId} (hlast : d.IsLastText id last) :
    (d.appendText id text).ownText last = d.ownText last ++ text := by
  obtain ⟨hend, old, hkind⟩ := hlast
  rcases appendText_cases d id text with ⟨rfl, heq⟩ | ⟨last', old', hend', hkind', heq⟩ | ⟨hno, -⟩
  · rw [heq, String.append_empty]
  · obtain rfl : last' = last := Option.some.inj (hend'.symm.trans hend)
    have hnew : (d.appendText id text).kind? last' = some (.text (old' ++ text)) := by
      rw [heq, kind?_setKind _ _ _ (lt_size_of_kind? hkind), if_pos rfl]
    rw [ownText_eq hnew, ownText_eq hkind']
    rfl
  · exact absurd ⟨hend, old, hkind⟩ (hno last)

/-- The last child has the added text behind its own if it is a text. -/
theorem textContent_lastText (text : String) {last : NodeId} (hlast : d.IsLastText id last) :
    (d.appendText id text).textContent last = d.textContent last ++ text := by
  have h := hd.changesBelow_appendText hb hid text
  have hmem : last ∈ d.children id := h.child_of_extended last hlast
  have hlt : last < d.size := hd.lt_size_of_child hmem
  obtain ⟨old, hkind⟩ := hlast.2
  have hleaf : d.preorderOf last = [last] :=
    hd.preorderOf_leaf hlt (hd.children_eq_nil_of_kind? hb hkind ⟨nofun, rfl⟩)
  rw [h.wellFormed.textContent_eq h.branch (hlt.trans_le h.size_le), hd.textContent_eq hb hlt,
    h.preorderOf_child hd hmem, hleaf, textOf_singleton, textOf_singleton,
    ownText_lastText text hlast]

theorem textContent_appendText_of_lastText (text : String) {last : NodeId}
    (hlast : d.IsLastText id last)
    (hchildren : (d.appendText id text).children id = d.children id) :
    (d.appendText id text).textContent id = d.textContent id ++ text := by
  have hlt : id < d.size := hd.lt_size_of_holder hid
  have h := hd.changesBelow_appendText hb hid text
  -- the text grows where the list of the nodes ends, so the rest of it stands before
  obtain ⟨front, hpreorder, hnot⟩ := hd.exists_preorderOf_concat hb hlt hlast
  have hsame : (d.appendText id text).preorderOf id = d.preorderOf id := by
    rw [h.preorderOf_eq_append hd hlt (hchildren.trans (List.append_nil _).symm), List.flatMap_nil,
      List.append_nil]
  have hfront : (d.appendText id text).textOf front = d.textOf front := by
    refine h.textOf_eq ?_
    intro j hj
    refine ⟨hd.lt_size_of_mem_preorderOf hlt (hpreorder ▸ List.mem_append_left _ hj), ?_⟩
    intro hjlast
    obtain rfl : j = last := Option.some.inj (hjlast.1.symm.trans hlast.1)
    exact hnot hj
  rw [h.wellFormed.textContent_eq h.branch (hlt.trans_le h.size_le), hd.textContent_eq hb hlt,
    hsame, hpreorder, textOf_append, textOf_append, hfront, textOf_singleton, textOf_singleton,
    ownText_lastText text hlast, String.append_assoc]

theorem textContent_appendText (text : String) :
    (d.appendText id text).textContent id = d.textContent id ++ text := by
  have hlt : id < d.size := hd.lt_size_of_holder hid
  have h := hd.changesBelow_appendText hb hid text
  rcases appendText_cases d id text with ⟨rfl, heq⟩ | ⟨last, old, hend, hkind, heq⟩ | ⟨hno, heq⟩
  · rw [heq, String.append_empty]
  · refine hd.textContent_appendText_of_lastText hb hid text ⟨hend, old, hkind⟩ ?_
    rw [heq, children_setKind]
  · -- the new node comes behind all others of the subtree
    have hkind : (d.appendText id text).kind? d.size = some (.text text) := by
      rw [heq, kind?_addText, if_pos rfl]
    have hleaf := h.wellFormed.children_eq_nil_of_kind? h.branch hkind ⟨nofun, rfl⟩
    have hchildren : (d.appendText id text).children id = d.children id ++ [d.size] := by
      rw [heq, hd.children_addText hlt, if_pos rfl]
    have hpreorder : (d.appendText id text).preorderOf id = d.preorderOf id ++ [d.size] := by
      rw [h.preorderOf_eq_append hd hlt hchildren, List.flatMap_singleton,
        h.wellFormed.preorderOf_leaf (lt_size_of_kind? hkind) hleaf]
    have hold : (d.appendText id text).textOf (d.preorderOf id) = d.textOf (d.preorderOf id) :=
      h.textOf_eq fun j hj => ⟨hd.lt_size_of_mem_preorderOf hlt hj, hno j⟩
    rw [h.wellFormed.textContent_eq h.branch (hlt.trans_le h.size_le), hd.textContent_eq hb hlt,
      hpreorder, textOf_append, hold, textOf_singleton, ownText_eq hkind]
    rfl

end WellFormed

/-- After a node has been given a text, its text is the new one, and its old children stand by
themselves with their subtrees whole. After a text has been added to a node, its text is the old one
and the new one behind it. Both times nothing else is different but the texts of the nodes above,
where the old text of the node is replaced in its place, and in the second case that of the last
child if that is a text, which is extended. -/
theorem retexts_setText_appendText (hd : d.WellFormed) (hb : d.OnlyElementsBranch)
    (hid : id = root ∨ d.isElement id = true) (text : String) :
    (Retexts d (d.setText id text) id text (fun _ => False) ∧
      (d.setText id text).children id = (if text = "" then [] else [d.size]) ∧
      ∀ c ∈ d.children id, ∃ t, t.id = c ∧ d.Holds (some id) t ∧
        (d.setText id text).Holds none t) ∧
    (Retexts d (d.appendText id text) id (d.textContent id ++ text) (d.IsLastText id) ∧
      ∀ last, d.IsLastText id last →
        (d.appendText id text).textContent last = d.textContent last ++ text) := by
  have hlt : id < d.size := hd.lt_size_of_holder hid
  have hset := (hd.changesBelow_setText hb hid text).retexts hd hb hlt
  have happend := (hd.changesBelow_appendText hb hid text).retexts hd hb hlt
  rw [hd.textContent_setText hb hid] at hset
  rw [hd.textContent_appendText hb hid] at happend
  refine ⟨⟨hset, ?_, ?_⟩, happend, ?_⟩
  · rw [hd.children_setText hlt, if_pos rfl]
  · intro c hc
    exact hd.exists_holds_setText hid text hc
  · intro last hlast
    exact hd.textContent_lastText hb hid text hlast

/-- A paragraph between two texts, with a text, an element and a last text inside. -/
theorem retexts_setText_appendText_paragraph :
    let d := (Html.parse "<div>1<p>2<b>3</b>4</p>5</div>").document
    (d.WellFormed ∧ d.OnlyElementsBranch ∧ (3 = root ∨ d.isElement 3 = true)) ∧
      (Retexts d (d.setText 3 "x") 3 "x" fun _ => False) ∧
      ((d.setText 3 "x").textContent 1 = "1x5" ∧ (d.setText 3 "x").textContent 5 = "3") ∧
      (Retexts d (d.appendText 3 "x") 3 "234x" (d.IsLastText 3)) ∧
      (d.appendText 3 "x").textContent 1 = "1234x5" ∧
      (d.appendText 3 "x").textContent 7 = "4x" := by
  intro d
  have hd : d.WellFormed := Html.parse_wellFormed _
  have hb : d.OnlyElementsBranch := Html.parse_onlyElementsBranch _
  have hid : 3 = root ∨ d.isElement 3 = true := Or.inr (by decide +kernel)
  obtain ⟨⟨hset, -, -⟩, happend, -⟩ := retexts_setText_appendText hd hb hid "x"
  have hold : d.textContent 3 = "234" := by decide +kernel
  rw [hold] at happend
  refine ⟨⟨hd, hb, hid⟩, hset, ⟨?_, ?_⟩, happend, ?_, ?_⟩ <;> decide +kernel

end Stencil.Html.Document
