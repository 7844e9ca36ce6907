import Stencil.Proofs.Directive.OwnScope
import Stencil.Proofs.Document.Walk
namespace Stencil.Directive

open Stencil.Data (Value)
open Stencil.Html (Document Element Kind NodeId Spot)
open Stencil.Html.Document (ChangesOnly Holds Replaces Rewrites)
open Stencil.Text (IsWord)

/-! # Finished documents

Finishing a document takes hidden elements out of its tree, with all that is inside of them. The
elements are listed before anything is taken out; an element inside of one that has gone still has
its turn, and changes nothing that can be reached.
-/

variable {names : Names} {strip : Bool}

/-- Whether a node is taken out. -/
def isDropped (names : Names) (strip : Bool) (k : Kind) : Bool :=
  k.element?.any fun e => isCandidate names strip e && e.hasClass names.hiddenClass

theorem isElement_of_isDropped {k : Kind} (h : isDropped names strip k = true) :
    k.isElement = true := by
  rcases (Option.any_eq_true _ _).1 h with ⟨e, he, -⟩
  rw [Kind.isElement, he]
  rfl

/-- An element that stays: without its directives, if they are to go. -/
def finishedElement (names : Names) (strip : Bool) (e : Element) : Element :=
  if strip && isCandidate names strip e then stripDirectives names e else e

/-- A node that stays. -/
def finished (names : Names) (strip : Bool) : Kind → Kind :=
  Kind.mapElement (finishedElement names strip)

/-- The document after one element has had its turn. -/
def finishOne (names : Names) (strip : Bool) (d : Document) (id : NodeId) : Document :=
  (finishElement names strip d id).1

/-- The count of elements taken out has no part in the document. -/
theorem finalize_fst (d : Document) :
    (finalize names strip d).1 =
      (d.descendantElements Document.root).foldl (finishOne names strip) d := by
  unfold finalize
  -- the count is carried along without being looked at
  exact (List.foldl_hom Prod.fst fun _ _ => rfl).symm

/-! ## One element -/

section One

variable {d : Document} {parent : Option NodeId} {s : Spot} {ts : List (Tree Spot)}

theorem finishOne_of_dropped (h : d.Holds parent (.node s ts))
    (hdrop : isDropped names strip s.kind = true) :
    finishOne names strip d s.id = d.detach s.id := by
  rcases Option.any_eq_true _ _ |>.1 hdrop with ⟨e, he, hboth⟩
  rw [Bool.and_eq_true] at hboth
  have helem : d.element? s.id = some e := by
    rw [Document.element?, Document.kind?_eq h.here]
    exact he
  simp [finishOne, finishElement, helem, hboth.1, hboth.2]

theorem rewrites_finishOne (h : d.Holds parent (.node s ts)) (hn : (Tree.node s ts).ids.Nodup)
    (hkeep : isDropped names strip s.kind = false) (hk : s.kind.isElement = true) :
    Rewrites d (finishOne names strip d s.id) parent (.node s ts)
      (.node { s with kind := finished names strip s.kind } ts) := by
  rcases s with ⟨id, kind⟩
  cases kind with
  | element e =>
    have helem : d.element? id = some e := by
      rw [Document.element?, Document.kind?_eq h.here]
      rfl
    -- an element that is looked at and stays is not marked
    have hshown : isCandidate names strip e = true → e.hasClass names.hiddenClass = false := by
      intro hcand
      simpa [isDropped, Kind.element?, hcand] using hkeep
    cases hcand : isCandidate names strip e with
    | false =>
      have hstore : finishOne names strip d id = d := by
        simp [finishOne, finishElement, helem, hcand]
      have hkind : finished names strip (.element e) = .element e := by
        simp [finished, Kind.mapElement, finishedElement, hcand]
      rw [hstore, hkind]
      exact .refl h hn
    | true =>
      cases strip with
      | false =>
        have hstore : finishOne names false d id = d := by
          simp [finishOne, finishElement, helem, hshown hcand]
        have hkind : finished names false (.element e) = .element e := by
          simp [finished, Kind.mapElement, finishedElement]
        rw [hstore, hkind]
        exact .refl h hn
      | true =>
        have hstore : finishOne names true d id = d.updateElement id (stripDirectives names) := by
          simp [finishOne, finishElement, helem, hcand, hshown hcand]
        have hkind : finished names true (.element e) =
            (Kind.element e).mapElement (stripDirectives names) := by
          simp [finished, Kind.mapElement, finishedElement, hcand]
        rw [hstore, hkind]
        exact h.updateElement hn (stripDirectives names)
  | _ => cases hk

end One

/-! ## All elements -/

/-- The turns of the elements below a node, once it is known what they do to each child. -/
theorem rewrites_finishBelow (names : Names) (strip : Bool) {d : Document}
    {parent : Option NodeId} {s : Spot} {ts : List (Tree Spot)} (h : d.Holds parent (.node s ts))
    (hn : (Tree.node s ts).ids.Nodup)
    (ih : ∀ t ∈ ts, ∀ (d : Document) (p : NodeId), d.Holds (some p) t → t.ids.Nodup → p ∉ t.ids →
      ∃ us, Replaces d (t.elementIds.foldl (finishOne names strip) d) p t us ∧
        us.map Tree.kinds = t.kinds.prune (isDropped names strip) (finished names strip)) :
    ∃ us, Rewrites d ((ts.flatMap Tree.elementIds).foldl (finishOne names strip) d) parent
        (.node s ts) (.node s us) ∧
      us.map Tree.kinds = (ts.map Tree.kinds).flatMap
        (Tree.prune (isDropped names strip) (finished names strip)) := by
  rw [List.foldl_flatMap]
  exact Document.rewrites_children h hn fun t ht d _ hd hnt hp => ih t ht d s.id hd hnt hp

/-- The turns of the elements of a tree leave what is left of it in its place. -/
theorem exists_finish (t : Tree Spot) : ∀ (d : Document) (p : NodeId), d.Holds (some p) t →
    t.ids.Nodup → p ∉ t.ids →
    ∃ us, Replaces d (t.elementIds.foldl (finishOne names strip) d) p t us ∧
      us.map Tree.kinds = t.kinds.prune (isDropped names strip) (finished names strip) := by
  induction t with
  | node s ts ih =>
    intro d p h hn hp
    rw [Tree.elementIds_node, List.foldl_append, Tree.kinds_node, Tree.prune_node]
    cases hdrop : isDropped names strip s.kind with
    | true =>
      have hk := isElement_of_isDropped hdrop
      rw [if_pos hk, if_pos rfl, List.foldl_cons, List.foldl_nil, finishOne_of_dropped h hdrop]
      -- what happens inside of the tree now happens away from its old place
      have hout := h.detach hp
      rcases rewrites_finishBelow names strip (h.detached hn hp) hn ih with ⟨us, hus, -⟩
      refine ⟨[], ⟨?_, by simp, by simp, by simp, ?_⟩, rfl⟩
      · intro kind parent before after hnode hbefore hafter
        have hnode' := hout.place hnode hbefore hafter
        exact (hus.changes.same p (Document.lt_size_of_getElem? hnode') hp).trans hnode'
      · exact hout.changes.trans (hus.changes.mono fun j hj => List.mem_cons_of_mem p hj)
          fun j hj => Or.inl hj
    | false =>
      rw [if_neg (c := false = true) (by simp)]
      cases hk : s.kind.isElement with
      | true =>
        rw [if_pos rfl, List.foldl_cons, List.foldl_nil]
        have hone := rewrites_finishOne h hn hdrop hk
        rcases rewrites_finishBelow names strip hone.holds hone.nodup ih with ⟨us, hus, hkinds⟩
        refine ⟨_, (hone.trans hus).replaces hp, ?_⟩
        rw [List.map_singleton, Tree.kinds_node, hkinds]
      | false =>
        rcases rewrites_finishBelow names strip h hn ih with ⟨us, hus, hkinds⟩
        refine ⟨_, hus.replaces hp, ?_⟩
        rw [List.map_singleton, Tree.kinds_node, hkinds, finished, Kind.mapElement_eq_self hk]

/-- Finishing a document leaves what is left of its tree. -/
theorem prune_eq_tree_finalize (names : Names) (strip : Bool) {d : Document}
    {parent : Option NodeId} {t : Tree Spot} (hid : t.id = Document.root) (h : d.Holds parent t)
    (hn : t.ids.Nodup) (hk : t.kinds.label.isElement = false) :
    t.kinds.prune (isDropped names strip) (finished names strip) =
      [(finalize names strip d).1.tree] := by
  rw [finalize_fst, ← hid, h.descendantElements_eq hn]
  cases t with
  | node s ts =>
    rw [Tree.kinds_node, Tree.label_node] at hk
    obtain ⟨us, hus, hkinds⟩ := rewrites_finishBelow names strip h hn
      fun t _ => exists_finish t
    have hkeep : isDropped names strip s.kind = false := by
      cases hkind : s.kind <;> first | rfl | (rw [hkind] at hk; cases hk)
    rw [Tree.elementIds_node, if_neg (by simp [hk]), List.nil_append, Tree.kinds_node,
      Tree.prune_node, if_neg (by simp [hkeep]), ← hkinds, finished, Kind.mapElement_eq_self hk,
      Document.tree, ← hid]
    have htree := hus.holds.treeOf_eq hus.nodup
    rw [Tree.id_node] at htree
    rw [Tree.id_node, htree, Tree.kinds_node]

/-! ## The number of elements taken out -/

/-- The turn of one element changes no other node's kind. -/
theorem kind?_finishOne (d : Document) {id j : NodeId} (h : j ≠ id) :
    (finishOne names strip d id).kind? j = d.kind? j := by
  have hupdate : ∀ f, (d.updateElement id f).kind? j = d.kind? j := by
    intro f
    rw [Document.kind?, Document.updateElement, Document.getElem?_update, if_neg (Ne.symm h)]
    rfl
  unfold finishOne finishElement
  split
  · rfl
  · split
    · rfl
    · split
      · exact Document.kind?_detach d id j
      · split
        · exact hupdate _
        · rfl

theorem finishElement_snd (d : Document) (id : NodeId) :
    (finishElement names strip d id).2 = (d.kind? id).any (isDropped names strip) := by
  unfold finishElement Document.element?
  cases d.kind? id with
  | none => rfl
  | some k =>
    cases k with
    | element e =>
      simp only [Option.bind_some, Kind.element?, Option.any_some, isDropped]
      cases isCandidate names strip e with
      | false => rfl
      | true =>
        cases e.hasClass names.hiddenClass with
        | false => cases strip <;> rfl
        | true => rfl
    | _ => rfl

/-- Every element is found in its turn as it was before the first one: the turns of the others do
not reach it. So the marked elements are counted, those inside of others that have gone as well. -/
theorem foldl_finish_snd {ids : List NodeId} (hn : ids.Nodup) : ∀ (d : Document) (removed : Nat),
    (ids.foldl
      (fun (acc, removed) id =>
        let (next, taken) := finishElement names strip acc id
        (next, if taken then removed + 1 else removed))
      (d, removed)).2 =
      removed + ids.countP fun id => (d.kind? id).any (isDropped names strip) := by
  induction ids with
  | nil => exact fun _ _ => rfl
  | cons id ids ih =>
    intro d removed
    rw [List.nodup_cons] at hn
    have hrest : ids.countP (fun j => ((finishOne names strip d id).kind? j).any
        (isDropped names strip)) =
          ids.countP fun j => (d.kind? j).any (isDropped names strip) := by
      refine List.countP_congr ?_
      intro j hj
      have hne : j ≠ id := fun he => hn.1 (he ▸ hj)
      rw [kind?_finishOne d hne]
    rw [List.foldl_cons, List.countP_cons]
    refine (ih hn.2 (finishOne names strip d id)
      (if (finishElement names strip d id).2 then removed + 1 else removed)).trans ?_
    rw [hrest, finishElement_snd]
    split
    · omega
    · omega

/-- The number of elements taken out is that of the marked ones in the tree before. -/
theorem finalize_snd {d : Document} {parent : Option NodeId} {t : Tree Spot}
    (hid : t.id = Document.root) (h : d.Holds parent t) (hn : t.ids.Nodup) :
    (finalize names strip d).2 = t.kinds.labels.countP (isDropped names strip) := by
  have hids : t.elementIds.Nodup := (List.filter_sublist.map Spot.id).nodup hn
  have hkind : ∀ s ∈ t.labels, (d.kind? s.id).any (isDropped names strip) =
      isDropped names strip s.kind := by
    intro s hs
    rw [h.kind?_of_mem_labels hs]
    rfl
  have hcount : (finalize names strip d).2 =
      t.elementIds.countP fun id => (d.kind? id).any (isDropped names strip) := by
    rw [finalize, ← hid, h.descendantElements_eq hn, ← Nat.zero_add (List.countP _ _)]
    exact foldl_finish_snd hids d 0
  rw [hcount, Tree.elementIds, List.countP_map, List.countP_filter, Tree.kinds, Tree.labels_map,
    List.countP_map]
  refine List.countP_congr ?_
  intro s hs
  simp only [Function.comp_apply, hkind s hs, Bool.and_eq_true]
  exact and_iff_left_of_imp isElement_of_isDropped

/-! ## What is hidden -/

/-- An element with a condition is looked at, whether or not directives are to go. -/
theorem isCandidate_of_isConditional {e : Element} (h : (names.flags e).isConditional = true) :
    isCandidate names strip e = true := by
  unfold isCandidate
  split
  · rw [Flags.isConditional, Bool.or_eq_true] at h
    rcases h with h | h <;> simp [Flags.any, h]
  · exact h

/-- An element that is hidden in its own scope is taken out, if the hidden class is a word. -/
theorem isDropped_of_hides (hw : IsWord names.hiddenClass.toList)
    (hc : Element.classKey ∉ names.all) {t : Tree Kind} {scope : Scope} {g : Tree Instance}
    (hg : g ∈ grow names scope t) {i : Instance} (hi : i ∈ g.labels) {e : Element}
    (he : i.kind = .element e) (hhides : hides names i.scope e = true) :
    isDropped names strip i.kind = true := by
  rw [Tree.labels_eq_map_subtrees] at hi
  rcases List.mem_map.1 hi with ⟨u, hu, rfl⟩
  rcases exists_source hg hu he with ⟨e₀, ts, -, hmark, -⟩
  have hcond := isConditional_of_hides hhides
  have hclass : e.hasClass names.hiddenClass = true := by
    rw [← hhides]
    subst hmark
    exact hasClass_markedIn hw hc hcond
  simp [isDropped, he, Kind.element?, isCandidate_of_isConditional hcond, hclass]

/-- No class of an element is anything but a word, so without one nothing is taken out. -/
theorem isDropped_of_not_isWord (hw : ¬ IsWord names.hiddenClass.toList) (k : Kind) :
    isDropped names strip k = false := by
  cases k with
  | element e =>
    have hclass : e.hasClass names.hiddenClass = false := by
      by_contra h
      exact hw (Element.isWord_of_hasClass (by simpa using h))
    simp [isDropped, Kind.element?, hclass]
  | _ => rfl

/-- An element that is hidden in its own scope. -/
def HiddenIn (names : Names) (i : Instance) : Prop :=
  ∃ e, i.kind = .element e ∧ hides names i.scope e = true

/-- What is hidden in its own scope reaches the output if and only if the hidden class is no word:
then nothing that is hidden is taken out. -/
theorem exists_hiddenIn_rendered_iff (o : Options) (template : String) (data : Value) :
    let names := Names.ofOptions o
    let d := (Html.parse template).document
    ∃ g r : Tree Instance, grow names (.ofRoot data) d.tree = [g] ∧
      g.map Instance.kind = (process names data d).tree ∧
      g.prune (fun i => isDropped names o.removeAttributes i.kind) (fun i => i) = [r] ∧
      r.map (fun i => finished names o.removeAttributes i.kind) =
        (renderDocument o template data).1.tree ∧
      ((∃ i ∈ r.labels, HiddenIn names i) ↔
        ¬ IsWord o.hiddenClass.toList ∧ ∃ i ∈ g.labels, HiddenIn names i) := by
  intro names d
  have hc : Element.classKey ∉ names.all := Names.classKey_notMem_of _ _
  obtain ⟨g, hg, parent, t, hid, ht, hn, hlabel, hkinds⟩ := exists_grown hc data
    (Html.parse_wellFormed template) (Html.parse_onlyElementsBranch template)
  have hmem : g ∈ grow names (.ofRoot data) d.tree := hg ▸ List.mem_singleton_self g
  have hprune := prune_eq_tree_finalize names o.removeAttributes hid ht hn
    (by rw [hlabel]; rfl)
  rw [← hkinds, Tree.prune_map, ← Tree.map_prune _ (fun i => i)] at hprune
  rcases List.map_eq_singleton_iff.1 hprune with ⟨r, hr, hrender⟩
  refine ⟨g, r, hg, ?_, hr, hrender, ?_, ?_⟩
  · rw [hkinds, Document.tree, ← hid, ht.treeOf_eq hn]
  · rintro ⟨i, hi, hhidden⟩
    obtain ⟨i', hi', hkept, rfl⟩ :=
      Tree.mem_labels_of_mem_prune (hr ▸ List.mem_singleton_self r) hi
    -- with a word for the class it would have been taken out
    have hno : ¬ IsWord o.hiddenClass.toList := by
      intro hw
      rcases hhidden with ⟨e, he, hhides⟩
      rw [isDropped_of_hides hw hc hmem hi' he hhides] at hkept
      cases hkept
    exact ⟨hno, i', hi', hhidden⟩
  · -- without a word nothing is taken out, so all that has grown is left
    rintro ⟨hw, i, hi, hhidden⟩
    rw [Tree.prune_eq_singleton fun i _ => isDropped_of_not_isWord hw i.kind, Tree.map_id] at hr
    rw [← List.head_eq_of_cons_eq hr]
    exact ⟨i, hi, hhidden⟩

/-- A hidden class with a space in it: the mark is written and not found again. -/
theorem render_hiddenClass_with_space :
    Expr.holds (.ofRoot (.object [])) "@" = false ∧
      render ⟨false, "", "a b"⟩ "<p if=\"@\">x</p>" (.object []) =
        "<p if=\"@\" class=\"a b\">x</p>" := by
  decide +kernel

end Stencil.Directive
