import Stencil.Proofs.Directive.Finalized
import Stencil.Proofs.Directive.Histories
namespace Stencil.Directive

open Stencil.Data (Value)
open Stencil.Html (Attributes Document Element Kind textNodes)
open Stencil.Text (IsWord)

/-! # Settled documents

A document without loops that has been through the passes and been finished, its directives kept, is
settled: another run finds all marks and all values as it would make them, and nothing to take out.
-/

variable {names : Names} {scope : Scope}

/-! ## Trees without loops -/

/-- A tree without loops stays whole when its loops are expanded. -/
theorem eachTree_eq_singleton {t : Tree Kind} (h : ∀ k ∈ t.labels, nodeLoop? names scope k = none) :
    eachTree names scope t = [t] := by
  induction t with
  | node k ts ih =>
    rw [Tree.labels_node, List.forall_mem_cons] at h
    have hts : ∀ t ∈ ts, eachTree names scope t = [t] := by
      intro t ht
      refine ih t ht ?_
      intro l hl
      exact h.2 l (List.mem_flatMap.2 ⟨t, ht, hl⟩)
    have hloop : nodeLoop? names scope (Tree.node k ts).label = none := h.1
    rw [eachTree_of_none hloop, Tree.children_node, Tree.label_node, List.flatMap_congr hts,
      ← List.map_eq_flatMap, List.map_id']

/-- Conditions and values bring no loops into a tree. -/
theorem nodeLoop?_of_mem_labels_fillTree (hc : Element.classKey ∉ names.all) {t : Tree Kind}
    (h : ∀ k ∈ t.labels, nodeLoop? names scope k = none) :
    ∀ k ∈ (fillTree names scope t).labels, nodeLoop? names scope k = none := by
  obtain ⟨hv, -, -, he⟩ := Names.ne_classKey hc
  induction t with
  | node k ts ih =>
    rw [Tree.labels_node, List.forall_mem_cons] at h
    rw [fillTree_node hv, Tree.labels_node, List.forall_mem_cons]
    constructor
    · rw [nodeLoop?_mapElement k fun e => attr?_applyConditions e he]
      exact h.1
    · intro l hl
      obtain ⟨u, hu, hlu⟩ := List.mem_flatMap.1 hl
      split at hu
      · -- a text that a value has put is a single node and no element
        have hself := tidy_textNodes hu
        obtain ⟨k', us⟩ := u
        have hlabel : k'.isElement = false := isElement_label_textNodes hu
        obtain rfl : us = [] := hself.children_eq_nil hlabel
        obtain rfl : l = k' := by simpa using hlu
        exact nodeLoop?_of_not_element hlabel
      · obtain ⟨t, ht, rfl⟩ := List.mem_map.1 hu
        refine ih t ht ?_ l hlu
        intro l' hl'
        exact h.2 l' (List.mem_flatMap.2 ⟨t, ht, hl'⟩)

/-! ## Settled trees -/

/-- A node at which another run finds nothing to do: the conditions have left their marks, the value
has been put in, and the node is not to go. -/
structure SettledNode (names : Names) (scope : Scope) (k : Kind) (ts : List (Tree Kind)) :
    Prop where
  marked : k.mapElement (applyConditions names scope) = k
  filled : ∀ text, nodeText? names scope k = some text → ts = textNodes text
  shown : isDropped names false k = false

/-- A tree at whose nodes another run finds nothing to do. -/
def Settled (names : Names) (scope : Scope) (t : Tree Kind) : Prop :=
  ∀ u ∈ t.subtrees, SettledNode names scope u.label u.children

theorem settled_node_iff {k : Kind} {ts : List (Tree Kind)} :
    Settled names scope (.node k ts) ↔
      SettledNode names scope k ts ∧ ∀ t ∈ ts, Settled names scope t := by
  simp only [Settled, Tree.subtrees_node, List.forall_mem_cons, Tree.children_node,
    Tree.label_node, List.mem_flatMap]
  refine and_congr_right ?_
  intro _
  constructor
  · intro h t ht u hu
    exact h u ⟨t, ht, hu⟩
  · rintro h u ⟨t, ht, hu⟩
    exact h t ht u hu

theorem Settled.fillTree_eq (hc : Element.classKey ∉ names.all) {t : Tree Kind}
    (h : Settled names scope t) : fillTree names scope t = t := by
  have hv := (Names.ne_classKey hc).1
  induction t with
  | node k ts ih =>
    obtain ⟨hnode, hts⟩ := settled_node_iff.1 h
    rw [fillTree_node hv, hnode.marked]
    congr 1
    split
    · next text htext => exact (hnode.filled text htext).symm
    · exact (List.map_congr_left fun t ht => ih t ht (hts t ht)).trans (List.map_id _)

theorem Settled.isDropped_eq {t : Tree Kind} (h : Settled names scope t) :
    ∀ k ∈ t.labels, isDropped names false k = false := by
  intro k hk
  rw [Tree.labels_eq_map_subtrees] at hk
  obtain ⟨u, hu, rfl⟩ := List.mem_map.1 hk
  exact (h u hu).shown

/-- With the directives kept, a node that stays is as it was. -/
theorem finished_false : finished names false = fun k => k := by
  have hself : finishedElement names false = fun e => e := by
    funext e
    simp [finishedElement]
  funext k
  rw [finished, hself, Kind.mapElement_id]

theorem Settled.prune_eq {t : Tree Kind} (h : Settled names scope t) :
    t.prune (isDropped names false) (finished names false) = [t] := by
  rw [Tree.prune_eq_singleton h.isDropped_eq, finished_false, Tree.map_id]

/-- The conditions of an element that has been marked and is not taken out mark it no further. -/
theorem mapElement_applyConditions_again (hw : IsWord names.hiddenClass.toList)
    (hc : Element.classKey ∉ names.all) {k : Kind}
    (h : isDropped names false (k.mapElement (applyConditions names scope)) = false) :
    (k.mapElement (applyConditions names scope)).mapElement (applyConditions names scope) =
      k.mapElement (applyConditions names scope) := by
  cases k with
  | element e =>
    -- a hidden element with a condition would have been taken out
    have hshown : hides names scope e = false := by
      rw [← Bool.not_eq_true]
      intro hhides
      have hcond := isConditional_of_hides hhides
      have hcond' : (names.flags (applyConditions names scope e)).isConditional = true := by
        rw [isConditional_flags, attr?_applyConditions e (Names.ne_classKey hc).2.1,
          attr?_applyConditions e (Names.ne_classKey hc).2.2.1, ← isConditional_flags]
        exact hcond
      have hmark : (applyConditions names scope e).hasClass names.hiddenClass = true := by
        rw [hasClass_applyConditions hw hcond, hhides]
      have hdrop : isDropped names false ((Kind.element e).mapElement
          (applyConditions names scope)) = true := by
        simp [isDropped, Kind.mapElement, Kind.element?, isCandidate_of_isConditional hcond', hmark]
      rw [hdrop] at h
      cases h
    simp only [Kind.mapElement, applyConditions_applyConditions hw hc hshown]
  | _ => rfl

/-- A text that a value has put asks for nothing. -/
theorem settled_of_mem_textNodes {text : String} {t : Tree Kind} (h : t ∈ textNodes text) :
    Settled names scope t := by
  unfold textNodes at h
  split at h
  · cases h
  · rw [List.mem_singleton.1 h]
    refine settled_node_iff.2 ⟨⟨rfl, nofun, rfl⟩, ?_⟩
    simp

/-- What is left of a tree after the conditions, the values and the end of a run is settled. -/
theorem settled_of_mem_prune (hw : IsWord names.hiddenClass.toList)
    (hc : Element.classKey ∉ names.all) {t : Tree Kind} :
    ∀ {u : Tree Kind}, u ∈ (fillTree names scope t).prune (isDropped names false)
      (finished names false) → Settled names scope u := by
  have hv := (Names.ne_classKey hc).1
  induction t with
  | node k ts ih =>
    intro u hu
    rw [fillTree_node hv, Tree.prune_node] at hu
    split at hu
    · cases hu
    next hkept =>
    rw [Bool.not_eq_true] at hkept
    have hmarked := mapElement_applyConditions_again hw hc hkept
    have htext : nodeText? names scope (k.mapElement (applyConditions names scope)) =
        nodeText? names scope k :=
      nodeText?_mapElement k fun e => attr?_applyConditions e hv
    rw [List.mem_singleton.1 hu, congrFun finished_false, settled_node_iff]
    cases hk : nodeText? names scope k with
    | some text =>
      -- the text is all there is below the node, and it stays
      have hleft : (textNodes text).flatMap (Tree.prune (isDropped names false)
          (finished names false)) = textNodes text := by
        have hone : ∀ t ∈ textNodes text, t.prune (isDropped names false)
            (finished names false) = [t] := by
          intro t ht
          have hsettled : Settled names scope t := settled_of_mem_textNodes ht
          exact hsettled.prune_eq
        rw [List.flatMap_congr hone, ← List.map_eq_flatMap, List.map_id']
      simp only [hleft]
      refine ⟨⟨hmarked, ?_, hkept⟩, fun t ht => settled_of_mem_textNodes ht⟩
      intro text' h
      rw [htext, hk] at h
      rw [Option.some.inj h]
    | none =>
      refine ⟨⟨hmarked, ?_, hkept⟩, ?_⟩
      · intro text h
        rw [htext, hk] at h
        cases h
      · intro u hu
        obtain ⟨filled, hfilled, huf⟩ := List.mem_flatMap.1 hu
        obtain ⟨t, ht, rfl⟩ := List.mem_map.1 hfilled
        exact ih t ht huf

/-! ## Settled documents -/

/-- Another run leaves a settled document as it is. -/
theorem Settled.run_eq (hc : Element.classKey ∉ names.all) {root : Value} {d : Document}
    (hd : d.WellFormed) (htidy : d.tree.TidyBelow) (h : Settled names (.ofRoot root) d.tree)
    (hloops : ∀ k ∈ d.tree.labels, nodeLoop? names (.ofRoot root) k = none) :
    (finalize names false (process names root d)).2 = 0 ∧
      (finalize names false (process names root d)).1.tree = d.tree := by
  obtain ⟨parent, t, hid, ht, hn, hlabel, heach⟩ := exists_process_of_tidyBelow names root hd htidy
  rw [h.fillTree_eq hc, eachTree_eq_singleton hloops] at heach
  have hkinds : t.kinds = d.tree := (List.singleton_inj.1 heach).symm
  have hprune := prune_eq_tree_finalize names false hid ht hn (by rw [hlabel]; rfl)
  rw [hkinds, h.prune_eq] at hprune
  constructor
  · rw [finalize_snd hid ht hn, hkinds, List.countP_eq_zero]
    intro k hk
    rw [h.isDropped_eq k hk]
    exact Bool.false_ne_true
  · exact (List.singleton_inj.1 hprune).symm

/-- A run over a document without loops leaves a settled one. -/
theorem settled_run (hw : IsWord names.hiddenClass.toList) (hc : Element.classKey ∉ names.all)
    {root : Value} {d : Document} (hd : d.WellFormed) (htidy : d.tree.TidyBelow)
    (hloops : ∀ k ∈ d.tree.labels, nodeLoop? names (.ofRoot root) k = none) :
    let once := (finalize names false (process names root d)).1
    once.WellFormed ∧ once.tree.TidyBelow ∧ Settled names (.ofRoot root) once.tree ∧
      ∀ k ∈ once.tree.labels, nodeLoop? names (.ofRoot root) k = none := by
  intro once
  have hfilled := nodeLoop?_of_mem_labels_fillTree hc hloops
  obtain ⟨parent, t, hid, ht, hn, hlabel, heach⟩ := exists_process_of_tidyBelow names root hd htidy
  rw [eachTree_eq_singleton hfilled] at heach
  have hprune := prune_eq_tree_finalize names false hid ht hn (by rw [hlabel]; rfl)
  rw [← List.singleton_inj.1 heach] at hprune
  have hleft : once.tree ∈ (fillTree names (.ofRoot root) d.tree).prune (isDropped names false)
      (finished names false) := by
    rw [hprune]
    exact List.mem_singleton_self _
  have hprocess := extends_process names root hd
  refine ⟨(extends_finalize names false hprocess.wellFormed).wellFormed, ?_,
    settled_of_mem_prune hw hc hleft, ?_⟩
  · rw [finished_false] at hleft
    exact (tidyBelow_fillTree htidy).prune hleft
  · intro k hk
    obtain ⟨k', hk', -, rfl⟩ := Tree.mem_labels_of_mem_prune hleft hk
    rw [congrFun finished_false]
    exact hfilled k' hk'

/-- With the directives kept, a second run over its own result takes out nothing and changes nothing
that can be reached, in any document in which only elements branch and no element asks for a loop
outside of all loops. -/
theorem run_again_of_wellFormed (hw : IsWord names.hiddenClass.toList)
    (hc : Element.classKey ∉ names.all) {root : Value} {d : Document} (hd : d.WellFormed)
    (hb : d.OnlyElementsBranch)
    (hloops : ∀ e, Kind.element e ∈ d.tree.labels → loop? names (.ofRoot root) e = none) :
    let once := (finalize names false (process names root d)).1
    let again := finalize names false (process names root once)
    again.2 = 0 ∧ again.1.tree = once.tree := by
  intro once again
  have hnodes : ∀ k ∈ d.tree.labels, nodeLoop? names (.ofRoot root) k = none := by
    intro k hk
    cases k with
    | element e => exact hloops e hk
    | _ => rfl
  obtain ⟨honce, htidy, hsettled, hnone⟩ := settled_run hw hc hd (hd.tidyBelow_tree hb) hnodes
  exact hsettled.run_eq hc honce htidy hnone

/-- With the directives kept, a second run over its own result takes out nothing and changes nothing
that can be reached, if no element asks for a loop outside of all loops. -/
theorem finalize_process_again (start hiddenClass template : String) (data : Value)
    (hw : IsWord hiddenClass.toList)
    (hloops : ∀ e, Kind.element e ∈ (Html.parse template).document.tree.labels →
      loop? (Names.of start hiddenClass) (.ofRoot data) e = none) :
    let names := Names.of start hiddenClass
    let once := (finalize names false (process names data (Html.parse template).document)).1
    let again := finalize names false (process names data once)
    again.2 = 0 ∧ again.1.tree = once.tree :=
  run_again_of_wellFormed hw (Names.classKey_notMem_of start hiddenClass)
    (Html.parse_wellFormed template) (Html.parse_onlyElementsBranch template) hloops

/-- An element that is hidden, one that is shown with a value inside of it, and a loop over what is
no array. -/
theorem finalize_process_again_hidden :
    let template :=
      "<p if=\"b\">x</p><p if-not=\"b\"><i value=\"a\"></i></p><q each=\"x in a\"></q>"
    let data := Value.object [("a", .string "t")]
    let names := Names.of "" "remove-it"
    let once := (finalize names false (process names data (Html.parse template).document)).1
    let again := finalize names false (process names data once)
    IsWord "remove-it".toList ∧
      (∀ e, Kind.element e ∈ (Html.parse template).document.tree.labels →
        loop? names (.ofRoot data) e = none) ∧
      again.2 = 0 ∧ again.1.tree = once.tree := by
  intro template data names once again
  have hw : IsWord "remove-it".toList := by decide
  have htree : (Html.parse template).document.tree = .node .document [
      .node (.element ⟨"p", Attributes.empty.addNew "if" "b"⟩) [.node (.text "x") []],
      .node (.element ⟨"p", Attributes.empty.addNew "if-not" "b"⟩)
        [.node (.element ⟨"i", Attributes.empty.addNew "value" "a"⟩) []],
      .node (.element ⟨"q", Attributes.empty.addNew "each" "x in a"⟩) []] := by
    decide +kernel
  have hloops : ∀ e, Kind.element e ∈ (Html.parse template).document.tree.labels →
      loop? names (.ofRoot data) e = none := by
    intro e he
    rw [htree] at he
    simp only [Tree.labels_node, List.flatMap_cons, List.flatMap_nil, List.append_nil,
      List.cons_append, List.nil_append, List.mem_cons, List.not_mem_nil, or_false,
      reduceCtorEq, false_or, Kind.element.injEq] at he
    rw [← Option.isNone_iff_eq_none]
    rcases he with rfl | rfl | rfl | rfl
    · decide +kernel
    · decide +kernel
    · decide +kernel
    · decide +kernel
  exact ⟨hw, hloops, finalize_process_again "" "remove-it" template data hw hloops⟩

end Stencil.Directive
