import Stencil.Proofs.Directive.Finalized
import Stencil.Proofs.Directive.Histories
namespace Stencil.Directive

open Stencil.Html (Attributes Document Element Kind)

/-! # Finishing is pruning

What finishing does to the tree of a document is a pruning, and the number that it returns is that
of the marked elements of the tree before. So what is left has nothing more to take out, and
keeping the directives first and removing them afterwards leaves what removing them alone leaves.
-/

variable {names : Names} {strip : Bool}

/-! ## Marked elements -/

/-- The attributes that an element is looked at for. -/
def Names.lookedFor (names : Names) (strip : Bool) : List String :=
  if strip then names.all else [names.if_, names.ifNot]

/-- Whether a node is an element that has one of these attributes and the hidden class. -/
def isMarked (names : Names) (strip : Bool) (k : Kind) : Bool :=
  k.element?.any fun e => (names.lookedFor strip).any e.hasAttr && e.hasClass names.hiddenClass

/-- An element that stays: without its directives, if they are to go. -/
def keptElement (names : Names) (strip : Bool) (e : Element) : Element :=
  if strip then { e with attrs := e.attrs.without names.all } else e

theorem isCandidate_eq_any (names : Names) (strip : Bool) (e : Element) :
    isCandidate names strip e = (names.lookedFor strip).any e.hasAttr := by
  cases strip with
  | true =>
    simp [isCandidate, Names.lookedFor, Names.all, Names.flags, Flags.any, Bool.or_assoc]
  | false => simp [isCandidate, Names.lookedFor, Names.flags, Flags.isConditional]

theorem isDropped_eq_isMarked (names : Names) (strip : Bool) :
    isDropped names strip = isMarked names strip := by
  funext k
  unfold isDropped isMarked
  simp only [isCandidate_eq_any]

/-- Removing the directives one after the other is leaving all of them out. -/
theorem stripDirectives_eq (names : Names) (e : Element) :
    stripDirectives names e = { e with attrs := e.attrs.without names.all } := by
  have hfold : ∀ (ns : List String) (e : Element),
      ns.foldl Element.removeAttr e = { e with attrs := ns.foldl Attributes.erase e.attrs } := by
    intro ns
    induction ns with
    | nil => exact fun _ => rfl
    | cons n ns ih => exact fun e => ih (e.removeAttr n)
  rw [stripDirectives, hfold, Attributes.foldl_erase]

theorem finishedElement_eq_keptElement (names : Names) (strip : Bool) :
    finishedElement names strip = keptElement names strip := by
  funext e
  unfold finishedElement keptElement
  cases strip with
  | false => rfl
  | true =>
    rw [Bool.true_and, if_pos rfl, stripDirectives_eq]
    split
    · rfl
    · next h =>
      -- an element without directives has nothing to lose
      have hnone : ∀ name ∈ names.all, e.attrs.has name = false := by
        rw [isCandidate_eq_any, List.any_eq_true] at h
        intro name hname
        exact Bool.eq_false_iff.2 fun hhas => h ⟨name, hname, hhas⟩
      rw [Attributes.without_eq_self hnone]

/-- The tree of a finished document is the tree before, pruned: a marked element goes with all that
is inside of it, and every other node stays in its place. The marked elements are counted, those
inside of others that go as well. -/
theorem tree_finalize (names : Names) (strip : Bool) {d : Document} (hd : d.WellFormed) :
    d.tree.prune (isMarked names strip) (Kind.mapElement (keptElement names strip)) =
        [(finalize names strip d).1.tree] ∧
      (finalize names strip d).2 = d.tree.labels.countP (isMarked names strip) := by
  obtain ⟨t, hid, ht, hn, hlabel, htree⟩ := hd.exists_tree
  rw [htree, ← isDropped_eq_isMarked, ← finishedElement_eq_keptElement]
  constructor
  · exact prune_eq_tree_finalize names strip hid ht hn (by rw [hlabel]; rfl)
  · exact finalize_snd hid ht hn

/-- A marked element inside of another one, and one that loses its value. -/
theorem tree_finalize_nested :
    let names := Names.of "" "remove-it"
    let d := process names (.object [])
      (Html.parse "<p if=\"@\"><b if=\"@\">x</b></p><i value=\"a\">y</i>").document
    d.WellFormed ∧
      d.tree.prune (isMarked names true) (Kind.mapElement (keptElement names true)) =
        [(finalize names true d).1.tree] ∧
      (finalize names true d).2 = d.tree.labels.countP (isMarked names true) ∧
      (finalize names true d).2 = 2 := by
  intro names d
  have hd : d.WellFormed := (extends_process names _ (Html.parse_wellFormed _)).wellFormed
  obtain ⟨htree, hcount⟩ := tree_finalize names true hd
  exact ⟨hd, htree, hcount, by decide +kernel⟩

/-! ## What is left -/

/-- What is left was in the tree before, was not marked, and has lost its directives if they were
to go. -/
theorem exists_of_mem_finalize {d : Document} (hd : d.WellFormed) {e : Element}
    (h : Kind.element e ∈ (finalize names strip d).1.tree.labels) :
    ∃ e', Kind.element e' ∈ d.tree.labels ∧ isMarked names strip (.element e') = false ∧
      keptElement names strip e' = e := by
  have hleft : (finalize names strip d).1.tree ∈
      d.tree.prune (isMarked names strip) (Kind.mapElement (keptElement names strip)) := by
    rw [(tree_finalize names strip hd).1]
    exact List.mem_singleton_self _
  obtain ⟨k, hk, hmarked, hkept⟩ := Tree.mem_labels_of_mem_prune hleft h
  cases k with
  | element e' => exact ⟨e', hk, hmarked, Kind.element.inj hkept⟩
  | _ => cases hkept

/-- Once the directives have gone there are none. -/
theorem hasAttr_of_mem_finalize_true {d : Document} (hd : d.WellFormed) {e : Element}
    (h : Kind.element e ∈ (finalize names true d).1.tree.labels) :
    ∀ name ∈ names.all, e.hasAttr name = false := by
  obtain ⟨e', -, -, rfl⟩ := exists_of_mem_finalize hd h
  intro name hname
  exact Attributes.has_without hname

/-- With the directives kept, no element with a condition is marked. -/
theorem hasClass_of_mem_finalize_false {d : Document} (hd : d.WellFormed) {e : Element}
    (h : Kind.element e ∈ (finalize names false d).1.tree.labels)
    (hcond : e.hasAttr names.if_ = true ∨ e.hasAttr names.ifNot = true) :
    e.hasClass names.hiddenClass = false := by
  obtain ⟨e', -, hmarked, rfl⟩ := exists_of_mem_finalize hd h
  have hany : (names.lookedFor false).any e'.hasAttr = true := by
    rw [List.any_eq_true]
    rcases hcond with hif | hnot
    · exact ⟨names.if_, by simp [Names.lookedFor], hif⟩
    · exact ⟨names.ifNot, by simp [Names.lookedFor], hnot⟩
  rw [isMarked, Kind.element?, Option.any_some, hany, Bool.true_and] at hmarked
  exact hmarked

/-! ## Finishing again -/

/-- Finishing leaves a document as it is, store and all, if no element that is looked at is marked
or has directives that are to go. -/
theorem finalize_eq_self {d : Document} (hd : d.WellFormed)
    (h : ∀ e, Kind.element e ∈ d.tree.labels → isCandidate names strip e = true →
      e.hasClass names.hiddenClass = false ∧ strip = false) :
    finalize names strip d = (d, 0) := by
  obtain ⟨t, hid, ht, hn, -, htree⟩ := hd.exists_tree
  have hturn : ∀ id ∈ t.elementIds, finishElement names strip d id = (d, false) := by
    intro id hmem
    obtain ⟨s, hs, rfl⟩ := List.mem_map.1 hmem
    have hlabel : s.kind ∈ d.tree.labels := by
      rw [htree, Tree.kinds, Tree.labels_map]
      exact List.mem_map_of_mem (List.mem_filter.1 hs).1
    have hkind := ht.kind?_of_mem_labels (List.mem_filter.1 hs).1
    unfold finishElement Document.element?
    rw [hkind]
    cases hk : s.kind with
    | element e =>
      simp only [Option.bind_some, Kind.element?]
      cases hcand : isCandidate names strip e with
      | false => rfl
      | true =>
        obtain ⟨hclass, rfl⟩ := h e (hk ▸ hlabel) hcand
        simp [hclass]
    | _ => rfl
  unfold finalize
  rw [← hid, ht.descendantElements_eq hn]
  -- no turn changes the document or the count
  refine List.foldlRecOn (motive := fun acc => acc = (d, 0)) _ _ rfl ?_
  rintro _ rfl id hmem
  simp only [hturn id hmem, Bool.false_eq_true, if_false]

/-- What has been finished has nothing left to finish in the same way. -/
theorem finalize_again (names : Names) (strip : Bool) {d : Document} (hd : d.WellFormed) :
    finalize names strip (finalize names strip d).1 = ((finalize names strip d).1, 0) := by
  refine finalize_eq_self (extends_finalize names strip hd).wellFormed ?_
  intro e he hcand
  rw [isCandidate_eq_any] at hcand
  cases strip with
  | true =>
    -- without directives no element is looked at
    obtain ⟨name, hname, hhas⟩ := List.any_eq_true.1 hcand
    rw [hasAttr_of_mem_finalize_true hd he name hname] at hhas
    cases hhas
  | false =>
    have hcond : e.hasAttr names.if_ = true ∨ e.hasAttr names.ifNot = true := by
      simpa [Names.lookedFor] using hcand
    exact ⟨hasClass_of_mem_finalize_false hd he hcond, rfl⟩

/-- What is marked with the directives kept is marked when they are to go. -/
theorem isMarked_true_of_false {k : Kind} (h : isMarked names false k = true) :
    isMarked names true k = true := by
  obtain ⟨e, he, hboth⟩ := (Option.any_eq_true _ _).1 h
  rw [Bool.and_eq_true, List.any_eq_true] at hboth
  obtain ⟨⟨name, hname, hhas⟩, hclass⟩ := hboth
  have hmem : name ∈ names.lookedFor true := by
    have hcond : name = names.if_ ∨ name = names.ifNot := by simpa [Names.lookedFor] using hname
    rcases hcond with rfl | rfl
    · simp [Names.lookedFor, Names.all]
    · simp [Names.lookedFor, Names.all]
  refine (Option.any_eq_true _ _).2 ⟨e, he, ?_⟩
  rw [Bool.and_eq_true, List.any_eq_true]
  exact ⟨⟨name, hmem, hhas⟩, hclass⟩

/-- Keeping the directives first takes nothing out that removing them would have left. -/
theorem tree_finalize_true_false (names : Names) {d : Document} (hd : d.WellFormed) :
    (finalize names true (finalize names false d).1).1.tree = (finalize names true d).1.tree := by
  have hkeep := (tree_finalize names false hd).1
  have hstrip := (tree_finalize names true (extends_finalize names false hd).wellFormed).1
  have halone := (tree_finalize names true hd).1
  have hself : Kind.mapElement (keptElement names false) = fun k => k :=
    funext fun k => Kind.mapElement_id k
  have hboth : (fun k => isMarked names false k || isMarked names true k) =
      isMarked names true := by
    funext k
    cases hk : isMarked names false k with
    | true => exact (isMarked_true_of_false hk).symm
    | false => rfl
  have hrow : [(finalize names true (finalize names false d).1).1.tree] =
      [(finalize names true d).1.tree] := by
    calc [(finalize names true (finalize names false d).1).1.tree]
        = ([(finalize names false d).1.tree]).flatMap
            (Tree.prune (isMarked names true) (Kind.mapElement (keptElement names true))) := by
          rw [List.flatMap_singleton, hstrip]
      _ = d.tree.prune (isMarked names true) (Kind.mapElement (keptElement names true)) := by
          rw [← hkeep, Tree.prune_prune, hself, hboth]
      _ = [(finalize names true d).1.tree] := halone
  exact List.singleton_inj.1 hrow

/-- The two ways to finish a document compose: keeping the directives and then removing them is
removing them, and either way is settled after one run. After it no directive is left, or no marked
element with a condition. -/
theorem finalize_modes (names : Names) {d : Document} (hd : d.WellFormed) :
    (finalize names true (finalize names false d).1).1.tree = (finalize names true d).1.tree ∧
      (∀ strip, finalize names strip (finalize names strip d).1 =
        ((finalize names strip d).1, 0)) ∧
      (∀ e, Kind.element e ∈ (finalize names true d).1.tree.labels →
        ∀ name ∈ names.all, e.hasAttr name = false) ∧
      ∀ e, Kind.element e ∈ (finalize names false d).1.tree.labels →
        e.hasAttr names.if_ = true ∨ e.hasAttr names.ifNot = true →
          e.hasClass names.hiddenClass = false :=
  ⟨tree_finalize_true_false names hd, fun strip => finalize_again names strip hd,
    fun _ he => hasAttr_of_mem_finalize_true hd he,
    fun _ he hcond => hasClass_of_mem_finalize_false hd he hcond⟩

/-- A marked element without a condition, which only the removal of directives takes out, around a
marked one with a condition. -/
theorem finalize_modes_nested :
    let d := (Html.parse
      "<p value=\"a\" class=\"remove-it\"><b if=\"c\" class=\"remove-it\">x</b></p>").document
    let names := Names.of "" "remove-it"
    d.WellFormed ∧
      (finalize names true (finalize names false d).1).1.tree = (finalize names true d).1.tree ∧
      (∀ strip, finalize names strip (finalize names strip d).1 =
        ((finalize names strip d).1, 0)) ∧
      (∀ e, Kind.element e ∈ (finalize names true d).1.tree.labels →
        ∀ name ∈ names.all, e.hasAttr name = false) ∧
      ∀ e, Kind.element e ∈ (finalize names false d).1.tree.labels →
        e.hasAttr names.if_ = true ∨ e.hasAttr names.ifNot = true →
          e.hasClass names.hiddenClass = false :=
  ⟨Html.parse_wellFormed _, finalize_modes _ (Html.parse_wellFormed _)⟩

end Stencil.Directive
