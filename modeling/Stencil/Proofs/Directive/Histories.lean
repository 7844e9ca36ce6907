import Stencil.Directive.Finalize
import Stencil.Directive.Passes
import Stencil.Proofs.Directive.Refinement
import Stencil.Proofs.Document.Extension
namespace Stencil.Directive

open Stencil.Data (Value)
open Stencil.Html (Document Element Kind NodeId)
open Stencil.Html.Document (Extends)

/-! # Histories of documents

However a document has come about, its links form a forest: by parsing, by any operations on nodes
in any order, by the passes of the directives, by finishing it, and by all of these in turn. The
passes need no more for it than a forest to begin with, since each of their steps extends the
store.
-/

variable {names : Names} {scope : Scope}

/-! ## Passes -/

theorem extends_conditionLevels (names : Names) (scope : Scope) (levels : Nat) :
    ∀ (d : Document) (id : NodeId), d.WellFormed →
      Extends d (conditionLevels names scope levels d id) := by
  induction levels with
  | zero => exact fun d _ hd => .refl hd
  | succ levels ih =>
    intro d id hd
    have hmark := hd.extends_updateElement id (applyConditions names scope)
    exact hmark.trans (Extends.foldl hmark.wellFormed fun acc hacc child _ =>
      ih acc child hacc.wellFormed)

/-- An element is a node of its store. -/
theorem lt_size_of_element? {d : Document} {id : NodeId} {α : Type} {f : Element → Option α}
    {a : α} (h : (d.element? id).bind f = some a) : id < d.size := by
  rcases Option.bind_eq_some_iff.1 h with ⟨e, he, -⟩
  rcases Option.bind_eq_some_iff.1 he with ⟨k, hk, -⟩
  rcases Option.map_eq_some_iff.1 hk with ⟨n, hn, -⟩
  exact Document.lt_size_of_getElem? hn

theorem extends_applyValue (names : Names) (scope : Scope) {d : Document} (hd : d.WellFormed)
    (id : NodeId) : Extends d (applyValue names scope d id) := by
  unfold applyValue
  split
  · next text h => exact hd.extends_setText (lt_size_of_element? h) text
  · exact .refl hd

theorem extends_valueLevels (names : Names) (scope : Scope) (levels : Nat) :
    ∀ (d : Document) (id : NodeId), d.WellFormed →
      Extends d (valueLevels names scope levels d id) := by
  induction levels with
  | zero => exact fun d _ hd => .refl hd
  | succ levels ih =>
    intro d id hd
    have hfill := extends_applyValue names scope hd id
    exact hfill.trans (Extends.foldl hfill.wellFormed fun acc hacc child _ =>
      ih acc child hacc.wellFormed)

theorem extends_fillPass (names : Names) (scope : Scope) {d : Document} (hd : d.WellFormed)
    (id : NodeId) : Extends d (fillPass names scope d id) := by
  have hmark : Extends d (conditionPass names scope d id) :=
    extends_conditionLevels names scope _ d id hd
  exact hmark.trans (extends_valueLevels names scope _ _ id hmark.wellFormed)

/-- One more copy of the template of a loop, filled and expanded below its top. -/
def copyItem (names : Names) (levels : Nat) (inner : Scope) (template : NodeId) (d : Document) :
    Document × NodeId :=
  let (cloned, copy) := d.deepClone template
  let filled := fillPass names inner cloned copy
  ((filled.elementChildren copy).foldl (eachLevels names levels inner) filled, copy)

/-- What a loop does for one item. Its element may have no parent, and then the copy gets none. -/
def placeItem (names : Names) (levels : Nat) (inner : Scope) (parent : Option NodeId)
    (template id : NodeId) (d : Document) : Document :=
  let (made, copy) := copyItem names levels inner template d
  match parent with
  | some p => made.insertBefore p copy id
  | none => made

theorem eachLevels_of_loop {levels : Nat} {d : Document} {id : NodeId} {item : String}
    {items : List Value} (h : (d.element? id).bind (loop? names scope) = some (item, items)) :
    eachLevels names (levels + 1) scope d id =
      (items.foldl
        (fun acc v =>
          placeItem names levels (scope.bind item v) (d.parent? id) (d.deepClone id).2 id acc)
        (d.deepClone id).1).detach id := by
  rw [eachLevels, h]
  rfl

/-- All that happens to a copy happens among new nodes, so it may go below the parent of the
element, which is old. -/
theorem extends_placeItem {levels : Nat} {inner : Scope}
    (ih : ∀ (d : Document) (id : NodeId), d.WellFormed →
      Extends d (eachLevels names levels inner d id))
    {d : Document} (hd : d.WellFormed) (template id : NodeId) {parent : Option NodeId}
    (hparent : ∀ p, parent = some p → p < d.size) :
    Extends d (placeItem names levels inner parent template id d) := by
  have hclone := hd.clones_deepClone template
  have hfill := extends_fillPass names inner hclone.extension.wellFormed (d.deepClone template).2
  have hnest : Extends _ (copyItem names levels inner template d).1 :=
    hfill.trans (Extends.foldl hfill.wellFormed fun acc hacc child _ =>
      ih acc child hacc.wellFormed)
  have hall := hclone.extension.trans hnest
  cases parent with
  | none => exact hall
  | some p =>
    exact hall.link hd (hparent p rfl) hclone.copy_eq.ge
      (hclone.copy_lt.trans_le hnest.size_le) (Document.perm_placeBefore _ id)

theorem extends_eachLevels (names : Names) (levels : Nat) :
    ∀ (scope : Scope) (d : Document) (id : NodeId), d.WellFormed →
      Extends d (eachLevels names levels scope d id) := by
  induction levels with
  | zero => exact fun _ d _ hd => .refl hd
  | succ levels ih =>
    intro scope d id hd
    cases hloop : (d.element? id).bind (loop? names scope) with
    | none =>
      rw [eachLevels_of_none hloop]
      exact Extends.foldl hd fun acc hacc child _ => ih scope acc child hacc.wellFormed
    | some loop =>
      rcases loop with ⟨item, items⟩
      rw [eachLevels_of_loop hloop]
      have hclone := hd.clones_deepClone id
      have hparent : ∀ p, d.parent? id = some p → p < (d.deepClone id).1.size := fun p hp =>
        (hd.parent_lt_size hp).trans_le hclone.extension.size_le
      have hitem : ∀ acc, Extends (d.deepClone id).1 acc → ∀ v ∈ items,
          Extends acc (placeItem names levels (scope.bind item v) (d.parent? id) (d.deepClone id).2
            id acc) := by
        intro acc hacc v _
        exact extends_placeItem (ih (scope.bind item v)) hacc.wellFormed _ id fun p hp =>
          (hparent p hp).trans_le hacc.size_le
      have hall := hclone.extension.trans (Extends.foldl hclone.extension.wellFormed hitem)
      exact hall.trans (hall.wellFormed.extends_detach id)

/-- The three passes extend the store. -/
theorem extends_process (names : Names) (root : Value) {d : Document} (hd : d.WellFormed) :
    Extends d (process names root d) := by
  have hfill := extends_fillPass names (.ofRoot root) hd Document.root
  exact hfill.trans (extends_eachLevels names _ (.ofRoot root) _ Document.root hfill.wellFormed)

theorem extends_finishElement (names : Names) (strip : Bool) {d : Document} (hd : d.WellFormed)
    (id : NodeId) : Extends d (finishElement names strip d id).1 := by
  unfold finishElement
  split
  · exact .refl hd
  · split
    · exact .refl hd
    · split
      · exact hd.extends_detach id
      · split
        · exact hd.extends_updateElement id _
        · exact .refl hd

/-- Finishing a document extends its store, for it only unlinks. -/
theorem extends_finalize (names : Names) (strip : Bool) {d : Document} (hd : d.WellFormed) :
    Extends d (finalize names strip d).1 :=
  List.foldlRecOn (motive := fun acc : Document × Nat => Extends d acc.1) _ _ (.refl hd)
    fun _ hacc id _ => hacc.trans (extends_finishElement names strip hacc.wellFormed id)

/-! ## All histories -/

/-- One operation on nodes of the store. A node is linked below another one only if that one is
neither the node itself nor inside of it. -/
inductive Edit : Document → Document → Prop
  | create (d : Document) (kind : Kind) : Edit d (d.create kind).1
  | append {d : Document} {parent child : NodeId} (hp : parent < d.size) (hc : child < d.size)
      (hup : ¬ Relation.ReflTransGen d.IsChild parent child) : Edit d (d.append parent child)
  | insertBefore {d : Document} {parent child reference : NodeId} (hp : parent < d.size)
      (hc : child < d.size) (hr : reference < d.size)
      (hup : ¬ Relation.ReflTransGen d.IsChild parent child) :
      Edit d (d.insertBefore parent child reference)
  | detach {d : Document} {id : NodeId} (h : id < d.size) : Edit d (d.detach id)
  | deepClone {d : Document} {id : NodeId} (h : id < d.size) : Edit d (d.deepClone id).1
  | setText {d : Document} {id : NodeId} (h : id < d.size) (text : String) :
      Edit d (d.setText id text)
  | appendText {d : Document} {id : NodeId} (h : id < d.size) (text : String) :
      Edit d (d.appendText id text)

/-- The documents that come about: from nothing or from a text, by any sequence of operations and
of whole passes. -/
inductive Made : Document → Prop
  | empty : Made .empty
  | parse (text : String) : Made (Html.parse text).document
  | edit {d d' : Document} (h : Made d) (he : Edit d d') : Made d'
  | process {d : Document} (h : Made d) (names : Names) (root : Value) : Made (process names root d)
  | finalize {d : Document} (h : Made d) (names : Names) (strip : Bool) :
      Made (finalize names strip d).1

theorem Edit.wellFormed {d d' : Document} (h : Edit d d') (hd : d.WellFormed) :
    d'.WellFormed := by
  cases h with
  | create kind => exact hd.create kind
  | append hp hc hup => exact hd.link hp hc hup fun _ => List.perm_append_singleton _ _
  | insertBefore hp hc _ hup => exact hd.link hp hc hup (Document.perm_placeBefore _ _)
  | detach _ => exact hd.detach _
  | deepClone _ => exact (hd.clones_deepClone _).extension.wellFormed
  | setText h text => exact (hd.extends_setText h text).wellFormed
  | appendText h text => exact (hd.extends_appendText h text).wellFormed

theorem Made.wellFormed {d : Document} (h : Made d) : d.WellFormed := by
  induction h with
  | empty => exact Html.Builder.Sound.start.wellFormed
  | parse text => exact Html.parse_wellFormed text
  | edit _ he ih => exact he.wellFormed ih
  | process _ names root ih => exact (extends_process names root ih).wellFormed
  | finalize _ names strip ih => exact (extends_finalize names strip ih).wellFormed

/-- Both ways in which links are written down agree, every link leads to a node of the store, no
child stands twice in its place, and no way up comes back to where it began. -/
structure IsForest (d : Document) : Prop where
  parent_valid : ∀ c p, d.parent? c = some p → c < d.size ∧ p < d.size
  child_valid : ∀ c p, c ∈ d.children p → c < d.size ∧ p < d.size
  parent_iff : ∀ c p, d.parent? c = some p ↔ c ∈ d.children p
  once : ∀ c p, c ∈ d.children p → (d.children p).count c = 1
  acyclic : ∀ c, ¬ Relation.TransGen d.IsChild c c

/-- Every document that comes about is a forest. -/
theorem isForest_of_made {d : Document} (h : Made d) : IsForest d := by
  have hd := h.wellFormed
  constructor
  · intro c p hp
    exact ⟨Document.lt_size_of_parent? hp, hd.parent_lt_size hp⟩
  · intro c p hc
    exact ⟨hd.lt_size_of_child hc, Document.lt_size_of_mem_children hc⟩
  · exact hd.parent_iff
  · intro c p hc
    exact List.count_eq_one_of_mem (hd.nodup p) hc
  · exact hd.acyclic

/-- A copy of a parsed list goes before it, and then the passes work on both. -/
theorem isForest_of_made_copied_list :
    let parsed := (Html.parse "<ul><li each=\"x in xs\" value=\"x\">none</li></ul>").document
    let placed := (parsed.deepClone 1).1.insertBefore Document.root 4 1
    let filled := process (Names.of "" "remove-it")
      (.object [("xs", .array [.string "a", .string "b"])]) placed
    Made filled ∧ IsForest filled := by
  intro parsed placed filled
  have hcopied : Made (parsed.deepClone 1).1 := (Made.parse _).edit (.deepClone (by decide +kernel))
  have hup : ¬ Relation.ReflTransGen (parsed.deepClone 1).1.IsChild Document.root 4 := by
    intro h
    have hnone : (parsed.deepClone 1).1.parent? Document.root = none := by decide +kernel
    rcases Relation.ReflTransGen.cases_head h with heq | ⟨p, hp, -⟩
    · cases heq
    · rw [Document.IsChild, hnone] at hp
      cases hp
  have hfilled : Made filled := ((hcopied.edit (.insertBefore (by decide +kernel)
    (by decide +kernel) (by decide +kernel) hup)).process _ _)
  exact ⟨hfilled, isForest_of_made hfilled⟩

end Stencil.Directive
