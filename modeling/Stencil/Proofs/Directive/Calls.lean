import Stencil.Proofs.Directive.NewElements
namespace Stencil.Directive

open Stencil.Data (Value)
open Stencil.Html (Document NodeId)
open Stencil.Html.Document (Extends Narrows)

/-! # Calls of the passes

The loop pass puts new nodes into the document that it goes through, and the copies that it makes
ask for the same loops as what they are copies of. It still comes to an end: what it goes on to is
always lower than where it is. Here the passes are runs without a number of levels, with the tree of
all calls, and the levels of the store turn out to be enough for each of them.
-/

variable {names : Names} {step : Document → NodeId → Document}

/-! ## Runs -/

/-- A pass that takes a step at each node that it comes by, from the nodes that wait for their turn
until nothing is left to do. -/
inductive Walks (step : Document → NodeId → Document) : List NodeId → Document → Document → Prop
  | done (d : Document) : Walks step [] d d
  | visit {d d₁ d₂ : Document} {id : NodeId} {rest : List NodeId}
      (below : Walks step ((step d id).elementChildren id) (step d id) d₁)
      (later : Walks step rest d₁ d₂) : Walks step (id :: rest) d d₂

/-- A call of the loop pass: what is bound, the document as it is then, and the node. -/
structure Visit where
  scope : Scope
  document : Document
  id : NodeId

namespace Visit

/-- How high the node is, in the document as it is at the call. -/
def height (v : Visit) : Nat :=
  v.document.elementHeight v.id

/-- What a call may call: elements that are lower than its own node. -/
def Calls (caller callee : Visit) : Prop :=
  callee.document.isElement callee.id = true ∧ callee.height < caller.height

end Visit

/-- What the loop pass has to do: visit a node, visit the nodes of a list that has been taken down
before the first visit, or put one copy of a template in place for each item. -/
inductive Task
  | visit (scope : Scope) (id : NodeId)
  | each (scope : Scope) (ids : List NodeId)
  | copies (scope : Scope) (item : String) (items : List Value) (parent : Option NodeId)
      (template id : NodeId)

/-- A task has been carried out, with the given calls in turn. Nothing limits how deep the calls may
go. -/
inductive Runs (names : Names) : Task → Document → List (Tree Visit) → Document → Prop
  | pass {scope : Scope} {id : NodeId} {d d' : Document} {calls : List (Tree Visit)}
      (hloop : (d.element? id).bind (loop? names scope) = none)
      (below : Runs names (.each scope (d.elementChildren id)) d calls d') :
      Runs names (.visit scope id) d [.node ⟨scope, d, id⟩ calls] d'
  | expand {scope : Scope} {id : NodeId} {d d' : Document} {calls : List (Tree Visit)}
      {item : String} {items : List Value}
      (hloop : (d.element? id).bind (loop? names scope) = some (item, items))
      (copies : Runs names (.copies scope item items (d.parent? id) (d.deepClone id).2 id)
        (d.deepClone id).1 calls d') :
      Runs names (.visit scope id) d [.node ⟨scope, d, id⟩ calls] (d'.detach id)
  | none (scope : Scope) (d : Document) : Runs names (.each scope []) d [] d
  | next {scope : Scope} {id : NodeId} {rest : List NodeId} {d d₁ d₂ : Document}
      {calls calls' : List (Tree Visit)} (first : Runs names (.visit scope id) d calls d₁)
      (later : Runs names (.each scope rest) d₁ calls' d₂) :
      Runs names (.each scope (id :: rest)) d (calls ++ calls') d₂
  | placed (scope : Scope) (item : String) (parent : Option NodeId) (template id : NodeId)
      (d : Document) : Runs names (.copies scope item [] parent template id) d [] d
  | place {scope : Scope} {item : String} {v : Value} {items : List Value}
      {parent : Option NodeId} {template id : NodeId} {d marked filled nested d' : Document}
      {calls calls' : List (Tree Visit)}
      (mark : Walks (fun d id => d.updateElement id (applyConditions names (scope.bind item v)))
        [(d.deepClone template).2] (d.deepClone template).1 marked)
      (fill : Walks (applyValue names (scope.bind item v)) [(d.deepClone template).2] marked filled)
      (below : Runs names
        (.each (scope.bind item v) (filled.elementChildren (d.deepClone template).2)) filled calls
        nested)
      (later : Runs names (.copies scope item items parent template id)
        (parent.elim nested fun p => nested.insertBefore p (d.deepClone template).2 id) calls' d') :
      Runs names (.copies scope item (v :: items) parent template id) d (calls ++ calls') d'

theorem Walks.unique {ids : List NodeId} {d d₁ : Document} (h : Walks step ids d d₁) :
    ∀ {d₂}, Walks step ids d d₂ → d₁ = d₂ := by
  induction h with
  | done =>
    intro d₂ h'
    cases h'
    rfl
  | visit _ _ ihb ihl =>
    intro d₂ h'
    cases h' with
    | visit below later =>
      obtain rfl := ihb below
      exact ihl later

/-- A task is carried out in one way only. -/
theorem Runs.unique {task : Task} {d d₁ : Document} {calls : List (Tree Visit)}
    (h : Runs names task d calls d₁) :
    ∀ {calls' d₂}, Runs names task d calls' d₂ → calls' = calls ∧ d₂ = d₁ := by
  induction h with
  | pass hloop _ ih =>
    intro calls' d₂ h'
    cases h' with
    | pass _ below =>
      obtain ⟨rfl, rfl⟩ := ih below
      exact ⟨rfl, rfl⟩
    | expand hloop' _ => cases hloop.symm.trans hloop'
  | expand hloop _ ih =>
    intro calls' d₂ h'
    cases h' with
    | pass hloop' _ => cases hloop.symm.trans hloop'
    | expand hloop' copies =>
      cases hloop.symm.trans hloop'
      obtain ⟨rfl, rfl⟩ := ih copies
      exact ⟨rfl, rfl⟩
  | none =>
    intro calls' d₂ h'
    cases h'
    exact ⟨rfl, rfl⟩
  | next _ _ ihf ihl =>
    intro calls' d₂ h'
    cases h' with
    | next first later =>
      obtain ⟨rfl, rfl⟩ := ihf first
      obtain ⟨rfl, rfl⟩ := ihl later
      exact ⟨rfl, rfl⟩
  | placed =>
    intro calls' d₂ h'
    cases h'
    exact ⟨rfl, rfl⟩
  | place mark fill _ _ ihb ihl =>
    intro calls' d₂ h'
    cases h' with
    | place mark' fill' below later =>
      obtain rfl := mark.unique mark'
      obtain rfl := fill.unique fill'
      obtain ⟨rfl, rfl⟩ := ihb below
      obtain ⟨rfl, rfl⟩ := ihl later
      exact ⟨rfl, rfl⟩

/-! ## Levels are enough -/

/-- Nodes one after the other, if each of them can be walked in every store that comes by: what is
done before its turn makes no node higher. -/
theorem walks_foldl (hstep : AddsNoElement step) {levels : Nat}
    (hwalk : ∀ (d : Document) (id : NodeId), d.WellFormed → id < d.size →
      d.elementHeight id ≤ levels → Walks step [id] d (walkLevels step levels d id))
    (ids : List NodeId) : ∀ (d : Document), d.WellFormed →
      (∀ c ∈ ids, c < d.size ∧ d.elementHeight c ≤ levels) →
      Walks step ids d (ids.foldl (walkLevels step levels) d) := by
  induction ids with
  | nil => exact fun d _ _ => .done d
  | cons c ids ih =>
    intro d hd hids
    rw [List.forall_mem_cons] at hids
    have hnext := addsNoElement_walkLevels hstep levels d c hd
    have hlater := ih _ hnext.extension.wellFormed fun c' hc' =>
      ⟨(hids.2 c' hc').1.trans_le hnext.extension.size_le,
        (hnext.elementHeight_le hd (hids.2 c' hc').1 fun _ _ h => h).trans (hids.2 c' hc').2⟩
    cases hwalk d c hd hids.1.1 hids.1.2 with
    | visit below done =>
      cases done
      exact .visit below hlater

/-- As many levels as the elements below a node have are enough for a pass that adds no element. -/
theorem walks_walkLevels (hstep : AddsNoElement step) (levels : Nat) :
    ∀ (d : Document) (id : NodeId), d.WellFormed → id < d.size → d.elementHeight id ≤ levels →
      Walks step [id] d (walkLevels step levels d id) := by
  induction levels with
  | zero =>
    intro d id _ _ hheight
    exact absurd hheight (not_le.2 (d.elementHeight_pos id))
  | succ levels ih =>
    intro d id hd hid hheight
    have hfirst := hstep d id hd
    have hlow := (hfirst.elementHeight_le hd hid fun _ _ h => h).trans hheight
    have hwf := hfirst.extension.wellFormed
    refine .visit (walks_foldl hstep ih _ _ hwf ?_) (.done _)
    intro c hc
    exact ⟨Document.lt_size_of_parent? (hwf.isChild_of_mem_elementChildren hc),
      hwf.elementHeight_le_iff.1 hlow c hc⟩

/-- The store has levels enough for it. -/
theorem walks_size (hstep : AddsNoElement step) {d : Document} (hd : d.WellFormed) {id : NodeId}
    (h : id < d.size) : Walks step [id] d (walkLevels step d.size d id) :=
  walks_walkLevels hstep d.size d id hd h (hd.elementHeight_le_size h)

/-- Conditions and values fill a node in two walks, one after the other. -/
theorem walks_fillPass (names : Names) (scope : Scope) {d : Document} (hd : d.WellFormed)
    {id : NodeId} (h : id < d.size) :
    Walks (fun d id => d.updateElement id (applyConditions names scope)) [id] d
        (conditionPass names scope d id) ∧
      Walks (applyValue names scope) [id] (conditionPass names scope d id)
        (fillPass names scope d id) := by
  have hadds := addsNoElement_mark names scope
  have hmarked := (addsNoElement_walkLevels hadds d.size d id hd).extension
  have hfill := walks_size (addsNoElement_applyValue names scope) hmarked.wellFormed
    (h.trans_le hmarked.size_le)
  rw [← conditionLevels_eq_walkLevels, ← valueLevels_eq_walkLevels] at hfill
  refine ⟨?_, hfill⟩
  rw [conditionPass, conditionLevels_eq_walkLevels]
  exact walks_size hadds hd h

/-- All calls are to elements below some height and go down from there. -/
def CallsBelow (height : Nat) (calls : List (Tree Visit)) : Prop :=
  ∀ t ∈ calls, (t.label.document.isElement t.label.id = true ∧ t.label.height < height) ∧
    t.Edges Visit.Calls

theorem CallsBelow.append {n : Nat} {calls calls' : List (Tree Visit)} (h : CallsBelow n calls)
    (h' : CallsBelow n calls') : CallsBelow n (calls ++ calls') :=
  List.forall_mem_append.2 ⟨h, h'⟩

/-- Every visit of a node that is no higher than `levels` comes to an end, with calls that go
down. -/
def Ends (names : Names) (levels : Nat) : Prop :=
  ∀ (scope : Scope) (d : Document) (id : NodeId), d.WellFormed → id < d.size →
    d.elementHeight id ≤ levels → ∃ calls, CallsBelow (d.elementHeight id) calls ∧
      Runs names (.visit scope id) d [.node ⟨scope, d, id⟩ calls]
        (eachLevels names levels scope d id)

/-- The children of a node, one after the other. Each is as high at its turn as it was at first: the
loops of its siblings put their copies below the parent or below themselves. -/
theorem Ends.each {levels : Nat} (hends : Ends names levels) (scope : Scope) {d : Document}
    (hd : d.WellFormed) {p : NodeId} (hheight : d.elementHeight p ≤ levels + 1) :
    ∃ calls, CallsBelow (d.elementHeight p) calls ∧
      Runs names (.each scope (d.elementChildren p)) d calls
        ((d.elementChildren p).foldl (eachLevels names levels scope) d) := by
  have hall : ∀ (rest : List NodeId) (acc : Document), rest ⊆ d.elementChildren p → rest.Nodup →
      Narrows (fun j => ∀ c ∈ rest, ¬ Relation.ReflTransGen d.IsChild j c) d acc →
      ∃ calls, CallsBelow (d.elementHeight p) calls ∧
        Runs names (.each scope rest) acc calls
          (rest.foldl (eachLevels names levels scope) acc) := by
    intro rest
    induction rest with
    | nil => exact fun acc _ _ _ => ⟨[], fun _ h => absurd h List.not_mem_nil, .none scope acc⟩
    | cons c rest ih =>
      intro acc hsub hn hacc
      rw [List.cons_subset] at hsub
      rw [List.nodup_cons] at hn
      have hup := hd.isChild_of_mem_elementChildren hsub.1
      have hlt := Document.lt_size_of_parent? hup
      have hwf := hacc.extension.wellFormed
      have hlow := hacc.elementHeight_le hd hlt fun j hj hout => hout c List.mem_cons_self hj
      obtain ⟨below, hbelow, hrun⟩ := hends scope acc c hwf (hlt.trans_le hacc.extension.size_le)
        (hlow.trans (hd.elementHeight_le_iff.1 hheight c hsub.1))
      -- nothing around this child is below one of the others
      have hapart : ∀ j < d.size, Around acc c j →
          ∀ c' ∈ rest, ¬ Relation.ReflTransGen d.IsChild j c' := by
        intro j hj ha c' hc'
        have hup' := hd.isChild_of_mem_elementChildren (hsub.2 hc')
        have hne : c' ≠ c := fun he => hn.1 (he ▸ hc')
        exact (ha.old hacc.extension hd hlt hj).not_below_sibling hd hup hup' hne
      have hkept : Narrows (fun j => ∀ c' ∈ rest, ¬ Relation.ReflTransGen d.IsChild j c') d acc :=
        hacc.mono fun j _ hout c' hc' => hout c' (List.mem_cons_of_mem _ hc')
      have hnext := hkept.trans (narrows_eachLevels names levels scope acc c hwf) hapart
      obtain ⟨calls, hcalls, hlater⟩ := ih _ hsub.2 hn.2 hnext
      refine ⟨_, CallsBelow.append ?_ hcalls, .next hrun hlater⟩
      intro t ht
      rw [List.mem_singleton.1 ht]
      refine ⟨⟨?_, hlow.trans_lt (hd.elementHeight_lt hsub.1)⟩, Tree.edges_node_iff.2 hbelow⟩
      exact (hacc.isElement_eq c hlt).trans (Document.mem_elementChildren.1 hsub.1).2
  refine hall _ d (List.Subset.refl _) ((hd.nodup p).filter _) ?_
  exact .refl hd

theorem placeItem_eq_elim (levels : Nat) (inner : Scope) (parent : Option NodeId)
    (template id : NodeId) {d cloned filled : Document} {copy : NodeId}
    (hclone : d.deepClone template = (cloned, copy))
    (hfill : fillPass names inner cloned copy = filled) :
    placeItem names levels inner parent template id d =
      parent.elim ((filled.elementChildren copy).foldl (eachLevels names levels inner) filled)
        fun p => ((filled.elementChildren copy).foldl (eachLevels names levels inner)
          filled).insertBefore p copy id := by
  subst hfill
  cases parent <;> simp only [placeItem, copyItem, hclone] <;> rfl

/-- The copies for the items of a loop. The template stays as it is, so each copy is as high as the
first one. -/
theorem Ends.copies {levels : Nat} (hends : Ends names levels) (scope : Scope) (item : String)
    {d : Document} (hd : d.WellFormed) (parent : Option NodeId) {template : NodeId} (id : NodeId)
    (hparent : ∀ p, parent = some p → p < d.size) (hnew : d.size ≤ template) {n : Nat}
    (hn : n ≤ levels + 1) (items : List Value) :
    ∀ (acc : Document), Extends d acc → template < acc.size → acc.elementHeight template ≤ n →
      ∃ calls, CallsBelow n calls ∧
        Runs names (.copies scope item items parent template id) acc calls
          (items.foldl
            (fun acc v => placeItem names levels (scope.bind item v) parent template id acc)
            acc) := by
  induction items with
  | nil =>
    intro acc _ _ _
    exact ⟨[], fun _ h => absurd h List.not_mem_nil, .placed ..⟩
  | cons v items ih =>
    intro acc hacc hin hheight
    have hwf := hacc.wellFormed
    have hclone := hwf.clones_deepClone template
    have hcloned := hclone.extension.wellFormed
    obtain ⟨hmark, hfill⟩ := walks_fillPass names (scope.bind item v) hcloned hclone.copy_lt
    have hfilled := addsNoElement_fillPass names (scope.bind item v) _
      (acc.deepClone template).2 hcloned
    -- a copy is as high as the template, and filling it makes it no higher
    have hcopy := (hfilled.elementHeight_le hcloned hclone.copy_lt fun _ _ h => h).trans
      (hwf.elementHeight_deepClone hin).le
    have hcopy' := hcopy.trans hheight
    obtain ⟨calls, hcalls, hbelow⟩ := hends.each (scope.bind item v) hfilled.extension.wellFormed
      (hcopy'.trans hn)
    have hplace := narrows_placeItem (narrows_eachLevels names levels (scope.bind item v)) hwf hin
      id fun p hp => (hparent p hp).trans_le hacc.size_le
    have hkept := hplace.elementHeight_le hwf hin (by
      intro p hbelow hp
      exact absurd (hacc.lt_size_of_above hd (hparent p hp) hbelow) (not_lt.2 hnew))
    obtain ⟨calls', hcalls', hlater⟩ := ih _ (hacc.trans hplace.extension)
      (hin.trans_le hplace.extension.size_le) (hkept.trans hheight)
    have hdeeper : CallsBelow n calls := fun t ht =>
      ⟨⟨(hcalls t ht).1.1, (hcalls t ht).1.2.trans_le hcopy'⟩, (hcalls t ht).2⟩
    refine ⟨calls ++ calls', hdeeper.append hcalls', ?_⟩
    rw [List.foldl_cons]
    rw [placeItem_eq_elim levels _ parent template id rfl rfl] at hlater ⊢
    exact .place hmark hfill hbelow hlater

/-- Going down ends: the induction is on the levels that the node still has. -/
theorem ends (names : Names) (levels : Nat) : Ends names levels := by
  induction levels with
  | zero =>
    intro scope d id _ _ hheight
    exact absurd hheight (not_le.2 (d.elementHeight_pos id))
  | succ levels ih =>
    intro scope d id hd hid hheight
    cases hloop : (d.element? id).bind (loop? names scope) with
    | none =>
      obtain ⟨calls, hcalls, hrun⟩ := ih.each scope hd hheight
      rw [eachLevels_of_none hloop]
      exact ⟨calls, hcalls, .pass hloop hrun⟩
    | some loop =>
      rcases loop with ⟨item, items⟩
      have hclone := hd.clones_deepClone id
      have hparent : ∀ p, d.parent? id = some p → p < d.size := fun p hp => hd.parent_lt_size hp
      obtain ⟨calls, hcalls, hrun⟩ := ih.copies scope item hd (d.parent? id) id hparent
        hclone.copy_eq.ge hheight items _ hclone.extension hclone.copy_lt
        (hd.elementHeight_deepClone hid).le
      refine ⟨calls, hcalls, ?_⟩
      rw [eachLevels_of_loop hloop]
      exact .expand hloop hrun

/-- The loop pass comes to an end in one way only, which is what it does within the levels of the
store. Every call that it makes on its way is to an element lower than the node of the caller, so
its calls go no deeper than the element tree that it starts with is high. -/
theorem exists_calls_eachPass (names : Names) (scope : Scope) {d : Document} (hd : d.WellFormed)
    {id : NodeId} (h : id < d.size) :
    ∃ call : Tree Visit,
      (∀ calls d', Runs names (.visit scope id) d calls d' ↔
        calls = [call] ∧ d' = eachPass names scope d id) ∧
      call.label = ⟨scope, d, id⟩ ∧ call.Edges Visit.Calls ∧ call.depth ≤ d.elementHeight id := by
  obtain ⟨calls, hcalls, hrun⟩ := ends names d.size scope d id hd h (hd.elementHeight_le_size h)
  have hedges : (Tree.node ⟨scope, d, id⟩ calls).Edges Visit.Calls := Tree.edges_node_iff.2 hcalls
  refine ⟨.node ⟨scope, d, id⟩ calls, fun calls' d' => ⟨hrun.unique, ?_⟩, rfl, hedges, ?_⟩
  · rintro ⟨rfl, rfl⟩
    exact hrun
  · exact Tree.Edges.depth_le (f := Visit.height) (fun v => v.document.elementHeight_pos v.id)
      (hedges.mono fun _ _ hlow => hlow.2)

/-- Loops that run over their own variable: a list of lists, whose items are bound to the name of
the list. -/
theorem exists_calls_eachPass_own_variable :
    let d := (Html.parse "<ul each=\"x in x\"><li each=\"x in x\"><b>t</b></li></ul>").document
    let names := Names.of "" "remove-it"
    let scope := Scope.ofRoot (.object [("x", .array [.array [.string "a"], .array []])])
    d.WellFormed ∧ Document.root < d.size ∧ d.elementHeight Document.root = 4 ∧
      ∃ call : Tree Visit,
        (∀ calls d', Runs names (.visit scope Document.root) d calls d' ↔
          calls = [call] ∧ d' = eachPass names scope d Document.root) ∧
        call.label = ⟨scope, d, Document.root⟩ ∧ call.Edges Visit.Calls ∧ call.depth ≤ 4 := by
  intro d names scope
  have hd : d.WellFormed := Html.parse_wellFormed _
  have hin : Document.root < d.size := hd.root_lt_size
  have hheight : d.elementHeight Document.root = 4 := by decide +kernel
  obtain ⟨call, hruns, hlabel, hedges, hdepth⟩ := exists_calls_eachPass names scope hd hin
  exact ⟨hd, hin, hheight, call, hruns, hlabel, hedges, hheight ▸ hdepth⟩

end Stencil.Directive
