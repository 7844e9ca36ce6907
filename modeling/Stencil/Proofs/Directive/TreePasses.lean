import Stencil.Directive.Passes
import Stencil.Proofs.Document.Edits
namespace Stencil.Directive

open Stencil.Data (Value)
open Stencil.Html (Document Element Kind NodeId textNodes)

/-! # Passes over trees

What the passes mean, without a store: functions from trees to trees. A loop turns one tree into a
list of trees, and the trees below a node are replaced by all that they turn into.
-/

variable (names : Names) (scope : Scope)

/-! ## Conditions and values -/

/-- The tree with its elements marked by their conditions. -/
def conditionTree : Tree Kind → Tree Kind :=
  Tree.map (Kind.mapElement (applyConditions names scope))

/-- The text that a node asks for. -/
def nodeText? (k : Kind) : Option String :=
  k.element?.bind (valueText? names scope)

/-- The tree with values put into its elements. Nothing is left of what a value replaces. -/
def valueTree : Tree Kind → Tree Kind
  | .node k ts =>
    match nodeText? names scope k with
    | some text => .node k (textNodes text)
    | none => .node k (ts.map valueTree)

variable {names scope}

@[simp] theorem conditionTree_node (k : Kind) (ts : List (Tree Kind)) :
    conditionTree names scope (.node k ts) =
      .node (k.mapElement (applyConditions names scope)) (ts.map (conditionTree names scope)) :=
  Tree.map_node ..

theorem valueTree_node_of_some {k : Kind} {text : String} (h : nodeText? names scope k = some text)
    (ts : List (Tree Kind)) : valueTree names scope (.node k ts) = .node k (textNodes text) := by
  rw [valueTree, h]

theorem valueTree_node_of_none {k : Kind} (h : nodeText? names scope k = none)
    (ts : List (Tree Kind)) :
    valueTree names scope (.node k ts) = .node k (ts.map (valueTree names scope)) := by
  rw [valueTree, h]

theorem nodeText?_of_not_element {k : Kind} (h : k.isElement = false) :
    nodeText? names scope k = none := by
  cases k <;> first | rfl | cases h

theorem isElement_of_nodeText? {k : Kind} {text : String}
    (h : nodeText? names scope k = some text) : k.isElement = true := by
  by_contra hk
  rw [nodeText?_of_not_element (Bool.eq_false_of_not_eq_true hk)] at h
  cases h

@[simp] theorem label_valueTree (t : Tree Kind) : (valueTree names scope t).label = t.label := by
  cases t with
  | node k ts =>
    rw [valueTree]
    split <;> rfl

/-! ### Heights and tidiness -/

theorem height_textNodes {text : String} {t : Tree Kind} (h : t ∈ textNodes text) :
    t.height = 1 := by
  unfold textNodes at h
  split at h
  · cases h
  · rw [List.mem_singleton.1 h, Tree.height]
    rfl

theorem tidy_textNodes {text : String} {t : Tree Kind} (h : t ∈ textNodes text) : t.Tidy := by
  unfold textNodes at h
  split at h
  · cases h
  · rw [List.mem_singleton.1 h, Tree.tidy_node_iff]
    simp

theorem isElement_label_textNodes {text : String} {t : Tree Kind} (h : t ∈ textNodes text) :
    t.label.isElement = false := by
  unfold textNodes at h
  split at h
  · cases h
  · rw [List.mem_singleton.1 h]
    rfl

theorem height_conditionTree_le {t : Tree Kind} :
    ∀ {n : Nat}, t.height ≤ n → (conditionTree names scope t).height ≤ n := by
  induction t with
  | node k ts ih =>
    intro n hn
    cases n with
    | zero => exact absurd hn (not_le.2 (Tree.height_pos _))
    | succ n =>
      rw [Tree.height_node_le_iff] at hn
      rw [conditionTree_node, Tree.height_node_le_iff, Kind.isElement_mapElement]
      refine ⟨hn.1, fun u hu => ?_⟩
      rcases List.mem_map.1 hu with ⟨t, ht, rfl⟩
      exact ih t ht (hn.2 t ht)

theorem height_valueTree_le {t : Tree Kind} :
    ∀ {n : Nat}, t.height ≤ n → (valueTree names scope t).height ≤ n := by
  induction t with
  | node k ts ih =>
    intro n hn
    cases n with
    | zero => exact absurd hn (not_le.2 (Tree.height_pos _))
    | succ n =>
      rw [Tree.height_node_le_iff] at hn
      cases htext : nodeText? names scope k with
      | some text =>
        -- an element has room for a text by the way heights are counted
        rw [valueTree_node_of_some htext, Tree.height_node_le_iff]
        constructor
        · exact hn.1
        · intro u hu
          rw [height_textNodes hu]
          exact hn.1 (isElement_of_nodeText? htext)
      | none =>
        rw [valueTree_node_of_none htext, Tree.height_node_le_iff]
        refine ⟨hn.1, fun u hu => ?_⟩
        rcases List.mem_map.1 hu with ⟨t, ht, rfl⟩
        exact ih t ht (hn.2 t ht)

theorem tidy_conditionTree {t : Tree Kind} (h : t.Tidy) : (conditionTree names scope t).Tidy := by
  induction t with
  | node k ts ih =>
    rw [Tree.tidy_node_iff] at h
    rw [conditionTree_node, Tree.tidy_node_iff, Kind.isElement_mapElement]
    refine ⟨fun hne => h.1 fun hnil => hne (by rw [hnil]; rfl), fun u hu => ?_⟩
    rcases List.mem_map.1 hu with ⟨t, ht, rfl⟩
    exact ih t ht (h.2 t ht)

theorem tidy_valueTree {t : Tree Kind} (h : t.Tidy) : (valueTree names scope t).Tidy := by
  induction t with
  | node k ts ih =>
    rw [Tree.tidy_node_iff] at h
    cases htext : nodeText? names scope k with
    | some text =>
      rw [valueTree_node_of_some htext, Tree.tidy_node_iff]
      exact ⟨fun _ => isElement_of_nodeText? htext, fun u hu => tidy_textNodes hu⟩
    | none =>
      rw [valueTree_node_of_none htext, Tree.tidy_node_iff]
      refine ⟨fun hne => h.1 fun hnil => hne (by rw [hnil]; rfl), fun u hu => ?_⟩
      rcases List.mem_map.1 hu with ⟨t, ht, rfl⟩
      exact ih t ht (h.2 t ht)

/-- A tidy tree that is no element is passed over. -/
theorem conditionTree_eq_self {t : Tree Kind} (ht : t.Tidy) (h : t.label.isElement = false) :
    conditionTree names scope t = t := by
  cases t with
  | node k ts =>
    rw [Tree.label_node] at h
    obtain rfl : ts = [] := ht.children_eq_nil h
    rw [conditionTree_node, Kind.mapElement_eq_self h]
    rfl

theorem valueTree_eq_self {t : Tree Kind} (ht : t.Tidy) (h : t.label.isElement = false) :
    valueTree names scope t = t := by
  cases t with
  | node k ts =>
    rw [Tree.label_node] at h
    obtain rfl : ts = [] := ht.children_eq_nil h
    rw [valueTree_node_of_none (nodeText?_of_not_element h)]
    rfl

/-- What a node holds once it has its value: the text in place of all else, or what it held. -/
def valueContent (names : Names) (scope : Scope) (k : Kind) (ts : List (Tree Kind)) :
    List (Tree Kind) :=
  match nodeText? names scope k with
  | some text => textNodes text
  | none => ts

theorem mem_valueContent {k : Kind} {ts : List (Tree Kind)} {t : Tree Kind}
    (h : t ∈ valueContent names scope k ts) :
    t ∈ ts ∨ k.isElement = true ∧ t.Tidy ∧ t.height = 1 := by
  unfold valueContent at h
  split at h
  · next htext =>
    exact Or.inr ⟨isElement_of_nodeText? htext, tidy_textNodes h, height_textNodes h⟩
  · exact Or.inl h

/-- Values may be put into a node first and into what it holds then: a text takes none. -/
theorem valueTree_node (k : Kind) (ts : List (Tree Kind)) :
    valueTree names scope (.node k ts) =
      .node k ((valueContent names scope k ts).map (valueTree names scope)) := by
  cases htext : nodeText? names scope k with
  | none => rw [valueTree_node_of_none htext, valueContent, htext]
  | some text =>
    rw [valueTree_node_of_some htext, valueContent, htext]
    -- a text is no element, so nothing more is put into it
    have hself : ∀ t ∈ textNodes text, valueTree names scope t = t := fun t ht =>
      valueTree_eq_self (tidy_textNodes ht) (isElement_label_textNodes ht)
    exact congrArg _ ((List.map_congr_left hself).trans (List.map_id _)).symm

/-! ## Loops -/

/-- The loop that a node asks for. -/
def nodeLoop? (names : Names) (scope : Scope) (k : Kind) : Option (String × List Value) :=
  k.element?.bind (loop? names scope)

/-- The tree with its conditions and then its values. -/
def fillTree (names : Names) (scope : Scope) (t : Tree Kind) : Tree Kind :=
  valueTree names scope (conditionTree names scope t)

theorem height_lt_of_mem_children {t u : Tree Kind} (h : u ∈ t.children) : u.height < t.height := by
  cases t with
  | node k ts =>
    cases hn : (Tree.node k ts).height with
    | zero => exact absurd hn (Tree.height_pos _).ne'
    | succ n => exact Nat.lt_succ_of_le ((Tree.height_node_le_iff.1 hn.le).2 u h)

theorem height_fillTree_le (t : Tree Kind) : (fillTree names scope t).height ≤ t.height :=
  height_valueTree_le (height_conditionTree_le le_rfl)

/-- What becomes of a tree when its loops are expanded: one tree for each item, filled with the item
bound and expanded below its top, or the tree itself expanded below its top. -/
def eachTree (names : Names) (scope : Scope) (t : Tree Kind) : List (Tree Kind) :=
  match nodeLoop? names scope t.label with
  | some (item, items) =>
    items.map fun v =>
      let inner := scope.bind item v
      let filled := fillTree names inner t
      .node filled.label (filled.children.attach.flatMap fun u => eachTree names inner u.1)
  | none => [.node t.label (t.children.attach.flatMap fun u => eachTree names scope u.1)]
termination_by t.height
decreasing_by
  · exact (height_lt_of_mem_children u.2).trans_le (height_fillTree_le t)
  · exact height_lt_of_mem_children u.2

/-- The tree that stands for one item of a loop. -/
def itemTree (names : Names) (scope : Scope) (t : Tree Kind) : Tree Kind :=
  .node (fillTree names scope t).label
    ((fillTree names scope t).children.flatMap (eachTree names scope))

theorem eachTree_of_some {t : Tree Kind} {item : String} {items : List Value}
    (h : nodeLoop? names scope t.label = some (item, items)) :
    eachTree names scope t = items.map fun v => itemTree names (scope.bind item v) t := by
  rw [eachTree, h]
  simp [itemTree, List.flatMap_subtype]

theorem eachTree_of_none {t : Tree Kind} (h : nodeLoop? names scope t.label = none) :
    eachTree names scope t = [.node t.label (t.children.flatMap (eachTree names scope))] := by
  rw [eachTree, h]
  simp [List.flatMap_subtype]

theorem nodeLoop?_of_not_element {k : Kind} (h : k.isElement = false) :
    nodeLoop? names scope k = none := by
  cases k <;> first | rfl | cases h

theorem eachTree_eq_self {t : Tree Kind} (ht : t.Tidy) (h : t.label.isElement = false) :
    eachTree names scope t = [t] := by
  cases t with
  | node k ts =>
    rw [Tree.label_node] at h
    obtain rfl : ts = [] := ht.children_eq_nil h
    have hloop : nodeLoop? names scope (Tree.node k []).label = none := nodeLoop?_of_not_element h
    rw [eachTree_of_none hloop]
    rfl

end Stencil.Directive
