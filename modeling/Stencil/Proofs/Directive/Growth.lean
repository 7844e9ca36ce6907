import Stencil.Proofs.Directive.Conditions
import Stencil.Proofs.Directive.TreePasses
namespace Stencil

/-! # What grows from a template

The passes go over a place in a template again and again, once for each scope around it. Here every
node of the document afterwards is described at once, with the scope it stands in and the place it
comes from: its classes are those that the conditions of all scopes around it leave, from the
outermost inwards, and its content is put by the innermost of these scopes that puts any.
-/

namespace Scope

open Stencil.Data (Value)

/-- The scopes around a place, from its own outwards to that of the root data. -/
def enclosing (s : Scope) : List Scope :=
  s.bindings.tails.map fun bindings => ⟨bindings, s.root⟩

@[simp] theorem enclosing_ofRoot (root : Value) : (ofRoot root).enclosing = [ofRoot root] := rfl

@[simp] theorem enclosing_bind (s : Scope) (name : String) (v : Value) :
    (s.bind name v).enclosing = s.bind name v :: s.enclosing := rfl

/-- Every scope is made from that of the root data by binding one name after the other. -/
theorem ind {motive : Scope → Prop} (ofRoot : ∀ root, motive (ofRoot root))
    (bind : ∀ s name v, motive s → motive (s.bind name v)) : ∀ s, motive s
  | ⟨[], root⟩ => ofRoot root
  | ⟨(name, v) :: rest, root⟩ => bind ⟨rest, root⟩ name v (ind ofRoot bind ⟨rest, root⟩)

/-- The scopes around a place but its own, in which the variable of its innermost loop is not bound
yet. -/
def outer (s : Scope) : List Scope :=
  s.enclosing.tail

theorem enclosing_eq_cons (s : Scope) : s.enclosing = s :: s.outer := by
  cases s with
  | mk bindings root => cases bindings <;> rfl

end Scope

namespace Directive

open Stencil.Data (Value)
open Stencil.Html (Element Kind textNodes)

/-! ## Nodes and where they come from -/

/-- A node of the document afterwards: the scope it stands in, the tree of the template that it was
made from, if it is no text of a value, and what it is. -/
structure Instance where
  scope : Scope
  source : Option (Tree Kind)
  kind : Kind

/-- What the conditions of all scopes around a place make of an element. -/
def markedIn (names : Names) (scope : Scope) (e : Element) : Element :=
  scope.enclosing.foldr (fun s e => applyConditions names s e) e

/-- The text that the innermost scope around a place puts into a node, of those that put any. -/
def textIn? (names : Names) (scope : Scope) (k : Kind) : Option String :=
  scope.enclosing.findSome? fun s => nodeText? names s k

/-- The scopes of the nodes that a node turns into: one for each item of its loop, or the scope it
stands in if it has no loop. -/
def scopesOf (names : Names) (scope : Scope) (k : Kind) : List Scope :=
  match nodeLoop? names scope k with
  | some (item, items) => items.map (scope.bind item)
  | none => [scope]

/-- A text that has been put in a scope. -/
def textInstance (scope : Scope) (k : Kind) : Instance :=
  ⟨scope, none, k⟩

/-- All that grows from a tree of a template in a scope. -/
def grow (names : Names) (scope : Scope) : Tree Kind → List (Tree Instance)
  | .node k ts =>
    (scopesOf names scope k).map fun s =>
      .node ⟨s, some (.node k ts), k.mapElement (markedIn names s)⟩
        (match textIn? names s k with
        | some text => (textNodes text).map (Tree.map (textInstance s))
        | none => ts.flatMap (grow names s))

variable {names : Names} {scope : Scope}

/-- What grows inside of a node, once its own scope is known. -/
def growBelow (names : Names) (scope : Scope) (k : Kind) (ts : List (Tree Kind)) :
    List (Tree Instance) :=
  match textIn? names scope k with
  | some text => (textNodes text).map (Tree.map (textInstance scope))
  | none => ts.flatMap (grow names scope)

/-- The node that grows from a node in its own scope. -/
def instanceOf (names : Names) (scope : Scope) (k : Kind) (ts : List (Tree Kind)) :
    Tree Instance :=
  .node ⟨scope, some (.node k ts), k.mapElement (markedIn names scope)⟩
    (growBelow names scope k ts)

theorem grow_node (k : Kind) (ts : List (Tree Kind)) :
    grow names scope (.node k ts) =
      (scopesOf names scope k).map fun s => instanceOf names s k ts := by
  rw [grow]
  rfl

/-- A node that has grown is a text that was put there, or it stands in its scope as its source
says, which is a tree of the template. -/
theorem eq_instanceOf_of_mem_grow {t : Tree Kind} : ∀ {scope : Scope} {g u : Tree Instance},
    g ∈ grow names scope t → u ∈ g.subtrees →
      u.label.kind.isElement = false ∧ u.label.source = none ∨
        ∃ k ts, Tree.node k ts ∈ t.subtrees ∧ u = instanceOf names u.label.scope k ts := by
  induction t with
  | node k ts ih =>
    intro scope g u hg hu
    rw [grow_node] at hg
    rcases List.mem_map.1 hg with ⟨s, -, rfl⟩
    unfold instanceOf at hu
    rw [Tree.subtrees_node, List.mem_cons, List.mem_flatMap] at hu
    rcases hu with rfl | ⟨v, hv, huv⟩
    · exact Or.inr ⟨k, ts, Tree.mem_subtrees_self _, rfl⟩
    · -- inside of the node there is a text that was put there or what grows from its children
      unfold growBelow at hv
      split at hv
      · rcases List.mem_map.1 hv with ⟨w, hw, rfl⟩
        unfold textNodes at hw
        split at hw
        · cases hw
        · rw [List.mem_singleton.1 hw] at huv
          simp only [Tree.map_node, Tree.subtrees_node, List.map_nil, List.flatMap_nil,
            List.mem_singleton] at huv
          rw [huv]
          exact Or.inl ⟨rfl, rfl⟩
      · rcases List.mem_flatMap.1 hv with ⟨t, ht, hvt⟩
        refine (ih t ht hvt huv).imp_right ?_
        rintro ⟨k', ts', hsource, hinst⟩
        exact ⟨k', ts', Tree.mem_subtrees_of_mem_children (t := .node k ts) ht hsource, hinst⟩

/-! ## The passes make what grows -/

/-- A tree after the conditions and values of all scopes around its place, the outermost first. -/
def prepared (names : Names) (scope : Scope) (t : Tree Kind) : Tree Kind :=
  scope.enclosing.foldr (fun s t => fillTree names s t) t

theorem prepared_bind (item : String) (v : Value) (t : Tree Kind) :
    prepared names (scope.bind item v) t =
      fillTree names (scope.bind item v) (prepared names scope t) := rfl

theorem textIn?_bind (item : String) (v : Value) (k : Kind) :
    textIn? names (scope.bind item v) k =
      (nodeText? names (scope.bind item v) k).or (textIn? names scope k) := by
  rw [textIn?, Scope.enclosing_bind, List.findSome?_cons]
  cases nodeText? names (scope.bind item v) k <;> rfl

theorem attr?_markedIn (e : Element) {name : String} (h : name ≠ Element.classKey) :
    (markedIn names scope e).attr? name = e.attr? name := by
  unfold markedIn
  induction scope.enclosing with
  | nil => rfl
  | cons s scopes ih => rw [List.foldr_cons, attr?_applyConditions _ h, ih]

/-- A change of an element that leaves an attribute alone leaves alone what is read off it. -/
theorem nodeText?_mapElement {f : Element → Element} (k : Kind)
    (h : ∀ e, (f e).attr? names.value = e.attr? names.value) :
    nodeText? names scope (k.mapElement f) = nodeText? names scope k := by
  cases k with
  | element e => simp [nodeText?, Kind.mapElement, Kind.element?, valueText?, h]
  | _ => rfl

theorem nodeLoop?_mapElement {f : Element → Element} (k : Kind)
    (h : ∀ e, (f e).attr? names.each = e.attr? names.each) :
    nodeLoop? names scope (k.mapElement f) = nodeLoop? names scope k := by
  cases k with
  | element e => simp [nodeLoop?, Kind.mapElement, Kind.element?, loop?, h]
  | _ => rfl

theorem map_fillTree_textNodes (text : String) :
    (textNodes text).map (fillTree names scope) = textNodes text := by
  have hself : ∀ t ∈ textNodes text, fillTree names scope t = t := by
    intro t ht
    have htidy := tidy_textNodes ht
    have hlabel := isElement_label_textNodes ht
    rw [fillTree, conditionTree_eq_self htidy hlabel, valueTree_eq_self htidy hlabel]
  exact (List.map_congr_left hself).trans (List.map_id _)

theorem fillTree_node (hv : names.value ≠ Element.classKey) (k : Kind) (ts : List (Tree Kind)) :
    fillTree names scope (.node k ts) = .node (k.mapElement (applyConditions names scope))
      (match nodeText? names scope k with
      | some text => textNodes text
      | none => ts.map (fillTree names scope)) := by
  have hk : nodeText? names scope (k.mapElement (applyConditions names scope)) =
      nodeText? names scope k :=
    nodeText?_mapElement k fun e => attr?_applyConditions e hv
  rw [fillTree, conditionTree_node]
  cases htext : nodeText? names scope k with
  | some text => rw [valueTree_node_of_some (hk.trans htext)]
  | none =>
    rw [valueTree_node_of_none (hk.trans htext), List.map_map]
    rfl

/-- A node after all scopes around its place: the marks of all of them, and the text of the
innermost one that puts any. -/
theorem prepared_node (hv : names.value ≠ Element.classKey) (k : Kind) (ts : List (Tree Kind)) :
    prepared names scope (.node k ts) = .node (k.mapElement (markedIn names scope))
      (match textIn? names scope k with
      | some text => textNodes text
      | none => ts.map (prepared names scope)) := by
  induction scope using Scope.ind with
  | ofRoot root =>
    have htext : textIn? names (.ofRoot root) k = nodeText? names (.ofRoot root) k := by
      rw [textIn?, Scope.enclosing_ofRoot, List.findSome?_singleton]
    rw [htext]
    exact fillTree_node hv k ts
  | bind scope item v ih =>
    have hk : nodeText? names (scope.bind item v) (k.mapElement (markedIn names scope)) =
        nodeText? names (scope.bind item v) k :=
      nodeText?_mapElement k fun e => attr?_markedIn e hv
    rw [prepared_bind, ih, fillTree_node hv, hk, Kind.mapElement_mapElement, textIn?_bind]
    cases nodeText? names (scope.bind item v) k with
    | some text => rfl
    | none =>
      -- the new scope puts nothing here: what is there stays and is prepared further
      cases textIn? names scope k with
      | some text => exact congrArg _ (map_fillTree_textNodes text)
      | none => exact congrArg _ List.map_map

theorem eachTree_textNodes {text : String} :
    (textNodes text).flatMap (eachTree names scope) = textNodes text := by
  have hself : ∀ t ∈ textNodes text, eachTree names scope t = [t] := fun t ht =>
    eachTree_eq_self (tidy_textNodes ht) (isElement_label_textNodes ht)
  rw [List.flatMap_congr hself, ← List.map_eq_flatMap, List.map_id']

theorem map_kind_textInstance (ts : List (Tree Kind)) :
    (ts.map (Tree.map (textInstance scope))).map (Tree.map Instance.kind) = ts := by
  rw [List.map_map]
  refine (List.map_congr_left fun t _ => ?_).trans (List.map_id _)
  exact (Tree.map_map (textInstance scope) Instance.kind t).trans t.map_id

/-- A node after all scopes around its place, expanded below its top, is what grows from it. -/
theorem expanded_prepared (hv : names.value ≠ Element.classKey) {k : Kind} {ts : List (Tree Kind)}
    (ih : ∀ t ∈ ts, eachTree names scope (prepared names scope t) =
      (grow names scope t).map (Tree.map Instance.kind)) :
    .node (prepared names scope (.node k ts)).label
        ((prepared names scope (.node k ts)).children.flatMap (eachTree names scope)) =
      (instanceOf names scope k ts).map Instance.kind := by
  rw [prepared_node hv, instanceOf, Tree.map_node, Tree.label_node, Tree.children_node]
  congr 1
  unfold growBelow
  cases textIn? names scope k with
  | some text =>
    rw [map_kind_textInstance]
    exact eachTree_textNodes
  | none =>
    simp only [List.flatMap_map, List.map_flatMap]
    exact List.flatMap_congr ih

/-- Expanding what all scopes around a place have prepared there gives what grows from it. -/
theorem eachTree_prepared (hc : Element.classKey ∉ names.all) (t : Tree Kind) :
    ∀ scope, eachTree names scope (prepared names scope t) =
      (grow names scope t).map (Tree.map Instance.kind) := by
  obtain ⟨hv, -, -, he⟩ := Names.ne_classKey hc
  induction t with
  | node k ts ih =>
    intro scope
    have hloop : nodeLoop? names scope (prepared names scope (.node k ts)).label =
        nodeLoop? names scope k := by
      rw [prepared_node hv]
      exact nodeLoop?_mapElement k fun e => attr?_markedIn e he
    -- expanding goes by the same loop as growing, in the same scope
    rw [grow_node, List.map_map]
    unfold scopesOf
    cases hitems : nodeLoop? names scope k with
    | none =>
      rw [eachTree_of_none (hloop.trans hitems), expanded_prepared hv fun t ht => ih t ht scope]
      rfl
    | some loop =>
      rcases loop with ⟨item, items⟩
      rw [eachTree_of_some (hloop.trans hitems)]
      simp only [List.map_map]
      refine List.map_congr_left ?_
      intro v _
      rw [itemTree, ← prepared_bind, expanded_prepared hv fun t ht => ih t ht (scope.bind item v)]
      rfl

end Directive

end Stencil
