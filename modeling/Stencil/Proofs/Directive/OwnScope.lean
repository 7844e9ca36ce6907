import Stencil.Proofs.Directive.Growth
import Stencil.Proofs.Directive.Refinement
import Stencil.Render
namespace Stencil.Directive

open Stencil.Data (Value)
open Stencil.Html (Document Element Kind textNodes)
open Stencil.Text (IsWord)

/-! # Directives in their own scope

The own scope of an element in the document afterwards has the bindings of all loops whose copies
the element and the elements around it are. Conditions say what they say there, whatever the passes
over the template have made of them before. Values do so only if they lead somewhere there: a text
that an outer scope has put stays.
-/

variable {names : Names} {scope : Scope}

/-- What grows from the tree of a document is the tree that the passes leave. -/
theorem exists_grown (hc : Element.classKey ∉ names.all) (root : Value) {d : Document}
    (hd : d.WellFormed) (hb : d.OnlyElementsBranch) :
    ∃ g, grow names (.ofRoot root) d.tree = [g] ∧
      ∃ parent t, t.id = Document.root ∧ (process names root d).Holds parent t ∧ t.ids.Nodup ∧
        t.kinds.label = .document ∧ g.map Instance.kind = t.kinds := by
  rcases exists_process names root hd hb with ⟨parent, t, hid, ht, hn, hlabel, heach⟩
  have hgrow := (eachTree_prepared hc d.tree (.ofRoot root)).symm.trans heach
  rcases List.map_eq_singleton_iff.1 hgrow with ⟨g, hg, hkinds⟩
  exact ⟨g, hg, parent, t, hid, ht, hn, hlabel, hkinds⟩

/-- What grows from the tree of a document, as the tree of the document that the passes leave. -/
theorem exists_grown_tree (hc : Element.classKey ∉ names.all) (root : Value) {d : Document}
    (hd : d.WellFormed) (hb : d.OnlyElementsBranch) :
    ∃ g, grow names (.ofRoot root) d.tree = [g] ∧
      g.map Instance.kind = (process names root d).tree := by
  obtain ⟨g, hg, parent, t, hid, ht, hn, -, hkinds⟩ := exists_grown hc root hd hb
  exact ⟨g, hg, by rw [hkinds, Document.tree, ← hid, ht.treeOf_eq hn]⟩

/-- An element that has grown and its source: they differ in their classes alone. -/
theorem exists_source {t : Tree Kind} {g u : Tree Instance} {e : Element}
    (hg : g ∈ grow names scope t) (hu : u ∈ g.subtrees) (he : u.label.kind = .element e) :
    ∃ e₀ ts, Tree.node (.element e₀) ts ∈ t.subtrees ∧ e = markedIn names u.label.scope e₀ ∧
      u = instanceOf names u.label.scope (.element e₀) ts := by
  rcases eq_instanceOf_of_mem_grow hg hu with ⟨htext, -⟩ | ⟨k, ts, hsource, heq⟩
  · rw [he] at htext
    cases htext
  · rw [heq, instanceOf, Tree.label_node] at he
    cases k with
    | element e₀ => exact ⟨e₀, ts, hsource, (Kind.element.inj he).symm, heq⟩
    | _ => cases he

/-! ## Conditions -/

theorem hides_congr {e e' : Element} (hnot : e.attr? names.ifNot = e'.attr? names.ifNot)
    (hif : e.attr? names.if_ = e'.attr? names.if_) :
    hides names scope e = hides names scope e' := by
  unfold hides
  rw [hnot, hif]

/-- The conditions of the own scope come last. -/
theorem exists_markedIn (names : Names) (scope : Scope) (e : Element) :
    ∃ x, markedIn names scope e = applyConditions names scope x := by
  rw [markedIn, Scope.enclosing_eq_cons]
  exact ⟨_, rfl⟩

/-- The mark of an element with conditions is that of its own scope. -/
theorem hasClass_markedIn (hw : IsWord names.hiddenClass.toList)
    (hc : Element.classKey ∉ names.all) {e : Element}
    (h : (names.flags (markedIn names scope e)).isConditional = true) :
    (markedIn names scope e).hasClass names.hiddenClass =
      hides names scope (markedIn names scope e) := by
  obtain ⟨-, hif, hnot, -⟩ := Names.ne_classKey hc
  rcases exists_markedIn names scope e with ⟨x, hx⟩
  rw [hx] at h ⊢
  rw [isConditional_flags, attr?_applyConditions x hif, attr?_applyConditions x hnot] at h
  rw [hasClass_applyConditions hw h]
  exact hides_congr (attr?_applyConditions x hnot).symm (attr?_applyConditions x hif).symm

/-! ## Values -/

/-- A text that the own scope of a node puts is there, whatever other scopes would put. -/
theorem textIn?_of_some {k : Kind} {text : String} (h : nodeText? names scope k = some text) :
    textIn? names scope k = some text := by
  rw [textIn?, Scope.enclosing_eq_cons, List.findSome?_cons, h]

theorem map_kind_growBelow {k : Kind} {ts : List (Tree Kind)} {text : String}
    (h : textIn? names scope k = some text) :
    (growBelow names scope k ts).map (Tree.map Instance.kind) = textNodes text := by
  rw [growBelow, h]
  exact map_kind_textInstance _

/-! ## What the own scope decides -/

/-- An element is what its directives say in its own scope: hidden or shown by its conditions, and
with the text of its value, if its path leads somewhere, and nothing else inside. -/
structure Reflects (names : Names) (u : Tree Instance) (e : Element) : Prop where
  ifNot : ∀ text, e.attr? names.ifNot = some text →
    (e.hasClass names.hiddenClass = true ↔ Expr.holds u.label.scope text = true)
  if_ : ∀ text, e.attr? names.ifNot = none → e.attr? names.if_ = some text →
    (e.hasClass names.hiddenClass = true ↔ Expr.holds u.label.scope text = false)
  value : ∀ path r, e.attr? names.value = some path →
    Path.resolve u.label.scope path = some r →
    u.children.map (Tree.map Instance.kind) = textNodes r.value.shown

theorem reflects_instanceOf (hw : IsWord names.hiddenClass.toList)
    (hc : Element.classKey ∉ names.all) (e : Element) (ts : List (Tree Kind)) :
    Reflects names (instanceOf names scope (.element e) ts) (markedIn names scope e) where
  ifNot := by
    intro text htext
    have hcond : (names.flags (markedIn names scope e)).isConditional = true := by
      rw [isConditional_flags, htext]
      simp
    rw [hasClass_markedIn hw hc hcond, hides, htext]
    rfl
  if_ := by
    intro text hnone htext
    have hcond : (names.flags (markedIn names scope e)).isConditional = true := by
      rw [isConditional_flags, htext]
      simp
    rw [hasClass_markedIn hw hc hcond, hides, hnone, htext]
    simp [instanceOf]
  value := by
    intro path r hpath hr
    have hv := (Names.ne_classKey hc).1
    rw [attr?_markedIn e hv] at hpath
    refine map_kind_growBelow (textIn?_of_some ?_)
    simp only [nodeText?, Kind.element?, Option.bind_some, valueText?, hpath]
    rw [show Path.resolve scope path = some r from hr]
    rfl

/-- Every directive in the document afterwards says what it says in the own scope of its element, in
any document in which only elements branch. -/
theorem exists_grown_reflects_of_wellFormed (hw : IsWord names.hiddenClass.toList)
    (hc : Element.classKey ∉ names.all) (root : Value) {d : Document} (hd : d.WellFormed)
    (hb : d.OnlyElementsBranch) :
    ∃ g, grow names (.ofRoot root) d.tree = [g] ∧
      g.map Instance.kind = (process names root d).tree ∧
      ∀ u ∈ g.subtrees, ∀ e, u.label.kind = .element e → Reflects names u e := by
  obtain ⟨g, hg, htree⟩ := exists_grown_tree hc root hd hb
  refine ⟨g, hg, htree, fun u hu e he => ?_⟩
  rcases exists_source (hg ▸ List.mem_singleton_self g) hu he with ⟨e₀, ts, -, rfl, heq⟩
  rw [heq]
  exact reflects_instanceOf hw hc e₀ ts

/-- Every directive in the document afterwards says what it says in the own scope of its element,
whatever the passes have done to the template before. -/
theorem exists_grown_reflects (start hiddenClass template : String) (data : Value)
    (hw : IsWord hiddenClass.toList) :
    let names := Names.of start hiddenClass
    let d := (Html.parse template).document
    ∃ g, grow names (.ofRoot data) d.tree = [g] ∧
      g.map Instance.kind = (process names data d).tree ∧
      ∀ u ∈ g.subtrees, ∀ e, u.label.kind = .element e → Reflects names u e :=
  exists_grown_reflects_of_wellFormed hw (Names.classKey_notMem_of start hiddenClass) data
    (Html.parse_wellFormed template) (Html.parse_onlyElementsBranch template)

/-- A hidden class like the usual one. -/
theorem exists_grown_reflects_loop :
    let names := Names.of "" "remove-it"
    let d := (Html.parse "<p each=\"x in xs\" if=\"x.shown\" value=\"x.name\">none</p>").document
    let data := Value.object [("xs", .array [.object [("name", .string "a")]])]
    IsWord "remove-it".toList ∧
      ∃ g, grow names (.ofRoot data) d.tree = [g] ∧
        g.map Instance.kind = (process names data d).tree ∧
        ∀ u ∈ g.subtrees, ∀ e, u.label.kind = .element e → Reflects names u e :=
  ⟨by decide, exists_grown_reflects "" "remove-it" _ _ (by decide)⟩

/-! ## What the own scope leaves alone -/

/-- A value that leads nowhere in its own scope is left to the scopes further out. -/
theorem textIn?_of_none {e : Element} (h : valueText? names scope e = none) :
    textIn? names scope (.element e) = scope.outer.findSome? fun s => valueText? names s e := by
  have hown : nodeText? names scope (.element e) = none := h
  rw [textIn?, Scope.enclosing_eq_cons, List.findSome?_cons, hown]
  rfl

/-- What an element that has grown has below it, if its value leads nowhere in its own scope: what
its source has, grown in that scope, or the text of the innermost outer scope in which the value
leads somewhere. -/
theorem exists_content_of_mem_grow (hc : Element.classKey ∉ names.all) {t : Tree Kind}
    {g u : Tree Instance} {e : Element} (hg : g ∈ grow names scope t) (hu : u ∈ g.subtrees)
    (he : u.label.kind = .element e) (hown : valueText? names u.label.scope e = none) :
    ∃ e₀ ts, u.label.source = some (.node (.element e₀) ts) ∧
      .node (.element e₀) ts ∈ t.subtrees ∧
      (∀ name, name ≠ Element.classKey → e.attr? name = e₀.attr? name) ∧
      ((∀ s ∈ u.label.scope.outer, valueText? names s e = none) →
        u.children = ts.flatMap (grow names u.label.scope)) ∧
      ∀ text, u.label.scope.outer.findSome? (fun s => valueText? names s e) = some text →
        u.children.map (Tree.map Instance.kind) = textNodes text := by
  have hv := (Names.ne_classKey hc).1
  rcases exists_source hg hu he with ⟨e₀, ts, hsource, rfl, heq⟩
  have hvalue : ∀ s, valueText? names s (markedIn names u.label.scope e₀) =
      valueText? names s e₀ := by
    intro s
    rw [valueText?, attr?_markedIn e₀ hv, valueText?]
  -- the path is the same in the source, so its values can be read off there
  simp only [hvalue] at hown ⊢
  have hchildren : u.children = growBelow names u.label.scope (.element e₀) ts :=
    congrArg Tree.children heq
  refine ⟨e₀, ts, ?_, hsource, fun name hname => attr?_markedIn e₀ hname, fun hnone => ?_,
    fun text htext => ?_⟩
  · exact congrArg (fun v => v.label.source) heq
  · have hnowhere := (textIn?_of_none hown).trans (List.findSome?_eq_none_iff.2 hnone)
    rw [hchildren, growBelow, hnowhere]
  · rw [hchildren]
    exact map_kind_growBelow ((textIn?_of_none hown).trans htext)

/-- In any document in which only elements branch, an element whose value leads nowhere in its own
scope holds what `exists_content_of_mem_grow` says. -/
theorem exists_grown_content_of_wellFormed (hc : Element.classKey ∉ names.all) (root : Value)
    {d : Document} (hd : d.WellFormed) (hb : d.OnlyElementsBranch) :
    ∃ g, grow names (.ofRoot root) d.tree = [g] ∧
      g.map Instance.kind = (process names root d).tree ∧
      ∀ u ∈ g.subtrees, ∀ e, u.label.kind = .element e →
        valueText? names u.label.scope e = none →
        ∃ e₀ ts, u.label.source = some (.node (.element e₀) ts) ∧
          .node (.element e₀) ts ∈ d.tree.subtrees ∧
          (∀ name, name ≠ Element.classKey → e.attr? name = e₀.attr? name) ∧
          ((∀ s ∈ u.label.scope.outer, valueText? names s e = none) →
            u.children = ts.flatMap (grow names u.label.scope)) ∧
          ∀ text, u.label.scope.outer.findSome? (fun s => valueText? names s e) = some text →
            u.children.map (Tree.map Instance.kind) = textNodes text := by
  obtain ⟨g, hg, htree⟩ := exists_grown_tree hc root hd hb
  exact ⟨g, hg, htree, fun u hu e he hown =>
    exists_content_of_mem_grow hc (hg ▸ List.mem_singleton_self g) hu he hown⟩

/-- An element whose value leads nowhere in its own scope holds what its source holds, grown in that
scope, if the value leads nowhere further out either. Otherwise it holds the text that the innermost
of the outer scopes has put into its template. -/
theorem exists_grown_content (start hiddenClass template : String) (data : Value) :
    let names := Names.of start hiddenClass
    let d := (Html.parse template).document
    ∃ g, grow names (.ofRoot data) d.tree = [g] ∧
      g.map Instance.kind = (process names data d).tree ∧
      ∀ u ∈ g.subtrees, ∀ e, u.label.kind = .element e →
        valueText? names u.label.scope e = none →
        ∃ e₀ ts, u.label.source = some (.node (.element e₀) ts) ∧
          .node (.element e₀) ts ∈ d.tree.subtrees ∧
          (∀ name, name ≠ Element.classKey → e.attr? name = e₀.attr? name) ∧
          ((∀ s ∈ u.label.scope.outer, valueText? names s e = none) →
            u.children = ts.flatMap (grow names u.label.scope)) ∧
          ∀ text, u.label.scope.outer.findSome? (fun s => valueText? names s e) = some text →
            u.children.map (Tree.map Instance.kind) = textNodes text :=
  exists_grown_content_of_wellFormed (Names.classKey_notMem_of start hiddenClass) data
    (Html.parse_wellFormed template) (Html.parse_onlyElementsBranch template)

/-- The name of a user without one is that of another user, whom the loop hides. -/
theorem render_value_of_outer_scope :
    let data := Value.object
      [("user", .object [("name", .string "root")]), ("users", .array [.object []])]
    (Path.resolve ((Scope.ofRoot data).bind "user" (.object [])) "user.name").isNone = true ∧
      render .default
          "<div each=\"user in users\"><p value=\"user.name\">placeholder</p></div>" data =
        "<div each=\"user in users\"><p value=\"user.name\">root</p></div>" := by
  decide +kernel

end Stencil.Directive
