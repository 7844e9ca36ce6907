import Stencil.Proofs.Directive.TreePasses
import Stencil.Proofs.Document.Copy
import Stencil.Proofs.Html.Built
namespace Stencil.Directive

open Stencil.Data (Value)
open Stencil.Html (Document Element Kind NodeId Spot textNodes)
open Stencil.Html.Document (ChangesOnly Copies Holds Inserts Replaces Rewrites)

/-! # The passes refine the passes over trees

Each pass over a store does to the tree that the store holds what its counterpart does to a tree.
The number of levels carries the inductions: a pass that goes down `levels` levels gets through
every tree of at most one level more, whose last level holds no elements.
-/

variable {names : Names} {scope : Scope} {levels : Nat}

/-! ## Conditions and values -/

/-- What is known of a tree is known of the trees below its top, for one level less. -/
theorem tidy_of_mem {k : Kind} {ts : List (Tree Spot)} {n : Nat}
    (htidy : (Tree.node k (ts.map Tree.kinds)).TidyBelow)
    (hheight : (Tree.node k (ts.map Tree.kinds)).height ≤ n + 1) :
    ∀ t ∈ ts, t.kinds.Tidy ∧ t.kinds.height ≤ n := by
  intro t ht
  have hmem : t.kinds ∈ ts.map Tree.kinds := List.mem_map_of_mem ht
  exact ⟨htidy _ hmem, (Tree.height_node_le_iff.1 hheight).2 _ hmem⟩

theorem exists_conditionLevels (names : Names) (scope : Scope) (levels : Nat) :
    ∀ (d : Document) (parent : Option NodeId) (t : Tree Spot), d.Holds parent t → t.ids.Nodup →
    t.kinds.TidyBelow → t.kinds.height ≤ levels + 1 →
    ∃ t', Rewrites d (conditionLevels names scope levels d t.id) parent t t' ∧
      t'.kinds = conditionTree names scope t.kinds := by
  induction levels with
  | zero =>
    intro d parent t ht hn _ hheight
    refine ⟨t, .refl ht hn, ?_⟩
    cases t with
    | node s ts =>
      rw [Tree.kinds_node] at hheight ⊢
      rcases Tree.of_height_le_one hheight with ⟨hk, hts⟩
      rw [hts, conditionTree_node, Kind.mapElement_eq_self hk]
      rfl
  | succ levels ih =>
    intro d parent t ht hn htidy hheight
    cases t with
    | node s ts =>
      rw [Tree.kinds_node] at htidy hheight ⊢
      have hmark := ht.updateElement hn (applyConditions names scope)
      have hq := tidy_of_mem htidy hheight
      have hleaf : ∀ t ∈ ts, t.kinds.label.isElement = false →
          conditionTree names scope t.kinds = t.kinds := fun t hmem hk =>
        conditionTree_eq_self (hq t hmem).1 hk
      have hstep : ∀ t ∈ ts, ∀ d, d.Holds (some s.id) t → t.ids.Nodup →
          ∃ t', Rewrites d (conditionLevels names scope levels d t.id) (some s.id) t t' ∧
            t'.kinds = conditionTree names scope t.kinds := fun t hmem d hd hn =>
        ih d (some s.id) t hd hn (hq t hmem).1.below (hq t hmem).2
      rcases hmark.holds.rewrites_elementChildren_map hmark.nodup hleaf hstep with
        ⟨us, hus, hkinds⟩
      refine ⟨.node _ us, hmark.trans hus, ?_⟩
      rw [Tree.kinds_node, hkinds, conditionTree_node]

/-- One node with its value. -/
theorem exists_applyValue (names : Names) (scope : Scope) {d : Document} {parent : Option NodeId}
    {s : Spot} {ts : List (Tree Spot)} (ht : d.Holds parent (.node s ts))
    (hn : (Tree.node s ts).ids.Nodup) :
    ∃ us, Rewrites d (applyValue names scope d s.id) parent (.node s ts) (.node s us) ∧
      us.map Tree.kinds = valueContent names scope s.kind (ts.map Tree.kinds) := by
  have htext : (d.element? s.id).bind (valueText? names scope) = nodeText? names scope s.kind := by
    rw [Document.element?, Document.kind?_eq ht.here]
    rfl
  unfold applyValue valueContent
  rw [htext]
  cases nodeText? names scope s.kind with
  | some text => exact ht.setText hn text
  | none => exact ⟨ts, .refl ht hn, rfl⟩

theorem exists_valueLevels (names : Names) (scope : Scope) (levels : Nat) :
    ∀ (d : Document) (parent : Option NodeId) (t : Tree Spot), d.Holds parent t → t.ids.Nodup →
    t.kinds.TidyBelow → t.kinds.height ≤ levels + 1 →
    ∃ t', Rewrites d (valueLevels names scope levels d t.id) parent t t' ∧
      t'.kinds = valueTree names scope t.kinds := by
  induction levels with
  | zero =>
    intro d parent t ht hn _ hheight
    refine ⟨t, .refl ht hn, ?_⟩
    cases t with
    | node s ts =>
      rw [Tree.kinds_node] at hheight ⊢
      rcases Tree.of_height_le_one hheight with ⟨hk, hts⟩
      rw [hts, valueTree_node_of_none (nodeText?_of_not_element hk)]
      rfl
  | succ levels ih =>
    intro d parent t ht hn htidy hheight
    cases t with
    | node s ts =>
      rw [Tree.kinds_node] at htidy hheight ⊢
      rcases Tree.height_node_le_iff.1 hheight with ⟨hroom, hbelow⟩
      rcases exists_applyValue names scope ht hn with ⟨us, hus, hkinds⟩
      -- what the node holds now is as tidy and as low as before
      have hq : ∀ u ∈ us, u.kinds.Tidy ∧ u.kinds.height ≤ levels + 1 := by
        intro u hu
        have hmem : u.kinds ∈ us.map Tree.kinds := List.mem_map_of_mem hu
        rw [hkinds] at hmem
        rcases mem_valueContent hmem with hold | ⟨hk, htext, hone⟩
        · exact ⟨htidy _ hold, hbelow _ hold⟩
        · exact ⟨htext, hone.trans_le (hroom hk)⟩
      have hleaf : ∀ u ∈ us, u.kinds.label.isElement = false →
          valueTree names scope u.kinds = u.kinds := fun u hmem hk =>
        valueTree_eq_self (hq u hmem).1 hk
      have hstep : ∀ u ∈ us, ∀ d, d.Holds (some s.id) u → u.ids.Nodup →
          ∃ u', Rewrites d (valueLevels names scope levels d u.id) (some s.id) u u' ∧
            u'.kinds = valueTree names scope u.kinds := fun u hmem d hd hn =>
        ih d (some s.id) u hd hn (hq u hmem).1.below (hq u hmem).2
      rcases hus.holds.rewrites_elementChildren_map hus.nodup hleaf hstep with ⟨vs, hvs, hkindsv⟩
      refine ⟨.node s vs, hus.trans hvs, ?_⟩
      rw [Tree.kinds_node, hkindsv, hkinds, valueTree_node]

theorem tidyBelow_conditionTree {t : Tree Kind} (h : t.TidyBelow) :
    (conditionTree names scope t).TidyBelow := by
  cases t with
  | node k ts =>
    intro u hu
    rw [conditionTree_node, Tree.children_node] at hu
    rcases List.mem_map.1 hu with ⟨t, ht, rfl⟩
    exact tidy_conditionTree (h t ht)

theorem tidyBelow_valueTree {t : Tree Kind} (h : t.TidyBelow) :
    (valueTree names scope t).TidyBelow := by
  cases t with
  | node k ts =>
    intro u hu
    rw [valueTree_node, Tree.children_node] at hu
    rcases List.mem_map.1 hu with ⟨t, ht, rfl⟩
    rcases mem_valueContent ht with hold | ⟨-, htext, -⟩
    · exact tidy_valueTree (h t hold)
    · exact tidy_valueTree htext

theorem tidyBelow_fillTree {t : Tree Kind} (h : t.TidyBelow) :
    (fillTree names scope t).TidyBelow :=
  tidyBelow_valueTree (tidyBelow_conditionTree h)

/-- Conditions and then values over a subtree of a store. -/
def fillPass (names : Names) (scope : Scope) (d : Document) (id : NodeId) : Document :=
  valuePass names scope (conditionPass names scope d id) id

theorem exists_fill (names : Names) (scope : Scope) {d : Document} {parent : Option NodeId}
    {t : Tree Spot} (ht : d.Holds parent t) (hn : t.ids.Nodup) (htidy : t.kinds.TidyBelow) :
    ∃ t', Rewrites d (fillPass names scope d t.id) parent t t' ∧
      t'.kinds = fillTree names scope t.kinds := by
  obtain ⟨t₁, ht₁, hkinds₁⟩ := exists_conditionLevels names scope _ d parent t ht hn htidy
    (ht.height_le hn)
  have htidy₁ : t₁.kinds.TidyBelow := hkinds₁ ▸ tidyBelow_conditionTree htidy
  obtain ⟨t₂, ht₂, hkinds₂⟩ := exists_valueLevels names scope _ _ parent t₁ ht₁.holds ht₁.nodup
    htidy₁ (ht₁.holds.height_le ht₁.nodup)
  rw [ht₁.id_eq] at ht₂
  exact ⟨t₂, ht₁.trans ht₂, by rw [hkinds₂, hkinds₁, fillTree]⟩

/-! ## Loops -/

/-- Going down `levels` levels expands all loops of a child that is no higher: what the child means
stands in its place. -/
def Expands (names : Names) (levels : Nat) (scope : Scope) : Prop :=
  ∀ (d : Document) (p : NodeId) (t : Tree Spot), p < d.size → d.Holds (some p) t → t.ids.Nodup →
    p ∉ t.ids → t.kinds.Tidy → t.kinds.height ≤ levels + 1 →
    ∃ us, Replaces d (eachLevels names levels scope d t.id) p t us ∧
      us.map Tree.kinds = eachTree names scope t.kinds

/-- Expanding the loops below a node, once it is known how to expand those of its children. -/
theorem exists_eachChildren (hexp : Expands names levels scope) {d : Document}
    {parent : Option NodeId} {t : Tree Spot} (ht : d.Holds parent t) (hn : t.ids.Nodup)
    (htidy : t.kinds.TidyBelow) (hheight : t.kinds.height ≤ levels + 2) :
    ∃ t', Rewrites d ((d.elementChildren t.id).foldl (eachLevels names levels scope) d) parent
        t t' ∧
      t'.kinds = .node t.kinds.label (t.kinds.children.flatMap (eachTree names scope)) := by
  cases t with
  | node s ts =>
    rw [Tree.kinds_node] at htidy hheight ⊢
    have hq := tidy_of_mem htidy hheight
    have hleaf : ∀ t ∈ ts, t.kinds.label.isElement = false →
        eachTree names scope t.kinds = [t.kinds] := fun t hmem hk =>
      eachTree_eq_self (hq t hmem).1 hk
    have hstep : ∀ t ∈ ts, ∀ d, s.id < d.size → d.Holds (some s.id) t → t.ids.Nodup →
        s.id ∉ t.ids → ∃ us, Replaces d (eachLevels names levels scope d t.id) s.id t us ∧
          us.map Tree.kinds = eachTree names scope t.kinds := fun t hmem d hlt hd hn hp =>
      hexp d s.id t hlt hd hn hp (hq t hmem).1 (hq t hmem).2
    rcases ht.rewrites_elementChildren hn hleaf hstep with ⟨us, hus, hkinds⟩
    exact ⟨.node s us, hus, by rw [Tree.kinds_node, hkinds]; rfl⟩

/-- What a loop does for one item: one more copy of the template, filled and expanded below its top,
is put before the element. -/
def insertItem (names : Names) (levels : Nat) (inner : Scope) (p template id : NodeId)
    (d : Document) : Document :=
  let (cloned, copy) := d.deepClone template
  let filled := fillPass names inner cloned copy
  let nested := (filled.elementChildren copy).foldl (eachLevels names levels inner) filled
  nested.insertBefore p copy id

theorem eachLevels_of_some {d : Document} {id p : NodeId} {item : String} {items : List Value}
    (hloop : (d.element? id).bind (loop? names scope) = some (item, items))
    (hp : d.parent? id = some p) :
    eachLevels names (levels + 1) scope d id =
      (items.foldl
        (fun acc v => insertItem names levels (scope.bind item v) p (d.deepClone id).2 id acc)
        (d.deepClone id).1).detach id := by
  rw [eachLevels, hloop]
  simp only [hp]
  rfl

theorem eachLevels_of_none {d : Document} {id : NodeId}
    (hloop : (d.element? id).bind (loop? names scope) = none) :
    eachLevels names (levels + 1) scope d id =
      (d.elementChildren id).foldl (eachLevels names levels scope) d := by
  rw [eachLevels, hloop]

/-- One item: a tree of new nodes, which is what the template means for the item, goes right before
the element. -/
theorem exists_insertItem {inner : Scope} (id : NodeId) (hexp : Expands names levels inner)
    {d : Document} {p : NodeId} {c : Tree Spot} (hp : p < d.size) (hc : d.Holds none c)
    (hn : c.ids.Nodup) (htidy : c.kinds.TidyBelow) (hheight : c.kinds.height ≤ levels + 2) :
    ∃ u, Inserts d (insertItem names levels inner p c.id id d) p id [u] ∧
      u.kinds = itemTree names inner c.kinds := by
  rcases hc.deepClone hn with ⟨c₁, hid, hcopy⟩
  have htidy₁ : c₁.kinds.TidyBelow := hcopy.kinds_eq ▸ htidy
  rcases exists_fill names inner hcopy.holds hcopy.nodup htidy₁ with ⟨c₂, hfill, hkinds₂⟩
  rw [hcopy.kinds_eq] at hkinds₂
  -- filling makes nothing higher, so the levels are enough for the copy as well
  have htidy₂ : c₂.kinds.TidyBelow := hkinds₂ ▸ tidyBelow_fillTree htidy
  have hheight₂ : c₂.kinds.height ≤ levels + 2 :=
    hkinds₂ ▸ (height_fillTree_le c.kinds).trans hheight
  rcases exists_eachChildren hexp hfill.holds hfill.nodup htidy₂ hheight₂ with
    ⟨c₃, hnest, hkinds₃⟩
  have hall := hfill.trans hnest
  rw [hfill.id_eq] at hall
  have hstep : insertItem names levels inner p c.id id d =
      (((fillPass names inner (d.deepClone c.id).1 c₁.id).elementChildren c₁.id).foldl
        (eachLevels names levels inner)
        (fillPass names inner (d.deepClone c.id).1 c₁.id)).insertBefore p c₃.id id := by
    rw [hall.id_eq]
    simp only [insertItem, hid]
  rw [hstep]
  have hnew : ∀ j ∈ c₁.ids, d.size ≤ j := fun j hj => hcopy.size_le_of_mem hj
  refine ⟨c₃, Holds.insertBefore ?_ hall.holds hall.nodup ?_ hp, ?_⟩
  · exact hcopy.changes.trans hall.changes fun j hj => Or.inr (hnew j hj)
  · intro j hj
    rcases hall.fresh j hj with hold | hge
    · exact hnew j hold
    · exact hcopy.changes.size_le.trans hge
  · rw [hkinds₃, hkinds₂, itemTree]

/-- A loop: what stands in the place of its element is what the element means for each item. -/
theorem exists_expand {item : String} (items : List Value)
    (hexp : ∀ v, Expands names levels (scope.bind item v)) {d : Document} {p : NodeId}
    {t : Tree Spot} (hlt : p < d.size) (ht : d.Holds (some p) t) (hn : t.ids.Nodup)
    (hp : p ∉ t.ids) (htidy : t.kinds.Tidy) (hheight : t.kinds.height ≤ levels + 2) :
    ∃ us, Replaces d ((items.foldl
        (fun acc v => insertItem names levels (scope.bind item v) p (d.deepClone t.id).2 t.id acc)
        (d.deepClone t.id).1).detach t.id) p t us ∧
      us.map Tree.kinds = items.map fun v => itemTree names (scope.bind item v) t.kinds := by
  have hin : t.id < d.size := ht.lt_size _ t.id_mem_ids
  rcases ht.deepClone hn with ⟨c, hid, hcopy⟩
  rw [hid]
  have hpc : p ∉ c.ids := fun hm => absurd (hcopy.size_le_of_mem hm) (not_le.2 hlt)
  have hle := hcopy.changes.size_le
  -- the template is kept through all items, and its copies are made from it alone
  have hone : ∀ (d : Document) (v : Value), p < d.size → d.Holds none c →
      ∃ u, Inserts d (insertItem names levels (scope.bind item v) p c.id t.id d) p t.id [u] ∧
        u.kinds = itemTree names (scope.bind item v) t.kinds := by
    intro d v hp hc
    rw [← hcopy.kinds_eq] at htidy hheight ⊢
    exact exists_insertItem t.id (hexp v) hp hc hcopy.nodup htidy.below hheight
  obtain ⟨us, hus, hkinds⟩ := Inserts.exists_foldl hpc hone items _ (hlt.trans_le hle)
    (hin.trans_le hle) hcopy.holds
  have hstart : Inserts d (d.deepClone t.id).1 p t.id [] := .nil hcopy.changes hlt
  exact ⟨us, (hstart.append hus hlt hin).replaces ht hp hlt, hkinds⟩

theorem expands_zero (scope : Scope) : Expands names 0 scope := by
  intro d p t _ ht hn hp htidy hheight
  refine ⟨[t], (Rewrites.refl ht hn).replaces hp, ?_⟩
  have hk : t.kinds.label.isElement = false := by
    cases hkinds : t.kinds with
    | node k ts => exact (Tree.of_height_le_one (hkinds ▸ hheight)).1
  rw [eachTree_eq_self htidy hk]
  rfl

theorem expands_succ (hexp : ∀ scope, Expands names levels scope) (scope : Scope) :
    Expands names (levels + 1) scope := by
  intro d p t hlt ht hn hp htidy hheight
  have hloop : (d.element? t.id).bind (loop? names scope) =
      nodeLoop? names scope t.kinds.label := by
    rw [Document.element?, Document.kind?_eq ht.top, Tree.label_kinds]
    rfl
  cases hitems : nodeLoop? names scope t.kinds.label with
  | none =>
    rw [hitems] at hloop
    rw [eachLevels_of_none hloop, eachTree_of_none hitems]
    rcases exists_eachChildren (hexp scope) ht hn htidy.below hheight with ⟨t', ht', hkinds⟩
    exact ⟨[t'], ht'.replaces hp, by rw [List.map_singleton, hkinds]⟩
  | some loop =>
    rcases loop with ⟨item, items⟩
    rw [hitems] at hloop
    rw [eachLevels_of_some hloop (Document.parent?_eq ht.top), eachTree_of_some hitems]
    exact exists_expand items (fun v => hexp (scope.bind item v)) hlt ht hn hp htidy hheight

/-- Any number of levels is enough for the trees that are no higher. -/
theorem expands (names : Names) (levels : Nat) : ∀ scope, Expands names levels scope := by
  induction levels with
  | zero => exact expands_zero
  | succ levels ih => exact expands_succ ih

/-! ## All passes -/

/-- The three passes over a document leave the tree that the passes over trees make of it. -/
theorem exists_process_of_tidyBelow (names : Names) (root : Value) {d : Document}
    (hd : d.WellFormed) (htidy : d.tree.TidyBelow) :
    ∃ parent t, t.id = Document.root ∧ (process names root d).Holds parent t ∧ t.ids.Nodup ∧
      t.kinds.label = .document ∧
      eachTree names (.ofRoot root) (fillTree names (.ofRoot root) d.tree) = [t.kinds] := by
  rcases hd.exists_tree with ⟨t, hid, ht, hn, hdoc, htree⟩
  rw [htree] at htidy
  rcases exists_fill names (.ofRoot root) ht hn htidy with ⟨t₁, hfill, hkinds₁⟩
  rw [hid] at hfill
  have hid₁ : t₁.id = Document.root := hfill.id_eq.trans hid
  have hlabel : t₁.kinds.label = .document := by
    cases hk : t.kinds with
    | node k ts =>
      rw [hk, Tree.label_node] at hdoc
      rw [hkinds₁, hk, fillTree, label_valueTree, conditionTree_node, Tree.label_node, hdoc]
      rfl
  have hloop : nodeLoop? names (.ofRoot root) t₁.kinds.label = none := by
    rw [hlabel]
    rfl
  -- the document is no loop, so the last pass starts with the nodes below it
  set d₁ := fillPass names (.ofRoot root) d Document.root
  have hpos : 0 < d₁.size := Nat.zero_lt_of_lt (hfill.holds.lt_size _ t₁.id_mem_ids)
  rcases Nat.exists_eq_succ_of_ne_zero hpos.ne' with ⟨levels, hlevels⟩
  have hheight := hfill.holds.height_le hfill.nodup
  rw [hlevels] at hheight
  obtain ⟨t₂, heach, hkinds₂⟩ := exists_eachChildren (expands names levels (.ofRoot root))
    hfill.holds hfill.nodup (hkinds₁ ▸ tidyBelow_fillTree htidy) hheight
  have hprocess : process names root d =
      (d₁.elementChildren t₁.id).foldl (eachLevels names levels (.ofRoot root)) d₁ := by
    have hnone : (d₁.element? Document.root).bind (loop? names (.ofRoot root)) = none := by
      rw [Document.element?, ← hid₁, Document.kind?_eq hfill.holds.top, ← Tree.label_kinds]
      exact hloop
    rw [hid₁, ← eachLevels_of_none hnone, ← Nat.succ_eq_add_one, ← hlevels]
    rfl
  refine ⟨_, t₂, heach.id_eq.trans hid₁, hprocess ▸ heach.holds, heach.nodup, ?_, ?_⟩
  · rw [hkinds₂, Tree.label_node, hlabel]
  · rw [hkinds₂, htree, ← hkinds₁, eachTree_of_none hloop]

theorem exists_process (names : Names) (root : Value) {d : Document} (hd : d.WellFormed)
    (hb : d.OnlyElementsBranch) :
    ∃ parent t, t.id = Document.root ∧ (process names root d).Holds parent t ∧ t.ids.Nodup ∧
      t.kinds.label = .document ∧
      eachTree names (.ofRoot root) (fillTree names (.ofRoot root) d.tree) = [t.kinds] :=
  exists_process_of_tidyBelow names root hd (hd.tidyBelow_tree hb)

/-- The passes over a store refine the passes over trees: the tree of the document afterwards is
what these make of the tree before. -/
theorem tree_process (names : Names) (root : Value) {d : Document} (hd : d.WellFormed)
    (hb : d.OnlyElementsBranch) :
    eachTree names (.ofRoot root)
        (valueTree names (.ofRoot root) (conditionTree names (.ofRoot root) d.tree)) =
      [(process names root d).tree] := by
  rcases exists_process names root hd hb with ⟨parent, t, hid, ht, hn, -, heach⟩
  rw [← fillTree, heach, Document.tree, ← hid, ht.treeOf_eq hn]

/-- A parsed list whose items are repeated. -/
theorem tree_process_parsed_list :
    let d := (Html.parse "<ul><li each=\"x in xs\" value=\"x\">none</li></ul>").document
    let names := Names.of "" "remove-it"
    let data := Value.object [("xs", .array [.string "a", .string "b"])]
    d.WellFormed ∧ d.OnlyElementsBranch ∧
      eachTree names (.ofRoot data)
          (valueTree names (.ofRoot data) (conditionTree names (.ofRoot data) d.tree)) =
        [(process names data d).tree] :=
  ⟨Html.parse_wellFormed _, Html.parse_onlyElementsBranch _,
    tree_process _ _ (Html.parse_wellFormed _) (Html.parse_onlyElementsBranch _)⟩

end Stencil.Directive
