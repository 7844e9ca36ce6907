import Stencil.Html.Parse
import Stencil.Proofs.Directive.Conditions
import Stencil.Proofs.Directive.Simulation
namespace Stencil.Directive

open Stencil.Data (Value)
open Stencil.Html (Attributes Document Element Kind)

/-! # Other names for the directives

A run looks at attributes by the names of the directives and by the name of the classes, and puts
nothing but classes into them. So a document whose directives have other names, under these names,
goes through the same run.
-/

/-! ## Renamed elements -/

/-- The element with its attributes under other names. -/
def renameElement (f : String → String) (e : Element) : Element :=
  { e with attrs := e.attrs.rename f }

/-- The second element is the first one under other names, and all attributes that this one has are
among the given ones. -/
structure Renames (f : String → String) (s : Set String) (e e' : Element) : Prop where
  within : e.attrs.Within s
  eq : e' = renameElement f e

namespace Renames

variable {f : String → String} {s : Set String} {e e' : Element} {name : String}

theorem attr?_eq (h : Renames f s e e') (hf : s.InjOn f) (hname : name ∈ s) :
    e'.attr? (f name) = e.attr? name := by
  rw [h.eq]
  exact Attributes.get?_rename hf h.within hname

theorem hasAttr_eq (h : Renames f s e e') (hf : s.InjOn f) (hname : name ∈ s) :
    e'.hasAttr (f name) = e.hasAttr name :=
  congrArg Option.isSome (h.attr?_eq hf hname)

theorem setAttr (h : Renames f s e e') (hf : s.InjOn f) (hname : name ∈ s) (value : String) :
    Renames f s (e.setAttr name value) (e'.setAttr (f name) value) := by
  refine ⟨Attributes.within_set h.within hname value, ?_⟩
  rw [h.eq, Element.setAttr, renameElement, Attributes.set_rename hf h.within hname]
  rfl

theorem removeAttr (h : Renames f s e e') (hf : s.InjOn f) (hname : name ∈ s) :
    Renames f s (e.removeAttr name) (e'.removeAttr (f name)) := by
  refine ⟨Attributes.within_erase h.within name, ?_⟩
  rw [h.eq, Element.removeAttr, renameElement, Attributes.erase_rename hf h.within hname]
  rfl

end Renames

/-! ## Renamed directives -/

/-- The directives under other names. The hidden class is no attribute. -/
def Names.rename (f : String → String) (names : Names) : Names :=
  ⟨f names.value, f names.if_, f names.ifNot, f names.each, names.hiddenClass⟩

/-- Other names that keep the attributes apart that a run looks at, among the given ones: the
directives, and the classes, which keep their name. -/
structure KeepsApart (f : String → String) (s : Set String) (names : Names) : Prop where
  injOn : s.InjOn f
  class_mem : Element.classKey ∈ s
  class_eq : f Element.classKey = Element.classKey
  directive_mem : ∀ name ∈ names.all, name ∈ s

namespace KeepsApart

variable {f : String → String} {s : Set String} {names : Names} {e e' : Element}

theorem mem (hf : KeepsApart f s names) :
    names.value ∈ s ∧ names.if_ ∈ s ∧ names.ifNot ∈ s ∧ names.each ∈ s := by
  have h := hf.directive_mem
  simpa only [Names.all, List.forall_mem_cons, List.not_mem_nil, false_implies, implies_true,
    and_true] using h

/-! ### Classes -/

theorem classes_eq (hf : KeepsApart f s names) (h : Renames f s e e') : e'.classes = e.classes := by
  have hattr := h.attr?_eq hf.injOn hf.class_mem
  rw [hf.class_eq] at hattr
  rw [Element.classes, hattr, Element.classes]

theorem hasClass_eq (hf : KeepsApart f s names) (h : Renames f s e e') (token : String) :
    e'.hasClass token = e.hasClass token := by
  rw [Element.hasClass, hf.classes_eq h, Element.hasClass]

theorem setClasses (hf : KeepsApart f s names) (h : Renames f s e e') (tokens : List String) :
    Renames f s (e.setClasses tokens) (e'.setClasses tokens) := by
  have hset := h.setAttr hf.injOn hf.class_mem (" ".intercalate tokens)
  rw [hf.class_eq] at hset
  exact hset

theorem addClass (hf : KeepsApart f s names) (h : Renames f s e e') (token : String) :
    Renames f s (e.addClass token) (e'.addClass token) := by
  rw [Element.addClass, Element.addClass, hf.hasClass_eq h, hf.classes_eq h]
  exact hf.setClasses h _

theorem removeClass (hf : KeepsApart f s names) (h : Renames f s e e') (token : String) :
    Renames f s (e.removeClass token) (e'.removeClass token) := by
  have hattr := h.hasAttr_eq hf.injOn hf.class_mem
  rw [hf.class_eq] at hattr
  rw [Element.removeClass, Element.removeClass, hattr, hf.classes_eq h]
  split
  · exact hf.setClasses h _
  · exact h

/-! ### Conditions -/

theorem markHidden (hf : KeepsApart f s names) (h : Renames f s e e') (hidden : Bool) :
    Renames f s (Directive.markHidden names hidden e)
      (Directive.markHidden (names.rename f) hidden e') := by
  have hshown := hf.removeClass h names.hiddenClass
  have hattr := hshown.attr?_eq hf.injOn hf.class_mem
  have hcleared := hshown.removeAttr hf.injOn hf.class_mem
  rw [hf.class_eq] at hattr hcleared
  unfold Directive.markHidden
  simp only [Names.rename, hf.hasClass_eq h, hattr]
  split
  · exact hf.addClass h _
  · split
    · split
      · exact hcleared
      · exact hshown
    · exact h

theorem applyConditions (hf : KeepsApart f s names) (h : Renames f s e e') (scope : Scope) :
    Renames f s (Directive.applyConditions names scope e)
      (Directive.applyConditions (names.rename f) scope e') := by
  obtain ⟨-, hif, hnot, -⟩ := hf.mem
  have hpositive : e'.attr? (names.rename f).if_ = e.attr? names.if_ := h.attr?_eq hf.injOn hif
  have hnegative : e'.attr? (names.rename f).ifNot = e.attr? names.ifNot :=
    h.attr?_eq hf.injOn hnot
  unfold Directive.applyConditions
  rw [hpositive, hnegative]
  cases e.attr? names.if_ with
  | some condition =>
    have hafter := hf.markHidden h (!Expr.holds scope condition)
    cases e.attr? names.ifNot with
    | some text => exact hf.markHidden hafter _
    | none => exact hafter
  | none =>
    cases e.attr? names.ifNot with
    | some text => exact hf.markHidden h _
    | none => exact h

/-! ### All directives -/

theorem flags_eq (hf : KeepsApart f s names) (h : Renames f s e e') :
    (names.rename f).flags e' = names.flags e := by
  obtain ⟨hvalue, hif, hnot, heach⟩ := hf.mem
  simp only [Names.flags, Names.rename, h.hasAttr_eq hf.injOn hvalue, h.hasAttr_eq hf.injOn hif,
    h.hasAttr_eq hf.injOn hnot, h.hasAttr_eq hf.injOn heach]

theorem stripDirectives (hf : KeepsApart f s names) (h : Renames f s e e') :
    Renames f s (Directive.stripDirectives names e)
      (Directive.stripDirectives (names.rename f) e') := by
  have hall : (names.rename f).all = names.all.map f := rfl
  rw [Directive.stripDirectives, Directive.stripDirectives, hall, List.foldl_map]
  refine List.foldl_rel (r := Renames f s) h ?_
  intro name hname _ _ hacc
  exact hacc.removeAttr hf.injOn (hf.directive_mem name hname)

/-- A run under the old names and one under the new names go through the same steps. -/
theorem simulates (hf : KeepsApart f s names) :
    Simulates names (names.rename f) (Renames f s) where
  conditions := fun scope _ _ h => hf.applyConditions h scope
  valueText := by
    intro scope e e' h
    have hattr : e'.attr? (names.rename f).value = e.attr? names.value :=
      h.attr?_eq hf.injOn hf.mem.1
    rw [valueText?, valueText?, hattr]
  loop := by
    intro scope e e' h
    have hattr : e'.attr? (names.rename f).each = e.attr? names.each :=
      h.attr?_eq hf.injOn hf.mem.2.2.2
    rw [loop?, loop?, hattr]
  candidate := by
    intro strip e e' h
    rw [isCandidate, isCandidate, hf.flags_eq h]
  hidden := fun e e' h => (hf.hasClass_eq h names.hiddenClass).symm
  strip := fun _ _ h => hf.stripDirectives h

end KeepsApart

/-! ## A text in front of the directives -/

/-- The names of the directives with nothing in front of them. -/
def plainNames : List String :=
  ["value", "if", "if-not", "each"]

/-- The name with the given text in front of it, if it is that of a directive. -/
def withPrefix (start name : String) : String :=
  if name ∈ plainNames then start ++ name else name

/-- The document with the given text in front of the names of all directives. -/
def prefixed (start : String) (d : Document) : Document :=
  d.mapElements (renameElement (withPrefix start))

theorem all_of (start hiddenClass : String) :
    (Names.of start hiddenClass).all = plainNames.map (start ++ ·) :=
  rfl

theorem all_of_empty (hiddenClass : String) : (Names.of "" hiddenClass).all = plainNames := by
  rw [all_of]
  decide

theorem withPrefix_of_mem {name : String} (h : name ∈ plainNames) (start : String) :
    withPrefix start name = start ++ name :=
  if_pos h

theorem rename_of_empty (start hiddenClass : String) :
    (Names.of "" hiddenClass).rename (withPrefix start) = Names.of start hiddenClass := by
  have hname : ∀ name ∈ plainNames, withPrefix start ("" ++ name) = start ++ name := by
    intro name h
    rw [String.empty_append, withPrefix_of_mem h]
  simp only [plainNames, List.forall_mem_cons] at hname
  obtain ⟨hvalue, hif, hnot, heach, -⟩ := hname
  simp only [Names.rename, Names.of, hvalue, hif, hnot, heach]

/-- The names that do not have the text in front already: all that are not the new name of a
directive. -/
def oldNames (start hiddenClass : String) : Set String :=
  {name | name ∈ plainNames ∨ name ∉ (Names.of start hiddenClass).all}

/-- Two names come together only if one of them has the text in front already. -/
theorem keepsApart_withPrefix (start hiddenClass : String) :
    KeepsApart (withPrefix start) (oldNames start hiddenClass) (Names.of "" hiddenClass) where
  injOn := by
    have hnew : ∀ {m n : String}, m ∈ plainNames → n ∉ plainNames →
        n ∈ oldNames start hiddenClass → start ++ m ≠ n := by
      rintro m n hm hn hs rfl
      rcases hs with hplain | hno
      · exact hn hplain
      · exact hno (List.mem_map_of_mem hm)
    intro m hm n hn h
    unfold withPrefix at h
    split at h
    · next hmp =>
      split at h
      · exact (String.append_right_inj start).1 h
      · next hnp => exact absurd h (hnew hmp hnp hn)
    · next hmp =>
      split at h
      · next hnp => exact absurd h.symm (hnew hnp hmp hm)
      · exact h
  class_mem := Or.inr (Names.classKey_notMem_of start hiddenClass)
  class_eq := by
    have hclass : Element.classKey ∉ plainNames := by decide
    exact if_neg hclass
  directive_mem := by
    intro name hname
    rw [all_of_empty] at hname
    exact Or.inl hname

theorem Attributes.notMem_of_get?_eq_none {a : Attributes} {name : String}
    (h : a.get? name = none) : ∀ p ∈ a.entries, p.1 ≠ name := by
  intro p hp he
  have := List.lookup_eq_none_iff.1 h p hp
  simp [he] at this

/-- A text in front of the names of all directives changes nothing in a run but these names, if no
attribute has one of the new names before. -/
theorem finalize_process_prefixed (start hiddenClass : String) (strip : Bool) (data : Value)
    {d : Document}
    (h : ∀ id e, d.element? id = some e → ∀ name ∈ (Names.of start hiddenClass).all,
      e.attr? name = none) :
    let plain := finalize (Names.of "" hiddenClass) strip
      (process (Names.of "" hiddenClass) data d)
    let other := finalize (Names.of start hiddenClass) strip
      (process (Names.of start hiddenClass) data (prefixed start d))
    other = (prefixed start plain.1, plain.2) ∧
      other.1.tree = plain.1.tree.map (Kind.mapElement (renameElement (withPrefix start))) := by
  intro plain other
  have hf := keepsApart_withPrefix start hiddenClass
  have hsim := hf.simulates
  rw [rename_of_empty] at hsim
  have hrelated : d.Related (Renames (withPrefix start) (oldNames start hiddenClass))
      (prefixed start d) := by
    refine Document.related_mapElements fun id e he => ⟨?_, rfl⟩
    intro p hp
    refine Or.inr fun hmem => ?_
    exact Attributes.notMem_of_get?_eq_none (h id e he _ hmem) p hp rfl
  obtain ⟨hdocument, hcount⟩ := hsim.finalize strip (hsim.process data hrelated)
  have heq : other.1 = prefixed start plain.1 :=
    hdocument.eq_mapElements fun _ _ hr => hr.eq
  refine ⟨Prod.ext heq hcount.symm, ?_⟩
  rw [heq, prefixed, Document.tree_mapElements]

/-- A loop with a value inside of it, and an element that is taken out. -/
theorem finalize_process_prefixed_loop :
    let d := (Html.parse
      "<ul><li each=\"x in xs\"><b value=\"x\"></b></li></ul><p if=\"y\">n</p>").document
    let data := Value.object [("xs", .array [.string "a", .string "b"])]
    let plain := finalize (Names.of "" "remove-it") true (process (Names.of "" "remove-it") data d)
    let other := finalize (Names.of "x-" "remove-it") true
      (process (Names.of "x-" "remove-it") data (prefixed "x-" d))
    (∀ id e, d.element? id = some e → ∀ name ∈ (Names.of "x-" "remove-it").all,
      e.attr? name = none) ∧
    other = (prefixed "x-" plain.1, plain.2) ∧
      other.1.tree = plain.1.tree.map (Kind.mapElement (renameElement (withPrefix "x-"))) := by
  intro d data plain other
  have hnew : ∀ id e, d.element? id = some e → ∀ name ∈ (Names.of "x-" "remove-it").all,
      e.attr? name = none := by
    have hall : ∀ id < d.size, ∀ e ∈ d.element? id, ∀ name ∈ (Names.of "x-" "remove-it").all,
        e.attr? name = none := by
      decide +kernel
    intro id e he
    refine hall id ?_ e he
    obtain ⟨k, hk, -⟩ := Option.bind_eq_some_iff.1 he
    obtain ⟨n, hn, -⟩ := Option.map_eq_some_iff.1 hk
    exact Document.lt_size_of_getElem? hn
  exact ⟨hnew, finalize_process_prefixed "x-" "remove-it" true data hnew⟩

end Stencil.Directive
