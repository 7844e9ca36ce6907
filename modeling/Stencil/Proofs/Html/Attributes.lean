import Mathlib.Data.List.Nodup
import Mathlib.Data.Set.Function
import Stencil.Html.Element
namespace Stencil.Html.Attributes

/-! # Attributes that are set, erased and renamed

An attribute that is set again keeps its place, so all that counts is the last value. Other names
for the attributes change nothing in how they are looked up, set and erased, as long as the new
names of different attributes are different.
-/

/-! ## Setting and erasing -/

theorem setIn_setIn (name v w : String) (l : List (String × String)) :
    setIn name w (setIn name v l) = setIn name w l := by
  induction l with
  | nil => simp [setIn]
  | cons p rest ih =>
    obtain ⟨n, u⟩ := p
    by_cases hn : n = name
    · simp [setIn, hn]
    · simp [setIn, hn, ih]

theorem set_set (a : Attributes) (name v w : String) :
    (a.set name v).set name w = a.set name w :=
  ext (setIn_setIn name v w a.entries)

theorem erase_set (a : Attributes) (name v : String) :
    (a.set name v).erase name = a.erase name := by
  refine ext ?_
  show (setIn name v a.entries).filter (·.1 ≠ name) = a.entries.filter (·.1 ≠ name)
  induction a.entries with
  | nil => simp [setIn]
  | cons p rest ih =>
    obtain ⟨n, u⟩ := p
    by_cases hn : n = name
    · simp [setIn, hn]
    · simpa [setIn, hn] using ih

theorem erase_erase (a : Attributes) (name : String) :
    (a.erase name).erase name = a.erase name := by
  refine ext ?_
  show (a.entries.filter (·.1 ≠ name)).filter (·.1 ≠ name) = a.entries.filter (·.1 ≠ name)
  rw [List.filter_filter]
  simp only [Bool.and_self]

theorem setIn_of_notMem {name value : String} {l : List (String × String)}
    (h : name ∉ l.map Prod.fst) : setIn name value l = l ++ [(name, value)] := by
  induction l with
  | nil => rfl
  | cons p l ih =>
    obtain ⟨n, v⟩ := p
    rw [List.map_cons, List.mem_cons, not_or] at h
    rw [setIn, if_neg (Ne.symm h.1), ih h.2]
    rfl

theorem has_of_notMem {name : String} {a : Attributes} (h : name ∉ a.entries.map Prod.fst) :
    a.has name = false := by
  unfold has get?
  rw [List.lookup_eq_none_iff.2]
  · rfl
  · intro p hp
    have hne : p.1 ≠ name := fun he => h (he ▸ List.mem_map_of_mem hp)
    simpa using hne.symm

theorem entries_set_of_notMem {name : String} {a : Attributes}
    (h : name ∉ a.entries.map Prod.fst) (value : String) :
    (a.set name value).entries = a.entries ++ [(name, value)] :=
  setIn_of_notMem h

theorem entries_addNew_of_notMem {name : String} {a : Attributes}
    (h : name ∉ a.entries.map Prod.fst) (value : String) :
    (a.addNew name value).entries = a.entries ++ [(name, value)] := by
  rw [addNew, has_of_notMem h, if_neg (by simp)]
  exact entries_set_of_notMem h value

theorem has_of_mem {a : Attributes} {p : String × String} (h : p ∈ a.entries) :
    a.has p.1 = true := by
  unfold has get?
  rw [Option.isSome_iff_ne_none, ne_eq, List.lookup_eq_none_iff]
  intro hnone
  simpa using hnone p h

theorem erase_eq_self {a : Attributes} {name : String} (h : a.has name = false) :
    a.erase name = a := by
  refine ext (List.filter_eq_self.2 ?_)
  intro p hp
  have hne : p.1 ≠ name := by
    rintro rfl
    rw [has_of_mem hp] at h
    cases h
  simpa using hne

/-! ## Several names at once -/

/-- The attributes but for those of some names; the others keep their order. -/
def without (a : Attributes) (names : List String) : Attributes :=
  ⟨a.entries.filter (·.1 ∉ names), List.Sublist.nodup (List.filter_sublist.map _) a.nodup⟩

/-- Erasing one name after the other is leaving all of them out. -/
theorem foldl_erase (names : List String) (a : Attributes) :
    names.foldl erase a = a.without names := by
  induction names generalizing a with
  | nil => exact ext (by simp [without])
  | cons name names ih =>
    rw [List.foldl_cons, ih]
    refine ext ?_
    show (a.entries.filter (·.1 ≠ name)).filter (·.1 ∉ names) =
      a.entries.filter (·.1 ∉ name :: names)
    rw [List.filter_filter]
    refine List.filter_congr ?_
    intro p _
    simp [not_or, Bool.and_comm]

theorem without_eq_self {a : Attributes} {names : List String}
    (h : ∀ name ∈ names, a.has name = false) : a.without names = a := by
  refine ext (List.filter_eq_self.2 ?_)
  intro p hp
  have hnot : p.1 ∉ names := by
    intro hmem
    have hno := h p.1 hmem
    rw [has_of_mem hp] at hno
    cases hno
  simpa using hnot

theorem has_without {a : Attributes} {names : List String} {name : String} (h : name ∈ names) :
    (a.without names).has name = false := by
  refine has_of_notMem ?_
  intro hmem
  obtain ⟨p, hp, rfl⟩ := List.mem_map.1 hmem
  have hnot := (List.mem_filter.1 hp).2
  simp [h] at hnot

/-! ## Lists of attributes -/

/-- Attributes with different names are all taken, in order, if a new name is put at the end. -/
theorem entries_foldl_put {put : Attributes → String → String → Attributes}
    (hput : ∀ {name : String} {a : Attributes}, name ∉ a.entries.map Prod.fst → ∀ value,
      (put a name value).entries = a.entries ++ [(name, value)]) (l : List (String × String)) :
    ∀ {a : Attributes}, ((a.entries ++ l).map Prod.fst).Nodup →
      (l.foldl (fun a p => put a p.1 p.2) a).entries = a.entries ++ l := by
  induction l with
  | nil => simp
  | cons p l ih =>
    intro a h
    have hnot : p.1 ∉ a.entries.map Prod.fst := by
      intro hmem
      rw [List.map_append, List.nodup_append] at h
      exact h.2.2 _ hmem _ List.mem_cons_self rfl
    have hall : a.entries ++ p :: l = a.entries ++ [p] ++ l := by simp
    rw [List.foldl_cons, ih (by rwa [hput hnot, ← hall]), hput hnot, hall]

theorem entries_foldl_addNew (l : List (String × String)) {a : Attributes}
    (h : ((a.entries ++ l).map Prod.fst).Nodup) :
    (l.foldl (fun a p => a.addNew p.1 p.2) a).entries = a.entries ++ l :=
  entries_foldl_put entries_addNew_of_notMem l h

theorem entries_ofList {l : List (String × String)} (h : (l.map Prod.fst).Nodup) :
    (ofList l).entries = l :=
  entries_foldl_put entries_set_of_notMem l h

/-! ## Other names -/

section Rename

variable {f : String → String} {s : Set String} {a : Attributes} {l : List (String × String)}
  {name : String}

/-- The pairs under other names. -/
def renameIn (f : String → String) (l : List (String × String)) : List (String × String) :=
  l.map fun p => (f p.1, p.2)

/-- The attributes under other names, each in its place. -/
def rename (f : String → String) (a : Attributes) : Attributes :=
  ofList (renameIn f a.entries)

/-- All names are among the given ones. -/
def Within (s : Set String) (a : Attributes) : Prop :=
  ∀ p ∈ a.entries, p.1 ∈ s

theorem lookup_renameIn (hf : s.InjOn f) (hl : ∀ p ∈ l, p.1 ∈ s) (hname : name ∈ s) :
    (renameIn f l).lookup (f name) = l.lookup name := by
  induction l with
  | nil => rfl
  | cons p l ih =>
    rw [List.forall_mem_cons] at hl
    have hbeq : (f name == f p.1) = (name == p.1) := by
      rw [Bool.eq_iff_iff, beq_iff_eq, beq_iff_eq, hf.eq_iff hname hl.1]
    rw [renameIn, List.map_cons, List.lookup_cons, List.lookup_cons, hbeq, ← ih hl.2]
    rfl

theorem setIn_renameIn (hf : s.InjOn f) (hl : ∀ p ∈ l, p.1 ∈ s) (hname : name ∈ s)
    (value : String) :
    setIn (f name) value (renameIn f l) = renameIn f (setIn name value l) := by
  induction l with
  | nil => rfl
  | cons p l ih =>
    rw [List.forall_mem_cons] at hl
    obtain ⟨n, v⟩ := p
    have hiff : f n = f name ↔ n = name := hf.eq_iff hl.1 hname
    simp only [renameIn, List.map_cons, setIn, hiff]
    split
    · rfl
    · exact congrArg _ (ih hl.2)

theorem filter_renameIn (hf : s.InjOn f) (hl : ∀ p ∈ l, p.1 ∈ s) (hname : name ∈ s) :
    (renameIn f l).filter (·.1 ≠ f name) = renameIn f (l.filter (·.1 ≠ name)) := by
  unfold renameIn
  rw [List.filter_map]
  congr 1
  refine List.filter_congr ?_
  intro p hp
  have hiff : f p.1 = f name ↔ p.1 = name := hf.eq_iff (hl p hp) hname
  simp [hiff]

/-- New names that are different leave every attribute in its place. -/
theorem entries_rename (hf : s.InjOn f) (ha : a.Within s) :
    (a.rename f).entries = renameIn f a.entries := by
  refine entries_ofList ?_
  rw [renameIn, List.map_map]
  have hnames : (a.entries.map Prod.fst).map f = a.entries.map (Prod.fst ∘ fun p => (f p.1, p.2)) :=
    List.map_map
  rw [← hnames]
  refine List.Nodup.map_on ?_ a.nodup
  intro m hm n hn h
  obtain ⟨p, hp, rfl⟩ := List.mem_map.1 hm
  obtain ⟨q, hq, rfl⟩ := List.mem_map.1 hn
  exact hf (ha p hp) (ha q hq) h

theorem get?_rename (hf : s.InjOn f) (ha : a.Within s) (hname : name ∈ s) :
    (a.rename f).get? (f name) = a.get? name := by
  rw [get?, entries_rename hf ha, lookup_renameIn hf ha hname, get?]

theorem within_set (ha : a.Within s) (hname : name ∈ s) (value : String) :
    (a.set name value).Within s := by
  intro p hp
  rcases mem_names_setIn.1 (List.mem_map_of_mem (f := Prod.fst) hp) with hnew | hold
  · rw [hnew]
    exact hname
  · obtain ⟨q, hq, heq⟩ := List.mem_map.1 hold
    rw [← heq]
    exact ha q hq

theorem within_erase (ha : a.Within s) (name : String) : (a.erase name).Within s :=
  fun p hp => ha p (List.mem_filter.1 hp).1

theorem set_rename (hf : s.InjOn f) (ha : a.Within s) (hname : name ∈ s) (value : String) :
    (a.rename f).set (f name) value = (a.set name value).rename f := by
  refine ext ?_
  rw [entries_rename hf (within_set ha hname value)]
  show setIn (f name) value (a.rename f).entries = renameIn f (setIn name value a.entries)
  rw [entries_rename hf ha, setIn_renameIn hf ha hname]

theorem erase_rename (hf : s.InjOn f) (ha : a.Within s) (hname : name ∈ s) :
    (a.rename f).erase (f name) = (a.erase name).rename f := by
  refine ext ?_
  rw [entries_rename hf (within_erase ha name)]
  show (a.rename f).entries.filter (·.1 ≠ f name) = renameIn f (a.entries.filter (·.1 ≠ name))
  rw [entries_rename hf ha, filter_renameIn hf ha hname]

end Rename

end Stencil.Html.Attributes
