import Stencil.Text.Units
namespace Stencil.Html

/-! # Attributes

The attributes of an element, in order and each name once.
-/

/-- Attributes in order. No name stands twice. -/
structure Attributes where
  entries : List (String × String)
  nodup : (entries.map Prod.fst).Nodup

namespace Attributes

theorem ext {a b : Attributes} (h : a.entries = b.entries) : a = b := by
  cases a
  cases b
  cases h
  rfl

instance : DecidableEq Attributes := fun a b =>
  if h : a.entries = b.entries then isTrue (ext h)
  else isFalse fun hab => h (congrArg entries hab)

/-- No attributes. -/
def empty : Attributes :=
  ⟨[], List.nodup_nil⟩

/-- The value of an attribute. -/
def get? (a : Attributes) (name : String) : Option String :=
  a.entries.lookup name

/-- Whether there is an attribute of this name. -/
def has (a : Attributes) (name : String) : Bool :=
  (a.get? name).isSome

/-- The pairs with a value put in the place of an old one, or at the end. -/
def setIn (name value : String) : List (String × String) → List (String × String)
  | [] => [(name, value)]
  | (n, v) :: rest => if n = name then (n, value) :: rest else (n, v) :: setIn name value rest

theorem mem_names_setIn {name value m : String} {l : List (String × String)} :
    m ∈ (setIn name value l).map Prod.fst ↔ m = name ∨ m ∈ l.map Prod.fst := by
  induction l with
  | nil => simp [setIn]
  | cons p rest ih =>
    obtain ⟨n, v⟩ := p
    by_cases h : n = name
    · subst h
      simp [setIn]
    · simp only [setIn, h, if_false, List.map_cons, List.mem_cons, ih]
      grind

theorem nodup_setIn {name value : String} {l : List (String × String)}
    (h : (l.map Prod.fst).Nodup) : ((setIn name value l).map Prod.fst).Nodup := by
  induction l with
  | nil => simp [setIn]
  | cons p rest ih =>
    obtain ⟨n, v⟩ := p
    rw [List.map_cons, List.nodup_cons] at h
    by_cases hn : n = name
    · simp only [setIn, hn, if_true, List.map_cons, List.nodup_cons]
      exact hn ▸ h
    · simp only [setIn, hn, if_false, List.map_cons, List.nodup_cons]
      refine ⟨fun hm => ?_, ih h.2⟩
      rcases mem_names_setIn.1 hm with h1 | h1
      · exact hn h1
      · exact h.1 h1

/-- Sets an attribute. A new one comes last, an old one keeps its place. -/
def set (a : Attributes) (name value : String) : Attributes :=
  ⟨setIn name value a.entries, nodup_setIn a.nodup⟩

/-- Removes an attribute; the others keep their order. -/
def erase (a : Attributes) (name : String) : Attributes :=
  ⟨a.entries.filter (·.1 ≠ name), List.Sublist.nodup (List.filter_sublist.map _) a.nodup⟩

theorem lookup_setIn (name value m : String) (l : List (String × String)) :
    (setIn name value l).lookup m = if m = name then some value else l.lookup m := by
  induction l with
  | nil =>
    by_cases h : m = name
    · simp [setIn, h]
    · simp [setIn, List.lookup_cons, beq_false_of_ne h, h]
  | cons p rest ih =>
    obtain ⟨n, v⟩ := p
    by_cases hn : n = name
    · subst hn
      by_cases h : m = n
      · simp [setIn, h]
      · simp [setIn, List.lookup_cons, beq_false_of_ne h, h]
    · by_cases h : m = n
      · subst h
        simp [setIn, hn]
      · simp [setIn, hn, List.lookup_cons, beq_false_of_ne h, ih]

/-- An attribute that is set has its new value, and the others keep theirs. -/
@[simp] theorem get?_set (a : Attributes) (name value m : String) :
    (a.set name value).get? m = if m = name then some value else a.get? m :=
  lookup_setIn name value m a.entries

/-- An attribute that is erased is gone, and the others keep their values. -/
@[simp] theorem get?_erase (a : Attributes) (name m : String) :
    (a.erase name).get? m = if m = name then none else a.get? m := by
  show (a.entries.filter (·.1 ≠ name)).lookup m = _
  unfold get?
  induction a.entries with
  | nil => simp
  | cons p rest ih =>
    obtain ⟨n, v⟩ := p
    by_cases hn : n = name
    · subst hn
      by_cases h : m = n
      · simpa [h] using ih
      · simpa [List.lookup_cons, beq_false_of_ne h, h] using ih
    · by_cases h : m = n
      · subst h
        simp [hn]
      · simpa [hn, List.lookup_cons, beq_false_of_ne h] using ih

/-- Adds an attribute at the end unless there is one of its name. -/
def addNew (a : Attributes) (name value : String) : Attributes :=
  if a.has name then a else a.set name value

/-- The attributes in the order of their names. -/
def sorted (a : Attributes) : Attributes :=
  ⟨a.entries.mergeSort fun p q => Text.precedes p.1 q.1,
    ((List.mergeSort_perm a.entries _).map Prod.fst).nodup_iff.2 a.nodup⟩

/-- Attributes set one after the other. -/
def ofList (pairs : List (String × String)) : Attributes :=
  pairs.foldl (fun a p => a.set p.1 p.2) empty

end Attributes

end Stencil.Html
