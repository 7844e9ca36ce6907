import Mathlib.Data.List.Basic
import Stencil.Files
namespace Stencil.Files

/-! # Paths and places

What can be read off a path about the place that it leads to. A path to anything but a folder ends
in the name of the place, so paths to one file end in one name, however they go. Where a path leads
depends on the folders alone: writing a file moves no place, and making a folder only opens new
ways.
-/

variable {fs fs' : Files} {path folder name : String} {p q : Place}

/-! ## Names of a path -/

theorem namesFrom_append_cons (cs rest : List Char) :
    ∀ read, namesFrom read (cs ++ '/' :: rest) = namesFrom read cs ++ namesFrom [] rest := by
  induction cs with
  | nil => exact fun read => by rw [List.nil_append, namesFrom, namesFrom, List.singleton_append]
  | cons c cs ih =>
    intro read
    by_cases hc : c = '/'
    · subst hc
      rw [List.cons_append, namesFrom, namesFrom, ih, List.cons_append]
    · rw [List.cons_append, namesFrom, namesFrom, ih]
      · exact hc
      · exact hc

theorem namesFrom_of_notMem {cs : List Char} (h : '/' ∉ cs) :
    ∀ read, namesFrom read cs = [String.ofList (read.reverse ++ cs)] := by
  induction cs with
  | nil => exact fun read => by rw [namesFrom, List.append_nil]
  | cons c cs ih =>
    intro read
    rw [List.mem_cons, not_or] at h
    rw [namesFrom, ih h.2, List.reverse_cons, List.append_assoc, List.singleton_append]
    exact Ne.symm h.1

theorem notMem_of_mem_namesFrom {cs : List Char} :
    ∀ {read : List Char}, '/' ∉ read → ∀ n ∈ namesFrom read cs, '/' ∉ n.toList := by
  induction cs with
  | nil =>
    intro read hread n hn
    rw [namesFrom, List.mem_singleton] at hn
    rw [hn, String.toList_ofList, List.mem_reverse]
    exact hread
  | cons c cs ih =>
    intro read hread n hn
    by_cases hc : c = '/'
    · subst hc
      rw [namesFrom, List.mem_cons] at hn
      rcases hn with rfl | hn
      · rw [String.toList_ofList, List.mem_reverse]
        exact hread
      · exact ih List.not_mem_nil n hn
    · rw [namesFrom] at hn
      · refine ih ?_ n hn
        rw [List.mem_cons, not_or]
        exact ⟨Ne.symm hc, hread⟩
      · exact hc

theorem names_ne_nil (path : String) : names path ≠ [] := by
  have hne : ∀ (cs read : List Char), namesFrom read cs ≠ [] := by
    intro cs
    induction cs with
    | nil => exact fun read => by simp [namesFrom]
    | cons c cs ih =>
      intro read
      by_cases hc : c = '/'
      · subst hc
        simp [namesFrom]
      · rw [namesFrom]
        · exact ih _
        · exact hc
  exact hne _ _

/-- The names that something in a folder can have. -/
structure IsFileName (name : String) : Prop where
  slash : '/' ∉ name.toList
  ne_empty : name ≠ ""
  ne_dot : name ≠ "."
  ne_outward : name ≠ Place.outward

theorem fileName?_of_names {init : List String} (h : names path = init ++ [name])
    (hname : IsFileName name) : fileName? path = some name := by
  simp [fileName?, h, hname.ne_empty, hname.ne_dot, hname.ne_outward]

theorem isFileName_of_fileName? (h : fileName? path = some name) : IsFileName name := by
  rw [fileName?, Option.filter_eq_some_iff] at h
  obtain ⟨hlast, hout⟩ := h
  obtain ⟨hmem, hother⟩ := List.mem_filter.1 (List.mem_of_getLast? hlast)
  have hne : name ≠ "" ∧ name ≠ "." := by simpa using hother
  exact ⟨notMem_of_mem_namesFrom List.not_mem_nil name hmem, hne.1, hne.2, by simpa using hout⟩

/-- The path of a name in a folder ends in that name. -/
theorem fileName?_join (folder : String) (hname : IsFileName name) :
    fileName? (join folder name) = some name := by
  have hlast : namesFrom [] name.toList = [name] := by
    rw [namesFrom_of_notMem hname.slash, List.reverse_nil, List.nil_append, String.ofList_toList]
  have hsplit : ∃ init, names (join folder name) = init ++ [name] := by
    unfold join names
    split
    · next h =>
      rw [String.toList_append]
      rcases List.eq_nil_or_concat folder.toList with hnil | ⟨cs, c, hcs⟩
      · exact ⟨[], by rw [hnil, List.nil_append, List.nil_append, hlast]⟩
      · -- the slash is there already
        rw [hcs, List.concat_eq_append] at h ⊢
        obtain rfl : c = '/' := by simpa using h
        rw [List.append_assoc, List.singleton_append, namesFrom_append_cons, hlast]
        exact ⟨_, rfl⟩
    · rw [String.toList_append, String.toList_append, List.append_assoc]
      show ∃ init, namesFrom [] (folder.toList ++ '/' :: name.toList) = init ++ [name]
      rw [namesFrom_append_cons, hlast]
      exact ⟨_, rfl⟩
  obtain ⟨init, hinit⟩ := hsplit
  exact fileName?_of_names hinit hname

/-! ## Where a path leads -/

/-- Everything around the place is a folder. -/
def Reached (fs : Files) (p : Place) : Prop :=
  ∀ q, q <+: p → q ≠ p → fs.isFolder q = true

theorem reached_start (fs : Files) (path : String) : fs.Reached (fs.start path) := by
  intro q hq _
  have hworking : fs.start path <+: fs.working := by
    unfold start
    split
    · exact List.nil_prefix
    · exact List.prefix_rfl
  simp [isFolder, hq.trans hworking]

/-- From a folder that was reached a name leads to a place that was reached. That is a folder again,
unless it has that name. -/
theorem Reached.step (hp : fs.Reached p) (hfolder : fs.isFolder p = true) (name : String) :
    fs.Reached (p.step name) ∧ (fs.isFolder (p.step name) = true ∨
      name ≠ "" ∧ name ≠ "." ∧ name ≠ Place.outward ∧ p.step name = p ++ [name]) := by
  unfold Place.step
  by_cases hstay : name = "" ∨ name = "."
  · rw [if_pos (by simpa using hstay)]
    exact ⟨hp, Or.inl hfolder⟩
  · rw [if_neg (by simpa using hstay)]
    rw [not_or] at hstay
    by_cases hout : name = Place.outward
    · rw [if_pos hout]
      constructor
      · intro q hq hne
        refine hp q (hq.trans p.dropLast_prefix) ?_
        rintro rfl
        exact hne (hq.eq_of_length_le (List.dropLast_prefix _).length_le)
      · -- the folder around the place, or the root again
        refine Or.inl ?_
        by_cases hroot : p.dropLast = p
        · rwa [hroot]
        · exact hp _ p.dropLast_prefix hroot
    · rw [if_neg hout]
      refine ⟨?_, Or.inr ⟨hstay.1, hstay.2, hout, rfl⟩⟩
      intro q hq hne
      rcases List.prefix_concat_iff.1 hq with rfl | hq
      · exact absurd rfl hne
      · by_cases hqp : q = p
        · rwa [hqp]
        · exact hp q hq hqp

/-- Names that lead to anything but a folder end in the name of the place. -/
theorem exists_last_of_walk? {ns : List String} : ∀ {p : Place}, fs.Reached p → ns ≠ [] →
    fs.walk? p ns = some q → fs.isFolder q = false →
      ∃ init name, ns = init ++ [name] ∧ name ≠ "" ∧ name ≠ "." ∧ name ≠ Place.outward ∧
        q.getLast? = some name := by
  induction ns with
  | nil => exact fun _ hne => absurd rfl hne
  | cons name rest ih =>
    intro p hp _ hwalk hq
    rw [walk?] at hwalk
    split at hwalk
    · next hfolder =>
      obtain ⟨hreached, hnext⟩ := hp.step hfolder name
      cases rest with
      | nil =>
        obtain rfl : p.step name = q := by simpa [walk?] using hwalk
        rcases hnext with hnext | ⟨hempty, hdot, hout, hplace⟩
        · rw [hnext] at hq
          cases hq
        · exact ⟨[], name, rfl, hempty, hdot, hout, by rw [hplace, List.getLast?_concat]⟩
      | cons _ _ =>
        obtain ⟨init, last, hns, hlast⟩ := ih hreached (List.cons_ne_nil _ _) hwalk hq
        exact ⟨name :: init, last, by rw [hns, List.cons_append], hlast⟩
    · cases hwalk

/-- A path to anything but a folder ends in the name of the place. -/
theorem fileName?_of_place? (h : fs.place? path = some q) (hq : fs.isFolder q = false) :
    fileName? path = q.getLast? := by
  obtain ⟨init, name, hnames, hempty, hdot, hout, hlast⟩ :=
    exists_last_of_walk? (fs.reached_start path) (names_ne_nil path) h hq
  have hmem : name ∈ names path := by
    rw [hnames]
    exact List.mem_append_right _ (List.mem_singleton_self _)
  have hname : IsFileName name :=
    ⟨notMem_of_mem_namesFrom List.not_mem_nil name hmem, hempty, hdot, hout⟩
  rw [fileName?_of_names hnames hname, hlast]

/-! ## Making folders -/

/-- The same files, and no folder less. -/
structure Grows (fs fs' : Files) : Prop where
  working : fs'.working = fs.working
  folders : ∀ p, fs.isFolder p = true → fs'.isFolder p = true
  contents : fs'.contents = fs.contents

namespace Grows

theorem refl (fs : Files) : Grows fs fs :=
  ⟨rfl, fun _ h => h, rfl⟩

theorem trans {fs'' : Files} (h : Grows fs fs') (h' : Grows fs' fs'') : Grows fs fs'' :=
  ⟨h'.working.trans h.working, fun p hp => h'.folders p (h.folders p hp),
    h'.contents.trans h.contents⟩

theorem walk? (h : Grows fs fs') {ns : List String} : ∀ {p : Place},
    fs.walk? p ns = some q → fs'.walk? p ns = some q := by
  induction ns with
  | nil => exact fun hwalk => hwalk
  | cons name rest ih =>
    intro p hwalk
    rw [Files.walk?] at hwalk ⊢
    split at hwalk
    · next hfolder =>
      rw [if_pos (h.folders p hfolder)]
      exact ih hwalk
    · cases hwalk

/-- What can be read stays as it is. -/
theorem text? (h : Grows fs fs') {text : String} (htext : fs.text? path = some text) :
    fs'.text? path = some text := by
  obtain ⟨bytes, hbytes, hdecode⟩ := Option.bind_eq_some_iff.1 htext
  obtain ⟨p, hp, hfile⟩ := Option.bind_eq_some_iff.1 hbytes
  have hstart : fs'.start path = fs.start path := by rw [start, start, h.working]
  have hplace : fs'.place? path = some p := by
    rw [place?, hstart]
    exact h.walk? hp
  rw [Files.text?, bytes?, hplace, Option.bind_some, file?, h.contents, ← file?, hfile,
    Option.bind_some, hdecode]

end Grows

theorem grows_addFolder? (h : fs.addFolder? p = some fs') : Grows fs fs' := by
  unfold addFolder? at h
  split at h
  · cases h
    exact .refl _
  · split at h
    · cases h
    · cases h
      refine ⟨rfl, fun q hq => ?_, rfl⟩
      simp only [isFolder, Bool.or_eq_true, List.contains_cons] at hq ⊢
      tauto

theorem grows_addFolders? {ns : List String} : ∀ {fs : Files} {p : Place},
    fs.addFolders? p ns = some fs' → Grows fs fs' := by
  induction ns with
  | nil =>
    intro fs p h
    cases h
    exact .refl _
  | cons name rest ih =>
    intro fs p h
    obtain ⟨next, hnext, hrest⟩ := Option.bind_eq_some_iff.1 h
    exact (grows_addFolder? hnext).trans (ih hrest)

theorem grows_makeFolder? (h : fs.makeFolder? folder = some fs') : Grows fs fs' := by
  unfold makeFolder? at h
  split at h
  · split at h
    · cases h
      exact .refl _
    · cases h
  · exact grows_addFolders? h

/-! ## Writing files -/

/-- The same folders, and any files. -/
structure SameFolders (fs fs' : Files) : Prop where
  working : fs'.working = fs.working
  folders : fs'.folders = fs.folders

namespace SameFolders

theorem trans {fs'' : Files} (h : SameFolders fs fs') (h' : SameFolders fs' fs'') :
    SameFolders fs fs'' :=
  ⟨h'.working.trans h.working, h'.folders.trans h.folders⟩

theorem isFolder_eq (h : SameFolders fs fs') (p : Place) : fs'.isFolder p = fs.isFolder p := by
  rw [isFolder, isFolder, h.working, h.folders]

theorem place?_eq (h : SameFolders fs fs') (path : String) : fs'.place? path = fs.place? path := by
  have hwalk : ∀ (ns : List String) (p : Place), fs'.walk? p ns = fs.walk? p ns := by
    intro ns
    induction ns with
    | nil => exact fun _ => rfl
    | cons name rest ih =>
      intro p
      rw [walk?, walk?, h.isFolder_eq, ih]
  rw [place?, place?, hwalk, start, start, h.working]

theorem bytes?_of_place? (h : SameFolders fs fs') (hp : fs.place? path = some p) :
    fs'.bytes? path = fs'.file? p := by
  rw [bytes?, h.place?_eq, hp, Option.bind_some]

end SameFolders

theorem write?_eq_some (bytes : ByteArray) (hp : fs.place? path = some p)
    (hfolder : fs.isFolder p = false) :
    fs.write? path bytes = some { fs with contents := put p bytes fs.contents } := by
  rw [write?, hp, Option.bind_some, hfolder, if_neg Bool.false_ne_true]

/-- What is written goes to the place of its path and nowhere else. -/
theorem exists_of_write? {bytes : ByteArray} (h : fs.write? path bytes = some fs') :
    ∃ p, fs.place? path = some p ∧ fs.isFolder p = false ∧ SameFolders fs fs' ∧
      ∀ q, fs'.file? q = if q = p then some bytes else fs.file? q := by
  obtain ⟨p, hp, hput⟩ := Option.bind_eq_some_iff.1 h
  split at hput
  · cases hput
  · next hfolder =>
    cases hput
    refine ⟨p, hp, Bool.eq_false_iff.2 hfolder, ⟨rfl, rfl⟩, fun q => ?_⟩
    split
    · next hq => rw [hq, file?, lookup_put_self]
    · next hq => rw [file?, lookup_put_of_ne hq, file?]

/-- The same folders, and the same files in them. -/
structure Same (fs fs' : Files) : Prop extends SameFolders fs fs' where
  files : ∀ p, fs'.file? p = fs.file? p

theorem fromUTF8?_toUTF8 (text : String) : String.fromUTF8? text.toUTF8 = some text := by
  have hvalid : text.toUTF8.IsValidUTF8 := text.isValidUTF8
  rw [String.fromUTF8?, dif_pos hvalid]
  rfl

end Stencil.Files
