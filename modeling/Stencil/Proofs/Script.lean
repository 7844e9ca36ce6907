import Mathlib.Logic.Relation
import Stencil.Proofs.Files
import Stencil.Script
namespace Stencil

/-! # Scripts side by side

Several scripts are carried out on one disk, each in its own order and one step at a time: whichever
of them has not ended may take the next step. Carrying one of them out to its end, while the others
wait, is a way to go on, and so is carrying all of them out one after the other.
-/

namespace Script

variable {α β : Type}

/-- The first step of a script: what is left of it, and the disk after it. A script that has ended
takes none. -/
def step? : Script α → Disk → Option (Script α × Disk)
  | .done _, _ => none
  | .read path next, d => some (next (d.files.text? path), d)
  | .makeFolder path next, d => some (next (putFolder d path).2, (putFolder d path).1)
  | .write path text next, d => some (next (put d path text).2, (put d path text).1)
  | .print text next, d => some (next, { d with printed := d.printed ++ text })

instance : LawfulMonad Script := by
  refine LawfulMonad.mk' Script ?_ (fun _ _ => rfl) ?_
  · intro α s
    show bind s (fun a => .done a) = s
    induction s with
    | done a => rfl
    | read path next ih => exact congrArg _ (funext ih)
    | makeFolder path next ih => exact congrArg _ (funext ih)
    | write path text next ih => exact congrArg _ (funext ih)
    | print text next ih => exact congrArg _ ih
  · intro α β γ s f g
    show bind (bind s f) g = bind s fun a => bind (f a) g
    induction s with
    | done a => rfl
    | read path next ih => exact congrArg _ (funext ih)
    | makeFolder path next ih => exact congrArg _ (funext ih)
    | write path text next ih => exact congrArg _ (funext ih)
    | print text next ih => exact congrArg _ ih

/-- A text is put into its place, if its path leads to one that is no folder. -/
theorem put_of_place? {d : Disk} {path : String} {p : Place} (hp : d.files.place? path = some p)
    (hfolder : d.files.isFolder p = false) (text : String) :
    (put d path text).2 = true ∧ (put d path text).1.printed = d.printed ∧
      d.files.SameFolders (put d path text).1.files ∧
      ∀ q, (put d path text).1.files.file? q =
        if q = p then some text.toUTF8 else d.files.file? q := by
  have hwrite := Files.write?_eq_some text.toUTF8 hp hfolder
  obtain ⟨q, hq, -, hsame, hfiles⟩ := Files.exists_of_write? hwrite
  rw [hp, Option.some_inj] at hq
  subst hq
  rw [put, hwrite]
  exact ⟨rfl, rfl, hsame, hfiles⟩

/-- A text that was put into its place is read there, by whatever path. -/
theorem text?_put {d : Disk} {path other : String} {p : Place}
    (hp : d.files.place? path = some p) (hfolder : d.files.isFolder p = false) (text : String)
    (hother : d.files.place? other = some p) :
    (put d path text).1.files.bytes? other = some text.toUTF8 ∧
      (put d path text).1.files.text? other = some text := by
  obtain ⟨-, -, hfolders, hfiles⟩ := put_of_place? hp hfolder text
  have hbytes : (put d path text).1.files.bytes? other = some text.toUTF8 := by
    rw [hfolders.bytes?_of_place? hother, hfiles, if_pos rfl]
  exact ⟨hbytes, by rw [Files.text?, hbytes, Option.bind_some, Files.fromUTF8?_toUTF8]⟩

/-- Nothing is written where a path leads to a folder or nowhere. -/
theorem put_of_no_place {d : Disk} {path : String}
    (h : ∀ p, d.files.place? path = some p → d.files.isFolder p = true) (text : String) :
    put d path text = (d, false) := by
  cases hwrite : d.files.write? path text.toUTF8 with
  | none => rw [put, hwrite]
  | some fs =>
    obtain ⟨p, hp, hfolder, -⟩ := Files.exists_of_write? hwrite
    rw [h p hp] at hfolder
    cases hfolder

/-- Making a folder changes nothing that can be read. -/
theorem text?_putFolder {d : Disk} {folder path text : String}
    (h : d.files.text? path = some text) :
    (putFolder d folder).1.files.text? path = some text := by
  unfold putFolder
  cases hmade : d.files.makeFolder? folder with
  | none => exact h
  | some fs => exact (Files.grows_makeFolder? hmade).text? h

end Script

/-- Scripts that share a disk. -/
structure Pool (α : Type) where
  scripts : List (Script α)
  disk : Disk

namespace Pool

variable {α : Type} {p q : Pool α} {i : Nat} {s : Script α}

/-- One of the scripts takes a step. -/
inductive Step (p : Pool α) : Pool α → Prop
  | take {i : Nat} {s next : Script α} {d : Disk} (hscript : p.scripts[i]? = some s)
      (hstep : s.step? p.disk = some (next, d)) : Step p ⟨p.scripts.set i next, d⟩

/-- The scripts take steps, in any order. -/
abbrev Runs (p q : Pool α) : Prop :=
  Relation.ReflTransGen Step p q

/-- The scripts take steps until all of them have ended. -/
def Ends (p : Pool α) (results : List α) (d : Disk) : Prop :=
  Runs p ⟨results.map .done, d⟩

theorem getElem?_set_of_some (h : p.scripts[i]? = some s) (next : Script α) :
    (p.scripts.set i next)[i]? = some next :=
  List.getElem?_set_self (List.getElem?_eq_some_iff.1 h).1

/-- What a script does after a step it does from the pool after that step. -/
theorem runs_of_step? {next last : Script α} {d d' : Disk} (h : p.scripts[i]? = some s)
    (hstep : s.step? p.disk = some (next, d))
    (hrest : Runs ⟨p.scripts.set i next, d⟩ ⟨(p.scripts.set i next).set i last, d'⟩) :
    Runs p ⟨p.scripts.set i last, d'⟩ := by
  rw [List.set_set] at hrest
  exact .head (.take h hstep) hrest

/-- A script may be carried out to its end while the others wait. -/
theorem runs_script (h : p.scripts[i]? = some s) :
    Runs p ⟨p.scripts.set i (.done (s.run p.disk).1), (s.run p.disk).2⟩ := by
  induction s generalizing p with
  | done a =>
    obtain ⟨hi, hget⟩ := List.getElem?_eq_some_iff.1 h
    have hset : p.scripts.set i (.done a) = p.scripts := by
      rw [← hget, List.set_getElem_self]
    rw [Script.run, hset]
  | read path next ih => exact runs_of_step? h rfl (ih _ (getElem?_set_of_some h _))
  | makeFolder path next ih => exact runs_of_step? h rfl (ih _ (getElem?_set_of_some h _))
  | write path text next ih => exact runs_of_step? h rfl (ih _ (getElem?_set_of_some h _))
  | print text next ih => exact runs_of_step? h rfl (ih (getElem?_set_of_some h _))

/-- Some of the scripts may be carried out to their ends while the others wait. -/
theorem exists_runs (ks : List Nat) (p : Pool α) :
    ∃ q, Runs p q ∧ q.scripts.length = p.scripts.length ∧
      (∀ k, k ∉ ks → q.scripts[k]? = p.scripts[k]?) ∧
      ∀ k ∈ ks, k < p.scripts.length → ∃ a, q.scripts[k]? = some (.done a) := by
  induction ks generalizing p with
  | nil => exact ⟨p, .refl, rfl, fun _ _ => rfl, by simp⟩
  | cons i ks ih =>
    by_cases hi : i < p.scripts.length
    · -- the first one goes first, and goes again if it is among the rest
      obtain ⟨q, hruns, hlength, hwait, hend⟩ := ih
        ⟨p.scripts.set i (.done (p.scripts[i].run p.disk).1), (p.scripts[i].run p.disk).2⟩
      have hfirst := runs_script (List.getElem?_eq_getElem hi)
      refine ⟨q, hfirst.trans hruns, by rw [hlength, List.length_set], ?_, ?_⟩
      · intro k hk
        rw [List.mem_cons, not_or] at hk
        rw [hwait k hk.2, List.getElem?_set_ne (Ne.symm hk.1)]
      · intro k hk hlt
        by_cases hks : k ∈ ks
        · exact hend k hks (by rwa [List.length_set])
        · obtain rfl : k = i := (List.mem_cons.1 hk).resolve_right hks
          exact ⟨_, by rw [hwait k hks, List.getElem?_set_self hlt]⟩
    · obtain ⟨q, hruns, hlength, hwait, hend⟩ := ih p
      refine ⟨q, hruns, hlength, fun k hk => hwait k fun hks => hk (List.mem_cons_of_mem _ hks), ?_⟩
      intro k hk hlt
      refine hend k ((List.mem_cons.1 hk).resolve_left ?_) hlt
      rintro rfl
      exact hi hlt

theorem exists_results {scripts : List (Script α)}
    (h : ∀ k < scripts.length, ∃ a, scripts[k]? = some (.done a)) :
    ∃ results : List α, scripts = results.map .done := by
  induction scripts with
  | nil => exact ⟨[], rfl⟩
  | cons s scripts ih =>
    obtain ⟨a, ha⟩ := h 0 (Nat.succ_pos _)
    obtain ⟨results, hresults⟩ := ih fun k hk => h (k + 1) (Nat.succ_lt_succ hk)
    rw [List.getElem?_cons_zero, Option.some_inj] at ha
    exact ⟨a :: results, by rw [ha, hresults, List.map_cons]⟩

/-- Two of the scripts may wait until all others have ended, and then be carried out in turn. -/
theorem exists_runs_last {j : Nat} {r : Script α} (hij : i ≠ j) (hi : p.scripts[i]? = some s)
    (hj : p.scripts[j]? = some r) :
    ∃ q, Runs p q ∧ ∃ results, q.Ends results (s.run (r.run q.disk).2).2 := by
  obtain ⟨q, hruns, hlength, hwait, hend⟩ := exists_runs
    ((List.range p.scripts.length).filter fun k => k ≠ i ∧ k ≠ j) p
  have hqj : q.scripts[j]? = some r := by rw [hwait j (by simp), hj]
  have hqi : (q.scripts.set j (.done (r.run q.disk).1))[i]? = some s := by
    rw [List.getElem?_set_ne (Ne.symm hij), hwait i (by simp), hi]
  have hlast := (runs_script hqj).trans (runs_script (p := ⟨_, (r.run q.disk).2⟩) hqi)
  obtain ⟨results, hresults⟩ := exists_results fun k hk => by
    show ∃ a, ((q.scripts.set j (.done (r.run q.disk).1)).set i
      (.done (s.run (r.run q.disk).2).1))[k]? = some (.done a)
    rw [List.length_set, List.length_set, hlength] at hk
    by_cases hki : k = i
    · subst hki
      exact ⟨_, getElem?_set_of_some (p := ⟨_, q.disk⟩) hqi _⟩
    · rw [List.getElem?_set_ne (Ne.symm hki)]
      by_cases hkj : k = j
      · subst hkj
        exact ⟨_, getElem?_set_of_some hqj _⟩
      · rw [List.getElem?_set_ne (Ne.symm hkj)]
        exact hend k (by simp [hk, hki, hkj]) hk
  refine ⟨q, hruns, results, ?_⟩
  rw [Ends, ← hresults]
  exact hlast

end Pool

end Stencil
