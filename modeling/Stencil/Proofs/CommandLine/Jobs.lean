import Stencil.CommandLine.Run
import Stencil.Proofs.Files
import Stencil.Proofs.Script
namespace Stencil.CommandLine

open Stencil.Data (Value)

/-! # Jobs of an output folder

Every template that is rendered into a folder is a job of its own: it reads the template and then
writes the result. The jobs share the files, and any of them may go on next. None of them makes a
folder, so all paths lead where they led before.
-/

variable {o : Options} {data : Value} {folder template name text : String} {d d' : Disk}
  {next : Script (Except Failure String)}

/-! ## What one job does -/

/-- The job of a template. -/
def job (o : Options) (data : Value) (folder template : String) :
    Script (Except Failure String) :=
  (renderInto o data folder template).run

/-- What is left of a job that has rendered its template: the text goes into the folder. -/
def putJob (folder name text : String) : Script (Except Failure String) :=
  .write (Files.join folder name) text fun written =>
    .done (if written then .ok (Files.join folder name)
      else .error (.unwritable (Files.join folder name)))

/-- What is left of a job that has looked at its template. -/
def afterReading (o : Options) (data : Value) (folder template name : String) :
    Option String → Script (Except Failure String)
  | some text => putJob folder name (render o text data)
  | none => .done (.error (.unreadableTemplate template))

theorem job_of_fileName? (h : Files.fileName? template = some name) :
    job o data folder template = .read template (afterReading o data folder template name) := by
  have hrest : ∀ written : Bool,
      Script.bind (.done (if written then .ok ()
          else .error (Failure.unwritable (Files.join folder name))))
        (ExceptT.bindCont fun _ => (pure (Files.join folder name) : Task String)) =
      .done (if written then .ok (Files.join folder name)
        else .error (.unwritable (Files.join folder name))) := by
    intro written
    cases written <;> rfl
  unfold job renderInto
  rw [h]
  refine congrArg (Script.read template) (funext fun text => ?_)
  cases text with
  | none => rfl
  | some text => exact congrArg (Script.write _ _) (funext hrest)

theorem job_of_fileName?_eq_none (h : Files.fileName? template = none) :
    job o data folder template = .done (.error (.noFileName template)) := by
  unfold job renderInto
  rw [h]
  rfl

/-- No job has succeeded before it begins. -/
theorem job_ne_ok (o : Options) (data : Value) (folder template path : String) :
    job o data folder template ≠ .done (.ok path) := by
  intro h
  cases hname : Files.fileName? template with
  | none =>
    rw [job_of_fileName?_eq_none hname] at h
    cases h
  | some name =>
    rw [job_of_fileName? hname] at h
    cases h

/-- The first step of a job reads its template. -/
theorem step_job (h : (job o data folder template).step? d = some (next, d')) :
    d' = d ∧ ∃ name, Files.fileName? template = some name ∧
      next = afterReading o data folder template name (d.files.text? template) := by
  cases hname : Files.fileName? template with
  | none =>
    rw [job_of_fileName?_eq_none hname] at h
    cases h
  | some name =>
    rw [job_of_fileName? hname] at h
    cases h
    exact ⟨rfl, name, rfl, rfl⟩

/-- The step after that puts the text into its place, if there is one for it. -/
theorem step_putJob (h : (putJob folder name text).step? d = some (next, d')) :
    (∃ p, d.files.place? (Files.join folder name) = some p ∧ d.files.isFolder p = false ∧
      next = .done (.ok (Files.join folder name)) ∧ d'.printed = d.printed ∧
      d.files.SameFolders d'.files ∧
      ∀ q, d'.files.file? q = if q = p then some text.toUTF8 else d.files.file? q) ∨
    (∀ p, d.files.place? (Files.join folder name) = some p → d.files.isFolder p = true) ∧
      next = .done (.error (.unwritable (Files.join folder name))) ∧ d' = d := by
  cases h
  by_cases hplace : ∃ p, d.files.place? (Files.join folder name) = some p ∧
      d.files.isFolder p = false
  · obtain ⟨p, hp, hfolder⟩ := hplace
    obtain ⟨hdone, hput⟩ := Script.put_of_place? hp hfolder text
    exact Or.inl ⟨p, hp, hfolder, by rw [hdone]; rfl, hput⟩
  · have hnone : ∀ p, d.files.place? (Files.join folder name) = some p →
        d.files.isFolder p = true := fun p hp =>
      Bool.of_not_eq_false fun hfolder => hplace ⟨p, hp, hfolder⟩
    rw [Script.put_of_no_place hnone]
    exact Or.inr ⟨hnone, rfl, rfl⟩

/-! ## What all jobs keep -/

/-- How far a job may have come. One that has succeeded has written to a place that is no folder. -/
inductive Stage (o : Options) (data : Value) (folder : String) (before : Files)
    (template : String) : Script (Except Failure String) → Prop
  | waiting : Stage o data folder before template (job o data folder template)
  | holding {name : String} (hname : Files.fileName? template = some name) (text : String) :
      Stage o data folder before template (putJob folder name text)
  | failed (f : Failure) : Stage o data folder before template (.done (.error f))
  | finished {name : String} {p : Place} (hname : Files.fileName? template = some name)
      (hplace : before.place? (Files.join folder name) = some p)
      (hfolder : before.isFolder p = false) :
      Stage o data folder before template (.done (.ok (Files.join folder name)))

/-- A job that has succeeded had a place to write to. -/
theorem Stage.exists_place {fs : Files} {path : String}
    (h : Stage o data folder fs template (.done (.ok path))) :
    ∃ p, fs.place? path = some p ∧ fs.isFolder p = false := by
  generalize hs : Script.done (Except.ok path) = s at h
  cases h with
  | waiting => exact absurd hs.symm (job_ne_ok _ _ _ _ _)
  | holding hname text => cases hs
  | failed f => cases hs
  | finished hname hplace hfolder =>
    cases hs
    exact ⟨_, hplace, hfolder⟩

/-- What holds of the jobs of some templates all the time. -/
structure Underway (o : Options) (data : Value) (folder : String) (templates : List String)
    (before : Disk) (p : Pool (Except Failure String)) : Prop where
  folders : before.files.SameFolders p.disk.files
  printed : p.disk.printed = before.printed
  length : p.scripts.length = templates.length
  stage : ∀ {i : Nat} {t : String} {s : Script (Except Failure String)},
    templates[i]? = some t → p.scripts[i]? = some s → Stage o data folder before.files t s

/-- The jobs of some templates before any of them has begun. -/
def jobs (o : Options) (data : Value) (folder : String) (templates : List String) (d : Disk) :
    Pool (Except Failure String) :=
  ⟨templates.map (job o data folder), d⟩

variable {templates : List String} {before : Disk} {p q : Pool (Except Failure String)}

theorem getElem?_jobs {i : Nat} {t : String} (h : templates[i]? = some t) (d : Disk) :
    (jobs o data folder templates d).scripts[i]? = some (job o data folder t) := by
  rw [jobs, List.getElem?_map, h, Option.map_some]

theorem underway_jobs (o : Options) (data : Value) (folder : String) (templates : List String)
    (before : Disk) : Underway o data folder templates before (jobs o data folder templates before)
    where
  folders := ⟨rfl, rfl⟩
  printed := rfl
  length := List.length_map _
  stage := by
    intro i t s ht hs
    rw [getElem?_jobs ht] at hs
    cases hs
    exact .waiting

/-- The next step of a job leaves all folders in their places and the job at a stage of its own. -/
theorem Stage.step {fs : Files} {s : Script (Except Failure String)}
    (h : Stage o data folder fs template s) (hsame : fs.SameFolders d.files)
    (hstep : s.step? d = some (next, d')) :
    Stage o data folder fs template next ∧ d.files.SameFolders d'.files ∧
      d'.printed = d.printed := by
  cases h with
  | failed f => cases hstep
  | finished hname hplace hfolder => cases hstep
  | waiting =>
    obtain ⟨rfl, name, hname, rfl⟩ := step_job hstep
    refine ⟨?_, ⟨rfl, rfl⟩, rfl⟩
    cases d'.files.text? template with
    | none => exact .failed _
    | some text => exact .holding hname _
  | @holding name hname text =>
    rcases step_putJob hstep with ⟨p, hp, hfolder, rfl, hprinted, hfolders, -⟩ | ⟨-, rfl, rfl⟩
    · rw [hsame.place?_eq] at hp
      rw [hsame.isFolder_eq] at hfolder
      exact ⟨.finished hname hp hfolder, hfolders, hprinted⟩
    · exact ⟨.failed _, ⟨rfl, rfl⟩, rfl⟩

theorem Underway.step (h : Underway o data folder templates before p) (hstep : p.Step q) :
    Underway o data folder templates before q := by
  cases hstep with
  | @take i s next d hscript hstep =>
    obtain ⟨hi, -⟩ := List.getElem?_eq_some_iff.1 hscript
    have hlt : i < templates.length := h.length ▸ hi
    obtain ⟨hnext, hfolders, hprinted⟩ :=
      (h.stage (List.getElem?_eq_getElem hlt) hscript).step h.folders hstep
    refine ⟨h.folders.trans hfolders, hprinted.trans h.printed, ?_, ?_⟩
    · rw [List.length_set, h.length]
    · intro j t s ht hs
      by_cases hij : i = j
      · subst hij
        rw [Pool.getElem?_set_of_some hscript, Option.some_inj] at hs
        rw [List.getElem?_eq_getElem hlt, Option.some_inj] at ht
        rwa [← hs, ← ht]
      · rw [List.getElem?_set_ne hij] at hs
        exact h.stage ht hs

theorem Underway.runs (h : Underway o data folder templates before p) (hruns : p.Runs q) :
    Underway o data folder templates before q := by
  induction hruns with
  | refl => exact h
  | tail _ hstep ih => exact ih.step hstep

end Stencil.CommandLine
