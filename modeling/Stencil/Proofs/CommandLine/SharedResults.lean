import Stencil.Proofs.CommandLine.Jobs
namespace Stencil.CommandLine

open Stencil.Data (Value)

/-! # Templates that share a result

The name of a result is the file name of its template, so templates of one file name share a result,
and a template may be the result of another one. They agree if they give the same text, and give it
again from that text where one of them is the result itself. Then nothing is lost while the jobs
are underway: every job holds what it would hold by itself, and every file is as it was or holds the
render of each template that it is the result of.
-/

variable {o : Options} {data : Value} {folder template name text : String} {p : Place}
  {templates : List String} {before d d' : Disk} {pool next : Pool (Except Failure String)}
  {fs now : Files}

/-! ## Agreement -/

/-- What a render of the file of a path gives. -/
def rendered? (o : Options) (data : Value) (fs : Files) (path : String) : Option String :=
  (fs.text? path).map fun text => render o text data

/-- Two templates have different file names, or the same render. Where one of them is the result of
both, that render is rendered to itself. -/
def Agree (o : Options) (data : Value) (folder : String) (fs : Files) (s t : String) : Prop :=
  ∀ name, Files.fileName? s = some name → Files.fileName? t = some name →
    ∃ text, rendered? o data fs s = some text ∧ rendered? o data fs t = some text ∧
      (fs.place? s = fs.place? (Files.join folder name) ∨
        fs.place? t = fs.place? (Files.join folder name) → render o text data = text)

theorem Agree.symm {s t : String} (h : Agree o data folder fs s t) :
    Agree o data folder fs t s := by
  intro name ht hs
  obtain ⟨text, hrs, hrt, hagain⟩ := h name hs ht
  exact ⟨text, hrt, hrs, fun hplace => hagain hplace.symm⟩

theorem agree_of_pairwise (h : templates.Pairwise (Agree o data folder fs)) {i j : Nat}
    {s t : String} (hs : templates[i]? = some s) (ht : templates[j]? = some t) (hij : i ≠ j) :
    Agree o data folder fs s t := by
  obtain ⟨hi, rfl⟩ := List.getElem?_eq_some_iff.1 hs
  obtain ⟨hj, rfl⟩ := List.getElem?_eq_some_iff.1 ht
  rw [List.pairwise_iff_getElem] at h
  rcases Nat.lt_or_gt_of_ne hij with hlt | hlt
  · exact h i j hi hj hlt
  · exact (h j i hj hi hlt).symm

/-- Templates with different file names have no result in common. -/
theorem pairwise_agree_of_nodup (o : Options) (data : Value) (folder : String) (fs : Files)
    (h : (templates.map Files.fileName?).Nodup) :
    templates.Pairwise (Agree o data folder fs) := by
  refine (List.pairwise_map.1 h).imp ?_
  intro s t hne name hs ht
  exact absurd (hs.trans ht.symm) hne

/-! ## The render of every template -/

/-- The template gives the text, and there is a place for it under the name. -/
structure Ready (o : Options) (data : Value) (folder : String) (fs : Files)
    (template name text : String) (p : Place) : Prop where
  fileName : Files.fileName? template = some name
  rendered : rendered? o data fs template = some text
  place : fs.place? (Files.join folder name) = some p
  free : fs.isFolder p = false

/-- The place of a result ends in its name. -/
theorem Ready.getLast? (h : Ready o data folder fs template name text p) :
    p.getLast? = some name := by
  rw [← Files.fileName?_of_place? h.place h.free,
    Files.fileName?_join folder (Files.isFileName_of_fileName? h.fileName)]

/-- How far a job may have come when nothing has been lost: what it holds and what it has written is
the render of its template, and it has failed only if it had to. -/
inductive Faithful (o : Options) (data : Value) (folder : String) (before : Files)
    (template : String) (now : Files) : Script (Except Failure String) → Prop
  | waiting : Faithful o data folder before template now (job o data folder template)
  | holding {name text : String} (hname : Files.fileName? template = some name)
      (htext : rendered? o data before template = some text) :
      Faithful o data folder before template now (putJob folder name text)
  | failed (f : Failure) (h : ∀ name text p, ¬ Ready o data folder before template name text p) :
      Faithful o data folder before template now (.done (.error f))
  | finished {name text : String} {p : Place}
      (hready : Ready o data folder before template name text p)
      (hfile : now.file? p = some text.toUTF8) :
      Faithful o data folder before template now (.done (.ok (Files.join folder name)))

theorem Faithful.mono {now' : Files} {s : Script (Except Failure String)}
    (h : Faithful o data folder fs template now s)
    (hfile : ∀ name text p, Ready o data folder fs template name text p →
      now.file? p = some text.toUTF8 → now'.file? p = some text.toUTF8) :
    Faithful o data folder fs template now' s := by
  cases h with
  | waiting => exact .waiting
  | holding hname htext => exact .holding hname htext
  | failed f hnot => exact .failed f hnot
  | finished hready hold => exact .finished hready (hfile _ _ _ hready hold)

/-- A job that has succeeded has left the render of its template. -/
theorem Faithful.exists_of_ok {path : String}
    (h : Faithful o data folder fs template now (.done (.ok path))) :
    ∃ name text p, path = Files.join folder name ∧
      Ready o data folder fs template name text p ∧ now.file? p = some text.toUTF8 := by
  generalize hs : Script.done (Except.ok path) = s at h
  cases h with
  | waiting => exact absurd hs.symm (job_ne_ok _ _ _ _ _)
  | holding hname htext => cases hs
  | failed f hnot => cases hs
  | finished hready hfile =>
    cases hs
    exact ⟨_, _, _, rfl, hready, hfile⟩

/-- What holds of the jobs of templates that agree all the time: every file is as it was, or it is
the result of a job that has succeeded. -/
structure Consistent (o : Options) (data : Value) (folder : String) (templates : List String)
    (before : Disk) (pool : Pool (Except Failure String)) : Prop
    extends Underway o data folder templates before pool where
  faithful : ∀ {i : Nat} {t : String} {s : Script (Except Failure String)},
    templates[i]? = some t → pool.scripts[i]? = some s →
      Faithful o data folder before.files t pool.disk.files s
  files : ∀ p, pool.disk.files.file? p = before.files.file? p ∨
    ∃ (i : Nat) (t name text : String), templates[i]? = some t ∧
      pool.scripts[i]? = some (.done (.ok (Files.join folder name))) ∧
      Ready o data folder before.files t name text p ∧
      pool.disk.files.file? p = some text.toUTF8

theorem consistent_jobs (o : Options) (data : Value) (folder : String) (templates : List String)
    (before : Disk) :
    Consistent o data folder templates before (jobs o data folder templates before) where
  toUnderway := underway_jobs o data folder templates before
  faithful := by
    intro i t s ht hs
    rw [getElem?_jobs ht] at hs
    cases hs
    exact .waiting
  files := fun _ => Or.inl rfl

namespace Consistent

/-- A job that reads its template reads what was there before, or the same render already. -/
theorem text?_eq_or (h : Consistent o data folder templates before pool)
    (hagree : templates.Pairwise (Agree o data folder before.files)) {i : Nat} {t : String}
    (ht : templates[i]? = some t) (hi : ∀ a, pool.scripts[i]? ≠ some (.done a)) :
    pool.disk.files.text? t = before.files.text? t ∨
      ∃ text, pool.disk.files.text? t = some text ∧
        rendered? o data before.files t = some text ∧ render o text data = text := by
  have hplace := h.folders.place?_eq t
  cases hp : before.files.place? t with
  | none => exact Or.inl (by simp only [Files.text?, Files.bytes?, hplace, hp, Option.bind_none])
  | some p =>
    have htext : ∀ fs : Files, fs.place? t = some p →
        fs.text? t = (fs.file? p).bind String.fromUTF8? := by
      intro fs hfs
      rw [Files.text?, Files.bytes?, hfs, Option.bind_some]
    rw [htext _ (hplace.trans hp), htext _ hp]
    rcases h.files p with hold | ⟨j, t', name, text, ht', hdone, hready, hfile⟩
    · exact Or.inl (by rw [hold])
    · -- the template is a result, so it has the file name of that result
      have hij : i ≠ j := by
        rintro rfl
        exact hi _ hdone
      have hname : Files.fileName? t = some name := by
        rw [Files.fileName?_of_place? hp hready.free, hready.getLast?]
      obtain ⟨text', hrt, hrt', hagain⟩ := agree_of_pairwise hagree ht ht' hij name hname
        hready.fileName
      obtain rfl : text = text' := Option.some.inj (hready.rendered.symm.trans hrt')
      refine Or.inr ⟨text, ?_, hrt, hagain (Or.inl (hp.trans hready.place.symm))⟩
      rw [hfile, Option.bind_some, Files.fromUTF8?_toUTF8]

/-- The step of a job keeps it faithful, and changes no file but the one that it has to write. -/
theorem step_cases (h : Consistent o data folder templates before pool)
    (hagree : templates.Pairwise (Agree o data folder before.files)) {i : Nat} {t : String}
    {s after : Script (Except Failure String)} (ht : templates[i]? = some t)
    (hscript : pool.scripts[i]? = some s) (hstep : s.step? pool.disk = some (after, d)) :
    Faithful o data folder before.files t d.files after ∧
      (d = pool.disk ∨ ∃ name text p, Ready o data folder before.files t name text p ∧
        after = .done (.ok (Files.join folder name)) ∧
        ∀ q, d.files.file? q = if q = p then some text.toUTF8 else pool.disk.files.file? q) := by
  have hfaithful := h.faithful ht hscript
  cases hfaithful with
  | failed f hnot => cases hstep
  | finished hready hfile => cases hstep
  | waiting =>
    obtain ⟨rfl, name, hname, rfl⟩ := step_job hstep
    have hgoing : ∀ a, pool.scripts[i]? ≠ some (.done a) := by
      intro a hdone
      rw [hscript, job_of_fileName? hname] at hdone
      cases hdone
    refine ⟨?_, Or.inl rfl⟩
    rcases h.text?_eq_or hagree ht hgoing with hread | ⟨text, hread, hrendered, hagain⟩
    · cases htext : before.files.text? t with
      | none =>
        rw [hread, htext]
        refine .failed _ fun name text p hready => ?_
        have hrendered := hready.rendered
        rw [rendered?, htext] at hrendered
        cases hrendered
      | some text =>
        rw [hread, htext]
        exact .holding hname (by rw [rendered?, htext, Option.map_some])
    · rw [hread]
      exact .holding hname (hagain.symm ▸ hrendered)
  | @holding name text hname hrendered =>
    rcases step_putJob hstep with ⟨p, hp, hfree, rfl, -, -, hfiles⟩ | ⟨hnone, rfl, rfl⟩
    · rw [h.folders.place?_eq] at hp
      rw [h.folders.isFolder_eq] at hfree
      have hready : Ready o data folder before.files t name text p := ⟨hname, hrendered, hp, hfree⟩
      exact ⟨.finished hready (by rw [hfiles, if_pos rfl]),
        Or.inr ⟨name, text, p, hready, rfl, hfiles⟩⟩
    · refine ⟨.failed _ fun name' text' p hready => ?_, Or.inl rfl⟩
      -- there was no place for the result from the start
      obtain rfl : name = name' := Option.some.inj (hname.symm.trans hready.fileName)
      have hfolder := hnone p (by rw [h.folders.place?_eq, hready.place])
      rw [h.folders.isFolder_eq, hready.free] at hfolder
      cases hfolder

theorem step (h : Consistent o data folder templates before pool)
    (hagree : templates.Pairwise (Agree o data folder before.files)) (hstep : pool.Step next) :
    Consistent o data folder templates before next := by
  have hunder := h.toUnderway.step hstep
  cases hstep with
  | @take i s after d hscript hstep =>
    obtain ⟨hi, -⟩ := List.getElem?_eq_some_iff.1 hscript
    have hlt : i < templates.length := h.length ▸ hi
    obtain ⟨t, ht⟩ : ∃ t, templates[i]? = some t := ⟨_, List.getElem?_eq_getElem hlt⟩
    have hset := Pool.getElem?_set_of_some hscript after
    -- the scripts that have ended are others, and they stay as they are
    have hstays : ∀ {j : Nat} {a : Except Failure String}, pool.scripts[j]? = some (.done a) →
        (pool.scripts.set i after)[j]? = some (.done a) := by
      intro j a hdone
      rw [List.getElem?_set_ne, hdone]
      rintro rfl
      rw [hscript, Option.some_inj] at hdone
      subst hdone
      cases hstep
    obtain ⟨hafter, hdisk⟩ := h.step_cases hagree ht hscript hstep
    -- templates of one result agree on it, so a result that is there is not changed any more
    have hkeeps : ∀ {j : Nat} {t' : String}, templates[j]? = some t' → i ≠ j →
        ∀ name text p, Ready o data folder before.files t' name text p →
          pool.disk.files.file? p = some text.toUTF8 → d.files.file? p = some text.toUTF8 := by
      intro j t' ht' hij name' text' q hready' hold
      rcases hdisk with rfl | ⟨name, text, p, hready, -, hfiles⟩
      · exact hold
      · rw [hfiles]
        split
        · next hq =>
          subst hq
          obtain rfl : name = name' :=
            Option.some.inj (hready.getLast?.symm.trans hready'.getLast?)
          obtain ⟨text'', hr, hr', -⟩ := agree_of_pairwise hagree ht ht' hij name
            hready.fileName hready'.fileName
          rw [hready.rendered] at hr
          rw [hready'.rendered] at hr'
          rw [Option.some.inj hr, Option.some.inj hr']
        · exact hold
    refine ⟨hunder, ?_, ?_⟩
    · intro j t' s' ht' hs'
      by_cases hij : i = j
      · subst hij
        rw [hset, Option.some_inj] at hs'
        rw [ht, Option.some_inj] at ht'
        rwa [← hs', ← ht']
      · rw [List.getElem?_set_ne hij] at hs'
        exact (h.faithful ht' hs').mono (hkeeps ht' hij)
    · intro q
      have hbefore : d.files.file? q = pool.disk.files.file? q →
          d.files.file? q = before.files.file? q ∨
            ∃ (j : Nat) (t name text : String), templates[j]? = some t ∧
              (pool.scripts.set i after)[j]? = some (.done (.ok (Files.join folder name))) ∧
              Ready o data folder before.files t name text q ∧
              d.files.file? q = some text.toUTF8 := by
        intro hsame
        rw [hsame]
        rcases h.files q with hold | ⟨j, t', name, text, ht', hdone, hrest⟩
        · exact Or.inl hold
        · exact Or.inr ⟨j, t', name, text, ht', hstays hdone, hrest⟩
      rcases hdisk with rfl | ⟨name, text, p, hready, rfl, hfiles⟩
      · exact hbefore rfl
      · by_cases hq : q = p
        · subst hq
          exact Or.inr ⟨i, t, name, text, ht, hset, hready, by rw [hfiles, if_pos rfl]⟩
        · exact hbefore (by rw [hfiles, if_neg hq])

theorem runs (h : Consistent o data folder templates before pool)
    (hagree : templates.Pairwise (Agree o data folder before.files)) (hruns : pool.Runs next) :
    Consistent o data folder templates before next := by
  induction hruns with
  | refl => exact h
  | tail _ hstep ih => exact ih.step hagree hstep

end Consistent

/-! ## The end of all jobs -/

theorem Faithful.not_ready_of_error {f : Failure}
    (h : Faithful o data folder fs template now (.done (.error f))) :
    ¬ Ready o data folder fs template name text p := by
  generalize hs : Script.done (Except.error f) = s at h
  cases h with
  | waiting =>
    intro hready
    rw [job_of_fileName? hready.fileName] at hs
    cases hs
  | holding hname htext => cases hs
  | failed f hnot => exact hnot _ _ _
  | finished hready hfile => cases hs

theorem Ready.unique {name' text' : String} {p' : Place}
    (h : Ready o data folder fs template name text p)
    (h' : Ready o data folder fs template name' text' p') :
    name = name' ∧ text = text' ∧ p = p' := by
  obtain rfl : name = name' := Option.some.inj (h.fileName.symm.trans h'.fileName)
  exact ⟨rfl, Option.some.inj (h.rendered.symm.trans h'.rendered),
    Option.some.inj (h.place.symm.trans h'.place)⟩

section Ends

variable {results : List (Except Failure String)} {e : Disk}

theorem consistent_of_ends (hagree : templates.Pairwise (Agree o data folder before.files))
    (hends : (jobs o data folder templates before).Ends results e) :
    Consistent o data folder templates before ⟨results.map .done, e⟩ :=
  (consistent_jobs o data folder templates before).runs hagree hends

/-- In the end the job of a template has succeeded, if it could, and left the render. -/
theorem result_of_ends (hagree : templates.Pairwise (Agree o data folder before.files))
    (hends : (jobs o data folder templates before).Ends results e) {i : Nat} {t : String}
    (ht : templates[i]? = some t) (hready : Ready o data folder before.files t name text p) :
    results[i]? = some (.ok (Files.join folder name)) ∧ e.files.file? p = some text.toUTF8 := by
  have hend := consistent_of_ends hagree hends
  obtain ⟨hi, -⟩ := List.getElem?_eq_some_iff.1 ht
  have hlength : results.length = templates.length := by
    simpa using hend.length
  obtain ⟨r, hr⟩ : ∃ r, results[i]? = some r := ⟨_, List.getElem?_eq_getElem (hlength ▸ hi)⟩
  have hfaithful := hend.faithful ht (s := .done r) (by rw [List.getElem?_map, hr]; rfl)
  cases r with
  | error f => exact absurd hready hfaithful.not_ready_of_error
  | ok path =>
    obtain ⟨name', text', p', rfl, hready', hfile⟩ := hfaithful.exists_of_ok
    obtain ⟨rfl, rfl, rfl⟩ := hready.unique hready'
    exact ⟨hr, hfile⟩

end Ends

end Stencil.CommandLine
