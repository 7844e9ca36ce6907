import Stencil.Proofs.CommandLine.SharedResults
namespace Stencil.CommandLine

open Stencil.Data (Value)

/-! # Rendering into a folder

The folder is made first. Then every order of the jobs leaves the same files, with the render of
every template in its result, exactly if the templates that share a result agree; otherwise some
order loses a render.
-/

variable {o : Options} {data : Value} {folder template name text : String} {p : Place}
  {templates paths : List String} {d e e' : Disk} {results : List (Except Failure String)}

/-! ## Runs that succeed -/

/-- The folder is made, and in some order all jobs succeed; the results have the given paths. -/
structure RendersInto (o : Options) (data : Value) (folder : String) (templates : List String)
    (d : Disk) (paths : List String) (e : Disk) : Prop where
  made : (Script.putFolder d folder).2 = true
  ends : (jobs o data folder templates (Script.putFolder d folder).1).Ends (paths.map .ok) e

/-- Every job has succeeded, and its result holds the render of what the template was before. -/
structure Kept (o : Options) (data : Value) (folder : String) (templates : List String)
    (before after : Files) (results : List (Except Failure String)) : Prop where
  length : results.length = templates.length
  kept : ∀ (i : Nat) (t : String), templates[i]? = some t →
    ∃ name text, Files.fileName? t = some name ∧
      results[i]? = some (.ok (Files.join folder name)) ∧ before.text? t = some text ∧
      after.bytes? (Files.join folder name) = some (render o text data).toUTF8

/-- Tasks that all succeed one after the other are one order in which they do. -/
theorem ends_of_mapM {α β : Type} {f : α → Task β} {l : List α} :
    ∀ {bs : List β} {d : Disk} (ended : List (Except Failure β)),
      (l.mapM f).run.run d = (.ok bs, e) →
        Pool.Ends ⟨ended.map .done ++ l.map fun a => (f a).run, d⟩ (ended ++ bs.map .ok) e := by
  induction l with
  | nil =>
    intro bs d ended h
    rw [List.mapM_nil] at h
    cases h
    rw [Pool.Ends, List.map_nil, List.map_nil, List.append_nil, List.append_nil]
  | cons a l ih =>
    intro bs d ended h
    rw [List.mapM_cons, ExceptT.run_bind, Script.run_bind] at h
    have hnext : (ended.map Script.done ++ (f a).run :: l.map fun a => (f a).run)[ended.length]? =
        some (f a).run := by simp
    have hfirst := Pool.runs_script (p := ⟨_, d⟩) hnext
    generalize (f a).run.run d = ran at h hfirst
    obtain ⟨result, d'⟩ := ran
    cases result with
    | error f => cases h
    | ok b =>
      simp only at h
      rw [ExceptT.run_bind, Script.run_bind] at h
      generalize hrest : (l.mapM f).run.run d' = ran at h
      obtain ⟨result, d''⟩ := ran
      cases result with
      | error f => cases h
      | ok bs' =>
        cases h
        have hended := ih (ended ++ [.ok b]) hrest
        have hset : (ended.map Script.done ++ (f a).run :: l.map fun a => (f a).run).set
            ended.length (.done (Except.ok b)) =
              (ended ++ [Except.ok b]).map Script.done ++ l.map fun a => (f a).run := by simp
        rw [hset] at hfirst
        rw [List.append_assoc, List.singleton_append] at hended
        exact .trans hfirst hended

/-- Rendering one template after the other is one order of the jobs. -/
theorem rendersInto_of_renderAllInto
    (h : (renderAllInto o data folder templates).run.run d = (.ok paths, e)) :
    RendersInto o data folder templates d paths e := by
  have hrun : (renderAllInto o data folder templates).run.run d =
      if (Script.putFolder d folder).2 then
        (templates.mapM (renderInto o data folder)).run.run (Script.putFolder d folder).1
      else (.error (.noFolder folder), (Script.putFolder d folder).1) := by
    rw [renderAllInto, ExceptT.run_bind, Script.run_bind, makeFolder, ExceptT.run_mk, Script.run]
    obtain ⟨d', made⟩ := Script.putFolder d folder
    cases made <;> rfl
  rw [hrun] at h
  split at h
  · next hmade => exact ⟨hmade, ends_of_mapM [] h⟩
  · cases h

/-! ## Where the templates agree -/

section Agree

variable {before : Disk}

/-- What succeeds in one order could be rendered from the start. -/
theorem exists_ready (hagree : templates.Pairwise (Agree o data folder before.files))
    (hends : (jobs o data folder templates before).Ends (paths.map .ok) e) {i : Nat} {t : String}
    (ht : templates[i]? = some t) :
    ∃ name text p, paths[i]? = some (Files.join folder name) ∧
      Ready o data folder before.files t name text p := by
  have hend := consistent_of_ends hagree hends
  obtain ⟨hi, -⟩ := List.getElem?_eq_some_iff.1 ht
  have hlength : paths.length = templates.length := by simpa using hend.length
  obtain ⟨path, hpath⟩ : ∃ path, paths[i]? = some path :=
    ⟨_, List.getElem?_eq_getElem (hlength ▸ hi)⟩
  have hfaithful := hend.faithful ht (s := .done (.ok path)) (by simp [hpath])
  obtain ⟨name, text, p, rfl, hready, -⟩ := hfaithful.exists_of_ok
  exact ⟨name, text, p, hpath, hready⟩

/-- Then every order keeps all renders. -/
theorem kept_of_agree (hagree : templates.Pairwise (Agree o data folder before.files))
    (hends : (jobs o data folder templates before).Ends (paths.map .ok) e)
    (hends' : (jobs o data folder templates before).Ends results e') :
    Kept o data folder templates before.files e'.files results := by
  have hend := consistent_of_ends hagree hends'
  refine ⟨by simpa using hend.length, fun i t ht => ?_⟩
  obtain ⟨name, text, p, -, hready⟩ := exists_ready hagree hends ht
  obtain ⟨hresult, hfile⟩ := result_of_ends hagree hends' ht hready
  obtain ⟨source, hsource, rfl⟩ := Option.map_eq_some_iff.1 hready.rendered
  refine ⟨name, source, hready.fileName, hresult, hsource, ?_⟩
  rw [hend.folders.bytes?_of_place? hready.place]
  exact hfile

/-- And every order tells the same paths and leaves the same files. -/
theorem same_of_agree (hagree : templates.Pairwise (Agree o data folder before.files))
    (hends : (jobs o data folder templates before).Ends (paths.map .ok) e)
    (hends' : (jobs o data folder templates before).Ends results e') :
    results = paths.map .ok ∧ e.files.Same e'.files ∧ e'.printed = e.printed := by
  have hend := consistent_of_ends hagree hends
  have hend' := consistent_of_ends hagree hends'
  have hlength : results.length = templates.length := by simpa using hend'.length
  have hpaths : paths.length = templates.length := by simpa using hend.length
  refine ⟨?_, ⟨⟨?_, ?_⟩, fun p => ?_⟩, hend'.printed.trans hend.printed.symm⟩
  · refine List.ext_getElem? fun i => ?_
    cases ht : templates[i]? with
    | some t =>
      obtain ⟨name, text, p, hpath, hready⟩ := exists_ready hagree hends ht
      rw [(result_of_ends hagree hends' ht hready).1, List.getElem?_map, hpath, Option.map_some]
    | none =>
      rw [List.getElem?_eq_none_iff] at ht
      rw [List.getElem?_eq_none (hlength ▸ ht),
        List.getElem?_eq_none (by rwa [List.length_map, hpaths])]
  · exact hend'.folders.working.trans hend.folders.working.symm
  · exact hend'.folders.folders.trans hend.folders.folders.symm
  · -- a file that one order has written the other one has written as well
    rcases hend'.files p with hold' | ⟨i, t, name, text, ht, -, hready, hfile⟩
    · rcases hend.files p with hold | ⟨j, t, name, text, ht, -, hready, hfile⟩
      · exact hold'.trans hold.symm
      · exact (result_of_ends hagree hends' ht hready).2.trans hfile.symm
    · exact hfile.trans (result_of_ends hagree hends ht hready).2.symm

end Agree

/-! ## Where they do not -/

section Order

variable {before : Disk}

/-- If one of two templates with the same result is that result itself, its job may come last and
read what the other one has written. -/
theorem exists_ends_again {i j : Nat} {s t source : String} (hs : templates[i]? = some s)
    (ht : templates[j]? = some t) (hij : i ≠ j) (hsname : Files.fileName? s = some name)
    (htname : Files.fileName? t = some name) (hread : before.files.text? t = some source)
    (hself : before.files.place? s = some p)
    (hplace : before.files.place? (Files.join folder name) = some p)
    (hfree : before.files.isFolder p = false) :
    ∃ results e, (jobs o data folder templates before).Ends results e ∧
      e.files.bytes? (Files.join folder name) =
        some (render o (render o source data) data).toUTF8 := by
  -- the other one reads first
  set held := putJob folder name (render o source data)
  set first : Pool (Except Failure String) :=
    ⟨(jobs o data folder templates before).scripts.set j held, before⟩
  have hread : (jobs o data folder templates before).Step first := by
    refine .take (getElem?_jobs ht before) ?_
    rw [job_of_fileName? htname, Script.step?]
    show some (afterReading o data folder t name (before.files.text? t), before) = _
    rw [hread]
    rfl
  -- all others go on to their ends, then the one that has read writes, and then the result itself
  -- is read and written
  have hfirsti : first.scripts[i]? = some (job o data folder s) := by
    rw [List.getElem?_set_ne (Ne.symm hij)]
    exact getElem?_jobs hs before
  have hfirstj : first.scripts[j]? = some held :=
    Pool.getElem?_set_of_some (getElem?_jobs ht before) held
  obtain ⟨q, hruns, results, hends⟩ := Pool.exists_runs_last hij hfirsti hfirstj
  refine ⟨results, _, (Relation.ReflTransGen.single hread).trans (hruns.trans hends), ?_⟩
  -- all paths lead where they led at first
  have hunder : Underway o data folder templates before q :=
    ((underway_jobs o data folder templates before).step hread).runs hruns
  have hplace' := (hunder.folders.place?_eq _).trans hplace
  have hself' := (hunder.folders.place?_eq _).trans hself
  have hfree' := (hunder.folders.isFolder_eq _).trans hfree
  obtain ⟨-, -, hfolders, -⟩ := Script.put_of_place? hplace' hfree' (render o source data)
  have hresult := Script.text?_put hplace' hfree' (render o source data) hself'
  show ((job o data folder s).run (Script.put q.disk _ (render o source data)).1).2.files.bytes? _ =
    _
  generalize (Script.put q.disk (Files.join folder name) (render o source data)).1 = d
    at hfolders hresult
  have hplace'' := (hfolders.place?_eq _).trans hplace'
  have hfree'' := (hfolders.isFolder_eq _).trans hfree'
  rw [job_of_fileName? hsname]
  show ((afterReading o data folder s name (d.files.text? s)).run d).2.files.bytes? _ = _
  rw [hresult.2]
  exact (Script.text?_put hplace'' hfree'' (render o (render o source data) data) hplace'').1

/-- If every order keeps all renders, a template that is the result of another one with the same
render is rendered to itself then. -/
theorem render_eq_of_kept (hends : (jobs o data folder templates before).Ends (paths.map .ok) e)
    (hkept : ∀ results e, (jobs o data folder templates before).Ends results e →
      Kept o data folder templates before.files e.files results)
    {i j : Nat} {s t : String} (hs : templates[i]? = some s) (ht : templates[j]? = some t)
    (hij : i ≠ j) (hsname : Files.fileName? s = some name) (htname : Files.fileName? t = some name)
    (hrs : rendered? o data before.files s = some text)
    (hrt : rendered? o data before.files t = some text)
    (hself : before.files.place? s = before.files.place? (Files.join folder name)) :
    render o text data = text := by
  obtain ⟨source, hsource, rfl⟩ := Option.map_eq_some_iff.1 hrt
  -- some order has found a place for the result
  obtain ⟨_, _, hname, hresult, -⟩ := (hkept _ _ hends).kept i s hs
  obtain rfl := Option.some.inj (hname.symm.trans hsname)
  have hunder : Underway o data folder templates before ⟨_, e⟩ :=
    (underway_jobs o data folder templates before).runs hends
  obtain ⟨p, hplace, hfree⟩ := (hunder.stage hs (by rw [List.getElem?_map, hresult]; rfl) :
    Stage o data folder before.files s (.done (.ok _))).exists_place
  -- and some order renders what it finds there
  obtain ⟨results, e', hends', hfile⟩ := exists_ends_again hs ht hij hsname htname hsource
    (hself.trans hplace) hplace hfree
  obtain ⟨_, source', hname', -, hsource', hfile'⟩ := (hkept _ _ hends').kept i s hs
  obtain rfl := Option.some.inj (hname'.symm.trans hsname)
  rw [rendered?, hsource', Option.map_some, Option.some_inj] at hrs
  rw [hfile, hrs, Option.some_inj] at hfile'
  exact String.toByteArray_inj.1 hfile'

/-- If every order keeps all renders, the templates agree. -/
theorem agree_of_kept (hends : (jobs o data folder templates before).Ends (paths.map .ok) e)
    (hkept : ∀ results e, (jobs o data folder templates before).Ends results e →
      Kept o data folder templates before.files e.files results) :
    templates.Pairwise (Agree o data folder before.files) := by
  -- templates of one name have their renders in the one result
  have hsame : ∀ {i j : Nat} {s t name : String}, templates[i]? = some s →
      templates[j]? = some t → Files.fileName? s = some name → Files.fileName? t = some name →
        ∃ text, rendered? o data before.files s = some text ∧
          rendered? o data before.files t = some text := by
    intro i j s t name hs ht hsname htname
    obtain ⟨_, source, hname, -, hsource, hfile⟩ := (hkept _ _ hends).kept i s hs
    obtain ⟨_, source', hname', -, hsource', hfile'⟩ := (hkept _ _ hends).kept j t ht
    obtain rfl := Option.some.inj (hname.symm.trans hsname)
    obtain rfl := Option.some.inj (hname'.symm.trans htname)
    have heq := Option.some.inj (hfile.symm.trans hfile')
    refine ⟨render o source data, by rw [rendered?, hsource]; rfl, ?_⟩
    rw [rendered?, hsource', Option.map_some, String.toByteArray_inj.1 heq]
  rw [List.pairwise_iff_getElem]
  intro i j hi hj hlt name hsname htname
  have hs := List.getElem?_eq_getElem hi
  have ht := List.getElem?_eq_getElem hj
  obtain ⟨text, hrs, hrt⟩ := hsame hs ht hsname htname
  refine ⟨text, hrs, hrt, ?_⟩
  rintro (hself | hself)
  · exact render_eq_of_kept hends hkept hs ht (Nat.ne_of_lt hlt) hsname htname hrs hrt hself
  · exact render_eq_of_kept hends hkept ht hs (Nat.ne_of_gt hlt) htname hsname hrt hrs hself

end Order

/-! ## All orders -/

/-- Templates with different file names lose nothing in any order. -/
theorem kept_of_nodup (h : RendersInto o data folder templates d paths e)
    (hnodup : (templates.map Files.fileName?).Nodup)
    (hends : (jobs o data folder templates (Script.putFolder d folder).1).Ends results e') :
    Kept o data folder templates (Script.putFolder d folder).1.files e'.files results ∧
      results = paths.map .ok ∧ e.files.Same e'.files :=
  have hagree := pairwise_agree_of_nodup o data folder _ hnodup
  have hsame := same_of_agree hagree h.ends hends
  ⟨kept_of_agree hagree h.ends hends, hsame.1, hsame.2.1⟩

/-- If templates can be rendered into a folder in some order of their jobs, every order keeps all
renders exactly if the templates that share a result agree. Then all orders tell the same paths and
leave the same files. What a template was is what it was before the folder was made. -/
theorem renderInto_orders (h : RendersInto o data folder templates d paths e) :
    let start := (Script.putFolder d folder).1
    let agreeing := templates.Pairwise (Agree o data folder start.files)
    (∀ path text, d.files.text? path = some text → start.files.text? path = some text) ∧
      (agreeing ↔ ∀ results e', (jobs o data folder templates start).Ends results e' →
        Kept o data folder templates start.files e'.files results) ∧
      (agreeing → ∀ results e', (jobs o data folder templates start).Ends results e' →
        results = paths.map .ok ∧ e.files.Same e'.files ∧ e'.printed = e.printed) := by
  intro start agreeing
  refine ⟨fun path text => Script.text?_putFolder, ⟨fun hagree results e' => ?_, ?_⟩, ?_⟩
  · exact kept_of_agree hagree h.ends
  · exact agree_of_kept h.ends
  · exact fun hagree results e' => same_of_agree hagree h.ends

/-- Two templates of one name with the same text, one of them the result of both. -/
theorem renderInto_orders_shared :
    let files : Files := ⟨["work"], [["work", "a"], ["work", "out"]],
      [(["work", "a", "x.html"], "A".toUTF8), (["work", "out", "x.html"], "A".toUTF8)]⟩
    let templates := ["a/x.html", "out/x.html"]
    let paths := ["out/x.html", "out/x.html"]
    let start := (Script.putFolder ⟨files, ""⟩ "out").1
    let agreeing := templates.Pairwise (Agree .default (.object []) "out" start.files)
    ∃ e, RendersInto .default (.object []) "out" templates ⟨files, ""⟩ paths e ∧
      (∀ path text, files.text? path = some text → start.files.text? path = some text) ∧
      (agreeing ↔ ∀ results e',
        (jobs .default (.object []) "out" templates start).Ends results e' →
          Kept .default (.object []) "out" templates start.files e'.files results) ∧
      (agreeing → ∀ results e',
        (jobs .default (.object []) "out" templates start).Ends results e' →
          results = paths.map .ok ∧ e.files.Same e'.files ∧ e'.printed = e.printed) := by
  intro files templates paths start agreeing
  have hpaths : ((renderAllInto .default (.object []) "out" templates).run.run ⟨files, ""⟩).1 =
      .ok paths := by decide +kernel
  have hrenders := rendersInto_of_renderAllInto (Prod.ext hpaths rfl)
  exact ⟨_, hrenders, renderInto_orders hrenders⟩

/-- Two templates of one name with different texts: there is an order in which all jobs succeed and
one of the two renders is lost. -/
theorem exists_ends_not_kept :
    let files : Files := ⟨["work"], [["work", "a"], ["work", "b"]],
      [(["work", "a", "x.html"], "A".toUTF8), (["work", "b", "x.html"], "B".toUTF8)]⟩
    let templates := ["a/x.html", "b/x.html"]
    let start := (Script.putFolder ⟨files, ""⟩ "out").1
    ∃ paths e, RendersInto .default (.object []) "out" templates ⟨files, ""⟩ paths e ∧
      ¬ Kept .default (.object []) "out" templates start.files e.files (paths.map .ok) := by
  intro files templates start
  have hpaths : ((renderAllInto .default (.object []) "out" templates).run.run ⟨files, ""⟩).1 =
      .ok ["out/x.html", "out/x.html"] := by decide +kernel
  refine ⟨_, _, rendersInto_of_renderAllInto (Prod.ext hpaths rfl), fun hkept => ?_⟩
  obtain ⟨name, text, hname, -, htext, hfile⟩ := hkept.kept 0 "a/x.html" rfl
  obtain ⟨name', text', hname', -, htext', hfile'⟩ := hkept.kept 1 "b/x.html" rfl
  -- both renders would be the contents of the one result
  have hsame : name = name' := by
    have h : Files.fileName? "a/x.html" = Files.fileName? "b/x.html" := by decide
    exact Option.some.inj (hname.symm.trans (h.trans hname'))
  have ha : text = "A" := by
    have h : start.files.text? "a/x.html" = some "A" := by decide +kernel
    exact Option.some.inj (htext.symm.trans h)
  have hb : text' = "B" := by
    have h : start.files.text? "b/x.html" = some "B" := by decide +kernel
    exact Option.some.inj (htext'.symm.trans h)
  subst hsame ha hb
  have hrender : render .default "A" (.object []) = render .default "B" (.object []) :=
    String.toByteArray_inj.1 (Option.some.inj (hfile.symm.trans hfile'))
  revert hrender
  decide +kernel

end Stencil.CommandLine
