import Stencil.Path
namespace Stencil.Path

open Stencil.Data (Value)

/-! # Paths by their names

A path written out of names, with dots between them, is taken apart into the same names again. So it
leads from what its first name stands for to the members that the others name, and only `global` in
front of others stands for no name: it leads out of all loops.
-/

theorem segments_eq_splitOn (cs : List Char) : segments cs = cs.splitOn '.' := by
  induction cs with
  | nil => rfl
  | cons c cs ih =>
    rw [List.splitOn, List.splitOnP_cons_eq_if_modifyHead, ← List.splitOn, ← ih, segments]
    by_cases hc : c = '.'
    · simp [hc]
    · rw [if_neg hc, if_neg (by simpa using hc)]
      cases h : segments cs with
      | nil => exact absurd h (segments_ne_nil cs)
      | cons s rest => rfl

/-- No name has a dot, so the dots of the path are those between the names. -/
theorem segments_intercalate {names : List String} (hne : names ≠ [])
    (hdot : ∀ name ∈ names, '.' ∉ name.toList) :
    (segments (".".intercalate names).toList).map String.ofList = names := by
  have hparts : segments (".".intercalate names).toList = names.map String.toList := by
    rw [segments_eq_splitOn, String.toList_intercalate]
    refine List.splitOn_intercalate '.' ?_ (by simpa using hne)
    simpa using hdot
  rw [hparts, List.map_map]
  simp

theorem segments_globalPrefix_append (cs : List Char) :
    segments (globalPrefix ++ cs) = "global".toList :: segments cs :=
  rfl

/-- The reserved name in front of others begins their path. -/
theorem exists_eq_globalPrefix_append {name : String} {rest : List String}
    (hdot : ∀ s ∈ name :: rest, '.' ∉ s.toList) (hname : name = "global" ∧ rest ≠ []) :
    ∃ cs, (".".intercalate (name :: rest)).toList = globalPrefix ++ cs ∧
      (segments cs).map String.ofList = rest := by
  rcases hname with ⟨rfl, hne⟩
  obtain ⟨member, others, rfl⟩ := List.exists_cons_of_ne_nil hne
  refine ⟨(".".intercalate (member :: others)).toList, ?_, ?_⟩
  · rw [String.intercalate_cons_cons, String.toList_append]
    rfl
  · exact segments_intercalate hne fun s hs => hdot s (List.mem_cons_of_mem _ hs)

/-- A path leads from what its first segment stands for to the members that the others name, unless
it begins with the reserved name and a dot. -/
theorem resolve_of_segments (scope : Scope) {path name : String} {rest : List String}
    (hsegments : (segments path.toList).map String.ofList = name :: rest)
    (hname : ¬ (name = "global" ∧ rest ≠ [])) :
    resolve scope path = (scope.lookup name).bind fun v => walk v rest := by
  have hno : ¬ globalPrefix.isPrefixOf path.toList = true := by
    intro hprefix
    rcases List.isPrefixOf_iff_prefix.1 hprefix with ⟨cs, hpath⟩
    rw [← hpath, segments_globalPrefix_append, List.map_cons, String.ofList_toList] at hsegments
    rcases List.cons.inj hsegments with ⟨rfl, rfl⟩
    exact hname ⟨rfl, by simpa using segments_ne_nil cs⟩
  rw [resolve, if_neg hno, hsegments]

/-- A path of names leads from what the first one stands for to the members that the others name,
unless that one is `global` and stands for the root data. -/
theorem resolve_intercalate (scope : Scope) {name : String} {rest : List String}
    (hdot : ∀ s ∈ name :: rest, '.' ∉ s.toList) :
    resolve scope (".".intercalate (name :: rest)) =
      if name = "global" ∧ rest ≠ [] then walk scope.root rest
      else (scope.lookup name).bind fun v => walk v rest := by
  by_cases hglobal : name = "global" ∧ rest ≠ []
  · obtain ⟨cs, hpath, hrest⟩ := exists_eq_globalPrefix_append hdot hglobal
    rw [if_pos hglobal, resolve, hpath, if_pos (by simp), List.drop_left, hrest]
  · rw [if_neg hglobal]
    exact resolve_of_segments scope (segments_intercalate (List.cons_ne_nil name rest) hdot) hglobal

/-! ## Walks -/

/-- A walk with more members behind it does not end in a length. -/
theorem exists_walk_of_append {front back : List String} {v : Value} {r : Resolved}
    (hback : back ≠ []) (h : walk v (front ++ back) = some r) :
    ∃ w, walk v front = some (.part w) ∧ walk w back = some r := by
  induction front generalizing v with
  | nil => exact ⟨v, rfl, h⟩
  | cons name rest ih =>
    rw [List.cons_append, walk] at h
    rw [walk]
    cases hmember : v.member? name with
    | some w =>
      rw [hmember] at h
      exact ih h
    | none =>
      rw [hmember] at h
      simp [hback] at h

/-! ## The root data

Behind `global` a path is walked from the root data, and without it the first name is looked up in
the scope. From a root that is an object the first step is the same.
-/

/-- A first name `length` is a member like the others, since an object has no length. -/
theorem walk_object_cons (members : List (String × Value)) (name : String) (rest : List String) :
    walk (.object members) (name :: rest) =
      (Data.find? name members).bind fun v => walk v rest := by
  rw [walk, Value.member?]
  cases Data.find? name members with
  | some v => rfl
  | none =>
    have hlength : (Value.object members).length? = none := rfl
    rw [hlength, Option.map_none, ite_self]
    rfl

theorem lookup_ofRoot_object (members : List (String × Value)) (name : String) :
    (Scope.ofRoot (.object members)).lookup name = Data.find? name members :=
  rfl

/-- Outside of all loops a path is walked from the root data like one behind `global`. -/
theorem resolve_ofRoot_object (members : List (String × Value)) {path : String}
    (hpath : ¬ globalPrefix <+: path.toList) :
    resolve (Scope.ofRoot (.object members)) path =
      walk (.object members) ((segments path.toList).map String.ofList) := by
  have hno : ¬ globalPrefix.isPrefixOf path.toList = true := by
    rwa [List.isPrefixOf_iff_prefix]
  rw [resolve, if_neg hno]
  cases h : segments path.toList with
  | nil => exact absurd h (segments_ne_nil _)
  | cons name rest =>
    rw [List.map_cons, walk_object_cons]
    simp only [lookup_ofRoot_object]

theorem resolve_globalPrefix_append (scope : Scope) (path : String) :
    resolve scope ("global." ++ path) =
      walk scope.root ((segments path.toList).map String.ofList) := by
  have hlist : ("global." ++ path).toList = globalPrefix ++ path.toList := String.toList_append ..
  rw [resolve, hlist, if_pos (List.isPrefixOf_iff_prefix.2 (List.prefix_append ..)),
    List.drop_left]

/-- Behind `global` a path leads, inside any loops, to what it leads to outside of all of them: the
same part of the data, the same length, or nothing in both places. -/
theorem resolve_global_append (scope : Scope) {members : List (String × Value)}
    (hroot : scope.root = .object members) {path : String}
    (hpath : ¬ globalPrefix <+: path.toList) :
    resolve scope ("global." ++ path) = resolve (.ofRoot scope.root) path := by
  rw [resolve_globalPrefix_append, hroot, resolve_ofRoot_object members hpath]

/-- Two loops shadow the names that the path uses, and one of them is over `global`. -/
theorem resolve_global_append_shadowed :
    let root := Value.object [("users", .array [.string "Ann"]), ("length", .null)]
    let inner := ((Scope.ofRoot root).bind "users" (.bool true)).bind "global" .null
    inner.root = root ∧ ¬ globalPrefix <+: "users.length".toList ∧
      resolve inner ("global." ++ "users.length") = resolve (.ofRoot root) "users.length" ∧
      resolve (.ofRoot root) "users.length" = some (.length 1) ∧
      resolve inner "users.length" = none := by
  intro root inner
  have hpath : ¬ globalPrefix <+: "users.length".toList := by decide
  exact ⟨rfl, hpath, resolve_global_append inner rfl hpath, rfl, rfl⟩

end Stencil.Path
