import Mathlib
import Stencil.Expr.Eval
import Stencil.Proofs.Path
namespace Stencil.Expr

open Stencil.Data (Value)

/-! # Reading members

A part of the data can be read in two ways. A dotted path is walked in the data itself, and a member
behind a dot or in brackets is read off the operand in front of it. Wherever the walk leads to
something, every step of it is the same as the read of an operand, so both end in the same operand.
-/

variable {scope : Scope} {v w : Value} {name key : String} {names : List String}

/-! ## One member -/

/-- A member that a value has is a member of its operand. -/
theorem member_ofValue (h : v.member? key = some w) :
    (Operand.ofValue v).member key = .ok (.ofValue w) := by
  cases v with
  | array _ | object _ => simp only [Operand.ofValue, Operand.member, h]
  | _ => cases h

/-- The length of a value is read off its operand as the same number. -/
theorem member_ofValue_length {n : Nat} (hmember : v.member? Data.lengthKey = none)
    (h : v.length? = some n) :
    (Operand.ofValue v).member Data.lengthKey =
      .ok (.ofValue (Path.Resolved.length n).value) := by
  cases v with
  | string s =>
    cases h
    rfl
  | array items =>
    cases h
    simp only [Operand.ofValue, Operand.member, hmember]
    rfl
  | _ => cases h

/-! ## Chains -/

theorem memberChain_singleton (a : Operand) (key : String) :
    memberChain a [key] = a.member key := by
  rw [memberChain]
  cases a.member key <;> rfl

theorem memberChain_append {a b : Operand} {front back : List String}
    (h : memberChain a front = .ok b) : memberChain a (front ++ back) = memberChain b back := by
  induction front generalizing a with
  | nil =>
    cases h
    rfl
  | cons name rest ih =>
    rw [memberChain] at h
    rw [List.cons_append, memberChain]
    cases hmember : a.member name with
    | error err =>
      rw [hmember] at h
      cases h
    | ok c =>
      rw [hmember] at h
      exact ih h

/-- What a walk through the data leads to is read off the operands one by one. -/
theorem memberChain_of_walk {r : Path.Resolved} (h : Path.walk v names = some r) :
    memberChain (.ofValue v) names = .ok (.ofValue r.value) := by
  induction names generalizing v with
  | nil =>
    cases h
    rfl
  | cons name rest ih =>
    rw [Path.walk] at h
    rw [memberChain]
    cases hmember : v.member? name with
    | some w =>
      rw [hmember] at h
      rw [member_ofValue hmember]
      exact ih h
    | none =>
      -- the walk goes on without a member only if it ends here, in a length
      rw [hmember] at h
      simp only [Option.ite_none_right_eq_some, Bool.and_eq_true, decide_eq_true_eq,
        List.isEmpty_iff] at h
      rcases h with ⟨⟨rfl, rfl⟩, hlength⟩
      rcases Option.map_eq_some_iff.1 hlength with ⟨n, hn, rfl⟩
      rw [member_ofValue_length hmember hn]
      rfl

/-- The expression reads what the names lead to, the first of them from the scope. It may join some
of the names in one path, and may write the others behind dots or in brackets. -/
inductive ReadsNames {α : Type} (name : String) : Expr α → List String → Prop
  | lookup {note : α} {path : String} {names : List String}
      (h : (Path.segments path.toList).map String.ofList = name :: names) :
      ReadsNames name (.lookup note path) names
  | member {note : α} {e : Expr α} {names : List String} (h : ReadsNames name e names)
      (path : String) :
      ReadsNames name (.member note e path)
        (names ++ (Path.segments path.toList).map String.ofList)
  | keyed {note keyNote : α} {e : Expr α} {names : List String} (h : ReadsNames name e names)
      (key : String) :
      ReadsNames name (.keyed note e (.literal keyNote (.string key))) (names ++ [key])

/-- However the names are written, the expression stands for what they lead to. -/
theorem eval_of_readsNames {α : Type} {e : Expr α} (h : ReadsNames name e names)
    (hname : name ≠ "global") (hv : scope.lookup name = some v) {r : Path.Resolved}
    (hr : Path.walk v names = some r) : e.eval scope = .ok (.ofValue r.value) := by
  induction h generalizing r with
  | lookup hsegments =>
    have hresolve := Path.resolve_of_segments scope hsegments fun hglobal => hname hglobal.1
    rw [eval, lookupOperand, hresolve, hv, Option.bind_some, hr]
  | member hreceiver path ih =>
    have hne : (Path.segments path.toList).map String.ofList ≠ [] := by
      simpa using Path.segments_ne_nil path.toList
    rcases Path.exists_walk_of_append hne hr with ⟨w, hw, hpath⟩
    simp only [eval, ih hw]
    exact memberChain_of_walk hpath
  | keyed hreceiver key ih =>
    rcases Path.exists_walk_of_append (List.cons_ne_nil key []) hr with ⟨w, hw, hkey⟩
    have hmember := memberChain_of_walk hkey
    rw [memberChain_singleton] at hmember
    simp only [eval, ih hw]
    exact hmember

/-- The members of a receiver, each behind a dot. -/
def dotted (receiver : Expr Unit) (names : List String) : Expr Unit :=
  names.foldl (fun e name => .member () e name) receiver

/-- The members of a receiver, each as a string in brackets. -/
def bracketed (receiver : Expr Unit) (names : List String) : Expr Unit :=
  names.foldl (fun e name => .keyed () e (.literal () (.string name))) receiver

theorem readsNames_dotted {receiver : Expr Unit} {front : List String}
    (h : ReadsNames name receiver front) (hdot : ∀ s ∈ names, '.' ∉ s.toList) :
    ReadsNames name (dotted receiver names) (front ++ names) := by
  induction names generalizing receiver front with
  | nil => simpa [dotted] using h
  | cons member rest ih =>
    rcases List.forall_mem_cons.1 hdot with ⟨hmember, hrest⟩
    have hone : (Path.segments member.toList).map String.ofList = [member] := by
      have := Path.segments_intercalate (List.cons_ne_nil member []) (by simpa using hmember)
      rwa [String.intercalate_singleton] at this
    have hstep : ReadsNames name (.member () receiver member)
        (front ++ (Path.segments member.toList).map String.ofList) := h.member member
    rw [hone] at hstep
    simpa [dotted] using ih hstep hrest

theorem readsNames_bracketed {receiver : Expr Unit} {front : List String}
    (h : ReadsNames name receiver front) :
    ReadsNames name (bracketed receiver names) (front ++ names) := by
  induction names generalizing receiver front with
  | nil => simpa [bracketed] using h
  | cons member rest ih =>
    have hstep : ReadsNames name (.keyed () receiver (.literal () (.string member)))
        (front ++ [member]) := h.keyed member
    simpa [bracketed] using ih hstep

/-- What a dotted path leads to is the operand of the path itself, of its first name with the others
behind it as one path, each behind a dot of its own or each in brackets, and of every text that
reads the names in any mix of these. -/
theorem eval_of_resolve (scope : Scope) {name : String} {members : List String}
    (hdot : ∀ s ∈ name :: members, '.' ∉ s.toList) (hname : name ≠ "global") {r : Path.Resolved}
    (h : Path.resolve scope (".".intercalate (name :: members)) = some r) :
    (lookup () (".".intercalate (name :: members))).eval scope = .ok (.ofValue r.value) ∧
    (members ≠ [] → (member () (.lookup () name) (".".intercalate members)).eval scope =
      .ok (.ofValue r.value)) ∧
    (dotted (.lookup () name) members).eval scope = .ok (.ofValue r.value) ∧
    (bracketed (.lookup () name) members).eval scope = .ok (.ofValue r.value) ∧
    ∀ text e, parse text = .ok e → ReadsNames name e members →
      evaluate scope text = .ok (.ofValue r.value) := by
  have hpath := Path.segments_intercalate (List.cons_ne_nil name members) hdot
  rw [Path.resolve_of_segments scope hpath fun hglobal => hname hglobal.1] at h
  rcases Option.bind_eq_some_iff.1 h with ⟨v, hv, hr⟩
  have hreads {α : Type} {e : Expr α} (he : ReadsNames name e members) :
      e.eval scope = .ok (.ofValue r.value) := eval_of_readsNames he hname hv hr
  rcases List.forall_mem_cons.1 hdot with ⟨hfirst, hrest⟩
  have hstart : ReadsNames name (.lookup () name) [] := by
    apply ReadsNames.lookup
    have := Path.segments_intercalate (List.cons_ne_nil name []) (by simpa using hfirst)
    rwa [String.intercalate_singleton] at this
  have hjoined (hne : members ≠ []) :
      ReadsNames name (.member () (.lookup () name) (".".intercalate members)) members := by
    have hstep : ReadsNames name (.member () (.lookup () name) (".".intercalate members))
        ((Path.segments (".".intercalate members).toList).map String.ofList) := hstart.member _
    rwa [Path.segments_intercalate hne hrest] at hstep
  refine ⟨hreads (.lookup hpath), fun hne => hreads (hjoined hne),
    hreads (readsNames_dotted hstart hrest), hreads (readsNames_bracketed hstart), ?_⟩
  intro text e hparse he
  rw [evaluate, hparse]
  simp only [hreads he]

/-- The number of tags of the second user, from a path that ends in a length: by the path, behind
one dot, behind dots, in brackets, and by a text that has a bracket between two dots. -/
theorem eval_of_resolve_length :
    let ann := Value.object [("tags", .array [.null, .string "new"])]
    let scope := Scope.ofRoot (.object [("users", .array [.null, ann])])
    let names := ["1", "tags", "length"]
    (∀ s ∈ "users" :: names, '.' ∉ s.toList) ∧ "users" ≠ "global" ∧
      Path.resolve scope "users.1.tags.length" = some (.length 2) ∧
      (lookup () "users.1.tags.length").eval scope = .ok (.number 2) ∧
      (member () (.lookup () "users") "1.tags.length").eval scope = .ok (.number 2) ∧
      (dotted (.lookup () "users") names).eval scope = .ok (.number 2) ∧
      (bracketed (.lookup () "users") names).eval scope = .ok (.number 2) ∧
      evaluate scope "users[\"1\"].tags.length" = .ok (.number 2) := by
  intro ann scope names
  have hdot : ∀ s ∈ "users" :: names, '.' ∉ s.toList := by decide
  have hresolve : Path.resolve scope "users.1.tags.length" = some (.length 2) := rfl
  rcases eval_of_resolve scope hdot (by decide) hresolve with
    ⟨hpath, hjoined, hdots, hbrackets, htext⟩
  let users : Expr Span := .lookup ⟨0, 5⟩ "users"
  let second : Expr Span := .keyed ⟨0, 10⟩ users (.literal ⟨6, 9⟩ (.string "1"))
  have hparse : parse "users[\"1\"].tags.length" =
      .ok (.member ⟨0, 22⟩ second "tags.length") := by cbv
  have husers : ReadsNames "users" users [] := .lookup rfl
  have hsecond : ReadsNames "users" second ["1"] := husers.keyed "1"
  have hreads : ReadsNames "users" (.member ⟨0, 22⟩ second "tags.length") names :=
    hsecond.member "tags.length"
  exact ⟨hdot, by decide, hresolve, hpath, hjoined (by decide), hdots, hbrackets,
    htext _ _ hparse hreads⟩

end Stencil.Expr
