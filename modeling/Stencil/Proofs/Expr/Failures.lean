import Stencil.Proofs.Expr.Members
import Stencil.Proofs.Expr.Parsing
namespace Stencil.Expr

/-! # Failures of evaluation

An expression has no value exactly if its evaluation comes to a read whose receiver is undefined or
null. What evaluation comes to depends on the operands before it: an operator may leave its right
operand alone, and a choice takes one of its two branches.

A tree can also fail at an operator that evaluation does not know. The operators that the parser
puts into a tree are those of the grammar, and evaluation knows them all.
-/

variable {α : Type} {scope : Scope} {e : Expr α} {a b : Operand} {key op : String}
  {err : EvalError} {names : List String}

/-! ## Reads that fail -/

/-- The operand that has no members. -/
def Nothing.operand : Nothing → Operand
  | .undefined => .undefined
  | .null => .null

theorem member_operand (receiver : Nothing) (key : String) :
    receiver.operand.member key = .error (.reading receiver key) := by
  cases receiver <;> rfl

/-- Only undefined and null have no members, and the error says which of them it is. -/
theorem exists_of_member_error (h : a.member key = .error err) :
    ∃ receiver : Nothing, a = receiver.operand ∧ err = .reading receiver key := by
  cases a with
  | undefined =>
    cases h
    exact ⟨.undefined, rfl, rfl⟩
  | null =>
    cases h
    exact ⟨.null, rfl, rfl⟩
  | bool _ | number _ => cases h
  | string s =>
    rw [Operand.member] at h
    split at h
    · cases h
    · split at h <;> cases h
  | array _ | object _ =>
    rw [Operand.member] at h
    split at h <;> cases h

/-- A chain of members fails at the first one whose receiver is undefined or null. -/
theorem exists_of_memberChain_error (h : memberChain a names = .error err) :
    ∃ (receiver : Nothing) (key : String) (front back : List String),
      err = .reading receiver key ∧ names = front ++ key :: back ∧
        memberChain a front = .ok receiver.operand := by
  induction names generalizing a with
  | nil => cases h
  | cons name rest ih =>
    rw [memberChain] at h
    cases hmember : a.member name with
    | error e =>
      rw [hmember] at h
      cases h
      rcases exists_of_member_error hmember with ⟨receiver, rfl, rfl⟩
      exact ⟨receiver, name, [], rest, rfl, rfl, rfl⟩
    | ok b =>
      rw [hmember] at h
      rcases ih h with ⟨receiver, key, front, back, herr, rfl, hfront⟩
      refine ⟨receiver, key, name :: front, back, herr, rfl, ?_⟩
      rw [memberChain, hmember]
      exact hfront

/-! ## Operators -/

/-- The operators between two operands that a tree has, at any depth. -/
def operators : Expr α → List String
  | .literal _ _ | .lookup _ _ => []
  | .keyed _ receiver key => receiver.operators ++ key.operators
  | .member _ receiver _ => receiver.operators
  | .binary _ op left right => op :: (left.operators ++ right.operators)
  | .negation _ e | .signed _ _ e => e.operators
  | .conditional _ condition yes no => condition.operators ++ (yes.operators ++ no.operators)

theorem operators_prefixed? {node : Span → Expr Span → Expr Span} (h : prefixed? op = some node)
    (place : Span) (e : Expr Span) : (node place e).operators = e.operators := by
  unfold prefixed? at h
  split at h <;> cases h
  all_goals rfl

theorem operators_leaf? {l : Lexeme} {node : Span → Expr Span} (h : leaf? l = some node)
    (place : Span) : (node place).operators = [] := by
  unfold leaf? at h
  split at h <;> cases h
  all_goals rfl

/-- The operators that the parser puts into a tree are those of the grammar. -/
theorem Located.operatorLevel?_isSome {c : Category} {ts : List Token} {e : Expr Span}
    (h : Located c ts e) : ∀ op ∈ e.operators, (operatorLevel? op).isSome := by
  induction h with
  | choice _ _ _ _ _ ihc ihy ihn =>
    simp only [operators, List.forall_mem_append]
    exact ⟨ihc, ihy, ihn⟩
  | noChoice _ ih | tighter _ ih | noPower _ ih | noSign _ ih | noAccess _ ih => exact ih
  | binary hop _ _ _ ihl ihr =>
    simp only [operators, List.forall_mem_cons, List.forall_mem_append]
    exact ⟨Option.isSome_of_eq_some hop, ihl, ihr⟩
  | power _ _ _ ihl ihr =>
    simp only [operators, List.forall_mem_cons, List.forall_mem_append]
    exact ⟨rfl, ihl, ihr⟩
  | prefixed _ hnode _ ih =>
    rw [operators_prefixed? hnode]
    exact ih
  | keyed _ _ _ _ ihr ihk =>
    simp only [operators, List.forall_mem_append]
    exact ⟨ihr, ihk⟩
  | member _ _ _ ih => exact ih
  | leaf h =>
    rw [operators_leaf? h]
    exact List.forall_mem_nil _
  | parens _ _ _ ih => exact ih

/-- Evaluation knows every operator of the grammar: it chooses one of the two operands, or it makes
an operand of them. -/
theorem exists_applyOperator (h : (operatorLevel? op).isSome) (hkeeps : keepsLeft? op = none)
    (a b : Operand) : ∃ c, applyOperator op a b = .ok c := by
  unfold operatorLevel? at h
  split at h
  all_goals first | exact ⟨_, rfl⟩ | cases hkeeps | cases h

/-- It knows no others. -/
theorem applyOperator_of_operatorLevel?_eq_none (h : operatorLevel? op = none) (a b : Operand) :
    applyOperator op a b = .error (.unsupported op) := by
  unfold applyOperator
  split
  all_goals first | rfl | cases h

/-- So an operator between two values fails exactly if it is none of the grammar. -/
theorem applyOperator_eq_error_iff (hkeeps : keepsLeft? op = none) :
    applyOperator op a b = .error err ↔ operatorLevel? op = none ∧ err = .unsupported op := by
  cases hlevel : operatorLevel? op with
  | none =>
    rw [applyOperator_of_operatorLevel?_eq_none hlevel, Except.error.injEq, eq_comm]
    simp
  | some n =>
    obtain ⟨c, hc⟩ := exists_applyOperator (Option.isSome_of_eq_some hlevel) hkeeps a b
    rw [hc]
    simp

/-! ## Reads that evaluation comes to -/

/-- The left operand leaves the value to the right one, which is evaluated then. -/
def GoesOn (op : String) (left : Operand) : Prop :=
  match op with
  | "&&" => left.isTruthy = true
  | "||" => left.isTruthy = false
  | "??" => left.isNullish = true
  | _ => True

/-- Evaluation comes to a read of the member `key` of an operand. A path of several members behind a
dot is as many reads, each of which has the member before it as its receiver. -/
inductive Reaches (scope : Scope) : Expr α → Operand → String → Prop
  | keyed {note : α} {receiver key : Expr α} {a k : Operand} (ha : receiver.eval scope = .ok a)
      (hk : key.eval scope = .ok k) : Reaches scope (.keyed note receiver key) a k.spelled
  | member {note : α} {receiver : Expr α} {path key : String} {front back : List String}
      {a b : Operand} (ha : receiver.eval scope = .ok a)
      (hpath : (Path.segments path.toList).map String.ofList = front ++ key :: back)
      (hb : memberChain a front = .ok b) : Reaches scope (.member note receiver path) b key
  | keyedReceiver {note : α} {receiver key : Expr α} {a : Operand} {s : String}
      (h : Reaches scope receiver a s) : Reaches scope (.keyed note receiver key) a s
  | keyedKey {note : α} {receiver key : Expr α} {a b : Operand} {s : String}
      (hb : receiver.eval scope = .ok b) (h : Reaches scope key a s) :
      Reaches scope (.keyed note receiver key) a s
  | memberReceiver {note : α} {receiver : Expr α} {path : String} {a : Operand} {s : String}
      (h : Reaches scope receiver a s) : Reaches scope (.member note receiver path) a s
  | left {note : α} {op : String} {left right : Expr α} {a : Operand} {s : String}
      (h : Reaches scope left a s) : Reaches scope (.binary note op left right) a s
  | right {note : α} {op : String} {left right : Expr α} {a b : Operand} {s : String}
      (hb : left.eval scope = .ok b) (hop : GoesOn op b) (h : Reaches scope right a s) :
      Reaches scope (.binary note op left right) a s
  | negation {note : α} {e : Expr α} {a : Operand} {s : String} (h : Reaches scope e a s) :
      Reaches scope (.negation note e) a s
  | signed {note : α} {sign : String} {e : Expr α} {a : Operand} {s : String}
      (h : Reaches scope e a s) : Reaches scope (.signed note sign e) a s
  | condition {note : α} {condition yes no : Expr α} {a : Operand} {s : String}
      (h : Reaches scope condition a s) : Reaches scope (.conditional note condition yes no) a s
  | yes {note : α} {condition yes no : Expr α} {a b : Operand} {s : String}
      (hb : condition.eval scope = .ok b) (htrue : b.isTruthy = true) (h : Reaches scope yes a s) :
      Reaches scope (.conditional note condition yes no) a s
  | no {note : α} {condition yes no : Expr α} {a b : Operand} {s : String}
      (hb : condition.eval scope = .ok b) (hfalse : b.isTruthy = false)
      (h : Reaches scope no a s) : Reaches scope (.conditional note condition yes no) a s

/-- The operators that may keep their left operand go on exactly if they do not keep it. -/
theorem goesOn_iff_of_keepsLeft? {keeps : Operand → Bool} (h : keepsLeft? op = some keeps)
    (a : Operand) : GoesOn op a ↔ keeps a = false := by
  unfold keepsLeft? at h
  split at h
  · cases h
    simp [GoesOn]
  · cases h
    simp [GoesOn]
  · cases h
    simp [GoesOn]
  · cases h

theorem goesOn_of_keepsLeft?_eq_none (h : keepsLeft? op = none) (a : Operand) : GoesOn op a := by
  unfold GoesOn
  split
  · cases h
  · cases h
  · cases h
  · trivial

/-- Behind a left operand that goes on, the right operand is the value, or the operator makes the
value of both. -/
theorem eval_binary_of_goesOn {note : α} {left right : Expr α} (ha : left.eval scope = .ok a)
    (hop : GoesOn op a) :
    (binary note op left right).eval scope = (right.eval scope).bind fun b =>
      if (keepsLeft? op).isSome then .ok b else applyOperator op a b := by
  simp only [eval, ha]
  cases hkeeps : keepsLeft? op with
  | none => cases right.eval scope <;> rfl
  | some keeps =>
    have hkept := (goesOn_iff_of_keepsLeft? hkeeps a).1 hop
    simp only [hkept, Bool.false_eq_true, if_false]
    cases right.eval scope <;> rfl

theorem eval_binary_of_not_goesOn {note : α} {left right : Expr α} (ha : left.eval scope = .ok a)
    (hop : ¬ GoesOn op a) : (binary note op left right).eval scope = .ok a := by
  simp only [eval, ha]
  cases hkeeps : keepsLeft? op with
  | none => exact absurd (goesOn_of_keepsLeft?_eq_none hkeeps a) hop
  | some keeps =>
    have hkept : keeps a = true := by
      simpa using mt (goesOn_iff_of_keepsLeft? hkeeps a).2 hop
    simp only [hkept, if_true]

/-- A read that fails ends the evaluation that comes to it. -/
theorem Reaches.eval_eq_error (h : Reaches scope e a key) (hread : a.member key = .error err) :
    e.eval scope = .error err := by
  induction h with
  | keyed ha hk => simp only [eval, ha, hk, hread]
  | member ha hpath hb =>
    simp only [eval, ha, hpath]
    rw [memberChain_append hb, memberChain, hread]
  | keyedReceiver h ih => simp only [eval, ih hread]
  | keyedKey hb h ih => simp only [eval, hb, ih hread]
  | memberReceiver h ih => simp only [eval, ih hread]
  | left h ih => simp only [eval, ih hread]
  | right hb hop h ih =>
    rw [eval_binary_of_goesOn hb hop, ih hread]
    rfl
  | negation h ih => simp only [eval, ih hread]
  | signed h ih => simp only [eval, ih hread]
  | condition h ih => simp only [eval, ih hread]
  | yes hb htrue h ih => simp only [eval, hb, htrue, if_true, ih hread]
  | no hb hfalse h ih => simp only [eval, hb, hfalse, Bool.false_eq_true, if_false, ih hread]

/-- What the error of an evaluation blames: a read of undefined or null that evaluation has come to,
or an operator of the tree that is none of the grammar. -/
inductive Blames (scope : Scope) (e : Expr α) : EvalError → Prop
  | reading {receiver : Nothing} {key : String} (h : Reaches scope e receiver.operand key) :
      Blames scope e (.reading receiver key)
  | unsupported {op : String} (hmem : op ∈ e.operators) (hop : operatorLevel? op = none) :
      Blames scope e (.unsupported op)

/-- What is blamed in a part is blamed in the whole, if evaluation comes to the reads of the part. -/
theorem Blames.mono {part : Expr α} (h : Blames scope part err)
    (hreads : ∀ {a : Operand} {key : String}, Reaches scope part a key → Reaches scope e a key)
    (hops : part.operators ⊆ e.operators) : Blames scope e err := by
  cases h with
  | reading h => exact .reading (hreads h)
  | unsupported hmem hop => exact .unsupported (hops hmem) hop

/-- The evaluation of any tree, parsed or not, fails for one of the two reasons. -/
theorem blames_of_eval_error (h : e.eval scope = .error err) : Blames scope e err := by
  -- the first part that fails has what its error blames; if none does, it is the last step that
  -- fails: the read of a member, or the operator between two values
  induction e with
  | literal note v => cases h
  | lookup note path => cases h
  | keyed note receiver key ihr ihk =>
    rw [eval] at h
    cases hr : receiver.eval scope with
    | error err' =>
      rw [hr] at h
      cases h
      exact (ihr hr).mono .keyedReceiver (List.subset_append_left _ _)
    | ok r =>
      cases hk : key.eval scope with
      | error err' =>
        simp only [hr, hk] at h
        cases h
        exact (ihk hk).mono (.keyedKey hr) (List.subset_append_right _ _)
      | ok k =>
        simp only [hr, hk] at h
        rcases exists_of_member_error h with ⟨receiver, rfl, rfl⟩
        exact .reading (.keyed hr hk)
  | member note receiver path ih =>
    rw [eval] at h
    cases hr : receiver.eval scope with
    | error err' =>
      rw [hr] at h
      cases h
      exact (ih hr).mono .memberReceiver (List.Subset.refl _)
    | ok r =>
      rw [hr] at h
      rcases exists_of_memberChain_error h with ⟨receiver, key, front, back, rfl, hpath, hfront⟩
      exact .reading (.member hr hpath hfront)
  | binary note op left right ihl ihr =>
    cases hl : left.eval scope with
    | error err' =>
      simp only [eval, hl] at h
      cases h
      exact (ihl hl).mono .left (List.subset_cons_of_subset _ (List.subset_append_left _ _))
    | ok b =>
      by_cases hop : GoesOn op b
      · rw [eval_binary_of_goesOn hl hop] at h
        cases hr : right.eval scope with
        | error err' =>
          rw [hr] at h
          cases h
          exact (ihr hr).mono (.right hl hop)
            (List.subset_cons_of_subset _ (List.subset_append_right _ _))
        | ok c =>
          simp only [hr, Except.bind] at h
          split at h
          · cases h
          · next hkeeps =>
            rcases (applyOperator_eq_error_iff (by simpa using hkeeps)).1 h with ⟨hlevel, rfl⟩
            exact .unsupported (List.mem_cons_self ..) hlevel
      · rw [eval_binary_of_not_goesOn hl hop] at h
        cases h
  | negation note e ih =>
    cases he : e.eval scope with
    | error err' =>
      simp only [eval, he] at h
      cases h
      exact (ih he).mono .negation (List.Subset.refl _)
    | ok b =>
      simp only [eval, he] at h
      cases h
  | signed note sign e ih =>
    cases he : e.eval scope with
    | error err' =>
      simp only [eval, he] at h
      cases h
      exact (ih he).mono .signed (List.Subset.refl _)
    | ok b =>
      simp only [eval, he] at h
      cases h
  | conditional note condition yes no ihc ihy ihn =>
    have hyes := List.subset_append_right condition.operators (yes.operators ++ no.operators)
    cases hc : condition.eval scope with
    | error err' =>
      simp only [eval, hc] at h
      cases h
      exact (ihc hc).mono .condition (List.subset_append_left _ _)
    | ok b =>
      simp only [eval, hc] at h
      split at h
      · next htrue =>
        exact (ihy h).mono (.yes hc htrue) (List.Subset.trans (List.subset_append_left _ _) hyes)
      · next hfalse =>
        exact (ihn h).mono (.no hc (Bool.not_eq_true _ ▸ hfalse))
          (List.Subset.trans (List.subset_append_right _ _) hyes)

/-! ## Texts -/

theorem Error.message_reading (receiver : Nothing) (key text : String) :
    (Error.evaluation (.reading receiver key)).message text =
      "Evaluation Error: Cannot read properties of " ++ receiver.text ++ " (reading '" ++
        key ++ "') in [" ++ text ++ "]" := by
  rw [← String.toList_inj]
  unfold Error.message EvalError.message
  simp

theorem Error.message_unsupported (operator text : String) :
    (Error.evaluation (.unsupported operator)).message text =
      "Evaluation Error: Unsupported operator '" ++ operator ++ "' in [" ++ text ++ "]" := by
  rw [← String.toList_inj]
  unfold Error.message EvalError.message
  simp

theorem Error.message_reading_ne (receiver : Nothing) (key text operator : String) :
    (Error.evaluation (.reading receiver key)).message text ≠
      (Error.evaluation (.unsupported operator)).message text := by
  rw [Error.message_reading, Error.message_unsupported, Ne, ← String.toList_inj]
  simp

/-- The expression reads no members, neither behind dots nor in brackets. A data path is no such
read. -/
def ReadFree : Expr α → Prop
  | .literal _ _ | .lookup _ _ => True
  | .keyed _ _ _ | .member _ _ _ => False
  | .binary _ _ left right => left.ReadFree ∧ right.ReadFree
  | .negation _ e | .signed _ _ e => e.ReadFree
  | .conditional _ condition yes no => condition.ReadFree ∧ yes.ReadFree ∧ no.ReadFree

theorem Reaches.not_readFree (h : Reaches scope e a key) : ¬ e.ReadFree := by
  induction h with
  | keyed | member | keyedReceiver | keyedKey | memberReceiver => exact id
  | left _ ih | condition _ ih => exact fun hfree => ih hfree.1
  | right _ _ _ ih => exact fun hfree => ih hfree.2
  | negation _ ih | signed _ ih => exact ih
  | yes _ _ _ ih => exact fun hfree => ih hfree.2.1
  | no _ _ _ ih => exact fun hfree => ih hfree.2.2

/-- The evaluation of a parsed text fails exactly if it comes to a read of a member of undefined or
null. Its error says so and names the read. It never blames an operator, and an expression without
reads of members has a value. -/
theorem evaluate_error_iff (scope : Scope) {text : String} {e : Expr Span}
    (h : parse text = .ok e) :
    (∀ error, evaluate scope text = .error error ↔
      ∃ (receiver : Nothing) (key : String),
        Reaches scope e receiver.operand key ∧ error = .evaluation (.reading receiver key)) ∧
    (∀ error, evaluate scope text = .error error →
      (∃ (receiver : Nothing) (key : String), error.message text =
        "Evaluation Error: Cannot read properties of " ++ receiver.text ++ " (reading '" ++
          key ++ "') in [" ++ text ++ "]") ∧
      ∀ operator : String, error ≠ .evaluation (.unsupported operator) ∧ error.message text ≠
        "Evaluation Error: Unsupported operator '" ++ operator ++ "' in [" ++ text ++ "]") ∧
    (e.ReadFree → ∃ a, evaluate scope text = .ok a) := by
  obtain ⟨ts, -, hlocated⟩ := parse_eq_ok_iff.1 h
  have heval : evaluate scope text = (e.eval scope).mapError .evaluation := by
    simp only [evaluate, h]
    cases e.eval scope <;> rfl
  have hiff (error : Error) : evaluate scope text = .error error ↔
      ∃ (receiver : Nothing) (key : String),
        Reaches scope e receiver.operand key ∧ error = .evaluation (.reading receiver key) := by
    rw [heval]
    constructor
    · intro herror
      cases he : e.eval scope with
      | error err =>
        rw [he] at herror
        cases herror
        cases blames_of_eval_error he with
        | reading hreaches => exact ⟨_, _, hreaches, rfl⟩
        | unsupported hmem hop =>
          -- The parser has put no such operator into the tree.
          have hknown := hlocated.operatorLevel?_isSome _ hmem
          rw [hop] at hknown
          cases hknown
      | ok a =>
        rw [he] at herror
        cases herror
    · rintro ⟨receiver, key, hreaches, rfl⟩
      rw [hreaches.eval_eq_error (member_operand receiver key)]
      rfl
  refine ⟨hiff, ?_, ?_⟩
  · intro error herror
    rcases (hiff error).1 herror with ⟨receiver, key, -, rfl⟩
    refine ⟨⟨receiver, key, Error.message_reading receiver key text⟩, fun operator => ⟨?_, ?_⟩⟩
    · intro heq
      cases heq
    · rw [← Error.message_unsupported]
      exact Error.message_reading_ne receiver key text operator
  · intro hfree
    cases hresult : evaluate scope text with
    | ok a => exact ⟨a, rfl⟩
    | error error =>
      rcases (hiff error).1 hresult with ⟨receiver, key, hreaches, -⟩
      exact absurd hfree hreaches.not_readFree

/-- The first of the two members is missing, so the second is read of undefined. The right operand
is evaluated since the left one holds. -/
theorem evaluate_error_iff_missing_member :
    let scope := Scope.ofRoot (.object [("ok", .bool true), ("user", .object [])])
    let text := "ok && (user).name.first"
    let e : Expr Span := .binary ⟨0, 23⟩ "&&" (.lookup ⟨0, 2⟩ "ok")
      (.member ⟨6, 23⟩ (.lookup ⟨7, 11⟩ "user") "name.first")
    parse text = .ok e ∧ Reaches scope e .undefined "first" ∧
      evaluate scope text = .error (.evaluation (.reading .undefined "first")) := by
  intro scope text e
  have hparse : parse text = .ok e := by cbv
  have hpath : (Path.segments "name.first".toList).map String.ofList = ["name"] ++ ["first"] := by
    decide
  have hok : (lookup (⟨0, 2⟩ : Span) "ok").eval scope = .ok (.bool true) := rfl
  have hgoes : GoesOn "&&" (.bool true) := rfl
  have huser : (lookup (⟨7, 11⟩ : Span) "user").eval scope = .ok (.object []) := rfl
  have hname : memberChain (.object []) ["name"] = .ok .undefined := rfl
  have hreaches : Reaches scope e .undefined "first" :=
    .right hok hgoes (.member huser hpath hname)
  exact ⟨hparse, hreaches, ((evaluate_error_iff scope hparse).1 _).2
    ⟨.undefined, "first", hreaches, rfl⟩⟩

end Stencil.Expr
