import Stencil.Expr.Eval
import Stencil.Proofs.Directive.LoopText
import Stencil.Proofs.Expr.Printing
import Stencil.Proofs.Path
namespace Stencil

open Stencil.Data (Value)

/-! # Names of loop variables

The name that a loop gives to its items is a word for the paths and for the expressions inside of
the loop. All of them read it as the item, but for the words that they keep for themselves: `global`
in front of a dot, and the keywords.
-/

namespace Expr

/-- The bytes of a text that is one word. -/
def Span.whole (text : String) : Span :=
  ⟨0, Text.byteLength text.toList⟩

/-- A word by itself is an expression of one token. -/
theorem parse_word {word : String} (h : IsWord word) :
    parse word = .ok (match Keyword.ofText? word with
      | some k => .literal (.whole word) k.literal
      | none => .lookup (.whole word) word) := by
  have hspelled : Spelled 0 word.toList
      [⟨0, Text.byteLength word.toList, (Piece.path word).lexeme⟩] := by
    have hcut : Cuts (Piece.path word).lexeme word.toList [] := by
      have := Piece.isCut_path h
      rwa [Piece.IsCut, Piece.word_path] at this
    have hnothing : ∀ c ∈ ([] : List Char), isSpace c = true := by simp
    have htoken := Spelled.token hnothing (Nat.zero_add _).symm hcut rfl (.nothing hnothing)
    simpa [Text.byteLength] using htoken
  refine parse_eq_ok_iff.2 ⟨_, hspelled, ?_⟩
  have hleaf (l : Lexeme) {node : Span → Expr Span} (hnode : leaf? l = some node) :
      Located .conditional [⟨0, Text.byteLength word.toList, l⟩] (node (.whole word)) :=
    (Located.leaf (t := ⟨0, Text.byteLength word.toList, l⟩) hnode).conditional
  rw [Piece.path]
  cases Keyword.ofText? word with
  | some k => exact hleaf (.keyword k) rfl
  | none => exact hleaf (.identifier word) rfl

end Expr

namespace Directive

theorem isPathPart_of_isItemPart {c : Char} (h : isItemPart c = true) :
    Expr.isPathPart c = true := by
  rw [Expr.isPathPart, ← isItemPart, h, Bool.true_or]

/-- The name of an item begins like a path and has no dot. -/
theorem Each.isWord_item {text : String} {each : Each} (h : Each.parse? text = some each) :
    Expr.IsWord each.item ∧ '.' ∉ each.item.toList := by
  obtain ⟨s, -, rfl⟩ := exists_spelling h
  show Expr.IsWord s.item ∧ '.' ∉ s.item.toList
  obtain ⟨hhead, hparts⟩ := isIdentifier_iff.1 s.isIdentifier_item
  constructor
  · obtain ⟨c, rest, hitem, -, -⟩ := s.isIdentifier_item
    rw [hitem] at hhead hparts
    refine ⟨c, rest, hitem, by simpa using hhead, List.all_eq_true.2 ?_⟩
    intro x hx
    exact isPathPart_of_isItemPart (hparts x (List.mem_cons_of_mem _ hx))
  · intro hdot
    have := hparts '.' hdot
    revert this
    decide

/-- The name of an item stands for the item that is bound to it, at the front of a path and by
itself as an expression. The exceptions are the name `global`, behind which a dot leads into the
root data, and the names that are keywords, which expressions read as their values. -/
theorem Each.resolve_and_parse_item {text : String} {each : Each}
    (h : Each.parse? text = some each) (scope : Scope) (v : Value) {members : List String}
    (hmembers : ∀ m ∈ members, '.' ∉ m.toList) :
    let inner := scope.bind each.item v
    Path.resolve inner each.item = some (.part v) ∧
    Path.resolve inner (".".intercalate (each.item :: members)) =
      (if each.item = "global" ∧ members ≠ [] then Path.walk scope.root members
        else Path.walk v members) ∧
    match Expr.Keyword.ofText? each.item with
    | none => Expr.parse each.item = .ok (.lookup (.whole each.item) each.item) ∧
        Expr.evaluate inner each.item = .ok (.ofValue v)
    | some k => Expr.parse each.item = .ok (.literal (.whole each.item) k.literal) ∧
        Expr.evaluate inner each.item = .ok k.literal.operand := by
  obtain ⟨hword, hdot⟩ := Each.isWord_item h
  intro inner
  have hpath : ∀ members : List String, (∀ m ∈ members, '.' ∉ m.toList) →
      Path.resolve inner (".".intercalate (each.item :: members)) =
        if each.item = "global" ∧ members ≠ [] then Path.walk scope.root members
        else Path.walk v members := by
    intro members hmembers
    rw [Path.resolve_intercalate inner (List.forall_mem_cons.2 ⟨hdot, hmembers⟩),
      Scope.lookup_bind_self, Scope.root_bind, Option.bind_some]
  have hself : Path.resolve inner each.item = some (.part v) := by
    have := hpath [] (by simp)
    rwa [String.intercalate_singleton, if_neg (by simp), Path.walk] at this
  have hparse := Expr.parse_word hword
  refine ⟨hself, hpath members hmembers, ?_⟩
  cases hk : Expr.Keyword.ofText? each.item with
  | none =>
    rw [hk] at hparse
    refine ⟨hparse, ?_⟩
    rw [Expr.evaluate, hparse]
    simp only [Expr.eval, Expr.lookupOperand, hself]
    rfl
  | some k =>
    rw [hk] at hparse
    refine ⟨hparse, ?_⟩
    rw [Expr.evaluate, hparse]
    rfl

/-- A loop over users: what is inside of an item does not depend on the root data. -/
theorem Each.resolve_and_parse_item_user :
    let user := Value.object [("name", .string "Ann")]
    let inner := (Scope.ofRoot (.object [("user", .null)])).bind "user" user
    Each.parse? " user in users " = some ⟨"user", "users"⟩ ∧
      Path.resolve inner "user" = some (.part user) ∧
      Path.resolve inner "user.name.length" = some (.length 3) ∧
      Expr.parse "user" = .ok (.lookup ⟨0, 4⟩ "user") ∧
      Expr.evaluate inner "user" = .ok (.ofValue user) := by
  intro user inner
  have h : Each.parse? " user in users " = some ⟨"user", "users"⟩ := by decide +kernel
  have hmembers : ∀ m ∈ ["name", "length"], '.' ∉ m.toList := by decide
  obtain ⟨hself, hpath, hparse, heval⟩ := Each.resolve_and_parse_item h
    (Scope.ofRoot (.object [("user", .null)])) user hmembers
  exact ⟨h, hself, hpath, hparse, heval⟩

/-- Two names that loops may give and that are not read as their items. -/
theorem Each.resolve_and_parse_reserved_item :
    let root := Value.object [("name", .string "root")]
    let item := Value.object [("name", .string "item")]
    let inner := (Scope.ofRoot root).bind "global" item
    (Each.parse? "global in xs" = some ⟨"global", "xs"⟩ ∧
      Path.resolve inner "global.name" = some (.part (.string "root")) ∧
      Path.resolve inner "global.name" ≠ Path.walk item ["name"]) ∧
    Each.parse? "true in ys" = some ⟨"true", "ys"⟩ ∧
      Expr.parse "true" = .ok (.literal ⟨0, 4⟩ (.bool true)) ∧
      ∀ place path, Expr.parse "true" ≠ .ok (.lookup place path) := by
  intro root item inner
  have hroot : Path.resolve inner "global.name" = some (.part (.string "root")) := rfl
  have hitem : Path.walk item ["name"] = some (.part (.string "item")) := rfl
  have hparse : Expr.parse "true" = .ok (.literal ⟨0, 4⟩ (.bool true)) :=
    Expr.parse_word ⟨'t', "rue".toList, rfl, by decide, by decide⟩
  refine ⟨⟨by decide +kernel, hroot, ?_⟩, by decide +kernel, hparse, ?_⟩
  · rw [hroot, hitem]
    simp
  · intro place path
    rw [hparse]
    simp

end Directive

end Stencil
