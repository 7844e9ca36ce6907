import Mathlib
import Stencil.Directive.Each
import Stencil.Proofs.Expr.Lexing
namespace Stencil.Directive

/-! # Texts of loops

The grammar of a loop, and that the reader of loops accepts its texts and no others. A text is
spelled in one way only: the blanks in front end where the item begins, the item ends at the first
space, and the path ends at the next blank.
-/

/-- A letter of ASCII, an underscore or a dollar sign. -/
def IsLetter (c : Char) : Prop :=
  ('A' ≤ c ∧ c ≤ 'Z') ∨ ('a' ≤ c ∧ c ≤ 'z') ∨ c = '_' ∨ c = '$'

/-- A letter, and letters and digits behind it. -/
def IsIdentifier (cs : List Char) : Prop :=
  ∃ c rest, cs = c :: rest ∧ IsLetter c ∧ ∀ x ∈ rest, IsLetter x ∨ ('0' ≤ x ∧ x ≤ '9')

/-- A way to spell a loop: blanks, the item, ` in ` with one space on each side, the path, and more
blanks. -/
structure Spelling where
  before : String
  item : String
  path : String
  after : String
  isBlank_before : ∀ c ∈ before.toList, Text.isBlank c = true
  isIdentifier_item : IsIdentifier item.toList
  path_ne_nil : path.toList ≠ []
  not_isBlank_path : ∀ c ∈ path.toList, Text.isBlank c = false
  isBlank_after : ∀ c ∈ after.toList, Text.isBlank c = true

namespace Spelling

/-- The text that is spelled. -/
def text (s : Spelling) : String :=
  s.before ++ s.item ++ " in " ++ s.path ++ s.after

/-- The loop that is spelled. -/
def each (s : Spelling) : Each :=
  ⟨s.item, s.path⟩

theorem toList_text (s : Spelling) : s.text.toList =
    s.before.toList ++ (s.item.toList ++ (separator ++ (s.path.toList ++ s.after.toList))) := by
  simp only [text, String.toList_append, List.append_assoc]
  rfl

end Spelling

/-! ## Characters -/

theorem isPathStart_iff {c : Char} : Expr.isPathStart c = true ↔ IsLetter c := by
  simp [Expr.isPathStart, Char.isAlpha, Char.isUpper, Char.isLower, IsLetter, Char.le_def, or_assoc]

theorem isItemPart_iff {c : Char} : isItemPart c = true ↔ IsLetter c ∨ ('0' ≤ c ∧ c ≤ '9') := by
  rw [isItemPart, Bool.or_eq_true, isPathStart_iff]
  simp [Char.isDigit, Char.le_def]

/-- Blanks lie below and above the characters of names. -/
theorem isBlank_of_isItemPart {c : Char} (h : isItemPart c = true) : Text.isBlank c = false := by
  have hrange : 33 ≤ c.toNat ∧ c.toNat ≤ 122 := by
    have hle {a b : Char} : a ≤ b ↔ a.toNat ≤ b.toNat := UInt32.le_iff_toNat_le
    simp only [isItemPart_iff, IsLetter, hle] at h
    rcases h with (⟨h₁, h₂⟩ | ⟨h₁, h₂⟩ | rfl | rfl) | ⟨h₁, h₂⟩
    · exact ⟨le_trans (by decide) h₁, le_trans h₂ (by decide)⟩
    · exact ⟨le_trans (by decide) h₁, le_trans h₂ (by decide)⟩
    · decide
    · decide
    · exact ⟨le_trans (by decide) h₁, le_trans h₂ (by decide)⟩
  simp only [Text.isBlank, Bool.or_eq_false_iff, Bool.and_eq_false_iff, decide_eq_false_iff_not,
    beq_eq_false_iff_ne]
  omega

theorem isIdentifier_iff {cs : List Char} : IsIdentifier cs ↔
    cs.head?.any Expr.isPathStart = true ∧ ∀ c ∈ cs, isItemPart c = true := by
  cases cs with
  | nil => simp [IsIdentifier]
  | cons c rest =>
    simp only [IsIdentifier, List.cons.injEq, List.head?_cons, Option.any_some, isPathStart_iff,
      isItemPart_iff, List.forall_mem_cons]
    constructor
    · rintro ⟨_, _, ⟨rfl, rfl⟩, hc, hrest⟩
      exact ⟨hc, Or.inl hc, hrest⟩
    · rintro ⟨hc, -, hrest⟩
      exact ⟨c, rest, ⟨rfl, rfl⟩, hc, hrest⟩

/-! ## Spelled texts are read -/

/-- A run of characters of one kind ends where a character of another kind follows. -/
theorem span_append {p : Char → Bool} (run rest : List Char) (hrun : ∀ c ∈ run, p c = true)
    (hrest : ∀ c ∈ rest.head?, p c = false) :
    (run ++ rest).takeWhile p = run ∧ (run ++ rest).dropWhile p = rest := by
  rw [List.takeWhile_append_of_pos hrun, List.dropWhile_append_of_pos hrun,
    Expr.takeWhile_eq_nil hrest, Expr.dropWhile_eq_self hrest, List.append_nil]
  exact ⟨rfl, rfl⟩

namespace Spelling

/-- The blanks in front of the text end where the item begins. -/
theorem span_text (s : Spelling) :
    s.text.toList.takeWhile Text.isBlank = s.before.toList ∧
    s.text.toList.dropWhile Text.isBlank =
      s.item.toList ++ (separator ++ (s.path.toList ++ s.after.toList)) := by
  obtain ⟨hhead, hall⟩ := isIdentifier_iff.1 s.isIdentifier_item
  rw [toList_text]
  refine span_append _ _ s.isBlank_before fun c hc => ?_
  cases hitem : s.item.toList with
  | nil =>
    rw [hitem] at hhead
    cases hhead
  | cons x xs =>
    rw [hitem] at hc
    cases hc
    exact isBlank_of_isItemPart (hall _ (hitem ▸ List.mem_cons_self))

theorem parse?_text (s : Spelling) : Each.parse? s.text = some s.each := by
  obtain ⟨hhead, hitem⟩ := isIdentifier_iff.1 s.isIdentifier_item
  have hname := span_append s.item.toList (separator ++ (s.path.toList ++ s.after.toList)) hitem
    fun c hc => by
      cases hc
      decide
  have hpath := span_append (p := (!Text.isBlank ·)) s.path.toList s.after.toList
    (fun c hc => by simp [s.not_isBlank_path c hc]) fun c hc => by
      simp [s.isBlank_after c (List.mem_of_mem_head? hc)]
  have hafter : s.after.toList.all Text.isBlank = true := List.all_eq_true.2 s.isBlank_after
  unfold Each.parse?
  simp only [s.span_text.2, hname.1, hname.2, hhead, List.drop_left, hpath.1, hpath.2, hafter,
    s.path_ne_nil]
  simp [each]

/-- A text is spelled in one way. -/
theorem text_injective : Function.Injective text := by
  intro s t h
  have heach : s.each = t.each := by
    have hread := t.parse?_text
    rw [← h, s.parse?_text] at hread
    exact Option.some.inj hread
  obtain ⟨hitem, hpath⟩ : s.item = t.item ∧ s.path = t.path := by simpa [each] using heach
  have hbefore : s.before = t.before := by
    rw [← String.toList_inj, ← s.span_text.1, h, t.span_text.1]
  have hafter : s.after = t.after := by
    have hlist := congrArg String.toList h
    rw [toList_text, toList_text, hbefore, hitem, hpath] at hlist
    simpa only [List.append_cancel_left_eq, String.toList_inj] using hlist
  cases s
  cases t
  cases hbefore
  cases hitem
  cases hpath
  cases hafter
  rfl

end Spelling

/-! ## Texts that are read are spelled -/

theorem exists_spelling {text : String} {each : Each} (h : Each.parse? text = some each) :
    ∃ s : Spelling, s.text = text ∧ s.each = each := by
  unfold Each.parse? at h
  dsimp only at h
  set cs := text.toList.dropWhile Text.isBlank with hcs
  set behind := (cs.dropWhile isItemPart).drop separator.length with hbehind
  split at h
  · cases h
  next hfront =>
  split at h
  · cases h
  next hback =>
  cases h
  simp only [Bool.or_eq_true, Bool.not_eq_true', not_or, Bool.not_eq_false,
    List.isPrefixOf_iff_prefix, decide_eq_true_eq, List.all_eq_true] at hfront hback
  have hitem : IsIdentifier (cs.takeWhile isItemPart) :=
    isIdentifier_iff.2 ⟨hfront.1, fun c hc => List.mem_takeWhile_imp hc⟩
  have hsplit : cs.dropWhile isItemPart = separator ++ behind := by
    obtain ⟨more, hmore⟩ := hfront.2
    rw [hbehind, ← hmore, List.drop_left]
  -- the five pieces are cut off one after the other, so that together they are the text
  let s : Spelling :=
    { before := String.ofList (text.toList.takeWhile Text.isBlank)
      item := String.ofList (cs.takeWhile isItemPart)
      path := String.ofList (behind.takeWhile (!Text.isBlank ·))
      after := String.ofList (behind.dropWhile (!Text.isBlank ·))
      isBlank_before := by
        rw [String.toList_ofList]
        exact fun c hc => List.mem_takeWhile_imp hc
      isIdentifier_item := by rwa [String.toList_ofList]
      path_ne_nil := by
        rw [String.toList_ofList]
        exact hback.1
      not_isBlank_path := by
        rw [String.toList_ofList]
        exact fun c hc => by simpa using List.mem_takeWhile_imp hc
      isBlank_after := by
        rw [String.toList_ofList]
        exact hback.2 }
  refine ⟨s, ?_, rfl⟩
  rw [← String.toList_inj, s.toList_text]
  simp only [s, String.toList_ofList]
  rw [List.takeWhile_append_dropWhile, ← hsplit, List.takeWhile_append_dropWhile, hcs,
    List.takeWhile_append_dropWhile]

/-- The texts that are read as loops are those of the grammar. The item and the path that are read
are the slices of the text that its spelling names, no text has two spellings, and a text without
one is no loop. -/
theorem Each.parse?_eq_some_iff_spelled :
    (∀ text each, Each.parse? text = some each ↔ ∃ s : Spelling, s.text = text ∧ s.each = each) ∧
    (∀ text, Each.parse? text = none ↔ ∀ s : Spelling, s.text ≠ text) ∧
    Function.Injective Spelling.text := by
  have hiff (text : String) (each : Each) :
      Each.parse? text = some each ↔ ∃ s : Spelling, s.text = text ∧ s.each = each := by
    constructor
    · exact exists_spelling
    · rintro ⟨s, rfl, rfl⟩
      exact s.parse?_text
  refine ⟨hiff, fun text => ?_, Spelling.text_injective⟩
  rw [Option.eq_none_iff_forall_ne_some]
  constructor
  · intro hnone s hs
    exact hnone s.each ((hiff text s.each).2 ⟨s, hs, rfl⟩)
  · intro hnone each hread
    obtain ⟨s, hs, -⟩ := exists_spelling hread
    exact hnone s hs

/-- `in` is a name like any other, and a path has no blanks. -/
example : Each.parse? "\u2003in in in\n" = some ⟨"in", "in"⟩ ∧
    Each.parse? "a in b in c" = none := by
  decide +kernel

end Stencil.Directive
