import Stencil.Proofs.Decimal.Whole
import Stencil.Proofs.Expr.Members
import Stencil.Proofs.Expr.Printing

/-! # Indices and lengths

Which indices of a string or an array hold something, against the number that it answers for its
length. The two are counted in different ways: an index counts the items of an array or the
characters of a string, and a length the items of an array or the UTF-16 code units of a string.
-/

namespace Stencil.Text

/-- Each character counts once, and each one beyond the basic plane once more. -/
theorem length16_eq (cs : List Char) :
    length16 cs = cs.length + cs.countP fun c => 0x10000 ≤ c.toNat := by
  induction cs with
  | nil => rfl
  | cons c cs ih =>
    have hcons : length16 (c :: cs) = units16 c + length16 cs := rfl
    rw [hcons, ih, units16, List.length_cons, List.countP_cons]
    by_cases hc : c.toNat < 0x10000
    · simp only [hc, if_true, not_le.2 hc, decide_false, Bool.false_eq_true, if_false]
      omega
    · simp only [hc, if_false, not_lt.1 hc, decide_true, if_true]
      omega

/-- Only texts of the basic plane have as many code units as characters. -/
theorem length16_eq_length_iff (cs : List Char) :
    length16 cs = cs.length ↔ ∀ c ∈ cs, c.toNat < 0x10000 := by
  rw [length16_eq, Nat.add_eq_left, List.countP_eq_zero]
  simp

theorem length_le_length16 (cs : List Char) : cs.length ≤ length16 cs := by
  rw [length16_eq]
  exact Nat.le_add_right _ _

end Stencil.Text

namespace Stencil.Data

variable {key : String} {i n : ℕ}

/-- The key is a whole number in decimal. -/
def IsIndex (key : String) (i : ℕ) : Prop := Decimal.natural? key.toList = some i

instance : Decidable (IsIndex key i) :=
  inferInstanceAs (Decidable (Decimal.natural? key.toList = some i))

theorem isIndex_toString (i : ℕ) : IsIndex (toString i) i := by
  have hdigits : (toString i).toList = Nat.toDigits 10 i := by simp
  rw [IsIndex, Decimal.natural?_eq_some_iff, hdigits]
  refine ⟨Nat.toDigits_ne_nil, fun c hc => ?_, Nat.ofDigitChars_ten_toDigits⟩
  exact Nat.isDigit_of_mem_toDigits (by decide) (by decide) hc

theorem IsIndex.index?_eq (h : IsIndex key i) :
    index? key = if i ≤ indexLimit then some i else none := by
  have hdigits := (Decimal.natural?_eq_some_iff.1 h).2.1
  rw [IsIndex] at h
  simp only [index?]
  split
  next rest hkey => exact absurd (hdigits '+' (by simp [hkey])) (by decide)
  next => simp [h, Option.filter]

/-- An index that a key cannot name is beyond the end of a list anyway. -/
theorem IsIndex.bind_getElem? {α : Type} (h : IsIndex key i) {xs : List α}
    (hxs : xs.length ≤ indexLimit) : (index? key).bind (xs[·]?) = xs[i]? := by
  rw [h.index?_eq]
  split
  · rfl
  · rw [List.getElem?_eq_none (by omega)]
    rfl

theorem le_indexLimit (h : n < 2 ^ 53) : n ≤ indexLimit := by
  rw [indexLimit]
  omega

theorem IsIndex.ne_lengthKey (h : IsIndex key i) : key ≠ lengthKey := by
  rintro rfl
  have hdigits := (Decimal.natural?_eq_some_iff.1 h).2.1
  exact absurd (hdigits 'l' (by decide)) (by decide)

end Stencil.Data

namespace Stencil.Expr.Operand

open Stencil.Data (Value IsIndex)

variable {a : Operand} {s : String} {items : List Value} {key : String} {i m n : ℕ}

/-- The operand holds something under the key. -/
def HasAt (a : Operand) (key : String) : Prop :=
  ∃ b, a.member key = .ok b ∧ b ≠ undefined

/-- The length of the operand is a number, and the indices below it are those that hold something.
-/
def IndexingAgrees (a : Operand) : Prop :=
  ∃ x r, a.member Data.lengthKey = .ok (number x) ∧ Decimal.rational? x = some r ∧
    ∀ (i : ℕ) (key : String), IsIndex key i → (a.HasAt key ↔ (i : ℚ) < r)

/-- What stands at the first `k` indices, joined with `+` behind the empty string. -/
def joined (a : Operand) (k : ℕ) : Except EvalError Operand :=
  (List.range k).foldlM (fun b i => (a.member (toString i)).map b.plus) (string "")

/-- What stands at the indices below its length, joined, is the string itself. -/
def ReadsBack (s : String) : Prop :=
  ∃ (x : Float) (k : ℕ), (string s).member Data.lengthKey = .ok (number x) ∧
    Decimal.rational? x = some k ∧ (string s).joined k = .ok (string s)

/-! ## Reads at an index -/

theorem member_string_index (h : IsIndex key i) (hs : s.toList.length ≤ Data.indexLimit) :
    (string s).member key = .ok (charAt s i) := by
  rw [member, if_neg h.ne_lengthKey, h.index?_eq]
  by_cases hi : i ≤ Data.indexLimit
  · rw [if_pos hi]
  · rw [if_neg hi, charAt, List.getElem?_eq_none (by omega)]

theorem member_array_index (h : IsIndex key i) (hitems : items.length ≤ Data.indexLimit) :
    (array items).member key = .ok ((items[i]?.map ofValue).getD undefined) := by
  rw [member, Value.member?, h.bind_getElem? hitems]
  cases items[i]? with
  | some v => rfl
  | none => simp [lengthMember, Value.length?, h.ne_lengthKey]

theorem ofValue_ne_undefined (v : Value) : ofValue v ≠ undefined := by
  cases v <;> simp [ofValue]

/-- A read that comes to an entry of a list holds something just below the length of the list. -/
theorem hasAt_iff_lt {α : Type} {xs : List α} {f : α → Operand} (hf : ∀ x, f x ≠ undefined)
    (h : a.member key = .ok ((xs[i]?.map f).getD undefined)) : a.HasAt key ↔ i < xs.length := by
  simp only [HasAt, h, Except.ok.injEq, exists_eq_left']
  rcases lt_or_ge i xs.length with hi | hi
  · simp [hi, hf]
  · simp [hi]

theorem hasAt_string_iff (h : IsIndex key i) (hs : s.toList.length ≤ Data.indexLimit) :
    (string s).HasAt key ↔ i < s.toList.length := by
  refine hasAt_iff_lt (f := fun c => string c.toString) (by simp) ?_
  rw [member_string_index h hs, charAt]
  cases s.toList[i]? <;> rfl

theorem hasAt_array_iff (h : IsIndex key i) (hitems : items.length ≤ Data.indexLimit) :
    (array items).HasAt key ↔ i < items.length :=
  hasAt_iff_lt ofValue_ne_undefined (member_array_index h hitems)

/-! ## Indices against the length -/

theorem member_array_length :
    (array items).member Data.lengthKey = .ok (number (Float.ofNat items.length)) :=
  member_ofValue_length (v := .array items) rfl rfl

theorem member_string_length :
    (string s).member Data.lengthKey = .ok (number (Float.ofNat (Text.length16 s.toList))) :=
  member_ofValue_length (v := .string s) rfl rfl

/-- With `n` places and `m` as its length, an operand agrees with itself only if `m` is `n`. -/
theorem indexingAgrees_iff_eq (hm : m < 2 ^ 53)
    (hlength : a.member Data.lengthKey = .ok (number (Float.ofNat m)))
    (hplaces : ∀ (i : ℕ) (key : String), IsIndex key i → (a.HasAt key ↔ i < n)) :
    a.IndexingAgrees ↔ m = n := by
  constructor
  · rintro ⟨x, r, hx, hr, hbelow⟩
    obtain rfl : Float.ofNat m = x := by simpa [hlength] using hx
    obtain rfl : (m : ℚ) = r := by simpa [Decimal.rational?_ofNat hm] using hr
    -- each of the two numbers is an index itself, and not one below itself
    have hsame : ∀ i : ℕ, i < n ↔ i < m := fun i => by
      rw [← hplaces i _ (Data.isIndex_toString i), hbelow i _ (Data.isIndex_toString i),
        Nat.cast_lt]
    exact le_antisymm (not_lt.1 fun h => (hsame n).2 h |>.false)
      (not_lt.1 fun h => (hsame m).1 h |>.false)
  · rintro rfl
    refine ⟨_, m, hlength, Decimal.rational?_ofNat hm, fun i key h => ?_⟩
    rw [hplaces i key h, Nat.cast_lt]

/-! ## Reads one after another -/

theorem string_plus (t : String) (b : Operand) : (string t).plus b = string (t ++ b.spelled) := by
  simp [plus, isTextual, spelled]

/-- Reads behind the end of a string add the word for a missing value. -/
theorem joined_string (hs : s.toList.length ≤ Data.indexLimit) (k : ℕ) :
    (string s).joined k = .ok (string (String.ofList (s.toList.take k ++
      (List.replicate (k - s.toList.length) "undefined".toList).flatten))) := by
  induction k with
  | zero => simp [joined, pure, Except.pure]
  | succ k ih =>
    have hstep : (string s).joined (k + 1) =
        (string s).joined k >>= fun b => ((string s).member (toString k)).map b.plus := by
      simp [joined, List.range_succ]
    rw [hstep, ih, member_string_index (Data.isIndex_toString k) hs]
    show Except.ok (Operand.plus _ (charAt s k)) = _
    rw [string_plus, List.take_add_one, charAt]
    -- one more character up to the end of the string, and one more word behind it
    rcases lt_or_ge k s.toList.length with hk | hk
    · have hbelow : k - s.toList.length = 0 ∧ k + 1 - s.toList.length = 0 := by omega
      simp [hbelow, List.getElem?_eq_getElem hk, spelled, ← String.toList_inj]
    · have hbeyond : k + 1 - s.toList.length = k - s.toList.length + 1 := by omega
      simp [hbeyond, List.getElem?_eq_none hk, spelled, List.replicate_succ', ← String.toList_inj]

theorem joined_length (hs : s.toList.length ≤ Data.indexLimit) :
    (string s).joined s.toList.length = .ok (string s) := by
  simp [joined_string hs]

theorem readsBack_iff_eq (hs : Text.length16 s.toList < 2 ^ 53) :
    ReadsBack s ↔ Text.length16 s.toList = s.toList.length := by
  have hle := Text.length_le_length16 s.toList
  have hlimit := Data.le_indexLimit (hle.trans_lt hs)
  constructor
  · rintro ⟨x, k, hx, hk, hjoined⟩
    obtain rfl : Float.ofNat (Text.length16 s.toList) = x := by
      simpa [member_string_length] using hx
    obtain rfl : Text.length16 s.toList = k := by
      simpa [Decimal.rational?_ofNat hs] using hk
    have htext : s.toList ++ (List.replicate (Text.length16 s.toList - s.toList.length)
        "undefined".toList).flatten = s.toList := by
      simpa [joined_string hlimit, List.take_of_length_le hle, ← String.toList_inj] using hjoined
    have hnone := congrArg List.length (List.append_right_eq_self.1 htext)
    simp at hnone
    omega
  · intro h
    refine ⟨_, _, member_string_length, Decimal.rational?_ofNat hs, ?_⟩
    rw [h, joined_length hlimit]

/-! ## Strings and arrays -/

theorem indexingAgrees_array (hitems : items.length < 2 ^ 53) : (array items).IndexingAgrees :=
  (indexingAgrees_iff_eq hitems member_array_length fun _ _ h =>
    hasAt_array_iff h (Data.le_indexLimit hitems)).2 rfl

theorem indexingAgrees_string_iff (hs : Text.length16 s.toList < 2 ^ 53) :
    (string s).IndexingAgrees ↔ ∀ c ∈ s.toList, c.toNat < 0x10000 := by
  have hlimit := Data.le_indexLimit ((Text.length_le_length16 s.toList).trans_lt hs)
  rw [indexingAgrees_iff_eq hs member_string_length fun _ _ h => hasAt_string_iff h hlimit,
    Text.length16_eq_length_iff]

/-- Arrays hold an item at each index below their length and at no other. Strings do so with their
characters, and the reads below their length give them back, exactly if all of their characters are
in the basic plane. Any string is given back by the reads up to its last character. Lengths from
2 ^ 53 on, which no memory holds, are left out: their doubles may be other numbers. -/
theorem indexing_agrees_iff (items : List Value) (s : String) (hitems : items.length < 2 ^ 53)
    (hs : Text.length16 s.toList < 2 ^ 53) :
    ((array items).IndexingAgrees ∧ ∀ (i : ℕ) (key : String), IsIndex key i →
      (array items).member key = .ok ((items[i]?.map ofValue).getD undefined)) ∧
    ((string s).IndexingAgrees ↔ ∀ c ∈ s.toList, c.toNat < 0x10000) ∧
    (ReadsBack s ↔ ∀ c ∈ s.toList, c.toNat < 0x10000) ∧
    (string s).joined s.toList.length = .ok (string s) := by
  refine ⟨⟨indexingAgrees_array hitems, fun i key h => ?_⟩, indexingAgrees_string_iff hs, ?_, ?_⟩
  · exact member_array_index h (Data.le_indexLimit hitems)
  · rw [readsBack_iff_eq hs, Text.length16_eq_length_iff]
  · exact joined_length (Data.le_indexLimit ((Text.length_le_length16 s.toList).trans_lt hs))

/-- An array with a null item, a string inside the basic plane, and one that leaves it. -/
theorem indexing_agrees_iff_null_item :
    ((array [.null, .string "b"]).IndexingAgrees ∧
      (array [.null, .string "b"]).member "0" = .ok null) ∧
    (string "é").IndexingAgrees ∧ ReadsBack "é" ∧ ¬ ReadsBack "😀b" := by
  obtain ⟨⟨hagrees, hitem⟩, hplain, hback, -⟩ :=
    indexing_agrees_iff [.null, .string "b"] "é" (by decide) (by decide)
  obtain ⟨-, -, hbeyond, -⟩ := indexing_agrees_iff [] "😀b" (by decide) (by decide)
  exact ⟨⟨hagrees, hitem 0 "0" (by decide)⟩, hplain.2 (by simp),
    hback.2 (by simp), fun h => absurd (hbeyond.1 h) (by simp)⟩

/-- A character beyond the basic plane makes two units of the length, but is at one index. -/
theorem not_indexingAgrees_beyond_plane :
    (string "😀b").member Data.lengthKey = .ok (number (Float.ofNat 3)) ∧
      (string "😀b").member "2" = .ok undefined ∧
      ¬ (string "😀b").IndexingAgrees ∧ ¬ ReadsBack "😀b" := by
  have hlength : Text.length16 "😀b".toList = 3 := by decide
  have hread : Text.length16 "😀b".toList < 2 ^ 53 := by decide
  have hindex : IsIndex "2" 2 := by decide
  refine ⟨hlength ▸ member_string_length, ?_, fun h => ?_, fun h => ?_⟩
  · exact member_string_index hindex (by decide)
  · exact absurd ((indexingAgrees_string_iff hread).1 h) (by simp)
  · exact absurd ((readsBack_iff_eq hread).1 h) (by decide)

end Stencil.Expr.Operand
