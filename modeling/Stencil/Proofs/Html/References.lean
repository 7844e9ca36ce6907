import Mathlib
import Stencil.Html.Serializer
import Stencil.Proofs.Html.Tokens
namespace Stencil.Html

/-! # References by name

The names are words of letters and digits, and no two of them are the same. So the decoder finds in
a text the longest name at its front, a name that has its semicolon is never a part of a longer one,
and it stands for its characters whatever follows it.
-/

/-! ## Letters as bytes -/

/-- The numbers of the bytes of a string. -/
def bytes (s : String) : List Nat :=
  s.toByteArray.data.toList.map UInt8.toNat

theorem map_utf8EncodeChar {c : Char} (h : ∀ b ∈ String.utf8EncodeChar c, b.toNat < 128) :
    (String.utf8EncodeChar c).map (fun b => Char.ofNat b.toNat) = [c] := by
  unfold String.utf8EncodeChar at h ⊢
  dsimp only at h ⊢
  by_cases hc : c.val.toNat ≤ 127
  · have hbyte : (UInt8.ofNat c.val.toNat).toNat = c.toNat := by
      rw [UInt8.toNat_ofNat']
      exact Nat.mod_eq_of_lt (by omega)
    rw [if_pos hc, List.map_singleton, hbyte, Char.ofNat_toNat]
  · -- the first of several bytes is at least 192
    rw [if_neg hc] at h
    split_ifs at h
    all_goals
      have hfirst := h _ (List.mem_cons_self ..)
      rw [UInt8.toNat_ofNat'] at hfirst
      omega

/-- The characters of a string are its bytes, if these are below 128. -/
theorem toList_eq_map_bytes {s : String} (h : ∀ b ∈ bytes s, b < 128) :
    s.toList = (bytes s).map Char.ofNat := by
  have hencoded (cs : List Char)
      (hcs : ∀ b ∈ cs.flatMap String.utf8EncodeChar, b.toNat < 128) :
      (cs.flatMap String.utf8EncodeChar).map (fun b => Char.ofNat b.toNat) = cs := by
    induction cs with
    | nil => rfl
    | cons c cs ih =>
      rw [List.flatMap_cons, List.forall_mem_append] at hcs
      rw [List.flatMap_cons, List.map_append, map_utf8EncodeChar hcs.1, ih hcs.2]
      rfl
  have hbytes : s.toByteArray.data.toList = s.toList.flatMap String.utf8EncodeChar := by
    conv_lhs => rw [← String.ofList_toList (s := s)]
    rw [String.toByteArray_ofList, List.utf8Encode, List.data_toByteArray]
  rw [bytes, hbytes, List.map_map]
  rw [bytes, hbytes, List.forall_mem_map] at h
  exact (hencoded s.toList h).symm

/-! ## The table of names -/

/-- The byte is a digit or a letter. -/
def isWordByte (b : Nat) : Bool :=
  (48 ≤ b && b ≤ 57) || (65 ≤ b && b ≤ 90) || (97 ≤ b && b ≤ 122)

set_option maxRecDepth 10000 in
/-- The names stand in the order of their bytes, which are digits and letters. The kernel comes by
the bytes of a string much faster than by its characters. -/
theorem characterNames_inOrder :
    (characterNames.map fun n => bytes n.text).IsChain (· < ·) ∧
      ∀ n ∈ characterNames, bytes n.text ≠ [] ∧ (bytes n.text).all isWordByte := by
  decide +kernel

theorem isAlphanum_of_isWordByte {b : Nat} (h : isWordByte b = true) :
    (Char.ofNat b).isAlphanum = true := by
  have hb : b < 128 := by
    simp [isWordByte] at h
    omega
  have hall : ∀ b < 128, isWordByte b = true → (Char.ofNat b).isAlphanum = true := by decide
  exact hall b hb h

/-- A name has letters and digits only, and at least one of them. -/
theorem isAlphanum_of_mem_text {n : CharacterName} (h : n ∈ characterNames) :
    n.text.toList ≠ [] ∧ ∀ c ∈ n.text.toList, c.isAlphanum = true := by
  obtain ⟨hne, hword⟩ := characterNames_inOrder.2 n h
  rw [List.all_eq_true] at hword
  have hchars : n.text.toList = (bytes n.text).map Char.ofNat :=
    toList_eq_map_bytes fun b hb => by
      have := hword b hb
      simp [isWordByte] at this
      omega
  rw [hchars, List.forall_mem_map]
  exact ⟨by simpa using hne, fun b hb => isAlphanum_of_isWordByte (hword b hb)⟩

/-- No two names have the same letters. -/
theorem nodup_characterNames : (characterNames.map CharacterName.text).Nodup := by
  have hsorted := List.isChain_iff_pairwise.1 characterNames_inOrder.1
  have hbytes : ((characterNames.map CharacterName.text).map bytes).Nodup := by
    rw [List.map_map]
    exact hsorted.imp fun h => ne_of_lt h
  exact hbytes.of_map bytes

theorem semicolon_notMem_text {n : CharacterName} (h : n ∈ characterNames) :
    ';' ∉ n.text.toList :=
  fun hmem => absurd ((isAlphanum_of_mem_text h).2 _ hmem) (by decide)

/-! ## Spellings -/

variable {e e' : List Char × List Char} {n : CharacterName} {cs : List Char}

/-- The spelling of a name that ends in its semicolon. -/
def CharacterName.closed (n : CharacterName) : List Char :=
  n.text.toList ++ [';']

theorem mem_namedReferences_iff : e ∈ namedReferences ↔
    ∃ n ∈ characterNames, e = (n.closed, n.chars) ∨
      n.isOpen = true ∧ e = (n.text.toList, n.chars) := by
  simp only [namedReferences, List.mem_append, List.mem_map, List.mem_filter]
  constructor
  · rintro (⟨n, hn, rfl⟩ | ⟨n, ⟨hn, hopen⟩, rfl⟩)
    · exact ⟨n, hn, .inl rfl⟩
    · exact ⟨n, hn, .inr ⟨hopen, rfl⟩⟩
  · rintro ⟨n, hn, rfl | ⟨hopen, rfl⟩⟩
    · exact .inl ⟨n, hn, rfl⟩
    · exact .inr ⟨n, ⟨hn, hopen⟩, rfl⟩

/-- Of the 2125 names 106 stand without their semicolon too. -/
example : characterNames.length = 2125 ∧ namedReferences.length = 2231 := by decide +kernel

theorem closed_mem_namedReferences (h : n ∈ characterNames) :
    (n.closed, n.chars) ∈ namedReferences :=
  mem_namedReferences_iff.2 ⟨n, h, .inl rfl⟩

theorem spelling_ne_nil (h : e ∈ namedReferences) : e.1 ≠ [] := by
  obtain ⟨n, hn, rfl | ⟨-, rfl⟩⟩ := mem_namedReferences_iff.1 h
  · simp [CharacterName.closed]
  · exact (isAlphanum_of_mem_text hn).1

/-- A spelling stands for the characters of one name only. -/
theorem eq_of_spelling_eq (h : e ∈ namedReferences) (h' : e' ∈ namedReferences)
    (hspelling : e.1 = e'.1) : e = e' := by
  have hsame {n m : CharacterName} (hn : n ∈ characterNames) (hm : m ∈ characterNames)
      (htext : n.text.toList = m.text.toList) : n = m :=
    List.inj_on_of_nodup_map nodup_characterNames hn hm (String.toList_inj.1 htext)
  -- only the spellings with a semicolon have one
  have hclosed {n m : CharacterName} (hm : m ∈ characterNames)
      (hends : n.closed = m.text.toList) : False :=
    semicolon_notMem_text hm (hends ▸ List.mem_append_right _ (List.mem_singleton_self _))
  obtain ⟨n, hn, rfl | ⟨-, rfl⟩⟩ := mem_namedReferences_iff.1 h
  · obtain ⟨m, hm, rfl | ⟨-, rfl⟩⟩ := mem_namedReferences_iff.1 h'
    · rw [hsame hn hm (List.append_cancel_right hspelling)]
    · exact (hclosed hm hspelling).elim
  · obtain ⟨m, hm, rfl | ⟨-, rfl⟩⟩ := mem_namedReferences_iff.1 h'
    · exact (hclosed hn hspelling.symm).elim
    · rw [hsame hn hm hspelling]

theorem beginsName_iff : beginsName cs = true ↔ ∃ e ∈ namedReferences, cs <+: e.1 := by
  simp [beginsName]

/-- Behind a semicolon no name goes on. -/
theorem beginsName_closed_append (n : CharacterName) (d : Char) :
    beginsName (n.closed ++ [d]) = false := by
  rw [Bool.eq_false_iff]
  intro h
  obtain ⟨e, he, hfront⟩ := beginsName_iff.1 h
  -- the semicolon would stand inside of a word
  have hmem {m : CharacterName} (hm : m ∈ characterNames)
      (hfront : n.closed <+: m.text.toList) : False :=
    semicolon_notMem_text hm (hfront.subset (List.mem_append_right _ (List.mem_singleton_self _)))
  obtain ⟨m, hm, rfl | ⟨-, rfl⟩⟩ := mem_namedReferences_iff.1 he
  · refine hmem hm (List.prefix_of_prefix_length_le ((List.prefix_append _ _).trans hfront)
      (List.prefix_append _ _) ?_)
    have hlength := hfront.length_le
    simp only [CharacterName.closed, List.length_append, List.length_singleton] at hlength ⊢
    omega
  · exact hmem hm ((List.prefix_append _ _).trans hfront)

/-! ## The longest name -/

/-- Of the spellings in a list, the longest one at the front of a text. -/
structure IsLongest (l : List (List Char × List Char)) (cs : List Char)
    (best : Option (List Char × List Char)) : Prop where
  mem : ∀ e, best = some e → e ∈ l ∧ e.1 <+: cs
  longest : ∀ e ∈ l, e.1 <+: cs → e.1.length ≤ (best.map (·.1.length)).getD 0

theorem isLongest_longestName? (cs : List Char) :
    IsLongest namedReferences cs (longestName? cs) := by
  unfold longestName?
  -- on the list from its end: the last spelling is taken if it is longer than the best before it
  induction namedReferences using List.reverseRecOn with
  | nil => exact ⟨by simp, by simp⟩
  | append_singleton l e ih =>
    rw [List.foldl_append, List.foldl_cons, List.foldl_nil]
    split
    · next h =>
      rw [Bool.and_eq_true, List.isPrefixOf_iff_prefix, decide_eq_true_eq] at h
      refine ⟨?_, fun e' he' hfront => ?_⟩
      · rintro _ ⟨⟩
        exact ⟨by simp, h.1⟩
      · rcases List.mem_append.1 he' with he' | he'
        · exact (ih.longest e' he' hfront).trans h.2.le
        · rw [List.mem_singleton.1 he']
          exact le_rfl
    · next h =>
      rw [Bool.and_eq_true, List.isPrefixOf_iff_prefix, decide_eq_true_eq, not_and, not_lt] at h
      refine ⟨fun e' he' => ?_, fun e' he' hfront => ?_⟩
      · exact (ih.mem e' he').imp_left (List.mem_append_left _)
      · rcases List.mem_append.1 he' with he' | he'
        · exact ih.longest e' he' hfront
        · rw [List.mem_singleton.1 he'] at hfront ⊢
          exact h hfront

/-- The decoder finds the longest spelling at the front of a text. -/
theorem longestName?_eq_some_iff : longestName? cs = some e ↔
    e ∈ namedReferences ∧ e.1 <+: cs ∧
      ∀ e' ∈ namedReferences, e'.1 <+: cs → e'.1.length ≤ e.1.length := by
  have hlongest := isLongest_longestName? cs
  constructor
  · intro h
    rw [h] at hlongest
    exact ⟨(hlongest.mem e rfl).1, (hlongest.mem e rfl).2, hlongest.longest⟩
  · rintro ⟨he, hfront, hmax⟩
    have hlength := hlongest.longest e he hfront
    cases hbest : longestName? cs with
    | none =>
      rw [hbest] at hlength
      exact absurd (List.length_eq_zero_iff.1 (Nat.le_zero.1 hlength)) (spelling_ne_nil he)
    | some b =>
      rw [hbest] at hlength
      obtain ⟨hb, hbfront⟩ := hlongest.mem b hbest
      have hspelling : b.1 = e.1 :=
        (List.prefix_of_prefix_length_le hbfront hfront (hmax b hb hbfront)).eq_of_length_le
          hlength
      rw [eq_of_spelling_eq hb he hspelling]

/-- The machine takes characters as long as some name goes on with them. So the longest name at the
front of what it has taken is the longest one at the front of all that is still to be read. -/
theorem longestName?_append {c : Char} (h : beginsName (cs ++ [c]) = false) (rest : List Char) :
    longestName? (cs ++ c :: rest) = longestName? cs := by
  have hfront : ∀ e ∈ namedReferences, e.1 <+: cs ++ c :: rest ↔ e.1 <+: cs := by
    intro e he
    refine ⟨fun hlong => ?_, fun hshort => hshort.trans (List.prefix_append _ _)⟩
    have hseen : cs ++ [c] <+: cs ++ c :: rest := ⟨rest, by simp⟩
    -- a spelling at the front of the text that is none at the front of `cs` would go on with `c`
    rcases List.prefix_or_prefix_of_prefix hlong hseen with hwithin | hbeyond
    · rcases List.prefix_concat_iff.1 hwithin with heq | hwithin
      · rw [beginsName_iff.2 ⟨e, he, heq ▸ List.prefix_rfl⟩] at h
        cases h
      · exact hwithin
    · rw [beginsName_iff.2 ⟨e, he, hbeyond⟩] at h
      cases h
  refine Option.ext fun e => ?_
  rw [longestName?_eq_some_iff, longestName?_eq_some_iff]
  constructor
  · rintro ⟨he, hlong, hmax⟩
    exact ⟨he, (hfront e he).1 hlong, fun e' he' h' => hmax e' he' ((hfront e' he').2 h')⟩
  · rintro ⟨he, hshort, hmax⟩
    exact ⟨he, (hfront e he).2 hshort, fun e' he' h' => hmax e' he' ((hfront e' he').1 h')⟩

/-- A name with its semicolon stands for its characters, in text and in values. -/
theorem decodeName_closed (h : n ∈ characterNames) (inValue : Bool) (next : Option Char) :
    decodeName inValue n.closed next = n.chars := by
  have hself : longestName? n.closed = some (n.closed, n.chars) :=
    longestName?_eq_some_iff.2 ⟨closed_mem_namedReferences h, List.prefix_rfl,
      fun _ _ hfront => hfront.length_le⟩
  have hends : n.closed.getLast? = some ';' := by simp [CharacterName.closed]
  unfold decodeName
  rw [hself]
  simp [hends]

/-! ## References in a text -/

namespace Tokenizer

/-- What is read as a reference to the characters, whatever follows it. -/
structure IsReference (name cs : List Char) : Prop where
  nonempty : name ≠ []
  reads : ∀ target r run, silently ⟨.reference (.name []) target, r, run⟩ name =
    some ⟨.reference (.name name) target, r, run⟩
  ends : ∀ d, beginsName (name ++ [d]) = false
  decodes : ∀ inValue next, decodeName inValue name next = cs

/-- The machine goes on as long as it reads the letters of a spelling. -/
theorem silently_spelling (h : e ∈ namedReferences) (hhash : '#' ∉ e.1) (target : Target)
    (r : Reading) (run : List Char) {seen cs : List Char} (hsplit : seen ++ cs = e.1) :
    silently ⟨.reference (.name seen) target, r, run⟩ cs =
      some ⟨.reference (.name e.1) target, r, run⟩ := by
  induction cs generalizing seen with
  | nil =>
    rw [← hsplit, List.append_nil]
    rfl
  | cons c cs ih =>
    have hmore : (seen ++ [c]) ++ cs = e.1 := by simpa using hsplit
    have hc : c ≠ '#' := by
      rintro rfl
      exact hhash (hsplit ▸ List.mem_append_right _ (List.mem_cons_self ..))
    have hbegins : beginsName (seen ++ [c]) = true :=
      beginsName_iff.2 ⟨e, h, hmore ▸ List.prefix_append _ _⟩
    have hstep : step ⟨.reference (.name seen) target, r, run⟩ c =
        (⟨.reference (.name (seen ++ [c])) target, r, run⟩, []) := by
      simp [step, referenceStep, hc, hbegins, goto]
    rw [silently_cons hstep, ih hmore]

/-- A name with its semicolon is read as its characters. -/
theorem isReference_closed (h : n ∈ characterNames) : IsReference n.closed n.chars where
  nonempty := by simp [CharacterName.closed]
  reads target r run := by
    have hhash : '#' ∉ n.closed := by
      rw [CharacterName.closed, List.mem_append, List.mem_singleton]
      rintro (htext | hsemicolon)
      · exact absurd ((isAlphanum_of_mem_text h).2 _ htext) (by decide)
      · exact absurd hsemicolon (by decide)
    exact silently_spelling (closed_mem_namedReferences h) hhash target r run (List.nil_append _)
  ends := beginsName_closed_append n
  decodes := decodeName_closed h

theorem isReference_of_mem {name cs : List Char} (group : List CharacterName) (n : CharacterName)
    (hgroup : group ∈ nameGroups) (h : n ∈ group) (hname : n.closed = name) (hcs : n.chars = cs) :
    IsReference name cs := by
  rw [← hname, ← hcs]
  exact isReference_closed (List.mem_flatten_of_mem hgroup h)

theorem isReference_amp : IsReference ['a', 'm', 'p', ';'] ['&'] :=
  isReference_of_mem smallNamesAtoB ⟨"amp", [0x26], true⟩ (by simp [nameGroups])
    (by decide +kernel) (by decide) rfl

theorem isReference_lt : IsReference ['l', 't', ';'] ['<'] :=
  isReference_of_mem smallNamesLtoM ⟨"lt", [0x3C], true⟩ (by simp [nameGroups])
    (by decide +kernel) (by decide) rfl

theorem isReference_gt : IsReference ['g', 't', ';'] ['>'] :=
  isReference_of_mem smallNamesEtoG ⟨"gt", [0x3E], true⟩ (by simp [nameGroups])
    (by decide +kernel) (by decide) rfl

theorem isReference_quot : IsReference ['q', 'u', 'o', 't', ';'] ['"'] :=
  isReference_of_mem smallNamesOtoQ ⟨"quot", [0x22], true⟩ (by simp [nameGroups])
    (by decide +kernel) (by decide) rfl

theorem isReference_nbsp : IsReference ['n', 'b', 's', 'p', ';'] [noBreakSpace] :=
  isReference_of_mem smallNamesN ⟨"nbsp", [0xA0], true⟩ (by simp [nameGroups])
    (by decide +kernel) (by decide) rfl

/-- A reference stands for its characters. -/
theorem tokens_reference {name cs : List Char} (h : IsReference name cs)
    (target : Target) (r : Reading) (run rest : List Char) :
    tokens ⟨.reference (.name []) target, r, run⟩ (name ++ rest) =
      (give ⟨.text, r, run⟩ target cs).tokens rest := by
  rw [tokens_of_silently (h.reads target r run)]
  -- what the reference stands for is only known at the next character, or at the end
  cases rest with
  | nil =>
    cases target with
    | text =>
      show pending ⟨.text, r, (decodeName false name none).reverse ++ run⟩ = _
      rw [h.decodes]
      rfl
    | value tag key quote value => rfl
  | cons d rest =>
    have hstep : step ⟨.reference (.name name) target, r, run⟩ d =
        step (give ⟨.text, r, run⟩ target cs) d := by
      have hname : ¬ (decide (name = []) && d == '#') = true := by simp [h.nonempty]
      simp only [step, referenceStep]
      rw [if_neg hname, h.ends d]
      simp only [Bool.false_eq_true, if_false, h.decodes]
      cases target <;> rfl
    rw [tokens, tokens, next, next, hstep]

end Tokenizer

end Stencil.Html
