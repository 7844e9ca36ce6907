import Stencil.Proofs.Html.Attributes
namespace Stencil

/-! # Classes

The classes of an element are the words of one attribute. Writing them out and reading them again
gives the same classes only for texts that are words: a text with a space in it is never a class,
nor is the empty one.
-/

namespace Text

/-- A text without markup space that is not empty. -/
def IsWord (cs : List Char) : Prop :=
  cs ≠ [] ∧ ∀ c ∈ cs, isMarkupSpace c = false

instance (cs : List Char) : Decidable (IsWord cs) :=
  decidable_of_iff ((!cs.isEmpty && cs.all (!isMarkupSpace ·)) = true) (by simp [IsWord])

theorem splitAtSpace_append {w : List Char} (hw : ∀ c ∈ w, isMarkupSpace c = false)
    (word rest : List Char) :
    splitAtSpace word (w ++ rest) = splitAtSpace (w.reverse ++ word) rest := by
  induction w generalizing word with
  | nil => rfl
  | cons c w ih =>
    rw [List.forall_mem_cons] at hw
    rw [List.cons_append, splitAtSpace, if_neg (by simp [hw.1]), ih hw.2, List.reverse_cons,
      List.append_assoc]
    rfl

/-- Words with one space between them are found again. -/
theorem splitAtSpace_intercalate {ws : List (List Char)} (hne : ws ≠ [])
    (hw : ∀ w ∈ ws, ∀ c ∈ w, isMarkupSpace c = false) :
    splitAtSpace [] ([' '].intercalate ws) = ws := by
  induction ws with
  | nil => exact absurd rfl hne
  | cons w ws ih =>
    rw [List.forall_mem_cons] at hw
    -- the first word is read up to the end of the text or up to the space behind it
    cases ws with
    | nil =>
      have h := splitAtSpace_append hw.1 [] []
      rw [List.append_nil, List.append_nil] at h
      rw [List.intercalate_singleton, h, splitAtSpace, List.reverse_reverse]
    | cons v vs =>
      rw [List.intercalate_cons_cons, List.append_assoc, splitAtSpace_append hw.1,
        List.singleton_append, splitAtSpace, if_pos (by decide), ih (by simp) hw.2, List.append_nil,
        List.reverse_reverse]

theorem markupWords_intercalate {ws : List (List Char)} (hw : ∀ w ∈ ws, IsWord w) :
    markupWords ([' '].intercalate ws) = ws := by
  unfold markupWords
  cases ws with
  | nil => rfl
  | cons w ws =>
    rw [splitAtSpace_intercalate (by simp) fun w hmem => (hw w hmem).2]
    refine List.filter_eq_self.2 ?_
    intro w hmem
    simpa using (hw w hmem).1

theorem noSpace_of_mem_splitAtSpace (cs : List Char) :
    ∀ word : List Char, (∀ c ∈ word, isMarkupSpace c = false) →
      ∀ w ∈ splitAtSpace word cs, ∀ c ∈ w, isMarkupSpace c = false := by
  induction cs with
  | nil =>
    intro word hword w hw c hc
    rw [splitAtSpace, List.mem_singleton] at hw
    rw [hw, List.mem_reverse] at hc
    exact hword c hc
  | cons x cs ih =>
    intro word hword w hw
    unfold splitAtSpace at hw
    split at hw
    · rcases List.mem_cons.1 hw with rfl | hw
      · exact fun c hc => hword c (List.mem_reverse.1 hc)
      · exact ih [] (by simp) w hw
    · next hx =>
      refine ih (x :: word) ?_ w hw
      exact List.forall_mem_cons.2 ⟨by simpa using hx, hword⟩

theorem isWord_of_mem_markupWords {cs w : List Char} (h : w ∈ markupWords cs) : IsWord w := by
  rcases List.mem_filter.1 h with ⟨hw, hne⟩
  exact ⟨by simpa using hne, noSpace_of_mem_splitAtSpace cs [] (by simp) w hw⟩

end Text

namespace Html.Element

open Stencil.Text (IsWord)

theorem mem_firsts {w : String} {ws : List String} :
    ∀ {seen : List String}, w ∈ firsts seen ws ↔ w ∈ ws ∧ w ∉ seen := by
  induction ws with
  | nil => simp [firsts]
  | cons v ws ih =>
    intro seen
    unfold firsts
    split
    · next hv =>
      rw [ih, List.mem_cons]
      constructor
      · exact fun h => ⟨Or.inr h.1, h.2⟩
      · rintro ⟨rfl | h, hs⟩
        · exact absurd hv hs
        · exact ⟨h, hs⟩
    · next hv =>
      rw [List.mem_cons, ih, List.mem_cons, List.mem_cons, not_or]
      constructor
      · rintro (rfl | ⟨h, hne, hs⟩)
        · exact ⟨Or.inl rfl, hv⟩
        · exact ⟨Or.inr h, hs⟩
      · rintro ⟨rfl | h, hs⟩
        · exact Or.inl rfl
        · by_cases hwv : w = v
          · exact Or.inl hwv
          · exact Or.inr ⟨h, hwv, hs⟩

theorem mem_distinctWords {w text : String} :
    w ∈ distinctWords text ↔ w.toList ∈ Text.markupWords text.toList := by
  rw [distinctWords, mem_firsts, List.mem_map]
  constructor
  · rintro ⟨⟨cs, hcs, rfl⟩, -⟩
    rwa [String.toList_ofList]
  · intro h
    exact ⟨⟨w.toList, h, String.ofList_toList⟩, by simp⟩

/-- The classes of an element are words. -/
theorem isWord_of_hasClass {e : Element} {w : String} (h : e.hasClass w = true) :
    IsWord w.toList := by
  rw [hasClass, List.contains_iff_mem, classes] at h
  split at h
  · exact Text.isWord_of_mem_markupWords (mem_distinctWords.1 h)
  · cases h

theorem isWord_of_mem_classes {e : Element} {w : String} (h : w ∈ e.classes) : IsWord w.toList :=
  isWord_of_hasClass (List.contains_iff_mem.2 h)

theorem nodup_firsts (ws : List String) : ∀ seen : List String, (firsts seen ws).Nodup := by
  induction ws with
  | nil => exact fun _ => List.nodup_nil
  | cons v ws ih =>
    intro seen
    unfold firsts
    split
    · exact ih seen
    · refine List.nodup_cons.2 ⟨?_, ih _⟩
      intro hv
      exact (mem_firsts.1 hv).2 List.mem_cons_self

/-- Of different words each one is a first one. -/
theorem firsts_eq_self {ws : List String} (hn : ws.Nodup) :
    ∀ {seen : List String}, (∀ w ∈ ws, w ∉ seen) → firsts seen ws = ws := by
  induction ws with
  | nil => exact fun _ => rfl
  | cons v ws ih =>
    intro seen hseen
    rw [List.nodup_cons] at hn
    rw [List.forall_mem_cons] at hseen
    have hrest : ∀ w ∈ ws, w ∉ v :: seen := by
      intro w hw
      rw [List.mem_cons, not_or]
      exact ⟨fun he => hn.1 (he ▸ hw), hseen.2 w hw⟩
    rw [firsts, if_neg hseen.1, ih hn.2 hrest]

theorem nodup_classes (e : Element) : e.classes.Nodup := by
  unfold classes
  split
  · exact nodup_firsts _ _
  · exact List.nodup_nil

/-! ## Attributes -/

theorem attr?_setAttr (e : Element) (name value other : String) :
    (e.setAttr name value).attr? other = if other = name then some value else e.attr? other :=
  Attributes.get?_set e.attrs name value other

theorem attr?_removeAttr (e : Element) (name other : String) :
    (e.removeAttr name).attr? other = if other = name then none else e.attr? other :=
  Attributes.get?_erase e.attrs name other

theorem attr?_addClass (e : Element) (token : String) {name : String} (h : name ≠ classKey) :
    (e.addClass token).attr? name = e.attr? name := by
  rw [addClass, setClasses, attr?_setAttr, if_neg h]

theorem attr?_removeClass (e : Element) (token : String) {name : String} (h : name ≠ classKey) :
    (e.removeClass token).attr? name = e.attr? name := by
  unfold removeClass
  split
  · rw [setClasses, attr?_setAttr, if_neg h]
  · rfl

/-! ## What is written and read again -/

theorem hasClass_of_attr?_none {e : Element} (h : e.attr? classKey = none) (token : String) :
    e.hasClass token = false := by
  rw [hasClass, classes, h]
  rfl

theorem hasAttr_of_hasClass {e : Element} {token : String} (h : e.hasClass token = true) :
    e.hasAttr classKey = true := by
  by_contra hattr
  have hnone : e.attr? classKey = none := by simpa [hasAttr, Attributes.has, attr?] using hattr
  rw [hasClass_of_attr?_none hnone] at h
  cases h

theorem markupWords_setClasses {tokens : List String} (h : ∀ w ∈ tokens, IsWord w.toList) :
    (Text.markupWords (" ".intercalate tokens).toList).map String.ofList = tokens := by
  have hwords : ∀ w ∈ tokens.map String.toList, IsWord w := by
    intro w hw
    rcases List.mem_map.1 hw with ⟨v, hv, rfl⟩
    exact h v hv
  rw [String.toList_intercalate, show " ".toList = [' '] from rfl,
    Text.markupWords_intercalate hwords, List.map_map]
  exact (List.map_congr_left fun w _ => String.ofList_toList).trans (List.map_id _)

/-- Different words with one space between them are read again. -/
theorem distinctWords_intercalate {tokens : List String} (h : ∀ w ∈ tokens, IsWord w.toList)
    (hn : tokens.Nodup) : distinctWords (" ".intercalate tokens) = tokens := by
  rw [distinctWords, markupWords_setClasses h]
  exact firsts_eq_self hn (by simp)

/-- Different words that are written as classes are the classes. -/
theorem classes_setClasses {e : Element} {tokens : List String}
    (h : ∀ w ∈ tokens, IsWord w.toList) (hn : tokens.Nodup) :
    (e.setClasses tokens).classes = tokens := by
  rw [classes, setClasses, attr?_setAttr, if_pos rfl]
  exact distinctWords_intercalate h hn

theorem hasClass_setClasses {e : Element} {tokens : List String}
    (h : ∀ w ∈ tokens, IsWord w.toList) (token : String) :
    (e.setClasses tokens).hasClass token = tokens.contains token := by
  have hmem : token ∈ (e.setClasses tokens).classes ↔ token ∈ tokens := by
    rw [classes, setClasses, attr?_setAttr, if_pos rfl]
    simp only
    rw [distinctWords, mem_firsts, markupWords_setClasses h]
    simp
  rw [hasClass, Bool.eq_iff_iff, List.contains_iff_mem, List.contains_iff_mem, hmem]

theorem classes_addClass (e : Element) {token : String} (h : IsWord token.toList) :
    (e.addClass token).classes =
      if e.hasClass token then e.classes else e.classes ++ [token] := by
  unfold addClass
  refine classes_setClasses ?_ ?_
  · intro w hw
    split at hw
    · exact isWord_of_mem_classes hw
    · rcases List.mem_append.1 hw with hold | hnew
      · exact isWord_of_mem_classes hold
      · rw [List.mem_singleton.1 hnew]
        exact h
  · split
    · exact e.nodup_classes
    · next hnot =>
      rw [hasClass, List.contains_iff_mem] at hnot
      refine List.nodup_append.2 ⟨e.nodup_classes, by simp, ?_⟩
      intro w hw v hv he
      rw [List.mem_singleton.1 hv] at he
      exact hnot (he ▸ hw)

/-- A class that is added leaves the others in their order. -/
theorem filter_classes_addClass (e : Element) {token : String} (h : IsWord token.toList) :
    (e.addClass token).classes.filter (· ≠ token) = e.classes.filter (· ≠ token) := by
  rw [classes_addClass e h]
  split
  · rfl
  · simp

/-- A word that is added as a class is a class. -/
theorem hasClass_addClass (e : Element) {token : String} (h : IsWord token.toList) :
    (e.addClass token).hasClass token = true := by
  rw [hasClass, classes_addClass e h]
  split
  · next hold => exact hold
  · simp

/-- A class that is removed is no class, whatever it is. -/
theorem hasClass_removeClass (e : Element) (token : String) :
    (e.removeClass token).hasClass token = false := by
  unfold removeClass
  split
  · -- what is left are words, and the class is not among them
    rw [hasClass_setClasses fun w hw => isWord_of_mem_classes (List.mem_filter.1 hw).1]
    simp
  · next h =>
    refine hasClass_of_attr?_none ?_ token
    simpa [hasAttr, Attributes.has, attr?] using h

/-- A class that is removed leaves the others in their order. -/
theorem classes_removeClass (e : Element) (token : String) :
    (e.removeClass token).classes = e.classes.filter (· ≠ token) := by
  unfold removeClass
  split
  · exact classes_setClasses (fun w hw => isWord_of_mem_classes (List.mem_filter.1 hw).1)
      (e.nodup_classes.filter _)
  · next h =>
    have hnone : e.attr? classKey = none := by simpa [hasAttr, Attributes.has, attr?] using h
    rw [classes, hnone]
    rfl

/-- Elements with the same classes but for one agree on every other class. -/
theorem hasClass_eq_of_filter {e e' : Element} {token other : String}
    (h : e.classes.filter (· ≠ other) = e'.classes.filter (· ≠ other)) (hne : token ≠ other) :
    e.hasClass token = e'.hasClass token := by
  have hmem : ∀ e : Element, e.hasClass token = true ↔ token ∈ e.classes.filter (· ≠ other) := by
    intro e
    rw [hasClass, List.contains_iff_mem, List.mem_filter]
    simp [hne]
  rw [Bool.eq_iff_iff, hmem, hmem, h]

/-! ## Classes in place of others -/

theorem setClasses_setClasses (e : Element) (vs ws : List String) :
    (e.setClasses vs).setClasses ws = e.setClasses ws := by
  unfold setClasses setAttr
  rw [Attributes.set_set]

/-- A class that is added again is added once. -/
theorem addClass_addClass (e : Element) {token : String} (h : IsWord token.toList) :
    (e.addClass token).addClass token = e.addClass token := by
  rw [addClass, if_pos (e.hasClass_addClass h), classes_addClass e h, addClass,
    setClasses_setClasses]

/-- Writing out the classes as they are does not change what a class that is added makes of them. -/
theorem addClass_setClasses_classes (e : Element) (token : String) :
    (e.setClasses e.classes).addClass token = e.addClass token := by
  have hclasses : (e.setClasses e.classes).classes = e.classes :=
    classes_setClasses (fun _ hw => isWord_of_mem_classes hw) e.nodup_classes
  rw [addClass, hasClass, hclasses, setClasses_setClasses]
  rfl

theorem removeAttr_setAttr (e : Element) (name value : String) :
    (e.setAttr name value).removeAttr name = e.removeAttr name := by
  unfold setAttr removeAttr
  rw [Attributes.erase_set]

/-- Other classes change nothing but their attribute. -/
theorem removeAttr_setClasses (e : Element) (ws : List String) :
    (e.setClasses ws).removeAttr classKey = e.removeAttr classKey :=
  e.removeAttr_setAttr classKey _

theorem removeAttr_removeAttr (e : Element) (name : String) :
    (e.removeAttr name).removeAttr name = e.removeAttr name := by
  simp only [removeAttr, Attributes.erase_erase]

theorem hasAttr_removeAttr (e : Element) (name : String) :
    (e.removeAttr name).hasAttr name = false := by
  show ((e.removeAttr name).attr? name).isSome = false
  rw [attr?_removeAttr, if_pos rfl]
  rfl

theorem removeAttr_eq_self {e : Element} {name : String} (h : e.hasAttr name = false) :
    e.removeAttr name = e := by
  rw [removeAttr, Attributes.erase_eq_self h]

/-- The element with these classes in place of its own. Without any the attribute goes. -/
def withClasses (e : Element) (ws : List String) : Element :=
  if ws = [] then e.removeAttr classKey else e.setClasses ws

theorem withClasses_setClasses (e : Element) (vs ws : List String) :
    (e.setClasses vs).withClasses ws = e.withClasses ws := by
  unfold withClasses
  split
  · exact removeAttr_setClasses e vs
  · exact setClasses_setClasses e vs ws

theorem classes_withClasses (e : Element) {ws : List String} (h : ∀ w ∈ ws, IsWord w.toList)
    (hn : ws.Nodup) : (e.withClasses ws).classes = ws := by
  unfold withClasses
  split
  · next hws =>
    rw [hws, classes, attr?_removeAttr, if_pos rfl]
  · exact classes_setClasses h hn

theorem withClasses_withClasses (e : Element) (ws : List String) :
    (e.withClasses ws).withClasses ws = e.withClasses ws := by
  by_cases hws : ws = []
  · simp only [withClasses, hws, if_true, removeAttr, Attributes.erase_erase]
  · simp only [withClasses, hws, if_false, setClasses_setClasses]

end Html.Element

end Stencil
