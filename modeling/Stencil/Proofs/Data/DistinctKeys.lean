import Mathlib.Data.List.Nodup
import Stencil.Data.Member
import Stencil.Data.Reader.Value
namespace Stencil.Data

/-! # Distinct keys

The members of an object are a list, and no key stands in it twice. Everything that is read from a
text is so, since a key that comes again takes the place of the first one.
-/

/-- No object in the value has two members of the same key. -/
inductive Value.KeysDistinct : Value → Prop
  | null : KeysDistinct .null
  | bool (b : Bool) : KeysDistinct (.bool b)
  | number (n : Number) : KeysDistinct (.number n)
  | string (s : String) : KeysDistinct (.string s)
  | array {items : List Value} (h : ∀ v ∈ items, KeysDistinct v) : KeysDistinct (.array items)
  | object {members : List (String × Value)} (hkeys : (members.map Prod.fst).Nodup)
      (h : ∀ m ∈ members, KeysDistinct m.2) : KeysDistinct (.object members)

variable {key : String} {v w : Value} {members : List (String × Value)} {items : List Value}

attribute [simp] Value.KeysDistinct.null Value.KeysDistinct.bool Value.KeysDistinct.number
  Value.KeysDistinct.string

@[simp] theorem Value.keysDistinct_array :
    (Value.array items).KeysDistinct ↔ ∀ v ∈ items, v.KeysDistinct := by
  constructor
  · intro h
    cases h with
    | array h => exact h
  · exact .array

@[simp] theorem Value.keysDistinct_object : (Value.object members).KeysDistinct ↔
    (members.map Prod.fst).Nodup ∧ ∀ m ∈ members, m.2.KeysDistinct := by
  constructor
  · intro h
    cases h with
    | object hkeys h => exact ⟨hkeys, h⟩
  · rintro ⟨hkeys, h⟩
    exact .object hkeys h

/-! ## Members by their keys -/

theorem mem_of_find? (h : find? key members = some v) : (key, v) ∈ members := by
  induction members with
  | nil => cases h
  | cons m rest ih =>
    rcases m with ⟨k, u⟩
    rw [find?] at h
    split at h
    · next hk =>
      cases h
      rw [hk]
      exact List.mem_cons_self ..
    · exact List.mem_cons_of_mem _ (ih h)

/-- Where no key stands twice, a member is found under its key. -/
theorem find?_of_mem (hkeys : (members.map Prod.fst).Nodup) (h : (key, v) ∈ members) :
    find? key members = some v := by
  induction members with
  | nil => cases h
  | cons m rest ih =>
    rcases m with ⟨k, u⟩
    rw [List.map_cons, List.nodup_cons] at hkeys
    rcases List.mem_cons.1 h with heq | hrest
    · cases heq
      rw [find?, if_pos rfl]
    · have hne : k ≠ key := by
        rintro rfl
        exact hkeys.1 (List.mem_map.2 ⟨_, hrest, rfl⟩)
      rw [find?, if_neg hne]
      exact ih hkeys.2 hrest

theorem Value.KeysDistinct.member? (h : v.KeysDistinct) (hmember : v.member? key = some w) :
    w.KeysDistinct := by
  cases h with
  | array h =>
    rcases Option.bind_eq_some_iff.1 hmember with ⟨i, -, hi⟩
    exact h w (List.mem_of_getElem? hi)
  | object hkeys h => exact h _ (mem_of_find? hmember)
  | _ => cases hmember

/-! ## Reading -/

/-- A key that is there already keeps its place. -/
theorem keys_put (key : String) (v : Value) (members : List (String × Value)) :
    (put key v members).map Prod.fst =
      if key ∈ members.map Prod.fst then members.map Prod.fst
      else members.map Prod.fst ++ [key] := by
  induction members with
  | nil => rfl
  | cons m rest ih =>
    rcases m with ⟨k, u⟩
    rw [put]
    by_cases hk : k = key
    · simp [hk]
    · rw [if_neg hk, List.map_cons, ih]
      by_cases hkey : key ∈ rest.map Prod.fst
      · simp [hkey]
      · simp [hkey, Ne.symm hk]

theorem nodup_keys_put (h : (members.map Prod.fst).Nodup) :
    ((put key v members).map Prod.fst).Nodup := by
  rw [keys_put]
  split
  · exact h
  · next hkey =>
    apply List.nodup_append.2
    refine ⟨h, List.nodup_singleton key, ?_⟩
    intro k hk k' hk' heq
    rw [heq, List.mem_singleton.1 hk'] at hk
    exact hkey hk

theorem mem_put {m : String × Value} (h : m ∈ put key v members) :
    m = (key, v) ∨ m ∈ members := by
  induction members with
  | nil => simpa [put] using h
  | cons m' rest ih =>
    rcases m' with ⟨k, u⟩
    rw [put] at h
    split at h
    · next hk =>
      rcases List.mem_cons.1 h with rfl | hrest
      · rw [hk]
        exact .inl rfl
      · exact .inr (List.mem_cons_of_mem _ hrest)
    · rcases List.mem_cons.1 h with rfl | hrest
      · exact .inr (List.mem_cons_self ..)
      · rcases ih hrest with hm | hm
        · exact .inl hm
        · exact .inr (List.mem_cons_of_mem _ hm)

theorem Value.KeysDistinct.put (h : (Value.object members).KeysDistinct) (hv : v.KeysDistinct) :
    (Value.object (put key v members)).KeysDistinct := by
  cases h with
  | object hkeys h =>
    apply KeysDistinct.object (nodup_keys_put hkeys)
    intro m hm
    rcases mem_put hm with rfl | hm
    · exact hv
    · exact h m hm

/-- What the three reading functions make of a text of the given length. Items and members extend
those before them, whose keys are distinct already. -/
structure ReadsDistinct (n : Nat) : Prop where
  value : ∀ {skim depth cs v rest}, cs.length = n →
    readValue skim depth cs = .ok (v, rest) → v.KeysDistinct
  items : ∀ {skim depth before base cs hlt v rest}, cs.length = n →
    (Value.array before).KeysDistinct →
    readItems skim depth before base cs hlt = .ok (v, rest) → v.KeysDistinct
  members : ∀ {skim depth before base cs hlt v rest}, cs.length = n →
    (Value.object before).KeysDistinct →
    readMembers skim depth before base cs hlt = .ok (v, rest) → v.KeysDistinct

theorem eq_of_readConstant {word base cs : List Char} {hlt : cs.length < base.length}
    {rest : Rest base} (h : readConstant v word base cs hlt = .ok (w, rest)) : w = v := by
  unfold readConstant at h
  split at h
  · cases h
  · cases h
    rfl

theorem keysDistinct_readValue {n : Nat} (ih : ∀ m < n, ReadsDistinct m) {skim : Bool} {depth : Nat}
    {cs : List Char} {rest : Rest cs} (hn : cs.length = n)
    (h : readValue skim depth cs = .ok (v, rest)) : v.KeysDistinct := by
  rw [readValue] at h
  split at h
  · cases h
  · next c rest' hs =>
    have hlt := length_lt_of_skipGap hs
    -- the first character tells a string, an array, an object, the three constants and a number
    split at h
    · split at h
      · cases h
      · cases h
        exact .string _
    split at h
    · split at h
      · cases h
      · split at h
        · cases h
          exact .array (by simp)
        · exact (ih _ (hn ▸ hlt)).items rfl (.array (by simp)) h
    split at h
    · split at h
      · cases h
      · split at h
        · cases h
          exact .object (by simp) (by simp)
        · exact (ih _ (hn ▸ hlt)).members rfl (.object (by simp) (by simp)) h
    split at h
    · rw [eq_of_readConstant h]
      exact .null
    split at h
    · rw [eq_of_readConstant h]
      exact .bool _
    split at h
    · rw [eq_of_readConstant h]
      exact .bool _
    split at h
    · split at h
      · cases h
      · split at h
        · cases h
          exact .number _
        · split at h
          · cases h
            exact .null
          · cases h
    · cases h

theorem keysDistinct_readItems {n : Nat} (ih : ∀ m < n, ReadsDistinct m) {skim : Bool}
    {depth : Nat} {before : List Value} {base cs : List Char} {hlt : cs.length < base.length}
    {rest : Rest base} (hn : cs.length = n) (hbefore : (Value.array before).KeysDistinct)
    (h : readItems skim depth before base cs hlt = .ok (v, rest)) : v.KeysDistinct := by
  rw [readItems] at h
  split at h
  · cases h
  · next w tail ht hread =>
    have hw : w.KeysDistinct := keysDistinct_readValue ih hn hread
    have hnext : (Value.array (w :: before)).KeysDistinct := by
      rw [Value.keysDistinct_array] at hbefore ⊢
      exact List.forall_mem_cons.2 ⟨hw, hbefore⟩
    split at h
    · cases h
    · next c rest' hc =>
      have hr := length_lt_of_skipGap hc
      split at h
      · exact (ih rest'.length (by omega)).items rfl hnext h
      · split at h
        · cases h
          simpa [or_comm] using hnext
        · cases h

theorem keysDistinct_readMembers {n : Nat} (ih : ∀ m < n, ReadsDistinct m) {skim : Bool}
    {depth : Nat} {before : List (String × Value)} {base cs : List Char}
    {hlt : cs.length < base.length} {rest : Rest base} (hn : cs.length = n)
    (hbefore : (Value.object before).KeysDistinct)
    (h : readMembers skim depth before base cs hlt = .ok (v, rest)) : v.KeysDistinct := by
  rw [readMembers] at h
  split at h
  · cases h
  · next key value hv _ =>
    split at h
    · cases h
    · next w tail ht hread =>
      have hw : w.KeysDistinct := (ih value.length (by omega)).value rfl hread
      have hnext : (Value.object (put key w before)).KeysDistinct := hbefore.put hw
      split at h
      · cases h
      · next c rest' hc =>
        have hr := length_lt_of_skipGap hc
        split at h
        · exact (ih rest'.length (by omega)).members rfl hnext h
        · split at h
          · cases h
            exact hnext
          · cases h

theorem readsDistinct (n : Nat) : ReadsDistinct n := by
  -- items start with a value of the same text, so at each length values come first
  induction n using Nat.strongRecOn with
  | ind n ih =>
    exact ⟨keysDistinct_readValue ih, keysDistinct_readItems ih, keysDistinct_readMembers ih⟩

/-- No key stands twice in an object that is read from a text. -/
theorem keysDistinct_read {text : String} (h : Value.read text = .ok v) : v.KeysDistinct := by
  unfold Value.read Value.readWithin at h
  rcases hread : readValue false depthLimit text.toList with fault | ⟨w, rest⟩
  · rw [hread] at h
    cases h
  · have hw : w.KeysDistinct := (readsDistinct _).value rfl hread
    rw [hread] at h
    rcases hend : atEnd rest.tail with fault | u
    · simp [bind, Except.bind, hend] at h
    · simp [bind, Except.bind, hend, pure, Except.pure] at h
      rw [← h]
      exact hw

end Stencil.Data
