import Mathlib
import Stencil.Proofs.Data.DistinctKeys
namespace Stencil.Data

open Float.Model (UnpackedFloat)

/-! # Sameness goes both ways

Two values are the same whichever of them comes first. For objects this takes distinct keys: the
members of the first one are looked up in the second, and only their number is counted the other
way round.
-/

/-! ## Doubles -/

/-- The comparison of two doubles, with its sides exchanged. -/
theorem compare_swap (x y : UnpackedFloat) : y.compare x = (x.compare y).map Ordering.swap := by
  cases x with
  | notANumber => cases y <;> rfl
  | infinity s =>
    cases y with
    | infinity t => cases s <;> cases t <;> rfl
    | _ => cases s <;> rfl
  | zero s =>
    cases y with
    | infinity t => cases t <;> rfl
    | finite t => cases t <;> rfl
    | _ => rfl
  | finite s m e =>
    cases y with
    | infinity t => cases t <;> rfl
    | finite t m' e' =>
      -- between doubles of one sign exponents decide, then mantissas
      have he : compare e' e = (compare e e').swap := Std.OrientedOrd.eq_swap
      have hm : compare m' m = (compare m m').swap := Std.OrientedOrd.eq_swap
      cases s <;> cases t <;> simp [UnpackedFloat.compare, he, hm, Ordering.swap_then]
    | zero t => cases s <;> rfl
    | notANumber => rfl

/-- Only a double that is no number has no place in the order. -/
theorem compare_eq_none_iff (x y : UnpackedFloat) :
    x.compare y = none ↔ x.isNaN = true ∨ y.isNaN = true := by
  cases x with
  | notANumber => simp [UnpackedFloat.compare, UnpackedFloat.isNaN]
  | zero s =>
    rcases y with t | _ | t | t <;> try cases t
    all_goals simp [UnpackedFloat.compare, UnpackedFloat.isNaN]
  | _ s =>
    cases s <;> rcases y with t | _ | t | t <;> try cases t
    all_goals simp [UnpackedFloat.compare, UnpackedFloat.isNaN]

theorem beq_iff_compare (x y : Float) :
    (x == y) = (x.toModel.unpack.compare y.toModel.unpack == some .eq) := rfl

theorem Number.same_comm (m n : Number) : m.same n = n.same m := by
  cases m <;> cases n
  · exact BEq.comm
  · rfl
  · rfl
  · exact BEq.comm

/-! ## Items -/

variable {v w : Value} {xs ys : List Value} {ms ns : List (String × Value)}

theorem sameItems_comm (h : ∀ x ∈ xs, ∀ y ∈ ys, x.same y = y.same x) :
    sameItems xs ys = sameItems ys xs := by
  induction xs generalizing ys with
  | nil => cases ys <;> rfl
  | cons x xs ih =>
    cases ys with
    | nil => rfl
    | cons y ys =>
      have hhead : x.same y = y.same x := h x (List.mem_cons_self ..) y (List.mem_cons_self ..)
      have htail : sameItems xs ys = sameItems ys xs :=
        ih fun x' hx y' hy => h x' (List.mem_cons_of_mem _ hx) y' (List.mem_cons_of_mem _ hy)
      rw [sameItems, sameItems, hhead, htail]

/-! ## Members -/

theorem sameMembers_iff :
    sameMembers ms ns = true ↔ ∀ m ∈ ms, ∃ w, find? m.1 ns = some w ∧ m.2.same w = true := by
  induction ms with
  | nil => simp [sameMembers]
  | cons m rest ih =>
    rcases m with ⟨k, v⟩
    rw [sameMembers, Bool.and_eq_true, ih, List.forall_mem_cons]
    cases find? k ns <;> simp

theorem sameMembers_swap (hms : (ms.map Prod.fst).Nodup) (hns : (ns.map Prod.fst).Nodup)
    (hlength : ms.length = ns.length) (hcomm : ∀ m ∈ ms, ∀ n ∈ ns, m.2.same n.2 = n.2.same m.2)
    (h : sameMembers ms ns = true) : sameMembers ns ms = true := by
  rw [sameMembers_iff] at h ⊢
  have hsubset : ms.map Prod.fst ⊆ ns.map Prod.fst := by
    intro key hkey
    rcases List.mem_map.1 hkey with ⟨m, hm, rfl⟩
    rcases h m hm with ⟨w, hfind, -⟩
    exact List.mem_map.2 ⟨_, mem_of_find? hfind, rfl⟩
  -- as many keys on both sides, so there are no others in the second object
  have hperm : (ms.map Prod.fst).Perm (ns.map Prod.fst) := by
    apply (List.subperm_of_subset hms hsubset).perm_of_length_le
    simp [hlength]
  intro n hn
  have hkey : n.1 ∈ ms.map Prod.fst := hperm.mem_iff.2 (List.mem_map.2 ⟨n, hn, rfl⟩)
  rcases List.mem_map.1 hkey with ⟨m, hm, hmn⟩
  rcases h m hm with ⟨w, hfind, hsame⟩
  have hw : w = n.2 := by
    rw [hmn, find?_of_mem hns hn] at hfind
    exact (Option.some.inj hfind).symm
  refine ⟨m.2, ?_, ?_⟩
  · rw [← hmn]
    exact find?_of_mem hms hm
  · rw [← hcomm m hm n hn, ← hw]
    exact hsame

theorem sameMembers_comm (hms : (ms.map Prod.fst).Nodup) (hns : (ns.map Prod.fst).Nodup)
    (hlength : ms.length = ns.length) (hcomm : ∀ m ∈ ms, ∀ n ∈ ns, m.2.same n.2 = n.2.same m.2) :
    sameMembers ms ns = sameMembers ns ms := by
  rw [Bool.eq_iff_iff]
  constructor
  · exact sameMembers_swap hms hns hlength hcomm
  · exact sameMembers_swap hns hms hlength.symm fun n hn m hm => (hcomm m hm n hn).symm

/-! ## Values -/

theorem Value.same_comm (hv : v.KeysDistinct) (hw : w.KeysDistinct) : v.same w = w.same v := by
  induction hv generalizing w with
  | null => cases hw <;> rfl
  | bool b =>
    cases hw with
    | bool b' => exact BEq.comm
    | _ => rfl
  | number n =>
    cases hw with
    | number n' => exact n.same_comm n'
    | _ => rfl
  | string s =>
    cases hw with
    | string s' => exact BEq.comm
    | _ => rfl
  | array _ ih =>
    cases hw with
    | array hitems => exact sameItems_comm fun x hx y hy => ih x hx (hitems y hy)
    | _ => rfl
  | @object ms hms _ ih =>
    cases hw with
    | @object ns hns hmembers =>
      rw [Value.same, Value.same]
      by_cases hlength : ms.length = ns.length
      · rw [sameMembers_comm hms hns hlength fun m hm n hn => ih m hm (hmembers n hn), hlength]
      · rw [beq_false_of_ne hlength, beq_false_of_ne (Ne.symm hlength)]
        rfl
    | _ => rfl

/-- Were a key to stand twice, sameness would depend on the side. -/
example :
    let v : Value := .object [("a", .null), ("a", .null)]
    let w : Value := .object [("a", .null), ("b", .null)]
    v.same w = true ∧ w.same v = false := by
  decide

end Stencil.Data
