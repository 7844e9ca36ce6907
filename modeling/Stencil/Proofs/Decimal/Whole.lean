import Mathlib
namespace Stencil.Decimal

open Float.Model (Format UnpackedFloat totalExponent)
open Float.Model.UnpackedFloat

/-! # Whole numbers as doubles

A whole number below 2 ^ 53 fits the significand of a double, so that the double made of it is that
number and no other one. Every step on the way keeps the value: filling the significand up to its 53
bits, packing the parts into bits, and the multiplication by one.
-/

/-- The number that a finite double is. -/
def rational? (x : Float) : Option ℚ :=
  match x.toModel.unpack with
  | .zero _ => some 0
  | .finite .positive m e _ => some (m * 2 ^ e)
  | .finite .negative m e _ => some (-(m * 2 ^ e))
  | _ => none

variable {m n : Nat} {e : Int}

/-! ## Rounding of what is exact -/

/-- A significand of 53 bits is not moved, unless its exponent is too small for any double. -/
theorem targetExponent_eq (hm : m.log2 = 52) (he : -1074 ≤ e) :
    Format.binary64.targetExponent (totalExponent m e) = e := by
  simp only [Format.targetExponent, totalExponent, hm, Format.mantissaBits, Format.minExponent]
  omega

/-- Shifting out zeros loses nothing. -/
theorem shiftRight_exact (m k : Nat) :
    (⟨m * 2 ^ k, false, false⟩ : ExtendedMantissa) >>> k = ⟨m, false, false⟩ := by
  induction k generalizing m with
  | zero => simp [HShiftRight.hShiftRight, Nat.repeat]
  | succ k ih =>
    have hstep : (⟨m * 2 ^ (k + 1), false, false⟩ : ExtendedMantissa) >>> (k + 1) =
        ((⟨2 * m * 2 ^ k, false, false⟩ : ExtendedMantissa) >>> k).shiftRightOne := by
      rw [show m * 2 ^ (k + 1) = 2 * m * 2 ^ k by ring]
      rfl
    rw [hstep, ih]
    simp [ExtendedMantissa.shiftRightOne]

theorem log2_mul_two_pow (hpos : 0 < m) (k : Nat) : (m * 2 ^ k).log2 = m.log2 + k := by
  induction k with
  | zero => simp
  | succ k ih =>
    rw [show m * 2 ^ (k + 1) = 2 * (m * 2 ^ k) by ring, Nat.log2_two_mul (by positivity), ih,
      Nat.add_assoc]

theorem shiftToTargetExponent_exact (hm : m.log2 = 52) (hpos : 0 < m) (he : -1074 ≤ e) (k : Nat) :
    shiftToTargetExponent Format.binary64 (m * 2 ^ k) (e - k) .exact =
      (⟨m, false, false⟩, e) := by
  have htotal : totalExponent (m * 2 ^ k) (e - k) = totalExponent m e := by
    rw [totalExponent, totalExponent, log2_mul_two_pow hpos]
    omega
  have hmove : (e - (e - k)).toNat = k := by omega
  have hback : e - (k : Int) + (k : Nat) = e := by omega
  simp only [shiftToTargetExponent, shiftToExponent, htotal, targetExponent_eq hm he, hmove, hback,
    ExtendedMantissa.ofMantissaAndAccuracy, shiftRight_exact]

/-- Rounding brings a significand with zeros behind its 53 bits to its place. -/
theorem roundWithAccuracy_exact (hm : m.log2 = 52) (hpos : 0 < m) (he : -1074 ≤ e) (k : Nat) :
    roundWithAccuracy Format.binary64 .positive (m * 2 ^ k) (e - k) .exact =
      .finite .positive m e hpos := by
  have hagain := shiftToTargetExponent_exact hm hpos he 0
  rw [pow_zero, mul_one, Nat.cast_zero, sub_zero] at hagain
  simp only [roundWithAccuracy, shiftToTargetExponent_exact hm hpos he,
    ExtendedMantissa.roundedMantissa, ExtendedMantissa.accuracy, Accuracy.roundToNearestEven,
    hagain]
  exact dif_neg hpos.ne'

/-! ## Significands of 53 bits -/

/-- The significand of a whole number, with zeros behind its digits up to 53 bits. -/
theorem log2_filled (hpos : 0 < n) (h : n < 2 ^ 53) : (n * 2 ^ (52 - n.log2)).log2 = 52 := by
  have hlog : n.log2 < 53 := (Nat.log2_lt hpos.ne').2 h
  rw [log2_mul_two_pow hpos]
  omega

theorem filled_pos (hpos : 0 < n) : 0 < n * 2 ^ (52 - n.log2) := by positivity

/-- The double of a whole number before it is packed. -/
theorem ofNat_eq (hpos : 0 < n) (h : n < 2 ^ 53) :
    UnpackedFloat.ofNat Format.binary64 n =
      .finite .positive (n * 2 ^ (52 - n.log2)) (n.log2 - 52) (filled_pos hpos) := by
  have hlog : n.log2 < 53 := (Nat.log2_lt hpos.ne').2 h
  have htarget : Format.binary64.targetExponent (totalExponent n 0) = n.log2 - 52 := by
    simp only [Format.targetExponent, totalExponent, Format.mantissaBits, Format.minExponent]
    omega
  have hfill : (0 - ((n.log2 : Int) - 52)).toNat = 52 - n.log2 := by omega
  have hexponent : (0 : Int) - ((52 - n.log2 : Nat) : Int) = n.log2 - 52 := by omega
  have hcompare : compare (n : Int) 0 = .gt := Int.compare_eq_gt.2 (by omega)
  have hround := roundWithAccuracy_exact (log2_filled hpos h) (filled_pos hpos)
    (e := (n.log2 : Int) - 52) (by omega) 0
  rw [pow_zero, mul_one, Nat.cast_zero, sub_zero] at hround
  simp only [UnpackedFloat.ofNat, UnpackedFloat.ofInt, UnpackedFloat.normalize, hcompare,
    UnpackedFloat.round, Int.toNat_natCast, htarget, decreaseExponent, hfill, hexponent,
    Nat.shiftLeft_eq, hround]

/-! ## Packing -/

/-- The bit above the fraction is not stored, because it is always one. -/
theorem toNat_hidden_append (hlow : 2 ^ 52 ≤ m) (hhigh : m < 2 ^ 53) :
    (1#1 ++ BitVec.ofNat 52 m).toNat = m := by
  have hor := Nat.two_pow_add_eq_or_of_lt (Nat.mod_lt m (Nat.two_pow_pos 52)) 1
  rw [mul_one] at hor
  rw [BitVec.toNat_append, BitVec.toNat_ofNat, BitVec.toNat_ofNat, Nat.shiftLeft_eq]
  show 1 * 2 ^ 52 ||| m % 2 ^ 52 = m
  rw [one_mul, ← hor]
  omega

/-- The field of the exponent of a normal double. -/
theorem toNat_exponent (he : -1074 ≤ e) (he' : e ≤ 971) :
    (BitVec.ofNat 11 (e + 1075).toNat).toNat = (e + 1075).toNat := by
  rw [BitVec.toNat_ofNat]
  omega

theorem pack_eq (hm : m.log2 = 52) (hpos : 0 < m) (he : -1074 ≤ e) (he' : e ≤ 971) :
    pack Format.binary64 (.finite .positive m e hpos) =
      packComponents Format.binary64 .positive (BitVec.ofNat 11 (e + 1075).toNat)
        (BitVec.ofNat 52 m) := by
  have hbias : Format.binary64.exponentBias = 1023 := rfl
  have hbits : 52 + 1 = Format.binary64.mantissaBits := rfl
  have hbiased : (e + (1023 : Nat) + (52 : Nat)).toNat = (e + 1075).toNat := by omega
  simp only [pack, hm, hbias, hbiased]
  rw [if_neg (by omega), if_pos hbits]

/-- The parts of a normal double are read back from its bits. -/
theorem unpack_pack (hm : m.log2 = 52) (hpos : 0 < m) (he : -1074 ≤ e) (he' : e ≤ 971) :
    (Float.Model.pack (.finite .positive m e hpos)).unpack = .finite .positive m e hpos := by
  obtain ⟨hlow, hhigh⟩ : 2 ^ 52 ≤ m ∧ m < 2 ^ 53 := (Nat.log2_eq_iff hpos.ne').1 hm
  have hfield := toNat_exponent he he'
  -- the two ends of the field are kept for zeros and infinities
  have hlarge : BitVec.ofNat 11 (e + 1075).toNat ≠ -1#11 := by
    intro h
    have htop : (e + 1075).toNat = 2047 := hfield.symm.trans (congrArg BitVec.toNat h)
    omega
  have hsmall : BitVec.ofNat 11 (e + 1075).toNat ≠ 0#11 := by
    intro h
    have hbottom : (e + 1075).toNat = 0 := hfield.symm.trans (congrArg BitVec.toNat h)
    omega
  have hexponent : ((BitVec.ofNat 11 (e + 1075).toNat).toNat : Int) -
      ((Format.binary64.exponentBias : Nat) + (52 : Nat)) = e := by
    rw [hfield]
    show ((e + 1075).toNat : Int) - (1023 + 52) = e
    omega
  show UnpackedFloat.unpack Format.binary64 (pack Format.binary64 (.finite .positive m e hpos)) = _
  rw [pack_eq hm hpos he he', UnpackedFloat.unpack]
  simp only [unpackExponent_packComponents, unpackMantissa_packComponents,
    unpackSign_packComponents, Sign.ofBitVec_toBitVec]
  rw [if_neg hlarge, if_neg hsmall]
  simp only [toNat_hidden_append hlow hhigh, hexponent]

/-! ## From the whole number to its double -/

theorem unpack_one :
    (Float.Model.ofBits 0x3FF0000000000000).unpack =
      .finite .positive (2 ^ 52) (-52) (by decide) := by
  rfl

/-- Multiplication by one puts zeros behind the significand and takes them away again. -/
theorem mul_one_eq (hm : m.log2 = 52) (hpos : 0 < m) (he : -1074 ≤ e) :
    UnpackedFloat.mul Format.binary64 (.finite .positive m e hpos)
      (.finite .positive (2 ^ 52) (-52) (by decide)) = .finite .positive m e hpos := by
  have hround := roundWithAccuracy_exact hm hpos he 52
  rw [Nat.cast_ofNat] at hround
  exact hround

theorem toModel_toFloat (hpos : 0 < n) (h : n < 2 ^ 53) :
    (n.toUInt64.toFloat).toModel = Float.Model.pack
      (.finite .positive (n * 2 ^ (52 - n.log2)) (n.log2 - 52) (filled_pos hpos)) := by
  have hcast : n.toUInt64.toNat = n := by
    rw [Nat.toUInt64, UInt64.toNat_ofNat']
    omega
  rw [UInt64.toFloat, Float.Model.ofUInt64, UnpackedFloat.ofUInt64, hcast, ofNat_eq hpos h]

theorem unpack_ofNat (hpos : 0 < n) (h : n < 2 ^ 53) :
    (Float.ofNat n).toModel.unpack =
      .finite .positive (n * 2 ^ (52 - n.log2)) (n.log2 - 52) (filled_pos hpos) := by
  have hlog : n.log2 < 53 := (Nat.log2_lt hpos.ne').2 h
  have hfilled := log2_filled hpos h
  have hread := unpack_pack hfilled (filled_pos hpos) (e := (n.log2 : Int) - 52) (by omega)
    (by omega)
  -- a whole number is read as a decimal without an exponent, so it is multiplied by 10 ^ 0
  have hfloat : Float.ofNat n = n.toUInt64.toFloat * Float.ofBits 0x3FF0000000000000 := by
    show Float.ofScientific n false 0 = _
    rw [Float.ofScientific, dif_pos ⟨h, Nat.zero_le 22⟩]
    rfl
  rw [hfloat]
  show (Float.Model.pack (UnpackedFloat.mul Format.binary64 (n.toUInt64.toFloat).toModel.unpack
    (Float.Model.ofBits 0x3FF0000000000000).unpack)).unpack = _
  rw [toModel_toFloat hpos h, hread, unpack_one, mul_one_eq hfilled _ (by omega), hread]

/-- A whole number below 2 ^ 53 is a double exactly. -/
theorem rational?_ofNat (h : n < 2 ^ 53) : rational? (Float.ofNat n) = some n := by
  rcases Nat.eq_zero_or_pos n with rfl | hpos
  · rfl
  · have hlog : n.log2 < 53 := (Nat.log2_lt hpos.ne').2 h
    have hexponent : (n.log2 : Int) - 52 = -((52 - n.log2 : Nat) : Int) := by omega
    simp only [rational?, unpack_ofNat hpos h]
    rw [hexponent, zpow_neg, zpow_natCast]
    push_cast
    congr 1
    field_simp

end Stencil.Decimal
