/-
Floats without a sign, and their bits.

A float that is not negative is settled by its bits, and comparing two of them is comparing their bits:
`Binary64.toNat_toBits` and `Binary64.ofBits_lt_ofBits`.  `Layout b u` names the components of the bits
`b`.  Subnormal numbers and those with a leading bit are one case of it: a fraction and a shift with
the value that `units` gives the bits.

Mathlib is imported as a whole, since no module of it is the place of the laws of floats and their bits.
-/
import Cyan.Proofs.Number.Rounding
import Mathlib

namespace Cyan
namespace Binary64

open Float.Model Float.Model.UnpackedFloat

/-- The sign, the fraction and the exponent that bits without a sign stand for. -/
inductive Layout : Nat → UnpackedFloat → Prop
  | zero : Layout 0 (.zero .positive)
  | finite {k m : Nat} (hm : 0 < m) : m < 2 * exponentWeight → k = 0 ∨ exponentWeight ≤ m → k < 2046 →
    Layout (k * exponentWeight + m) (.finite .positive m (k - 1074) hm)
  | infinity : Layout infinityBits (.infinity .positive)

/-! ## Packing and unpacking -/

/-- Components laid side by side. -/
theorem toNat_append {m n : Nat} (x : BitVec m) (y : BitVec n) :
    (x ++ y).toNat = x.toNat * 2 ^ n + y.toNat := by
  rw [BitVec.toNat_append, ← Nat.shiftLeft_add_eq_or_of_lt y.isLt, Nat.shiftLeft_eq]

theorem toNat_packComponents (e : BitVec 11) (m : BitVec 52) :
    (packComponents Format.binary64 .positive e m).toNat = e.toNat * exponentWeight + m.toNat := by
  rw [packComponents, toNat_append, toNat_append]
  show (0 * 2 ^ 11 + e.toNat) * exponentWeight + m.toNat = _
  rw [Nat.zero_mul, Nat.zero_add]

theorem Layout.toNat_pack {b : Nat} {u : UnpackedFloat} (h : Layout b u) :
    (UnpackedFloat.pack Format.binary64 u).toNat = b := by
  cases h with
  | zero => rfl
  | infinity => rfl
  | @finite k m hm hhigh hlow hk =>
    have hbias : Format.binary64.exponentBias = 1023 := rfl
    have hbits : Format.binary64.mantissaBits = 53 := rfl
    simp only [UnpackedFloat.pack]
    rw [if_neg (by omega)]
    by_cases hlead : exponentWeight ≤ m
    · have hlog : m.log2 = 52 := by
        rw [Nat.log2_eq_iff (by omega)]
        exact ⟨hlead, hhigh⟩
      rw [if_pos (by omega), toNat_packComponents, BitVec.toNat_ofNat, BitVec.toNat_ofNat]
      unfold exponentWeight at *
      omega
    · have hlog : m.log2 < 52 := (Nat.log2_lt (by omega)).mpr (by unfold exponentWeight at hlead; omega)
      rw [if_neg (by omega), toNat_packComponents, BitVec.toNat_ofNat, BitVec.toNat_ofNat]
      unfold exponentWeight at *
      omega

theorem toNat_unpackExponent (v : BitVec 64) :
    (@unpackExponent Format.binary64 v).toNat = v.toNat / exponentWeight % 2048 := by
  rw [unpackExponent, BitVec.toNat_cast, BitVec.extractLsb_toNat, Nat.shiftRight_eq_div_pow]
  rfl

theorem toNat_unpackMantissa (v : BitVec 64) :
    (@unpackMantissa Format.binary64 v).toNat = v.toNat % exponentWeight := by
  rw [unpackMantissa, BitVec.toNat_cast, BitVec.extractLsb_toNat, Nat.shiftRight_zero]
  rfl

theorem toNat_unpackSign (v : BitVec 64) :
    (@unpackSign Format.binary64 v).toNat = v.toNat / signWeight % 2 := by
  rw [unpackSign, BitVec.toNat_cast, BitVec.extractLsb_toNat, Nat.shiftRight_eq_div_pow]
  rfl

section

variable {b : Nat} (h : b ≤ infinityBits)
include h

theorem toNat_ofNat_bits : (BitVec.ofNat 64 b).toNat = b := by
  rw [BitVec.toNat_ofNat]
  unfold infinityBits at h
  omega

theorem sign_ofNat_bits :
    Sign.ofBitVec (@unpackSign Format.binary64 (BitVec.ofNat 64 b)) = .positive := by
  have hsmall : b / signWeight % 2 = 0 := by
    unfold infinityBits at h
    unfold signWeight
    omega
  rw [Sign.ofBitVec, if_pos]
  apply BitVec.eq_of_toNat_eq
  rw [toNat_unpackSign, toNat_ofNat_bits h, hsmall]
  rfl

theorem exponent_ofNat_bits :
    (@unpackExponent Format.binary64 (BitVec.ofNat 64 b)).toNat = b / exponentWeight := by
  rw [toNat_unpackExponent, toNat_ofNat_bits h]
  unfold infinityBits at h
  unfold exponentWeight
  omega

theorem mantissa_ofNat_bits :
    (@unpackMantissa Format.binary64 (BitVec.ofNat 64 b)).toNat = b % exponentWeight := by
  rw [toNat_unpackMantissa, toNat_ofNat_bits h]

theorem unpackExponent_eq_iff {e : BitVec 11} :
    @unpackExponent Format.binary64 (BitVec.ofNat 64 b) = e ↔ b / exponentWeight = e.toNat := by
  rw [← BitVec.toNat_inj, exponent_ofNat_bits h]

theorem unpackMantissa_eq_iff {m : BitVec 52} :
    @unpackMantissa Format.binary64 (BitVec.ofNat 64 b) = m ↔ b % exponentWeight = m.toNat := by
  rw [← BitVec.toNat_inj, mantissa_ofNat_bits h]

end

theorem Layout.finite_of_eq {b k m : Nat} {e : Int} (hm : 0 < m) (hb : b = k * exponentWeight + m)
    (he : e = k - 1074) (hhigh : m < 2 * exponentWeight) (hlow : k = 0 ∨ exponentWeight ≤ m)
    (hk : k < 2046) : Layout b (.finite .positive m e hm) := by
  subst hb he
  exact .finite hm hhigh hlow hk

/-- Bits up to those of infinity, taken apart. -/
theorem Layout.unpack {b : Nat} (h : b ≤ infinityBits) :
    Layout b (UnpackedFloat.unpack Format.binary64 (BitVec.ofNat 64 b)) := by
  have hbias : Format.binary64.exponentBias = 1023 := rfl
  have hlead : (1#1 ++ @unpackMantissa Format.binary64 (BitVec.ofNat 64 b)).toNat =
      exponentWeight + b % exponentWeight := by
    rw [toNat_append, mantissa_ofNat_bits h]
    rfl
  have hparts : b = b / exponentWeight * exponentWeight + b % exponentWeight :=
    (Nat.div_add_mod' b exponentWeight).symm
  have hfraction : b % exponentWeight < exponentWeight := Nat.mod_lt b exponentWeight_pos
  have hbound : b ≤ 2047 * exponentWeight := h
  have htop : b / exponentWeight ≤ 2047 := Nat.div_le_of_le_mul (Nat.mul_comm .. ▸ hbound)
  simp only [UnpackedFloat.unpack, sign_ofNat_bits h, unpackExponent_eq_iff h, unpackMantissa_eq_iff h]
  change Layout b (if b / exponentWeight = 2047 then if b % exponentWeight = 0 then _ else _
    else if b / exponentWeight = 0 then if _ : b % exponentWeight = 0 then _ else _ else _)
  split_ifs with hmax hnone hleast hnone
  · obtain rfl : b = infinityBits := by
      rw [hmax, hnone] at hparts
      exact hparts
    exact .infinity
  · rw [hmax] at hparts
    omega
  · obtain rfl : b = 0 := by
      rw [hleast, hnone] at hparts
      exact hparts
    exact .zero
  · rw [hleast] at hparts
    refine Layout.finite_of_eq (k := 0) _ ?_ ?_ ?_ (Or.inl rfl) (by omega)
    · rw [mantissa_ofNat_bits h]
      exact hparts
    · rw [exponent_ofNat_bits h, hleast, hbias]
      rfl
    · rw [mantissa_ofNat_bits h]
      omega
  · obtain ⟨k, hk⟩ := Nat.exists_eq_succ_of_ne_zero hleast
    rw [hk, Nat.succ_mul] at hparts
    refine Layout.finite_of_eq (k := k) _ ?_ ?_ ?_ (Or.inr ?_) ?_
    · rw [hlead]
      omega
    · rw [exponent_ofNat_bits h, hbias, hk]
      change ((k.succ : Nat) : Int) - (1023 + 52) = _
      omega
    all_goals omega

theorem toNat_toBits_ofBits {b : Nat} (h : b ≤ infinityBits) : (ofBits false b).toBits.toNat = b :=
  (Layout.unpack h).toNat_pack

/-! ## Comparing -/

/-- Shifts are compared first, and fractions with the same shift after them. -/
theorem compare_add_mul {k k' m m' : Nat} (hhigh : m < 2 * exponentWeight)
    (hhigh' : m' < 2 * exponentWeight) (hlow : k = 0 ∨ exponentWeight ≤ m)
    (hlow' : k' = 0 ∨ exponentWeight ≤ m') :
    (compare (k - 1074 : Int) (k' - 1074)).then (compare m m') =
      compare (k * exponentWeight + m) (k' * exponentWeight + m') := by
  rcases Nat.lt_trichotomy k k' with hk | rfl | hk
  · have hmul : (k + 1) * exponentWeight ≤ k' * exponentWeight := Nat.mul_le_mul_right _ hk
    rw [Nat.add_mul, Nat.one_mul] at hmul
    rw [Int.compare_eq_lt.mpr (by omega)]
    exact (Nat.compare_eq_lt.mpr (by omega)).symm
  · rw [Int.compare_eq_eq.mpr rfl]
    show compare m m' = _
    cases hm : compare m m' with
    | lt =>
      rw [Nat.compare_eq_lt] at hm
      exact (Nat.compare_eq_lt.mpr (by omega)).symm
    | eq =>
      rw [Nat.compare_eq_eq] at hm
      exact (Nat.compare_eq_eq.mpr (by omega)).symm
    | gt =>
      rw [Nat.compare_eq_gt] at hm
      exact (Nat.compare_eq_gt.mpr (by omega)).symm
  · have hmul : (k' + 1) * exponentWeight ≤ k * exponentWeight := Nat.mul_le_mul_right _ hk
    rw [Nat.add_mul, Nat.one_mul] at hmul
    rw [Int.compare_eq_gt.mpr (by omega)]
    exact (Nat.compare_eq_gt.mpr (by omega)).symm

/-- Floats without a sign are compared like their bits. -/
theorem Layout.compare_eq {b c : Nat} {u v : UnpackedFloat} (h : Layout b u) (h' : Layout c v) :
    u.compare v = some (compare b c) := by
  have hinfinity : infinityBits = 2045 * exponentWeight + 2 * exponentWeight := rfl
  cases h with
  | zero =>
    cases h' with
    | zero => rfl
    | finite => exact congrArg some (Nat.compare_eq_lt.mpr (by omega)).symm
    | infinity => rfl
  | @finite k m hm hhigh hlow hk =>
    cases h' with
    | zero => exact congrArg some (Nat.compare_eq_gt.mpr (by omega)).symm
    | finite hm' hhigh' hlow' hk' => exact congrArg some (compare_add_mul hhigh hhigh' hlow hlow')
    | infinity =>
      have hmul : k * exponentWeight ≤ 2045 * exponentWeight := Nat.mul_le_mul_right _ (by omega)
      exact congrArg some (Nat.compare_eq_lt.mpr (by omega)).symm
  | infinity =>
    cases h' with
    | zero => rfl
    | @finite k m hm hhigh hlow hk =>
      have hmul : k * exponentWeight ≤ 2045 * exponentWeight := Nat.mul_le_mul_right _ (by omega)
      exact congrArg some (Nat.compare_eq_gt.mpr (by omega)).symm
    | infinity => rfl

section

variable {b c : Nat} (hb : b ≤ infinityBits) (hc : c ≤ infinityBits)

include hb in
theorem layout_ofBits : Layout b (ofBits false b).toModel.unpack := by
  have hbits : (ofBits false b).toBits.toBitVec = BitVec.ofNat 64 b := by
    apply BitVec.eq_of_toNat_eq
    rw [BitVec.toNat_ofNat]
    unfold infinityBits at *
    exact (toNat_toBits_ofBits hb).trans (by omega)
  rw [show (ofBits false b).toModel.unpack =
    UnpackedFloat.unpack Format.binary64 (ofBits false b).toBits.toBitVec from rfl, hbits]
  exact Layout.unpack hb

include hb hc

theorem compare_ofBits : (ofBits false b).toModel.compare (ofBits false c).toModel = some (compare b c) :=
  (layout_ofBits hb).compare_eq (layout_ofBits hc)

theorem ofBits_lt_ofBits : ofBits false b < ofBits false c ↔ b < c := by
  show (decide ((ofBits false b).toModel.lt (ofBits false c).toModel = true)) = true ↔ _
  rw [decide_eq_true_eq]
  show ((ofBits false b).toModel.compare (ofBits false c).toModel == some .lt) = true ↔ _
  rw [compare_ofBits hb hc, beq_iff_eq, Option.some.injEq, Nat.compare_eq_lt]

theorem ofBits_le_ofBits : ofBits false b ≤ ofBits false c ↔ b ≤ c := by
  show (decide ((ofBits false b).toModel.le (ofBits false c).toModel = true)) = true ↔ _
  rw [decide_eq_true_eq]
  show ((ofBits false b).toModel.compare (ofBits false c).toModel).any (·.isLE) = true ↔ _
  rw [compare_ofBits hb hc]
  show (compare b c).isLE = true ↔ _
  rw [Nat.isLE_compare]

theorem ofBits_beq_ofBits : (ofBits false b == ofBits false c) = true ↔ b = c := by
  show ((ofBits false b).toModel.compare (ofBits false c).toModel == some .eq) = true ↔ _
  rw [compare_ofBits hb hc, beq_iff_eq, Option.some.injEq, Nat.compare_eq_eq]

end

end Binary64
end Cyan
