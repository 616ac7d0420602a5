/-
Floats on one scale of integers.

`rank` is the bits of a float without the sign, negated where the sign is set, so both zeros have the
rank 0.  Floats other than NaN are compared like their ranks, and a NaN with nothing
(`compareFloat?_eq`).  The integers are placed on the scale in their order (`rank_ofInt_le`).  Those of
at most 2 ^ 53 are placed apart from all others (`rank_ofInt_lt`), since each is a value of the format;
above that neighbours may share a place.
-/
import Cyan.Number.Basic
import Cyan.Proofs.Number.Magnitude

namespace Cyan
namespace Binary64

open Float.Model Float.Model.UnpackedFloat

/-- The place of a float among the others. -/
def rank (x : Float) : Int := if isNegative x then -(magnitude x : Int) else magnitude x

/-! ## The sign of unpacked floats -/

theorem neg_compare_neg (u v : UnpackedFloat) : u.neg.compare v.neg = v.compare u := by
  cases u with
  | notANumber => cases v <;> rfl
  | infinity s =>
    cases v with
    | infinity t => cases s <;> cases t <;> rfl
    | _ => cases s <;> rfl
  | zero s =>
    cases v with
    | infinity t => cases t <;> rfl
    | finite t => cases t <;> rfl
    | _ => rfl
  | finite s m e =>
    cases v with
    | infinity t => cases s <;> cases t <;> rfl
    | finite t m' e' =>
      have hswap : ((compare e e').then (compare m m')).swap = (compare e' e).then (compare m' m) := by
        rw [Ordering.swap_then, Int.compare_swap, Nat.compare_swap]
      cases s <;> cases t
      · exact congrArg some (by rw [← hswap, Ordering.swap_swap])
      · rfl
      · rfl
      · exact congrArg some hswap
    | _ => cases s <;> rfl

/-- A float as bits without a sign have it, or with the sign set. -/
inductive Signed : Int → UnpackedFloat → Prop
  | plus {b : Nat} {u : UnpackedFloat} : Layout b u → Signed b u
  | minus {b : Nat} {u : UnpackedFloat} : Layout b u → Signed (-b) u.neg

theorem Signed.isNaN {i : Int} {u : UnpackedFloat} (h : Signed i u) : u.isNaN = false := by
  cases h with
  | plus h => cases h <;> rfl
  | minus h => cases h <;> rfl

section

variable {b c : Nat} {u v : UnpackedFloat} (h : Layout b u) (h' : Layout c v)
include h h'

/-- With the sign set, a float is below all those without, except that the zeros are equal. -/
theorem Layout.neg_compare : u.neg.compare v = some (compare (-(b : Int)) (c : Int)) := by
  have hinfinity : 0 < infinityBits := by decide
  cases h with
  | zero =>
    cases h' with
    | zero => rfl
    | finite => exact congrArg some (Int.compare_eq_lt.mpr (by omega)).symm
    | infinity => rfl
  | finite => cases h' <;> exact congrArg some (Int.compare_eq_lt.mpr (by omega)).symm
  | infinity => cases h' <;> exact congrArg some (Int.compare_eq_lt.mpr (by omega)).symm

theorem Layout.compare_neg : u.compare v.neg = some (compare (b : Int) (-(c : Int))) := by
  have hinfinity : 0 < infinityBits := by decide
  cases h with
  | zero =>
    cases h' with
    | zero => rfl
    | finite => exact congrArg some (Int.compare_eq_gt.mpr (by omega)).symm
    | infinity => rfl
  | finite => cases h' <;> exact congrArg some (Int.compare_eq_gt.mpr (by omega)).symm
  | infinity => cases h' <;> exact congrArg some (Int.compare_eq_gt.mpr (by omega)).symm

end

/-- Integers in the order of two natural numbers are compared like them. -/
theorem compare_eq_compare {b c : Nat} {i j : Int} (hlt : b < c ↔ i < j) (hgt : c < b ↔ j < i) :
    compare b c = compare i j := by
  rcases Int.lt_trichotomy i j with h | h | h
  · rw [Int.compare_eq_lt.mpr h, Nat.compare_eq_lt.mpr (hlt.mpr h)]
  · rw [Int.compare_eq_eq.mpr h, Nat.compare_eq_eq.mpr (by omega)]
  · rw [Int.compare_eq_gt.mpr h, Nat.compare_eq_gt.mpr (hgt.mpr h)]

theorem Signed.compare_eq {i j : Int} {u v : UnpackedFloat} (h : Signed i u) (h' : Signed j v) :
    u.compare v = some (compare i j) := by
  cases h with
  | @plus b u h =>
    cases h' with
    | @plus c v h' =>
      rw [h.compare_eq h']
      exact congrArg some (compare_eq_compare (by omega) (by omega))
    | minus h' => exact h.compare_neg h'
  | @minus b u h =>
    cases h' with
    | plus h' => exact h.neg_compare h'
    | @minus c v h' =>
      rw [neg_compare_neg, h'.compare_eq h]
      exact congrArg some (compare_eq_compare (by omega) (by omega))

/-! ## Unpacking with a sign -/

section

variable (v : BitVec 64)

theorem toNat_ofNat_low : (BitVec.ofNat 64 (v.toNat % signWeight)).toNat = v.toNat % signWeight := by
  rw [BitVec.toNat_ofNat]
  unfold signWeight
  omega

theorem sign_eq : Sign.ofBitVec (@unpackSign Format.binary64 v) =
    if signWeight ≤ v.toNat then .negative else .positive := by
  have hlt : v.toNat < 2 * signWeight := v.isLt
  have hsign : @unpackSign Format.binary64 v = 0#1 ↔ ¬ signWeight ≤ v.toNat := by
    rw [← BitVec.toNat_inj, toNat_unpackSign]
    show v.toNat / signWeight % 2 = 0 ↔ _
    unfold signWeight at *
    omega
  rw [Sign.ofBitVec]
  split_ifs with hpos hneg hneg
  · exact absurd hneg (hsign.mp hpos)
  · rfl
  · rfl
  · exact absurd (hsign.mpr hneg) hpos

theorem exponent_low : @unpackExponent Format.binary64 (BitVec.ofNat 64 (v.toNat % signWeight)) =
    @unpackExponent Format.binary64 v := by
  rw [← BitVec.toNat_inj, toNat_unpackExponent, toNat_unpackExponent, toNat_ofNat_low]
  unfold signWeight exponentWeight
  omega

theorem mantissa_low : @unpackMantissa Format.binary64 (BitVec.ofNat 64 (v.toNat % signWeight)) =
    @unpackMantissa Format.binary64 v := by
  rw [← BitVec.toNat_inj, toNat_unpackMantissa, toNat_unpackMantissa, toNat_ofNat_low]
  unfold signWeight exponentWeight
  omega

/-- The bits below the sign settle all of a float but its sign. -/
theorem unpack_eq : UnpackedFloat.unpack Format.binary64 v =
    if signWeight ≤ v.toNat then
      (UnpackedFloat.unpack Format.binary64 (BitVec.ofNat 64 (v.toNat % signWeight))).neg
    else UnpackedFloat.unpack Format.binary64 (BitVec.ofNat 64 (v.toNat % signWeight)) := by
  have hlow : ¬ signWeight ≤ v.toNat % signWeight := by
    unfold signWeight
    omega
  simp only [UnpackedFloat.unpack, sign_eq, exponent_low, mantissa_low, toNat_ofNat_low, if_neg hlow]
  by_cases hneg : signWeight ≤ v.toNat
  · simp only [if_pos hneg]
    split_ifs <;> rfl
  · simp only [if_neg hneg]

end

/-- Bits above those of infinity stand for no number. -/
theorem unpack_eq_notANumber {b : Nat} (hlow : infinityBits < b) (hhigh : b < signWeight) :
    UnpackedFloat.unpack Format.binary64 (BitVec.ofNat 64 b) = .notANumber := by
  have hb : (BitVec.ofNat 64 b).toNat = b := by
    rw [BitVec.toNat_ofNat]
    unfold signWeight at hhigh
    omega
  have hexponent : @unpackExponent Format.binary64 (BitVec.ofNat 64 b) = -1#11 := by
    rw [← BitVec.toNat_inj, toNat_unpackExponent, hb]
    show b / exponentWeight % 2048 = 2047
    unfold signWeight infinityBits exponentWeight at *
    omega
  have hmantissa : ¬ @unpackMantissa Format.binary64 (BitVec.ofNat 64 b) = 0#52 := by
    rw [← BitVec.toNat_inj, toNat_unpackMantissa, hb]
    show ¬ b % exponentWeight = 0
    unfold signWeight infinityBits exponentWeight at *
    omega
  rw [UnpackedFloat.unpack]
  exact (if_pos hexponent).trans (if_neg hmantissa)

/-! ## Comparing floats -/

section

variable (x y : Float)

theorem magnitude_lt : magnitude x < signWeight := Nat.mod_lt _ (by decide)

theorem unpack_toModel : x.toModel.unpack =
    if isNegative x then (UnpackedFloat.unpack Format.binary64 (BitVec.ofNat 64 (magnitude x))).neg
    else UnpackedFloat.unpack Format.binary64 (BitVec.ofNat 64 (magnitude x)) := by
  rw [isNegative]
  simp only [decide_eq_true_eq]
  exact unpack_eq x.toBits.toBitVec

variable {x y}

theorem signed_unpack (h : magnitude x ≤ infinityBits) : Signed (rank x) x.toModel.unpack := by
  rw [unpack_toModel, rank]
  by_cases hsign : isNegative x
  · rw [if_pos hsign, if_pos hsign]
    exact .minus (Layout.unpack h)
  · rw [if_neg hsign, if_neg hsign]
    exact .plus (Layout.unpack h)

/-- The floats that are no number are those with bits above infinity's. -/
theorem isNaN_iff : x.isNaN = true ↔ infinityBits < magnitude x := by
  show x.toModel.unpack.isNaN = true ↔ _
  constructor
  · intro hnan
    by_contra hle
    rw [(signed_unpack (Nat.le_of_not_lt hle)).isNaN] at hnan
    cases hnan
  · intro hlt
    rw [unpack_toModel, unpack_eq_notANumber hlt (magnitude_lt x)]
    exact congrArg UnpackedFloat.isNaN (ite_self _)

theorem unpack_of_isNaN (h : x.isNaN = true) : x.toModel.unpack = .notANumber := by
  change x.toModel.unpack.isNaN = true at h
  cases hu : x.toModel.unpack with
  | notANumber => rfl
  | _ =>
    rw [hu] at h
    cases h

theorem compare_toModel (hx : x.isNaN = false) (hy : y.isNaN = false) :
    x.toModel.compare y.toModel = some (compare (rank x) (rank y)) := by
  rw [Bool.eq_false_iff, Ne, isNaN_iff] at hx hy
  exact (signed_unpack (Nat.le_of_not_lt hx)).compare_eq (signed_unpack (Nat.le_of_not_lt hy))

theorem compare_toModel_of_isNaN (h : x.isNaN = true ∨ y.isNaN = true) :
    x.toModel.compare y.toModel = none := by
  show x.toModel.unpack.compare y.toModel.unpack = none
  rcases h with h | h
  · rw [unpack_of_isNaN h]
    rfl
  · rw [unpack_of_isNaN h]
    cases x.toModel.unpack with
    | infinity s => cases s <;> rfl
    | finite s => cases s <;> rfl
    | _ => rfl

theorem lt_iff : x < y ↔ x.toModel.compare y.toModel = some .lt := by
  show decide ((x.toModel.compare y.toModel == some .lt) = true) = true ↔ _
  rw [decide_eq_true_eq, beq_iff_eq]

theorem beq_iff : (x == y) = true ↔ x.toModel.compare y.toModel = some .eq := by
  show (x.toModel.compare y.toModel == some .eq) = true ↔ _
  rw [beq_iff_eq]

theorem compareFloat?_of_isNaN (h : x.isNaN = true ∨ y.isNaN = true) :
    Number.compareFloat? x y = none := by
  rw [Number.compareFloat?, if_neg, if_neg, if_neg]
  · rw [lt_iff, compare_toModel_of_isNaN h.symm]
    exact nofun
  · rw [beq_iff, compare_toModel_of_isNaN h]
    exact nofun
  · rw [lt_iff, compare_toModel_of_isNaN h]
    exact nofun

theorem compareFloat?_eq (hx : x.isNaN = false) (hy : y.isNaN = false) :
    Number.compareFloat? x y = some (compare (rank x) (rank y)) := by
  simp only [Number.compareFloat?, lt_iff, beq_iff, compare_toModel hx hy, compare_toModel hy hx,
    Option.some.injEq, Int.compare_eq_lt, Int.compare_eq_eq]
  rcases Int.lt_trichotomy (rank x) (rank y) with h | h | h
  · rw [if_pos h, Int.compare_eq_lt.mpr h]
  · rw [if_neg (by omega), if_pos h, Int.compare_eq_eq.mpr h]
  · rw [if_neg (by omega), if_neg (by omega), if_pos h, Int.compare_eq_gt.mpr h]

end

/-! ## The integers on the scale -/

theorem toNat_packComponents_negative (e : BitVec 11) (m : BitVec 52) :
    (packComponents Format.binary64 .negative e m).toNat =
      signWeight + (packComponents Format.binary64 .positive e m).toNat := by
  rw [toNat_packComponents, packComponents, toNat_append, toNat_append]
  show (1 * 2 ^ 11 + e.toNat) * exponentWeight + m.toNat = _
  unfold signWeight exponentWeight
  omega

theorem Layout.toNat_pack_neg {b : Nat} {u : UnpackedFloat} (h : Layout b u) :
    (UnpackedFloat.pack Format.binary64 u.neg).toNat = signWeight + b := by
  rw [← h.toNat_pack]
  cases h with
  | zero => rfl
  | infinity => rfl
  | finite =>
    simp only [UnpackedFloat.neg, UnpackedFloat.pack]
    split_ifs <;> exact toNat_packComponents_negative _ _

theorem toNat_toBits_ofBits_true {b : Nat} (h : b ≤ infinityBits) :
    (ofBits true b).toBits.toNat = signWeight + b := by
  have hbits : ((signWeight + b).toUInt64.toBitVec).toNat = signWeight + b := by
    show (BitVec.ofNat 64 (signWeight + b)).toNat = _
    rw [BitVec.toNat_ofNat]
    unfold infinityBits signWeight at *
    omega
  have hlow : (signWeight + b) % signWeight = b := by
    unfold infinityBits signWeight at *
    omega
  show (UnpackedFloat.pack Format.binary64
    (UnpackedFloat.unpack Format.binary64 (signWeight + b).toUInt64.toBitVec)).toNat = _
  rw [unpack_eq, hbits, if_pos (Nat.le_add_right ..), hlow]
  exact (Layout.unpack h).toNat_pack_neg

section

variable {b : Nat} (h : b ≤ infinityBits)
include h

theorem magnitude_ofBits (negative : Bool) : magnitude (ofBits negative b) = b := by
  cases negative with
  | false =>
    rw [magnitude, toNat_toBits_ofBits h]
    unfold infinityBits signWeight at *
    omega
  | true =>
    rw [magnitude, toNat_toBits_ofBits_true h]
    unfold infinityBits signWeight at *
    omega

theorem isNegative_ofBits (negative : Bool) : isNegative (ofBits negative b) = negative := by
  cases negative with
  | false =>
    rw [isNegative, toNat_toBits_ofBits h, decide_eq_false_iff_not]
    unfold infinityBits signWeight at *
    omega
  | true =>
    rw [isNegative, toNat_toBits_ofBits_true h, decide_eq_true_eq]
    omega

end

/-- The bits nearest to a natural number. -/
def integerBits (n : Nat) : Nat := nearestBits (n * one) 1

theorem integerBits_monotone {m n : Nat} (h : m ≤ n) : integerBits m ≤ integerBits n :=
  nearestBits_le_nearestBits Nat.one_pos Nat.one_pos
    (Nat.mul_le_mul_right 1 (Nat.mul_le_mul_right one h))

theorem integerBits_zero : integerBits 0 = 0 := by decide

theorem one_pos : 0 < one := by decide

theorem mul_one_eq {j k : Nat} (n : Nat) (h : j + k = 1074) : n * one = n * 2 ^ j * 2 ^ k := by
  rw [one, ← h, Nat.shiftLeft_eq, Nat.one_mul, Nat.mul_assoc, ← Nat.pow_add]

/-- Shifted to the left, a natural number up to 2 ^ 53 becomes a fraction with a leading bit, or the next
one up. -/
theorem exists_shift {n : Nat} (hn : n ≠ 0) (h : n ≤ 2 ^ 53) :
    ∃ j ≤ 52, exponentWeight ≤ n * 2 ^ j ∧ n * 2 ^ j ≤ 2 * exponentWeight := by
  rcases Nat.lt_or_eq_of_le h with hlt | rfl
  · have hlog : n.log2 < 53 := (Nat.log2_lt hn).mpr hlt
    have hpow : exponentWeight = 2 ^ n.log2 * 2 ^ (52 - n.log2) := by
      rw [← Nat.pow_add, show exponentWeight = 2 ^ 52 from rfl]
      congr 1
      omega
    refine ⟨52 - n.log2, by omega, ?_, ?_⟩
    · rw [hpow]
      exact Nat.mul_le_mul_right _ (Nat.log2_self_le hn)
    · rw [hpow, ← Nat.mul_assoc, ← Nat.pow_succ']
      exact Nat.mul_le_mul_right _ (Nat.le_of_lt Nat.lt_log2_self)
  · exact ⟨0, by decide⟩

/-- The natural numbers up to 2 ^ 53 are values of the format, so rounding keeps them. -/
theorem units_integerBits {n : Nat} (h : n ≤ 2 ^ 53) : units (integerBits n) = n * one := by
  by_cases hn : n = 0
  · rw [hn, integerBits_zero, Nat.zero_mul]
    rfl
  · obtain ⟨j, hj, hlow, hhigh⟩ := exists_shift hn h
    obtain ⟨k, hk⟩ : ∃ k, j + k = 1074 := ⟨1074 - j, by omega⟩
    have hvalue : n * one = units (k * exponentWeight + n * 2 ^ j) := by
      rw [units_add_mul_of_le hlow hhigh, mul_one_eq n hk]
    have hfits : k * exponentWeight + n * 2 ^ j ≤ infinityBits := by
      have hmul : k * exponentWeight ≤ 1074 * exponentWeight := Nat.mul_le_mul_right _ (by omega)
      have hinfinity : infinityBits = 2047 * exponentWeight := rfl
      omega
    have hbits := nearestBits_units hfits Nat.one_pos
    rw [Nat.mul_one] at hbits
    rw [integerBits, hvalue, hbits]

theorem integerBits_lt {m n : Nat} (h : m < n) (hm : m < 2 ^ 53) : integerBits m < integerBits n := by
  have hstep : integerBits m < integerBits (m + 1) := by
    rw [← units_strictMono.lt_iff_lt, units_integerBits (Nat.le_of_lt hm), units_integerBits hm]
    exact Nat.mul_lt_mul_of_pos_right (Nat.lt_succ_self m) one_pos
  exact Nat.lt_of_lt_of_le hstep (integerBits_monotone h)

theorem isNaN_ofInt (n : Int) : (ofInt n).isNaN = false := by
  rw [Bool.eq_false_iff, Ne, isNaN_iff, ofInt, magnitude_ofBits (nearestBits_le _ _)]
  exact Nat.not_lt.mpr (nearestBits_le _ _)

theorem rank_ofInt (n : Int) :
    rank (ofInt n) = if n < 0 then -(integerBits n.natAbs : Int) else integerBits n.natAbs := by
  rw [rank, ofInt, isNegative_ofBits (nearestBits_le _ _), magnitude_ofBits (nearestBits_le _ _)]
  simp only [decide_eq_true_eq]
  rfl

theorem rank_ofInt_le {l r : Int} (h : l ≤ r) : rank (ofInt l) ≤ rank (ofInt r) := by
  rw [rank_ofInt, rank_ofInt]
  split_ifs with hl hr hr
  · have hle : integerBits r.natAbs ≤ integerBits l.natAbs := integerBits_monotone (by omega)
    omega
  · omega
  · omega
  · have hle : integerBits l.natAbs ≤ integerBits r.natAbs := integerBits_monotone (by omega)
    omega

/-- An integer below 2 ^ 53 in magnitude shares its place with no other. -/
theorem rank_ofInt_lt {l r : Int} (h : l < r) (hsmall : l.natAbs < 2 ^ 53 ∨ r.natAbs < 2 ^ 53) :
    rank (ofInt l) < rank (ofInt r) := by
  rw [rank_ofInt, rank_ofInt]
  split_ifs with hl hr hr
  · have hlt : integerBits r.natAbs < integerBits l.natAbs := integerBits_lt (by omega) (by omega)
    omega
  · have hlt : integerBits 0 < integerBits l.natAbs := integerBits_lt (by omega) (by omega)
    rw [integerBits_zero] at hlt
    omega
  · omega
  · have hlt : integerBits l.natAbs < integerBits r.natAbs := integerBits_lt (by omega) (by omega)
    omega

end Binary64
end Cyan
