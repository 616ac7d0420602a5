/-
Integer arithmetic is exact.

`Number.Holds a n` says that the number `a` is the right result where the exact one is the integer `n`:
an integer with that value, or a float if no integer of 64 bits has it.  Sums, differences and products
of integers always hold their exact result, and so do powers with an exponent below 2 ^ 32
(`Value.operate_integers`).

A power is computed with a small exponent.  This is right because a power with an exponent beyond 64
fits only if its base is -1, 0 or 1, and then it depends on nothing but the parity of the exponent
(`exactPower?_eq`).  An exponent of 2 ^ 32 or more gives a float whatever the power is.  This is right
for all integers but -1, 0 and 1, whose powers fit with every exponent.
-/
import Cyan.Evaluation.Operation
import Mathlib.Algebra.Order.Ring.Int

namespace Cyan

/-- Whether an integer of 64 bits has the value `n`. -/
def FitsInt64 (n : Int) : Prop := Int64.minValue.toInt ≤ n ∧ n ≤ Int64.maxValue.toInt

theorem fitsInt64_iff {n : Int} : FitsInt64 n ↔ -2 ^ 63 ≤ n ∧ n < 2 ^ 63 := by
  have hmin : Int64.minValue.toInt = -2 ^ 63 := by decide
  have hmax : Int64.maxValue.toInt = 2 ^ 63 - 1 := by decide
  rw [FitsInt64, hmin, hmax]
  omega

theorem exactInt?_eq_none {n : Int} : exactInt? n = none ↔ ¬ FitsInt64 n := by
  rw [exactInt?_eq_none_iff, FitsInt64]
  omega

theorem exactInt?_congr {m n : Int} (hm : ¬ FitsInt64 m) (hn : ¬ FitsInt64 n) :
    exactInt? m = exactInt? n := by
  rw [exactInt?_eq_none.mpr hm, exactInt?_eq_none.mpr hn]

/-! ## Powers -/

/-- From the exponent 64 on, a power fits only if its base is -1, 0 or 1. -/
theorem not_fitsInt64_pow {l : Int} {r : Nat} (hl : 2 ≤ l.natAbs) (hr : 64 ≤ r) :
    ¬ FitsInt64 (l ^ r) := by
  have hlarge : 2 ^ 64 ≤ (l ^ r).natAbs := by
    rw [Int.natAbs_pow]
    calc 2 ^ 64 ≤ 2 ^ r := Nat.pow_le_pow_right (by decide) hr
      _ ≤ l.natAbs ^ r := Nat.pow_le_pow_left hl r
  rw [fitsInt64_iff]
  omega

/-- The powers of -1, 0 and 1 are -1, 0 and 1. -/
theorem natAbs_pow_le_one {l : Int} (hl : l.natAbs ≤ 1) (r : Nat) : (l ^ r).natAbs ≤ 1 := by
  rw [Int.natAbs_pow]
  calc l.natAbs ^ r ≤ 1 ^ r := Nat.pow_le_pow_left hl r
    _ = 1 := Nat.one_pow r

/-- The powers of -1, 0 and 1 with a positive exponent depend on its parity. -/
theorem pow_eq_of_parity {l : Int} (hl : l.natAbs ≤ 1) {r s : Nat} (hr : r ≠ 0) (hs : s ≠ 0)
    (hparity : r % 2 = s % 2) : l ^ r = l ^ s := by
  obtain rfl | rfl | rfl : l = -1 ∨ l = 0 ∨ l = 1 := by omega
  · rw [neg_one_pow_eq_pow_mod_two r, hparity, ← neg_one_pow_eq_pow_mod_two]
  · rw [zero_pow hr, zero_pow hs]
  · rw [one_pow, one_pow]

/-- The power that is computed is the exact one. -/
theorem exactPower?_eq (l : Int) (r : Nat) : exactPower? l r = exactInt? (l ^ r) := by
  show exactInt? (l ^ (if r ≤ 64 then r else 64 + r % 2)) = _
  by_cases hr : r ≤ 64
  · rw [if_pos hr]
  · rw [if_neg hr]
    by_cases hl : l.natAbs ≤ 1
    · have hparity : (64 + r % 2) % 2 = r % 2 := by omega
      rw [pow_eq_of_parity hl (by omega) (by omega) hparity]
    · exact exactInt?_congr (not_fitsInt64_pow (by omega) (by omega))
        (not_fitsInt64_pow (by omega) (by omega))

/-! ## Numbers that hold an exact result -/

namespace Number

/-- Whether a number is the right result where the exact one is `n`. -/
def Holds (a : Number) (n : Int) : Prop :=
  (FitsInt64 n → ∃ m : Int64, a = int m ∧ m.toInt = n) ∧ (¬ FitsInt64 n → ∃ x, a = float x)

theorem fitsInt64_toInt (m : Int64) : FitsInt64 m.toInt := ⟨m.minValue_le_toInt, m.toInt_le⟩

theorem int_holds (m : Int64) : (int m).Holds m.toInt :=
  ⟨fun _ => ⟨m, rfl, rfl⟩, fun hfits => absurd (fitsInt64_toInt m) hfits⟩

theorem float_holds_iff {x : Float} {n : Int} : (float x).Holds n ↔ ¬ FitsInt64 n := by
  constructor
  · intro h hfits
    obtain ⟨m, hm, -⟩ := h.1 hfits
    cases hm
  · intro hfits
    exact ⟨fun h => absurd h hfits, fun _ => ⟨x, rfl⟩⟩

variable {exact : Int → Int → Option Int64} {rounded : Float → Float → Float} {l r : Int64} {n : Int}

theorem arithmetic_holds (h : exact l.toInt r.toInt = exactInt? n) :
    (arithmetic exact rounded (int l) (int r)).Holds n := by
  simp only [arithmetic, h]
  cases hexact : exactInt? n with
  | some m => exact toInt_of_exactInt? hexact ▸ int_holds m
  | none => exact float_holds_iff.mpr (exactInt?_eq_none.mp hexact)

theorem add_holds (l r : Int64) : (add (int l) (int r)).Holds (l.toInt + r.toInt) :=
  arithmetic_holds rfl

theorem subtract_holds (l r : Int64) : (subtract (int l) (int r)).Holds (l.toInt - r.toInt) :=
  arithmetic_holds rfl

theorem multiply_holds (l r : Int64) : (multiply (int l) (int r)).Holds (l.toInt * r.toInt) :=
  arithmetic_holds rfl

theorem power_holds (l : Int64) {r : Int64} (hr : 0 ≤ r.toInt) (hlimit : r.toInt < exponentLimit) :
    (power (int l) (int r)).Holds (l.toInt ^ r.toInt.toNat) := by
  apply arithmetic_holds
  rw [if_pos ⟨hr, hlimit⟩, exactPower?_eq]

/-- From the limit of exponents on, every power is a float. -/
theorem exists_power_eq_float (l : Int64) {r : Int64} (hlimit : exponentLimit ≤ r.toInt) :
    ∃ x, power (int l) (int r) = float x := by
  refine ⟨Float.pow (int l).toFloat (int r).toFloat, ?_⟩
  have hnot : ¬ (0 ≤ r.toInt ∧ r.toInt < exponentLimit) := by omega
  simp only [power, arithmetic, if_neg hnot]

theorem power_holds_iff (l : Int64) {r : Int64} (hr : 0 ≤ r.toInt) :
    (power (int l) (int r)).Holds (l.toInt ^ r.toInt.toNat) ↔
      ¬ (exponentLimit ≤ r.toInt ∧ l.toInt.natAbs ≤ 1) := by
  by_cases hlimit : exponentLimit ≤ r.toInt
  · obtain ⟨x, hx⟩ := exists_power_eq_float l hlimit
    rw [hx, float_holds_iff]
    by_cases hl : l.toInt.natAbs ≤ 1
    · have hsmall := natAbs_pow_le_one hl r.toInt.toNat
      have hfits : FitsInt64 (l.toInt ^ r.toInt.toNat) := by
        rw [fitsInt64_iff]
        omega
      exact iff_of_false (not_not.mpr hfits) (not_not.mpr ⟨hlimit, hl⟩)
    · have hlong : 64 ≤ r.toInt.toNat := by
        unfold exponentLimit at hlimit
        omega
      exact iff_of_true (not_fitsInt64_pow (by omega) hlong) fun h => hl h.2
  · exact iff_of_true (power_holds l hr (by omega)) fun h => hlimit h.1

end Number

namespace Value

open Number

variable {Place : Type}

/-- The sum, difference, product and power of two integers.  The exception are the powers of -1, 0 and
1 with an exponent of 2 ^ 32 or more: these are floats though the exact power fits. -/
theorem operate_integers (l r : Int64) :
    let left : Value Place := number (int l)
    let right : Value Place := number (int r)
    (∃ a, operate .add left right = .ok (number a) ∧ a.Holds (l.toInt + r.toInt)) ∧
    (∃ a, operate .subtract left right = .ok (number a) ∧ a.Holds (l.toInt - r.toInt)) ∧
    (∃ a, operate .multiply left right = .ok (number a) ∧ a.Holds (l.toInt * r.toInt)) ∧
    (0 ≤ r.toInt → ∃ a, operate .power left right = .ok (number a) ∧
      (a.Holds (l.toInt ^ r.toInt.toNat) ↔ ¬ (exponentLimit ≤ r.toInt ∧ l.toInt.natAbs ≤ 1)) ∧
      (exponentLimit ≤ r.toInt → ∃ x, a = float x)) :=
  ⟨⟨_, rfl, add_holds l r⟩, ⟨_, rfl, subtract_holds l r⟩, ⟨_, rfl, multiply_holds l r⟩,
    fun hr => ⟨_, rfl, power_holds_iff l hr, exists_power_eq_float l⟩⟩

/-- The least integer of 64 bits is a power of -2. -/
theorem operate_integers_least :
    let left : Value Unit := number (int (-2))
    0 ≤ (63 : Int64).toInt ∧
      ∃ a, operate .power left (number (int 63)) = .ok (number a) ∧ a.Holds ((-2) ^ 63) := by
  have hr : 0 ≤ (63 : Int64).toInt := by decide
  obtain ⟨a, ha, hholds, -⟩ := (operate_integers (-2) 63).2.2.2 hr
  exact ⟨hr, a, ha, hholds.mpr (by decide)⟩

/-- The power of 1 with the first exponent that is too large is 1, and a float nevertheless. -/
theorem operate_integers_large :
    let left : Value Unit := number (int 1)
    0 ≤ (4294967296 : Int64).toInt ∧
      FitsInt64 ((1 : Int64).toInt ^ (4294967296 : Int64).toInt.toNat) ∧
      ∃ x, operate .power left (number (int 4294967296)) = .ok (number (float x)) := by
  have hone : (1 : Int64).toInt = 1 := by decide
  have hlimit : exponentLimit ≤ (4294967296 : Int64).toInt := by decide
  intro left
  refine ⟨by decide, ?_, ?_⟩
  · rw [hone, one_pow]
    exact fitsInt64_toInt 1
  · obtain ⟨x, hx⟩ := exists_power_eq_float 1 hlimit
    exact ⟨x, congrArg (fun a => Except.ok (number a)) hx⟩

end Value
end Cyan
