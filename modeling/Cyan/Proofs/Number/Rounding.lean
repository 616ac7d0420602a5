/-
Rounding to binary64 keeps the order of values.

The values of bits increase strictly with the bits (`units_strictMono`), so the largest bits below a
value are found by any means at all: `le_floorBits_iff` says that `floorBits` finds them.  Rounding to
the nearest bits therefore never reverses the order of two fractions (`nearestBits_le_nearestBits`)
and gives back what is a value already (`nearestBits_units`).

Both facts pass on to decimals, taken as rational numbers: `Decimal.bits_le_bits` and
`Decimal.bits_of_value`.  The exponents that `Decimal.bits` settles by size are no exception, since
nothing else is nearest to so large and so small a number.  It follows that every decimal computed for
a float reads back as it (`Decimal.bits_shortest`).
-/
import Cyan.Number.Shortest
import Mathlib.Algebra.Order.Field.Rat
import Mathlib.Tactic.FieldSimp
import Mathlib.Tactic.Ring

namespace Cyan
namespace Binary64

/-! ## The values of bits -/

theorem exponentWeight_pos : 0 < exponentWeight := by decide

/-- Bits from the exponent's weight on as a fraction with a leading bit and a shift. -/
theorem exists_eq_add_mul {b : Nat} (h : exponentWeight ≤ b) :
    ∃ k m, b = k * exponentWeight + m ∧ exponentWeight ≤ m ∧ m < 2 * exponentWeight := by
  refine ⟨b / exponentWeight - 1, exponentWeight + b % exponentWeight, ?_, ?_, ?_⟩
  all_goals unfold exponentWeight at *; omega

/-- The bits behind the last fraction of an exponent are the first of the next. -/
theorem units_add_mul_of_le {k m : Nat} (hlow : exponentWeight ≤ m) (hhigh : m ≤ 2 * exponentWeight) :
    units (k * exponentWeight + m) = m * 2 ^ k := by
  rcases Nat.lt_or_eq_of_le hhigh with hlt | rfl
  · rw [units_add_mul hlow hlt, Nat.shiftLeft_eq]
  · have hnext : k * exponentWeight + 2 * exponentWeight = (k + 1) * exponentWeight + exponentWeight := by
      ring
    rw [hnext, units_add_mul (Nat.le_refl _) (by unfold exponentWeight; omega), Nat.shiftLeft_eq]
    ring

theorem units_lt_units_succ (b : Nat) : units b < units (b + 1) := by
  by_cases hb : b + 1 < 2 * exponentWeight
  · rw [units_of_lt hb, units_of_lt (Nat.lt_of_succ_lt hb)]
    omega
  · obtain ⟨k, m, rfl, hlow, hhigh⟩ := exists_eq_add_mul (b := b) (by unfold exponentWeight at *; omega)
    rw [Nat.add_assoc, units_add_mul_of_le hlow (Nat.le_of_lt hhigh),
      units_add_mul_of_le (Nat.le_succ_of_le hlow) hhigh]
    exact Nat.mul_lt_mul_of_pos_right (Nat.lt_succ_self m) (Nat.two_pow_pos k)

theorem units_strictMono : StrictMono units := strictMono_nat_of_lt_succ units_lt_units_succ

theorem units_floorBits_le_lt (n : Nat) :
    units (floorBits n) ≤ n ∧ n < units (floorBits n + 1) := by
  by_cases hn : n < 2 * exponentWeight
  · have hsucc := units_lt_units_succ n
    rw [units_of_lt hn] at hsucc
    rw [floorBits, if_pos hn, units_of_lt hn]
    exact ⟨Nat.le_refl n, hsucc⟩
  · -- The quotient keeps the leading 53 bits, so its leading bit is the one above the fraction.
    have hne : n ≠ 0 := by unfold exponentWeight at hn; omega
    have hlog : 53 ≤ n.log2 := (Nat.le_log2 hne).mpr (by unfold exponentWeight at hn; omega)
    have hpow : 2 ^ (n.log2 - 52) * exponentWeight = 2 ^ n.log2 := by
      rw [show exponentWeight = 2 ^ 52 from rfl, ← Nat.pow_add]
      congr 1
      omega
    have hlow : exponentWeight ≤ n / 2 ^ (n.log2 - 52) := by
      rw [Nat.le_div_iff_mul_le (Nat.two_pow_pos _), Nat.mul_comm, hpow]
      exact Nat.log2_self_le hne
    have hhigh : n / 2 ^ (n.log2 - 52) < 2 * exponentWeight := by
      rw [Nat.div_lt_iff_lt_mul (Nat.two_pow_pos _), Nat.mul_assoc, Nat.mul_comm exponentWeight, hpow,
        ← Nat.pow_succ']
      exact Nat.lt_log2_self
    rw [floorBits, if_neg hn, Nat.shiftRight_eq_div_pow, Nat.add_assoc,
      units_add_mul_of_le hlow (Nat.le_of_lt hhigh), units_add_mul_of_le (Nat.le_succ_of_le hlow) hhigh]
    exact ⟨Nat.div_mul_le_self n _, by
      rw [Nat.mul_comm]; exact Nat.lt_mul_div_succ n (Nat.two_pow_pos _)⟩

/-- The bits found are the largest whose value is not above the number. -/
theorem le_floorBits_iff {b n : Nat} : b ≤ floorBits n ↔ units b ≤ n := by
  obtain ⟨hle, hlt⟩ := units_floorBits_le_lt n
  constructor
  · intro hb
    exact Nat.le_trans (units_strictMono.monotone hb) hle
  · intro hb
    exact Nat.le_of_lt_succ (units_strictMono.lt_iff_lt.mp (Nat.lt_of_le_of_lt hb hlt))

theorem floorBits_units (b : Nat) : floorBits (units b) = b := by
  apply Nat.le_antisymm
  · exact units_strictMono.le_iff_le.mp (le_floorBits_iff.mp (Nat.le_refl _))
  · exact le_floorBits_iff.mpr (Nat.le_refl _)

/-! ## Rounding -/

/-- Twice the value halfway between two neighbouring bits. -/
def midpoint (b : Nat) : Nat := units b + units (b + 1)

/-- A fraction is rounded up if it is above the midpoint, or at it where the bits below are odd. -/
theorem exists_nearestBits_eq (num den : Nat) : ∃ up ≤ 1,
    nearestBits num den = min (floorBits (num / den) + up) infinityBits ∧
      (up = 1 ↔ midpoint (floorBits (num / den)) * den < 2 * num ∨
        midpoint (floorBits (num / den)) * den = 2 * num ∧ floorBits (num / den) % 2 = 1) := by
  simp only [nearestBits]
  generalize floorBits (num / den) = low
  rw [show units low + units (low + 1) = midpoint low from rfl]
  cases h : compare (2 * num) (midpoint low * den) with
  | lt =>
    rw [Nat.compare_eq_lt] at h
    exact ⟨0, by omega, rfl, by omega⟩
  | eq =>
    rw [Nat.compare_eq_eq] at h
    exact ⟨low % 2, by omega, rfl, by omega⟩
  | gt =>
    rw [Nat.compare_eq_gt] at h
    exact ⟨1, by omega, rfl, by omega⟩

/-- The fractions that are rounded above `b` are those above the midpoint there. -/
theorem lt_nearestBits_iff {b num den : Nat} (hden : 0 < den) :
    b < nearestBits num den ↔ b < infinityBits ∧
      (midpoint b * den < 2 * num ∨ midpoint b * den = 2 * num ∧ b % 2 = 1) := by
  obtain ⟨up, hup, hbits, hmid⟩ := exists_nearestBits_eq num den
  obtain ⟨hle, hlt⟩ := units_floorBits_le_lt (num / den)
  rw [Nat.le_div_iff_mul_le hden] at hle
  rw [Nat.div_lt_iff_lt_mul hden] at hlt
  rw [hbits, Nat.lt_min, and_comm]
  apply and_congr_right
  intro _
  generalize floorBits (num / den) = low at *
  rcases Nat.lt_trichotomy b low with hb | rfl | hb
  · have hsum : midpoint b < 2 * units low := by
      have hlow : units b < units low := units_strictMono hb
      have hhigh : units (b + 1) ≤ units low := units_strictMono.monotone hb
      unfold midpoint
      omega
    have hbelow : midpoint b * den < 2 * num := by
      calc midpoint b * den < 2 * units low * den := Nat.mul_lt_mul_of_pos_right hsum hden
        _ ≤ 2 * num := by rw [Nat.mul_assoc]; omega
    omega
  · omega
  · have hsum : 2 * units (low + 1) ≤ midpoint b := by
      have hlow : units (low + 1) ≤ units b := units_strictMono.monotone hb
      have hhigh : units b < units (b + 1) := units_lt_units_succ b
      unfold midpoint
      omega
    have habove : 2 * num < midpoint b * den := by
      calc 2 * num < 2 * units (low + 1) * den := by rw [Nat.mul_assoc]; omega
        _ ≤ midpoint b * den := Nat.mul_le_mul_right den hsum
    omega

theorem nearestBits_le (num den : Nat) : nearestBits num den ≤ infinityBits := Nat.min_le_right _ _

/-- Rounding keeps the order of two fractions. -/
theorem nearestBits_le_nearestBits {num den num' den' : Nat} (hden : 0 < den) (hden' : 0 < den')
    (h : num * den' ≤ num' * den) : nearestBits num den ≤ nearestBits num' den' := by
  apply le_of_forall_lt
  intro b hb
  rw [lt_nearestBits_iff hden] at hb
  rw [lt_nearestBits_iff hden']
  obtain ⟨hfinite, hmid⟩ := hb
  refine ⟨hfinite, ?_⟩
  rcases hmid with hmid | ⟨hmid, hodd⟩
  · left
    apply Nat.lt_of_mul_lt_mul_right (a := den)
    calc midpoint b * den' * den = midpoint b * den * den' := Nat.mul_right_comm ..
      _ < 2 * num * den' := Nat.mul_lt_mul_of_pos_right hmid hden'
      _ ≤ 2 * num' * den := by rw [Nat.mul_assoc, Nat.mul_assoc]; omega
  · have hle : midpoint b * den' ≤ 2 * num' := by
      apply Nat.le_of_mul_le_mul_right _ hden
      calc midpoint b * den' * den = midpoint b * den * den' := Nat.mul_right_comm ..
        _ = 2 * num * den' := by rw [hmid]
        _ ≤ 2 * num' * den := by rw [Nat.mul_assoc, Nat.mul_assoc]; omega
    omega

/-- What is a value already is rounded to itself. -/
theorem nearestBits_units {b den : Nat} (hb : b ≤ infinityBits) (hden : 0 < den) :
    nearestBits (units b * den) den = b := by
  have hsucc := units_lt_units_succ b
  have hlt : 2 * (units b * den) < (units b + units (b + 1)) * den := by
    rw [← Nat.mul_assoc]
    exact Nat.mul_lt_mul_of_pos_right (by omega) hden
  simp only [nearestBits, Nat.mul_div_cancel _ hden, floorBits_units, Nat.compare_eq_lt.mpr hlt]
  exact Nat.min_eq_left hb

/-- What is below half the least value is rounded to zero. -/
theorem nearestBits_eq_zero {num den : Nat} (h : 2 * num < den) : nearestBits num den = 0 := by
  apply Nat.eq_zero_of_not_pos
  rw [lt_nearestBits_iff (by omega)]
  rw [show midpoint 0 = 1 from rfl]
  omega

/-- What is not below the value of the first bits above all finite numbers is rounded to infinity. -/
theorem nearestBits_eq_infinityBits {num den : Nat} (hden : 0 < den)
    (h : units infinityBits * den ≤ num) : nearestBits num den = infinityBits := by
  apply Nat.le_antisymm (nearestBits_le num den)
  have hle := nearestBits_le_nearestBits hden hden (Nat.mul_le_mul_right den h)
  rwa [nearestBits_units (Nat.le_refl _) hden] at hle

end Binary64

namespace Decimal

/-- The number a decimal stands for. -/
def value (d : Decimal) : ℚ := d.coefficient * 10 ^ d.exponent

theorem tenTo_pos (n : Nat) : 0 < tenTo n := Nat.pow_pos (by decide)

theorem tenTo_add (m n : Nat) : tenTo (m + n) = tenTo m * tenTo n := Nat.pow_add ..

theorem tenTo_le_tenTo {m n : Nat} (h : m ≤ n) : tenTo m ≤ tenTo n :=
  Nat.pow_le_pow_right (by decide) h

/-- No decimal with an exponent above 400 is below the first bits above all finite numbers. -/
theorem units_infinityBits_le {c n : Nat} (hc : c ≠ 0) (hn : 400 < n) :
    Binary64.units Binary64.infinityBits ≤ c * tenTo n * Binary64.one := by
  have hleast : Binary64.units Binary64.infinityBits ≤ tenTo 401 * Binary64.one := by decide +kernel
  have hpow : tenTo 401 ≤ tenTo n := tenTo_le_tenTo hn
  calc Binary64.units Binary64.infinityBits ≤ tenTo 401 * Binary64.one := hleast
    _ ≤ tenTo n * Binary64.one := Nat.mul_le_mul_right _ hpow
    _ ≤ c * tenTo n * Binary64.one :=
      Nat.mul_le_mul_right _ (Nat.le_mul_of_pos_left _ (Nat.pos_of_ne_zero hc))

/-- A decimal whose exponent outweighs its coefficient by far is below half the least value. -/
theorem mul_one_lt_tenTo {c n : Nat} (hn : 400 + c.log2 < n) : 2 * (c * Binary64.one) < tenTo n := by
  have hone : 4 * Binary64.one < tenTo 401 := by decide +kernel
  have hc : c < 2 ^ (c.log2 + 1) := Nat.lt_log2_self
  have hpow : 2 ^ c.log2 ≤ tenTo c.log2 := Nat.pow_le_pow_left (by decide) _
  calc 2 * (c * Binary64.one) ≤ 2 * (2 ^ (c.log2 + 1) * Binary64.one) :=
        Nat.mul_le_mul_left 2 (Nat.mul_le_mul_right _ (Nat.le_of_lt hc))
    _ = 2 ^ c.log2 * (4 * Binary64.one) := by rw [Nat.pow_succ]; ring
    _ < 2 ^ c.log2 * tenTo 401 := Nat.mul_lt_mul_of_pos_left hone (Nat.two_pow_pos _)
    _ ≤ tenTo c.log2 * tenTo 401 := Nat.mul_le_mul_right _ hpow
    _ = tenTo (c.log2 + 401) := (tenTo_add ..).symm
    _ ≤ tenTo n := tenTo_le_tenTo (by omega)

theorem bits_natCast (c n : Nat) :
    bits ⟨c, n⟩ = Binary64.nearestBits (c * tenTo n * Binary64.one) 1 := by
  by_cases hc : c = 0
  · rw [hc, Nat.zero_mul, Nat.zero_mul]
    rfl
  · by_cases hn : 400 < n
    · rw [Binary64.nearestBits_eq_infinityBits Nat.one_pos
        (by rw [Nat.mul_one]; exact units_infinityBits_le hc hn)]
      simp [bits, hc, hn]
    · simp only [bits, hc, if_false]
      rw [if_neg (by omega), if_neg (by omega), if_pos (by omega), Int.toNat_natCast]

theorem bits_negSucc (c n : Nat) :
    bits ⟨c, Int.negSucc n⟩ = Binary64.nearestBits (c * Binary64.one) (tenTo (n + 1)) := by
  by_cases hc : c = 0
  · rw [hc, Nat.zero_mul, Binary64.nearestBits_eq_zero (tenTo_pos _)]
    rfl
  · by_cases hn : 400 + c.log2 < n + 1
    · rw [Binary64.nearestBits_eq_zero (mul_one_lt_tenTo hn)]
      simp only [bits, hc, if_false]
      rw [if_neg (by omega), if_pos (by omega)]
    · simp only [bits, hc, if_false]
      rw [if_neg (by omega), if_neg (by omega), if_neg (by omega)]
      rfl

/-- Every decimal is rounded as a fraction, those with an exponent outside the format too. -/
theorem exists_bits_eq (d : Decimal) : ∃ num den : Nat, 0 < den ∧
    (num : ℚ) / den = d.value * Binary64.one ∧ d.bits = Binary64.nearestBits num den := by
  obtain ⟨c, e⟩ := d
  cases e with
  | ofNat n =>
    refine ⟨c * tenTo n * Binary64.one, 1, Nat.one_pos, ?_, bits_natCast c n⟩
    simp [value, tenTo]
  | negSucc n =>
    refine ⟨c * Binary64.one, tenTo (n + 1), tenTo_pos _, ?_, bits_negSucc c n⟩
    simp only [value, tenTo, Nat.pow_eq, zpow_negSucc]
    push_cast
    ring

/-- Rounding keeps the order of decimals. -/
theorem bits_le_bits {d d' : Decimal} (h : d.value ≤ d'.value) : d.bits ≤ d'.bits := by
  obtain ⟨num, den, hden, hvalue, hbits⟩ := d.exists_bits_eq
  obtain ⟨num', den', hden', hvalue', hbits'⟩ := d'.exists_bits_eq
  rw [hbits, hbits']
  apply Binary64.nearestBits_le_nearestBits hden hden'
  have hle : (num : ℚ) / den ≤ num' / den' := by
    rw [hvalue, hvalue']
    exact mul_le_mul_of_nonneg_right h (Nat.cast_nonneg _)
  rw [div_le_div_iff₀ (Nat.cast_pos.mpr hden) (Nat.cast_pos.mpr hden')] at hle
  exact_mod_cast hle

/-- Decimals of one value are rounded to the same bits. -/
theorem bits_congr {d d' : Decimal} (h : d.value = d'.value) : d.bits = d'.bits :=
  Nat.le_antisymm (bits_le_bits (le_of_eq h)) (bits_le_bits (ge_of_eq h))

theorem bits_le (d : Decimal) : d.bits ≤ Binary64.infinityBits := by
  obtain ⟨num, den, -, -, hbits⟩ := d.exists_bits_eq
  rw [hbits]
  exact Binary64.nearestBits_le num den

/-- A decimal whose value is that of bits is rounded to them. -/
theorem bits_of_value {d : Decimal} {b : Nat} (hb : b ≤ Binary64.infinityBits)
    (h : d.value * Binary64.one = Binary64.units b) : d.bits = b := by
  obtain ⟨num, den, hden, hvalue, hbits⟩ := d.exists_bits_eq
  rw [h, div_eq_iff (Nat.cast_ne_zero.mpr (Nat.ne_of_gt hden))] at hvalue
  have hnum : num = Binary64.units b * den := by exact_mod_cast hvalue
  rw [hbits, hnum, Binary64.nearestBits_units hb hden]

/-- A power of ten takes one of five and one of two. -/
theorem value_mul_two_pow (u n : Nat) : value ⟨u * 5 ^ n, -n⟩ * 2 ^ n = u := by
  have hten : (10 : ℚ) ^ n = 5 ^ n * 2 ^ n := by
    rw [← mul_pow]
    norm_num
  simp only [value, zpow_neg, zpow_natCast, hten]
  push_cast
  field_simp

theorem bits_exact {b : Nat} (hb : b ≤ Binary64.infinityBits) : (exact b).bits = b := by
  apply bits_of_value hb
  rw [exact, Binary64.one]
  generalize hn : 1074 = n
  have hexponent : (-1074 : Int) = -n := by omega
  rw [hexponent, Nat.one_shiftLeft, Nat.cast_pow]
  exact value_mul_two_pow (Binary64.units b) n

/-- The decimal computed for a float reads back as it. -/
theorem bits_shortest {b : Nat} (hb : b ≤ Binary64.infinityBits) : (shortest b).bits = b := by
  unfold shortest
  cases h : (List.range 21).findSome? fun i : Nat => onGrid? b (exponentAbove b - i) with
  | none => exact bits_exact hb
  | some d =>
    obtain ⟨i, -, hgrid⟩ := List.exists_of_findSome?_eq_some h
    exact bits_of_onGrid? hgrid

end Decimal
end Cyan
