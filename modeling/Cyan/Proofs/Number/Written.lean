/-
The written form of a float, and reading it again.

A decimal has the value of its digits without the zeros behind them, and its power of ten is the
greatest that is not above this value (`Decimal.le_power_iff`).  So a float without a sign is written
with a point and no exponent just if it is zero or lies in the range of `Binary64.Positional`, and then
the digits on both sides of the point give back its bits (`Binary64.exists_writtenBits_eq`).  Any other
is written as a word, or with a mantissa that is an integer or a float of that range, and so no numeral
(`Binary64.writtenBits_cases`).

Rounding does not move a float over the ends of the range, because both ends are decimals that floats
are written as.
-/
import Cyan.Number.Written
import Cyan.Proofs.Number.Magnitude
import Mathlib.Data.List.TakeWhile
import Mathlib.Tactic.NormNum

namespace Cyan
namespace Decimal

/-! ## The value of digits -/

theorem digitsValue_append (cs ds : List Char) :
    digitsValue (cs ++ ds) = 10 ^ ds.length * digitsValue cs + digitsValue ds := by
  rw [digitsValue_eq_foldl, digitsValue_eq_foldl, digitsValue_eq_foldl]
  exact (Nat.ofDigitChars_append 0).trans Nat.ofDigitChars_eq_ofDigitChars_zero

theorem digitsValue_zeros (n : Nat) : digitsValue (List.replicate n '0') = 0 := by
  rw [digitsValue_eq_foldl]
  exact Nat.ofDigitChars_replicate_zero

theorem digitsValue_zeros_append (n : Nat) (cs : List Char) :
    digitsValue (List.replicate n '0' ++ cs) = digitsValue cs := by
  rw [digitsValue_append, digitsValue_zeros, Nat.mul_zero, Nat.zero_add]

theorem digitsValue_append_zeros (cs : List Char) (n : Nat) :
    digitsValue (cs ++ List.replicate n '0') = 10 ^ n * digitsValue cs := by
  rw [digitsValue_append, digitsValue_zeros, List.length_replicate, Nat.add_zero]

theorem digitsValue_toDigits (n : Nat) : digitsValue (Nat.toDigits 10 n) = n := by
  rw [digitsValue_eq_foldl]
  exact Nat.ofDigitChars_ten_toDigits

theorem value_ofDigits (whole fraction : List Char) :
    (ofDigits whole fraction).value =
      digitsValue (whole ++ fraction) * 10 ^ (-(fraction.length : Int)) := rfl

/-- A row of characters without the zeros at its end. -/
theorem exists_eq_append_zeros (cs : List Char) :
    ∃ n, cs = (cs.reverse.dropWhile (· = '0')).reverse ++ List.replicate n '0' := by
  refine ⟨(cs.reverse.takeWhile (· = '0')).length, ?_⟩
  have hzeros : cs.reverse.takeWhile (· = '0') =
      List.replicate (cs.reverse.takeWhile (· = '0')).length '0' := by
    apply List.eq_replicate_of_mem
    intro c hc
    simpa using List.mem_takeWhile_imp hc
  rw [← List.reverse_inj, List.reverse_append, List.reverse_reverse, List.reverse_replicate, ← hzeros,
    List.takeWhile_append_dropWhile]

/-! ## The digits of a decimal -/

variable (d : Decimal)

/-- The digits of the coefficient are those that are kept and zeros. -/
theorem exists_toDigits_eq : ∃ n : Nat,
    Nat.toDigits 10 d.coefficient = d.stripped.1 ++ List.replicate n '0' ∧
      d.stripped.2 = d.exponent + n := by
  obtain ⟨n, hn⟩ := exists_eq_append_zeros (Nat.toDigits 10 d.coefficient)
  refine ⟨n, hn, ?_⟩
  have hlength := congrArg List.length hn
  rw [List.length_append, List.length_replicate] at hlength
  simp only [stripped]
  omega

theorem isDigit_stripped : ∀ c ∈ d.stripped.1, c.isDigit = true := by
  intro c hc
  obtain ⟨n, hn, -⟩ := d.exists_toDigits_eq
  apply Nat.isDigit_of_mem_toDigits (b := 10) (n := d.coefficient) (by decide) (by decide)
  rw [hn]
  exact List.mem_append_left _ hc

theorem value_eq_stripped : d.value = digitsValue d.stripped.1 * 10 ^ d.stripped.2 := by
  obtain ⟨n, hn, hexponent⟩ := d.exists_toDigits_eq
  have hcoefficient : d.coefficient = 10 ^ n * digitsValue d.stripped.1 := by
    rw [← digitsValue_toDigits d.coefficient, hn, digitsValue_append_zeros]
  rw [value, hcoefficient, hexponent, zpow_add₀ (by norm_num), zpow_natCast]
  push_cast
  ring

/-- The power of ten that the first digit stands for. -/
def power : Int := d.stripped.2 + d.stripped.1.length - 1

theorem power_eq : d.power = d.exponent + (Nat.toDigits 10 d.coefficient).length - 1 := by
  obtain ⟨n, hn, hexponent⟩ := d.exists_toDigits_eq
  rw [hn, List.length_append, List.length_replicate, power, hexponent]
  omega

variable {d}

theorem stripped_ne_nil (h : d.coefficient ≠ 0) : d.stripped.1 ≠ [] := by
  intro hnil
  have hvalue := d.value_eq_stripped
  rw [hnil, value, show digitsValue [] = 0 from rfl, Nat.cast_zero, zero_mul, mul_eq_zero] at hvalue
  rcases hvalue with hzero | hzero
  · exact h (Nat.cast_eq_zero.mp hzero)
  · exact absurd hzero (zpow_ne_zero _ (by norm_num))

theorem value_lt_of_power (h : d.coefficient ≠ 0) :
    (10 : ℚ) ^ d.power ≤ d.value ∧ d.value < 10 ^ (d.power + 1) := by
  have hpos : 0 < (Nat.toDigits 10 d.coefficient).length := Nat.length_toDigits_pos
  obtain ⟨n, hn⟩ := Nat.exists_eq_succ_of_ne_zero (Nat.ne_of_gt hpos)
  have hhigh : d.coefficient < 10 ^ (n + 1) :=
    (Nat.length_toDigits_le_iff (by decide) (Nat.succ_pos n)).mp (Nat.le_of_eq hn)
  have hlow : 10 ^ n ≤ d.coefficient := by
    by_cases hzero : n = 0
    · rw [hzero, Nat.pow_zero]
      omega
    · apply Nat.le_of_not_lt
      rw [← Nat.length_toDigits_le_iff (by decide) (Nat.pos_of_ne_zero hzero), hn]
      exact Nat.not_succ_le_self n
  have hpower : d.power = n + d.exponent := by
    rw [power_eq, hn]
    omega
  have hten : (0 : ℚ) < 10 ^ d.exponent := zpow_pos (by norm_num) _
  rw [hpower, add_right_comm, zpow_add₀ (by norm_num), zpow_add₀ (by norm_num), value]
  constructor
  · apply mul_le_mul_of_nonneg_right _ (le_of_lt hten)
    exact_mod_cast hlow
  · apply mul_lt_mul_of_pos_right _ hten
    exact_mod_cast hhigh

/-- The power of a decimal is the greatest that is not above its value. -/
theorem le_power_iff (h : d.coefficient ≠ 0) {e : Int} : e ≤ d.power ↔ (10 : ℚ) ^ e ≤ d.value := by
  obtain ⟨hlow, hhigh⟩ := value_lt_of_power h
  constructor
  · intro he
    exact le_trans (zpow_le_zpow_right₀ (by norm_num) he) hlow
  · intro he
    have hlt : (10 : ℚ) ^ e < 10 ^ (d.power + 1) := lt_of_le_of_lt he hhigh
    rw [zpow_lt_zpow_iff_right₀ (by norm_num)] at hlt
    omega

/-! ## Laying out digits -/

/-- A point among digits moves their value. -/
theorem exists_positional_eq {digits : List Char} (hne : digits ≠ [])
    (hdigits : ∀ c ∈ digits, c.isDigit = true) (point : Int) : ∃ whole fraction,
      positional digits point = whole ++ '.' :: fraction ∧ whole ≠ [] ∧
        (∀ c ∈ whole, c.isDigit = true) ∧ (∀ c ∈ fraction, c.isDigit = true) ∧
        (ofDigits whole fraction).value = digitsValue digits * 10 ^ (point - digits.length) := by
  have hzero : ∀ n, ∀ c ∈ List.replicate n '0', c.isDigit = true := by
    intro n c hc
    rw [List.eq_of_mem_replicate hc]
    rfl
  by_cases hleft : point ≤ 0
  · refine ⟨['0'], List.replicate (-point).toNat '0' ++ digits, ?_, by simp, ?_, ?_, ?_⟩
    · rw [positional, if_pos hleft]
      rfl
    · exact hzero 1
    · exact List.forall_mem_append.mpr ⟨hzero _, hdigits⟩
    · rw [value_ofDigits, show ['0'] = List.replicate 1 '0' from rfl, digitsValue_zeros_append,
        digitsValue_zeros_append, List.length_append, List.length_replicate]
      congr 2
      omega
  · by_cases hright : digits.length ≤ point.toNat
    · refine ⟨digits ++ List.replicate (point.toNat - digits.length) '0', ['0'], ?_, by simp [hne], ?_,
        hzero 1, ?_⟩
      · rw [positional, if_neg hleft, if_pos hright]
      · exact List.forall_mem_append.mpr ⟨hdigits, hzero _⟩
      · rw [value_ofDigits, show ['0'] = List.replicate 1 '0' from rfl, digitsValue_append_zeros,
          digitsValue_append_zeros, List.length_replicate,
          show point - digits.length = (point.toNat - digits.length : Nat) by omega, zpow_natCast]
        push_cast
        norm_num
        ring
    · refine ⟨digits.take point.toNat, digits.drop point.toNat, ?_, ?_, ?_, ?_, ?_⟩
      · rw [positional, if_neg hleft, if_neg hright]
      · rw [← List.length_pos_iff, List.length_take]
        omega
      · exact fun c hc => hdigits c (List.mem_of_mem_take hc)
      · exact fun c hc => hdigits c (List.mem_of_mem_drop hc)
      · rw [value_ofDigits, List.take_append_drop, List.length_drop]
        congr 2
        omega

/-- A decimal within the bounds of a layout is written with a point and no exponent. -/
theorem exists_written_eq (layout : FloatLayout) (h : d.coefficient ≠ 0)
    (hpower : layout.leastPower ≤ d.power ∧ d.power < layout.powerLimit) : ∃ whole fraction,
      d.written layout = whole ++ '.' :: fraction ∧ whole ≠ [] ∧
        (∀ c ∈ whole, c.isDigit = true) ∧ (∀ c ∈ fraction, c.isDigit = true) ∧
        (ofDigits whole fraction).value = d.value := by
  obtain ⟨whole, fraction, htext, hne, hwhole, hfraction, hvalue⟩ :=
    exists_positional_eq (stripped_ne_nil h) d.isDigit_stripped (d.power + 1)
  refine ⟨whole, fraction, ?_, hne, hwhole, hfraction, ?_⟩
  · rw [← htext]
    exact if_pos hpower
  · rw [hvalue, value_eq_stripped, power]
    congr 2
    omega

/-- Any other decimal is written as a single digit, or as a mantissa with one digit before the point,
and its power behind it as an exponent. -/
theorem exists_exponential_eq (layout : FloatLayout) (h : d.coefficient ≠ 0)
    (hpower : ¬(layout.leastPower ≤ d.power ∧ d.power < layout.powerLimit)) : ∃ first fraction,
      first.isDigit = true ∧ (∀ c ∈ fraction, c.isDigit = true) ∧
        (ofDigits [first] fraction).value * 10 ^ d.power = d.value ∧
        (fraction = [] ∧ d.written layout = first :: layout.exponentMark :: (toString d.power).toList ∨
          d.written layout =
            first :: '.' :: (fraction ++ layout.exponentMark :: (toString d.power).toList)) := by
  have htext : d.written layout = exponential layout.exponentMark d.stripped.1 d.power := if_neg hpower
  obtain ⟨first, fraction, hdigits⟩ := List.exists_cons_of_ne_nil (stripped_ne_nil h)
  have hdigit := d.isDigit_stripped
  rw [hdigits, List.forall_mem_cons] at hdigit
  refine ⟨first, fraction, hdigit.1, hdigit.2, ?_, ?_⟩
  · rw [d.value_eq_stripped, power, hdigits, value_ofDigits, mul_assoc, ← zpow_add₀ (by norm_num),
      List.length_cons]
    congr 2
    omega
  · rw [htext, hdigits]
    cases fraction with
    | nil => exact Or.inl ⟨rfl, rfl⟩
    | cons second rest => exact Or.inr rfl

/-- A mantissa is at least one and below ten. -/
theorem mantissa_bounds {m : Decimal} (h : d.coefficient ≠ 0) (hm : m.value * 10 ^ d.power = d.value) :
    1 ≤ m.value ∧ m.value < 10 := by
  have hten : (0 : ℚ) < 10 ^ d.power := zpow_pos (by norm_num) _
  obtain ⟨hlow, hhigh⟩ := value_lt_of_power h
  rw [← hm] at hlow hhigh
  rw [zpow_add₀ (by norm_num), mul_comm (10 ^ d.power)] at hhigh
  constructor
  · exact le_of_mul_le_mul_right (by rwa [one_mul]) hten
  · exact lt_of_mul_lt_mul_right hhigh (le_of_lt hten)

end Decimal

namespace Binary64

/-- Whether the float with the bits `b` is zero, or at least 10 ^ -4 and below 10 ^ 16. -/
def Positional (b : Nat) : Prop :=
  b = 0 ∨ Decimal.bits ⟨1, -4⟩ ≤ b ∧ b < Decimal.bits ⟨1, 16⟩

variable {b : Nat}

theorem coefficient_shortest_ne_zero (hb : b ≤ infinityBits) (hzero : b ≠ 0) :
    (Decimal.shortest b).coefficient ≠ 0 := by
  intro h
  apply hzero
  rw [← Decimal.bits_shortest hb, Decimal.bits, if_pos h]

/-- A power of ten that a float is written as divides the floats like their written forms. -/
theorem bits_le_iff_le_value {e : Int} (he : Decimal.shortest (Decimal.bits ⟨1, e⟩) = ⟨1, e⟩)
    (hb : b ≤ infinityBits) :
    Decimal.bits ⟨1, e⟩ ≤ b ↔ (10 : ℚ) ^ e ≤ (Decimal.shortest b).value := by
  have hvalue : (Decimal.mk 1 e).value = 10 ^ e := by simp [Decimal.value]
  constructor
  · intro hle
    rcases Nat.lt_or_eq_of_le hle with hlt | rfl
    · apply le_of_not_gt
      intro hbelow
      rw [← hvalue] at hbelow
      have hbits := Decimal.bits_le_bits (le_of_lt hbelow)
      rw [Decimal.bits_shortest hb] at hbits
      omega
    · rw [he, hvalue]
  · intro hle
    rw [← hvalue] at hle
    have hbits := Decimal.bits_le_bits hle
    rwa [Decimal.bits_shortest hb] at hbits

/-- Floats are written as the ends of the range, and 10 lies below the upper one. -/
theorem shortest_bits_ends :
    Decimal.shortest (Decimal.bits ⟨1, -4⟩) = ⟨1, -4⟩ ∧ Decimal.shortest (Decimal.bits ⟨1, 16⟩) = ⟨1, 16⟩ ∧
      Decimal.bits ⟨10, 0⟩ < Decimal.bits ⟨1, 16⟩ := by
  decide +kernel

theorem positional_iff_power (hb : b ≤ infinityBits) (hzero : b ≠ 0) :
    Positional b ↔ floatLayout.leastPower ≤ (Decimal.shortest b).power ∧
      (Decimal.shortest b).power < floatLayout.powerLimit := by
  have hcoefficient := coefficient_shortest_ne_zero hb hzero
  obtain ⟨hleast, hlimit, -⟩ := shortest_bits_ends
  rw [Positional, or_iff_right hzero, ← Nat.not_le, ← Int.not_le,
    bits_le_iff_le_value hleast hb, bits_le_iff_le_value hlimit hb,
    ← Decimal.le_power_iff hcoefficient, ← Decimal.le_power_iff hcoefficient]
  rfl

/-- The range as comparisons of floats. -/
theorem positional_iff (hb : b ≤ infinityBits) :
    ((ofBits false b == 0) = true ∨ 1e-4 ≤ ofBits false b ∧ ofBits false b < 1e16) ↔ Positional b := by
  obtain ⟨hzero, hleast, hlimit⟩ : (0 : Float) = ofBits false 0 ∧
      (1e-4 : Float) = ofBits false (Decimal.bits ⟨1, -4⟩) ∧
      (1e16 : Float) = ofBits false (Decimal.bits ⟨1, 16⟩) := by decide +kernel
  rw [hzero, hleast, hlimit, ofBits_beq_ofBits hb (Nat.zero_le _),
    ofBits_le_ofBits (Decimal.bits_le _) hb, ofBits_lt_ofBits hb (Decimal.bits_le _)]
  rfl

/-! ## Reading the written form -/

theorem written_ofBits (hb : b ≤ infinityBits) :
    written (ofBits false b) = String.ofList (writtenBits floatLayout b) := by
  have hbits := toNat_toBits_ofBits hb
  have hsmall : b < signWeight := Nat.lt_of_le_of_lt hb (by decide)
  have hmagnitude : magnitude (ofBits false b) = b := by
    rw [magnitude, hbits, Nat.mod_eq_of_lt hsmall]
  have hsign : isNegative (ofBits false b) = false := by
    rw [isNegative, hbits]
    exact decide_eq_false (Nat.not_le_of_lt hsmall)
  rw [written, hmagnitude, if_neg (Nat.not_lt_of_le hb), hsign]
  rfl

/-- Within the range, the digits on both sides of the point give the float back. -/
theorem exists_writtenBits_eq (hb : b ≤ infinityBits) (h : Positional b) : ∃ whole fraction,
    writtenBits floatLayout b = whole ++ '.' :: fraction ∧ whole ≠ [] ∧
      (∀ c ∈ whole, c.isDigit = true) ∧ (∀ c ∈ fraction, c.isDigit = true) ∧
      (Decimal.ofDigits whole fraction).bits = b := by
  by_cases hzero : b = 0
  · subst hzero
    exact ⟨['0'], ['0'], rfl, by simp, by simp, by simp, rfl⟩
  · have hpower := (positional_iff_power hb hzero).mp h
    have hfinite : b < infinityBits := by
      have hlimit := (h.resolve_left hzero).2
      exact Nat.lt_of_lt_of_le hlimit (Decimal.bits_le _)
    obtain ⟨whole, fraction, htext, hne, hwhole, hfraction, hvalue⟩ :=
      Decimal.exists_written_eq floatLayout (coefficient_shortest_ne_zero hb hzero) hpower
    refine ⟨whole, fraction, ?_, hne, hwhole, hfraction, ?_⟩
    · rw [writtenBits, if_neg hzero, if_pos hfinite, htext]
    · rw [Decimal.bits_congr hvalue, Decimal.bits_shortest hb]

/-- Numbers of one digit before the point lie within the range. -/
theorem positional_of_value {d : Decimal} (h : 1 ≤ d.value ∧ d.value < 10) : Positional d.bits := by
  have hlow : (Decimal.mk 1 (-4)).value ≤ d.value := by
    refine le_trans ?_ h.1
    norm_num [Decimal.value]
  have hhigh : d.value ≤ (Decimal.mk 10 0).value := by
    refine le_trans (le_of_lt h.2) ?_
    norm_num [Decimal.value]
  obtain ⟨-, -, hlimit⟩ := shortest_bits_ends
  exact Or.inr ⟨Decimal.bits_le_bits hlow, Nat.lt_of_le_of_lt (Decimal.bits_le_bits hhigh) hlimit⟩

/-- Outside the range, a finite float is written with an exponent. -/
theorem exists_exponential_eq (hb : b < infinityBits) (h : ¬Positional b) : ∃ first fraction,
    first.isDigit = true ∧ (∀ c ∈ fraction, c.isDigit = true) ∧
      (Decimal.ofDigits [first] fraction).value * 10 ^ (Decimal.shortest b).power =
        (Decimal.shortest b).value ∧
      (fraction = [] ∧
          writtenBits floatLayout b = first :: 'e' :: (toString (Decimal.shortest b).power).toList ∨
        writtenBits floatLayout b =
          first :: '.' :: (fraction ++ 'e' :: (toString (Decimal.shortest b).power).toList)) := by
  have hzero : b ≠ 0 := fun heq => h (Or.inl heq)
  rw [writtenBits, if_neg hzero, if_pos hb]
  exact Decimal.exists_exponential_eq floatLayout
    (coefficient_shortest_ne_zero (Nat.le_of_lt hb) hzero)
    (mt (positional_iff_power (Nat.le_of_lt hb) hzero).mpr h)

/-- Outside the range, the written form begins with a numeral for another number, or is a word. -/
theorem writtenBits_cases (hb : b ≤ infinityBits) (h : ¬Positional b) :
    writtenBits floatLayout b = ['i', 'n', 'f'] ∨
      ∃ first fraction tail, first.isDigit = true ∧ (∀ c ∈ fraction, c.isDigit = true) ∧
        (Decimal.ofDigits [first] fraction).bits ≠ b ∧
        (writtenBits floatLayout b = first :: 'e' :: tail ∨
          writtenBits floatLayout b = first :: '.' :: (fraction ++ 'e' :: tail)) := by
  have hzero : b ≠ 0 := fun heq => h (Or.inl heq)
  by_cases hfinite : b < infinityBits
  · right
    obtain ⟨first, fraction, hfirst, hfraction, hvalue, htext⟩ := exists_exponential_eq hfinite h
    refine ⟨first, fraction, (toString (Decimal.shortest b).power).toList, hfirst, hfraction, ?_,
      htext.imp_left And.right⟩
    have hbounds := Decimal.mantissa_bounds (coefficient_shortest_ne_zero hb hzero) hvalue
    intro hbits
    exact h (hbits ▸ positional_of_value hbounds)
  · left
    rw [writtenBits, if_neg hzero, if_neg hfinite]
    rfl

end Binary64
end Cyan
