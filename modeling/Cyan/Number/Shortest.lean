/-
The shortest decimal that reads back as a given binary64 number.

Decimals are tried on ever finer grids of multiples of a power of ten, beginning with a power above
the number.  On each grid only the two neighbours of the number can be nearest to it, and the first
grid on which a neighbour reads back as the number gives the fewest digits.  Of two neighbours that
both read back the nearer one is taken, and the upper one if both are equally near.
-/
import Cyan.Number.Decimal

namespace Cyan
namespace Decimal

/-- The numerator and denominator of the value of `b` in multiples of `10 ^ e`. -/
def onGrid (b : Nat) (e : Int) : Nat × Nat :=
  if 0 ≤ e then (Binary64.units b, Binary64.one * tenTo e.toNat)
  else (Binary64.units b * tenTo (-e).toNat, Binary64.one)

/-- The multiple of `10 ^ e` that reads back as `b`, if one does.  An exact tie goes up. -/
def onGrid? (b : Nat) (e : Int) : Option Decimal :=
  let (num, den) := onGrid b e
  let low : Decimal := ⟨num / den, e⟩
  let high : Decimal := ⟨num / den + 1, e⟩
  match decide (low.bits = b), decide (high.bits = b) with
  | true, true => some (if 2 * (num % den) < den then low else high)
  | true, false => some low
  | false, true => some high
  | false, false => none

/-- The decimal whose value is exactly that of `b`. -/
def exact (b : Nat) : Decimal := ⟨Binary64.units b * Nat.pow 5 1074, -1074⟩

/-- An exponent whose power of ten is above the value of `b`, and not far above it. -/
def exponentAbove (b : Nat) : Int :=
  ((Binary64.units b).log2 + 1 - 1074 : Int) * 30103 / 100000 + 2

/-- A decimal that reads back as `b`, with the fewest digits among all that do.  At most 17 digits
are needed, so the grids searched reach 18 digits and more. -/
def shortest (b : Nat) : Decimal :=
  ((List.range 21).findSome? fun i : Nat => onGrid? b (exponentAbove b - i)).getD (exact b)

/-- A decimal found on a grid reads back as the number it was sought for. -/
theorem bits_of_onGrid? {b : Nat} {e : Int} {d : Decimal} (h : onGrid? b e = some d) :
    d.bits = b := by
  unfold onGrid? at h
  simp only at h
  split at h
  · next hlow hhigh =>
    simp only [decide_eq_true_eq] at hlow hhigh
    simp only [Option.some.injEq] at h
    subst h
    split <;> assumption
  · next hlow _ =>
    simp only [decide_eq_true_eq] at hlow
    simp only [Option.some.injEq] at h
    exact h ▸ hlow
  · next _ hhigh =>
    simp only [decide_eq_true_eq] at hhigh
    simp only [Option.some.injEq] at h
    exact h ▸ hhigh
  · simp at h

end Decimal
end Cyan
