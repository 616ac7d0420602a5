/-
Numbers: 64-bit integers and binary64 floating point numbers.

Integer arithmetic is exact as long as its result fits; a result that does not fit is computed again
in floating point.  `Number.arithmetic` is that rule, and addition, subtraction, multiplication and
powers are instances of it.  Division always gives a float.  Two integers are compared exactly, and
any other pair as floats, where nothing is comparable with a NaN.
-/
import Cyan.Number.Written

namespace Cyan

inductive Number where
  | int (n : Int64)
  | float (x : Float)
deriving DecidableEq, Repr, Inhabited

/-- The 64-bit integer with the value `n`, if there is one. -/
def exactInt? (n : Int) : Option Int64 :=
  if Int64.minValue.toInt ≤ n ∧ n ≤ Int64.maxValue.toInt then some (Int64.ofInt n) else none

/-- The power `l ^ r` as a 64-bit integer, if it fits.  Beyond the exponent 64 only powers of -1, 0
and 1 fit, and they depend on nothing but the exponent's parity. -/
def exactPower? (l : Int) (r : Nat) : Option Int64 :=
  exactInt? (Int.pow l (if r ≤ 64 then r else 64 + r % 2))

namespace Number

/-- The float a number is or rounds to. -/
def toFloat : Number → Float
  | int n => Binary64.ofInt n.toInt
  | float x => x

def isZero (a : Number) : Bool := a.toFloat == 0.0

/-- The integer result where both numbers are integers and there is one, the float result where not. -/
def arithmetic (exact : Int → Int → Option Int64) (rounded : Float → Float → Float) (a b : Number) :
    Number :=
  match a, b with
  | int l, int r =>
    match exact l.toInt r.toInt with
    | some n => int n
    | none => float (rounded a.toFloat b.toFloat)
  | _, _ => float (rounded a.toFloat b.toFloat)

def add : Number → Number → Number := arithmetic (fun l r => exactInt? (l + r)) (· + ·)

def subtract : Number → Number → Number := arithmetic (fun l r => exactInt? (l - r)) (· - ·)

def multiply : Number → Number → Number := arithmetic (fun l r => exactInt? (l * r)) (· * ·)

/-- A quotient is a float.  There is none for a divisor that equals zero. -/
def divide? (a b : Number) : Option Number :=
  if b.isZero then none else some (float (a.toFloat / b.toFloat))

/-- The first exponent that is too large for an integer power, 2 ^ 32. -/
def exponentLimit : Int := 0x100000000

/-- The exponent of an integer power is not negative and below `exponentLimit`; with any other
exponent the power is a float. -/
def power : Number → Number → Number :=
  arithmetic (fun l r => if 0 ≤ r ∧ r < exponentLimit then exactPower? l r.toNat else none)
    Float.pow

/-- The order of two floats, where they are comparable.  The two zeros are equal. -/
def compareFloat? (x y : Float) : Option Ordering :=
  if x < y then some .lt
  else if x == y then some .eq
  else if y < x then some .gt
  else none

/-- The order of two numbers, where they are comparable. -/
def compare? : Number → Number → Option Ordering
  | int l, int r => some (compare l.toInt r.toInt)
  | a, b => compareFloat? a.toFloat b.toFloat

/-- Equality as the language has it: `1 == 1.0`, and a NaN equals nothing. -/
def equal (a b : Number) : Bool := compare? a b == some .eq

def less (a b : Number) : Bool := compare? a b == some .lt

def greater (a b : Number) : Bool := compare? a b == some .gt

def lessEqual (a b : Number) : Bool := compare? a b == some .lt || compare? a b == some .eq

def greaterEqual (a b : Number) : Bool := compare? a b == some .gt || compare? a b == some .eq

def written : Number → String
  | int n => toString n.toInt
  | float x => Binary64.written x

end Number

theorem toInt_of_exactInt? {n : Int} {m : Int64} (h : exactInt? n = some m) : m.toInt = n := by
  unfold exactInt? at h
  split at h
  · next hn =>
    simp only [Option.some.injEq] at h
    subst h
    have hmin : Int64.minValue.toInt = -9223372036854775808 := by decide
    have hmax : Int64.maxValue.toInt = 9223372036854775807 := by decide
    exact Int64.toInt_ofInt_of_le (by omega) (by omega)
  · simp at h

/-- Every integer of 64 bits is the one with its value. -/
theorem exactInt?_toInt (n : Int64) : exactInt? n.toInt = some n := by
  have hmin : Int64.minValue.toInt ≤ n.toInt := n.minValue_le_toInt
  have hmax : n.toInt ≤ Int64.maxValue.toInt := n.toInt_le
  rw [exactInt?, if_pos ⟨hmin, hmax⟩, Int64.ofInt_toInt]

/-- The integers that do not fit are those below the least and above the greatest. -/
theorem exactInt?_eq_none_iff {n : Int} :
    exactInt? n = none ↔ n < Int64.minValue.toInt ∨ Int64.maxValue.toInt < n := by
  unfold exactInt?
  split
  · simp only [reduceCtorEq, false_iff]
    omega
  · simp only [true_iff]
    omega

end Cyan
