/-
The values of binary64 numbers, as natural numbers.

Every finite number of the format is a whole multiple of the smallest positive one, 2 ^ -1074, so the
magnitude of a number is settled by two natural numbers: its bits without the sign, and the multiple
`units` of 2 ^ -1074 that these bits write.  `units` is strictly increasing, which makes rounding a
search for the largest bits that are not above a value: `floorBits` finds them in closed form, and
`nearestBits` compares the value with the midpoint above them.  Bits from `infinityBits` on stand for
no finite number, and every value too large for the format rounds to `infinityBits`.
-/

namespace Cyan
namespace Binary64

/-- The bits of positive infinity, which are the first ones above all finite numbers. -/
def infinityBits : Nat := 0x7ff0000000000000

/-- The weight of the sign bit, 2 ^ 63. -/
def signWeight : Nat := 0x8000000000000000

/-- The weight of the lowest bit of the exponent, 2 ^ 52, below which the fraction lies. -/
def exponentWeight : Nat := 0x10000000000000

/-- The number one in units of 2 ^ -1074. -/
def one : Nat := 1 <<< 1074

/-- The multiple of 2 ^ -1074 that is the value of the bits `b`: the lowest 52 bits are the fraction,
the others the exponent, and a number with exponent zero has no leading bit of its own. -/
def units (b : Nat) : Nat :=
  if b < exponentWeight then b
  else (exponentWeight + b % exponentWeight) <<< (b / exponentWeight - 1)

/-- The largest bits whose value is at most `n` times 2 ^ -1074. -/
def floorBits (n : Nat) : Nat :=
  if n < 2 * exponentWeight then n
  else (n.log2 - 52) * exponentWeight + (n >>> (n.log2 - 52))

/-- The bits nearest to `num / den` times 2 ^ -1074.  A value halfway between two numbers goes to the
one with even bits, and a value above all finite numbers to infinity. -/
def nearestBits (num den : Nat) : Nat :=
  let low := floorBits (num / den)
  let rounded :=
    match compare (2 * num) ((units low + units (low + 1)) * den) with
    | .lt => low
    | .eq => low + low % 2
    | .gt => low + 1
  min rounded infinityBits

/-- The number with the magnitude bits `b`, negative if `negative` holds. -/
def ofBits (negative : Bool) (b : Nat) : Float :=
  Float.ofBits (if negative then signWeight + b else b).toUInt64

/-- The bits of a number without its sign. -/
def magnitude (x : Float) : Nat := x.toBits.toNat % signWeight

/-- Whether the sign bit is set, as it is for `-0.0`. -/
def isNegative (x : Float) : Bool := signWeight ≤ x.toBits.toNat

def ofInt (n : Int) : Float := ofBits (n < 0) (nearestBits (n.natAbs * one) 1)

/-! ## The value of bits -/

theorem units_of_lt {b : Nat} (h : b < 2 * exponentWeight) : units b = b := by
  unfold units
  split
  · rfl
  · have hquot : b / exponentWeight - 1 = 0 := by unfold exponentWeight at *; omega
    rw [hquot, Nat.shiftLeft_zero]
    unfold exponentWeight at *
    omega

/-- Bits with a positive exponent are read as a fraction with a leading bit, shifted. -/
theorem units_add_mul {k m : Nat} (hlow : exponentWeight ≤ m) (hhigh : m < 2 * exponentWeight) :
    units (k * exponentWeight + m) = m <<< k := by
  unfold units
  have hquot : (k * exponentWeight + m) / exponentWeight - 1 = k := by
    unfold exponentWeight at *; omega
  have hrem : exponentWeight + (k * exponentWeight + m) % exponentWeight = m := by
    unfold exponentWeight at *; omega
  rw [if_neg (by unfold exponentWeight at *; omega), hquot, hrem]

end Binary64
end Cyan
