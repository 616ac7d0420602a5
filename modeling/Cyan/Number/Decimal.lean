/-
Decimal numbers and the binary64 number nearest to each.

A `Decimal` is a natural coefficient times a power of ten.  Its nearest binary64 number is found in
exact arithmetic, so a numeral of any length is rounded once.  Exponents far outside the format are
settled by size before any power of ten is formed, which keeps a numeral such as `1e999999999` cheap.
-/
import Cyan.Number.Binary64

namespace Cyan

/-- The number `coefficient * 10 ^ exponent`. -/
structure Decimal where
  coefficient : Nat
  exponent : Int
deriving DecidableEq, Repr, Inhabited

namespace Decimal

def tenTo (n : Nat) : Nat := Nat.pow 10 n

/-- The magnitude bits of the binary64 number nearest to a decimal.  Above 10 ^ 400 every number is
infinite, and below 10 ^ -399 every number rounds to zero. -/
def bits (d : Decimal) : Nat :=
  if d.coefficient = 0 then 0
  else if 400 < d.exponent then Binary64.infinityBits
  else if d.exponent < -(400 + (d.coefficient.log2 : Int)) then 0
  else if 0 ≤ d.exponent then
    Binary64.nearestBits (d.coefficient * tenTo d.exponent.toNat * Binary64.one) 1
  else Binary64.nearestBits (d.coefficient * Binary64.one) (tenTo (-d.exponent).toNat)

/-- The binary64 number nearest to a decimal, with a minus sign if `negative` holds. -/
def toFloat (negative : Bool) (d : Decimal) : Float := Binary64.ofBits negative d.bits

/-- The value of a row of digits in some base, the least digit first. -/
def valueInBase (base : Nat) (digits : List Nat) : Nat := digits.foldr (fun d n => d + base * n) 0

/-- Each two neighbouring digits as one digit of the base squared. -/
def pairUp (base : Nat) : List Nat → List Nat
  | low :: high :: rest => (low + base * high) :: pairUp base rest
  | short => short

/-- The value of a row of digits in some base, the least digit first.  The digits are paired up until
one is left, for which `n` rounds are allowed, so that long rows need few products of long numbers. -/
def valueByPairs (base : Nat) : Nat → List Nat → Nat
  | _, [] => 0
  | _, [d] => d
  | 0, digits => valueInBase base digits
  | n + 1, digits => valueByPairs (base * base) n (pairUp base digits)

/-- The value of a row of decimal digits. -/
def digitsValue (cs : List Char) : Nat :=
  valueByPairs 10 cs.length (cs.reverse.map fun c => c.toNat - '0'.toNat)

/-- The decimal written by the digits `whole`, a point, and the digits `fraction`. -/
def ofDigits (whole fraction : List Char) : Decimal :=
  ⟨digitsValue (whole ++ fraction), -(fraction.length : Int)⟩

theorem valueInBase_pairUp (base : Nat) (digits : List Nat) :
    valueInBase (base * base) (pairUp base digits) = valueInBase base digits := by
  fun_induction pairUp base digits with
  | case1 low high rest ih =>
    simp only [valueInBase, List.foldr_cons] at ih ⊢
    rw [ih, Nat.mul_add, Nat.mul_assoc, Nat.add_assoc]
  | case2 short hshort =>
    match short, hshort with
    | [], _ => rfl
    | [_], _ => rfl
    | low :: high :: rest, h => exact absurd rfl (h low high rest)

theorem valueByPairs_eq (base n : Nat) (digits : List Nat) :
    valueByPairs base n digits = valueInBase base digits := by
  fun_induction valueByPairs base n digits with
  | case1 | case2 => rfl
  | case3 => rfl
  | case4 base digits n _ _ ih => rw [ih, valueInBase_pairUp]

/-- The value of a row of decimal digits is what reading them one by one gives. -/
theorem digitsValue_eq_foldl (cs : List Char) :
    digitsValue cs = cs.foldl (fun n c => 10 * n + (c.toNat - '0'.toNat)) 0 := by
  rw [digitsValue, valueByPairs_eq, valueInBase, List.foldr_map, List.foldr_reverse]
  simp only [Nat.add_comm]

end Decimal
end Cyan
