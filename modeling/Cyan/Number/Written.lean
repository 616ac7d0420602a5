/-
The written form of a binary64 number.

A number is written with the fewest digits that read back as it, and always so that it cannot be
taken for an integer: either with a point and at least one digit on each side of it, or with an
exponent, or as `inf` or `NaN`.
-/
import Cyan.Number.Shortest

namespace Cyan

/-- How numbers are laid out: the orders of magnitude that are written positionally, and the texts
that stand for the rest. -/
structure FloatLayout where
  /-- The least power of ten that a positionally written number may begin with. -/
  leastPower : Int
  /-- The first power of ten that needs an exponent again. -/
  powerLimit : Int
  exponentMark : Char
  infinity : String
  notANumber : String

/-- Numbers from 10 ^ -4 up to, and not including, 10 ^ 16 are positional; others have an exponent
marked by `e`. -/
def floatLayout : FloatLayout := ⟨-4, 16, 'e', "inf", "NaN"⟩

namespace Decimal

/-- A coefficient without the zeros at its end, and the exponent that makes up for them. -/
def stripped (d : Decimal) : List Char × Int :=
  let digits := Nat.toDigits 10 d.coefficient
  let kept := (digits.reverse.dropWhile (· = '0')).reverse
  (kept, d.exponent + (digits.length - kept.length : Nat))

/-- The digits `digits` with a point behind the first `point` of them.  Zeros fill the places between
the point and the digits. -/
def positional (digits : List Char) (point : Int) : List Char :=
  if point ≤ 0 then '0' :: '.' :: (List.replicate (-point).toNat '0' ++ digits)
  else if digits.length ≤ point.toNat then
    digits ++ List.replicate (point.toNat - digits.length) '0' ++ ['.', '0']
  else digits.take point.toNat ++ '.' :: digits.drop point.toNat

/-- The digits `digits` with a point behind the first one, if others follow it, and the exponent
`power` of that first digit. -/
def exponential (mark : Char) (digits : List Char) (power : Int) : List Char :=
  let mantissa :=
    match digits with
    | first :: second :: rest => first :: '.' :: second :: rest
    | short => short
  mantissa ++ mark :: (toString power).toList

/-- The written form of a decimal that is not zero. -/
def written (layout : FloatLayout) (d : Decimal) : List Char :=
  let (digits, exponent) := d.stripped
  let power := exponent + digits.length - 1
  if layout.leastPower ≤ power ∧ power < layout.powerLimit then positional digits (power + 1)
  else exponential layout.exponentMark digits power

end Decimal

namespace Binary64

def writtenBits (layout : FloatLayout) (b : Nat) : List Char :=
  if b = 0 then ['0', '.', '0']
  else if b < infinityBits then (Decimal.shortest b).written layout
  else layout.infinity.toList

/-- The written form of a number.  A number that is not a number has no sign. -/
def written (x : Float) : String :=
  if infinityBits < magnitude x then floatLayout.notANumber
  else
    let digits := writtenBits floatLayout (magnitude x)
    String.ofList (if isNegative x then '-' :: digits else digits)

end Binary64
end Cyan
