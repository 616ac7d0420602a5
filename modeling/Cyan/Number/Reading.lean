/-
Reading numbers.

A numeral of a program is a row of digits with at most one point.  Without a point it is an integer
if it fits one, and a float otherwise.  A text given to `Num` may in addition carry a sign, an
exponent and blanks around it, may leave out the digits on one side of the point, and may be one of
the words `inf`, `infinity` and `nan` in any case.
-/
import Cyan.Number.Basic
import Cyan.Text.Blank

namespace Cyan
namespace Number

/-- The number a numeral stands for: the digits `whole`, and behind a point, if there is one, the
digits `fraction?`. -/
def ofNumeral (whole : List Char) (fraction? : Option (List Char)) : Number :=
  match fraction? with
  | some fraction => float (Decimal.toFloat false (Decimal.ofDigits whole fraction))
  | none =>
    match exactInt? (Decimal.digitsValue whole) with
    | some n => int n
    | none => float (Decimal.toFloat false (Decimal.ofDigits whole []))

/-- Whether a row of characters is a row of at least one digit. -/
def isDigits (cs : List Char) : Bool := !cs.isEmpty && cs.all Char.isDigit

/-- A text without its sign, and whether that sign was a minus. -/
def splitSign : List Char → Bool × List Char
  | '-' :: cs => (true, cs)
  | '+' :: cs => (false, cs)
  | cs => (false, cs)

/-- An integer with an optional sign, if it fits. -/
def readInt? (cs : List Char) : Option Int64 :=
  let (negative, digits) := splitSign cs
  if isDigits digits then
    let n := Decimal.digitsValue digits
    exactInt? (if negative then -n else n)
  else none

/-- The value of the digits of an exponent.  Digits behind a value of 65536 or more are passed over:
such an exponent is out of reach of every float with fewer digits than that before it, so that its
further digits do not count. -/
def exponentValue (digits : List Char) : Nat :=
  digits.foldl (fun n c => if n < 65536 then 10 * n + (c.toNat - '0'.toNat) else n) 0

/-- The exponent of a float: nothing, or a mark and an integer. -/
def readExponent? : List Char → Option Int
  | [] => some 0
  | mark :: cs =>
    if mark = 'e' ∨ mark = 'E' then
      let (negative, digits) := splitSign cs
      if isDigits digits then
        let n := exponentValue digits
        some (if negative then -n else n)
      else none
    else none

/-- A float without its sign: digits with an optional point, at least one digit in all, and an
optional exponent. -/
def readDecimal? (cs : List Char) : Option Decimal :=
  let whole := cs.takeWhile Char.isDigit
  let rest := cs.dropWhile Char.isDigit
  let (fraction, rest) :=
    match rest with
    | '.' :: rest => (rest.takeWhile Char.isDigit, rest.dropWhile Char.isDigit)
    | rest => ([], rest)
  if whole.isEmpty && fraction.isEmpty then none
  else
    match readExponent? rest with
    | some e =>
      let d := Decimal.ofDigits whole fraction
      some { d with exponent := d.exponent + e }
    | none => none

/-- A float with an optional sign, or a word for one of the values that have no digits. -/
def readFloat? (cs : List Char) : Option Float :=
  let (negative, magnitude) := splitSign cs
  let word := String.ofList (magnitude.map Char.toLower)
  if word = "inf" ∨ word = "infinity" then
    some (Binary64.ofBits negative Binary64.infinityBits)
  else if word = "nan" then some (Binary64.ofBits negative (Binary64.infinityBits + Binary64.exponentWeight / 2))
  else (readDecimal? magnitude).map (Decimal.toFloat negative)

/-- The number a text stands for: an integer if it reads as one that fits, else a float. -/
def read? (text : String) : Option Number :=
  let cs := Text.trim text.toList
  match readInt? cs with
  | some n => some (int n)
  | none => (readFloat? cs).map float

theorem le_foldl_digits (n : Nat) (digits : List Char) :
    n ≤ digits.foldl (fun n c => 10 * n + (c.toNat - '0'.toNat)) n := by
  induction digits generalizing n with
  | nil => exact Nat.le_refl n
  | cons c rest ih =>
    have hstep : n ≤ 10 * n + (c.toNat - '0'.toNat) := by omega
    exact Nat.le_trans hstep (ih _)

/-- The digits of an exponent below 65536 all count. -/
theorem exponentValue_eq_digitsValue {digits : List Char}
    (h : Decimal.digitsValue digits < 65536) :
    exponentValue digits = Decimal.digitsValue digits := by
  rw [Decimal.digitsValue_eq_foldl] at h ⊢
  unfold exponentValue
  generalize 0 = n at h ⊢
  induction digits generalizing n with
  | nil => rfl
  | cons c rest ih =>
    have hn : n < 65536 := Nat.lt_of_le_of_lt (le_foldl_digits n (c :: rest)) h
    rw [List.foldl_cons, List.foldl_cons, if_pos hn]
    exact ih _ h

end Number
end Cyan
