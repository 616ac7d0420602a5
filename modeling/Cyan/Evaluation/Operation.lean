/-
Operations on values.

Arithmetic and comparisons are for numbers, and `+` also joins strings.  Equality is asked of two
values of one kind, with two exceptions: a string can be compared with anything, and equals only an
equal string, and functions cannot be compared at all.  The logical operators take the truth of their
operands; a boolean combines with any value, a number only with a number.  Every other combination is
a fault that names both kinds.
-/
import Cyan.Evaluation.Fault
import Cyan.Number.Reading

namespace Cyan
namespace Value

variable {Place : Type}

def onNumbers? (f : Number → Number → Value Place) : Value Place → Value Place →
    Option (Value Place)
  | number a, number b => some (f a b)
  | _, _ => Option.none

/-- The sum of two numbers, or two strings one after the other. -/
def sum? : Value Place → Value Place → Option (Value Place)
  | number a, number b => some (number (a.add b))
  | string s, string t => some (string (s ++ t))
  | _, _ => Option.none

/-- Whether two values are equal, where that is a question. -/
def equal? : Value Place → Value Place → Option Bool
  | none, none => some true
  | bool a, bool b => some (a == b)
  | number a, number b => some (a.equal b)
  | string s, string t => some (s == t)
  | string _, _ => some false
  | _, _ => Option.none

/-- A logical operation on the truth of two values. -/
def logic? (f : Bool → Bool → Bool) (a b : Value Place) : Option (Value Place) :=
  match a, b with
  | bool _, _ | number _, number _ => some (bool (f a.isTruthy b.isTruthy))
  | _, _ => Option.none

/-- The result of a binary operation where the kinds of the operands admit it.  It is a fault only
for a division by zero. -/
def operate? (op : BinaryOp) (a b : Value Place) : Option (Except RuntimeFault (Value Place)) :=
  match op with
  | .add => (sum? a b).map .ok
  | .subtract => (onNumbers? (fun x y => number (x.subtract y)) a b).map .ok
  | .multiply => (onNumbers? (fun x y => number (x.multiply y)) a b).map .ok
  | .divide =>
    match a, b with
    | number x, number y =>
      match x.divide? y with
      | some q => some (.ok (number q))
      | Option.none => some (.error .divisionByZero)
    | _, _ => Option.none
  | .power => (onNumbers? (fun x y => number (x.power y)) a b).map .ok
  | .equal => (equal? a b).map fun same => .ok (bool same)
  | .notEqual => (equal? a b).map fun same => .ok (bool !same)
  | .less => (onNumbers? (fun x y => bool (x.less y)) a b).map .ok
  | .greater => (onNumbers? (fun x y => bool (x.greater y)) a b).map .ok
  | .lessEqual => (onNumbers? (fun x y => bool (x.lessEqual y)) a b).map .ok
  | .greaterEqual => (onNumbers? (fun x y => bool (x.greaterEqual y)) a b).map .ok
  | .and => (logic? (· && ·) a b).map .ok
  | .or => (logic? (· || ·) a b).map .ok

def operate (op : BinaryOp) (a b : Value Place) : Except RuntimeFault (Value Place) :=
  (operate? op a b).getD (.error (.unsupported a.kind (.binary op) b.kind))

/-- The result of a prefix operation.  A minus multiplies by -1 and a plus does nothing. -/
def operateUnary (op : UnaryOp) (a : Value Place) : Except RuntimeFault (Value Place) :=
  match op with
  | .plus => .ok a
  | .minus => operate .multiply a (number (.int (-1)))
  | .not =>
    match a with
    | bool _ | number _ => .ok (bool !a.isTruthy)
    | _ => .error (.unsupported a.kind .negation a.kind)

def toNumber : Value Place → Except RuntimeFault Number
  | number n => .ok n
  | bool b => .ok (.int (if b then 1 else 0))
  | string text =>
    match Number.read? text with
    | some n => .ok n
    | Option.none => .error (.notNumeral text)
  | v => .error (.notNumeric v.kind)

end Value
end Cyan
