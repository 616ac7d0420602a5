/-
Operators and their binding strength.

Binary operators fall into five levels, from `logic`, which binds loosest, to `power`.  The signs in
front of an operand make a level of their own between `term` and `power`, called `factor`.  An
operator's right operand is read at the level above its own, so that a chain of one level groups to
the left.  The exception is `**`, whose right operand is again a factor: it may carry a sign, and
since a factor takes in further `**`, a chain of powers groups to the right.
-/
import Cyan.Token.Basic

namespace Cyan

inductive BinaryOp where
  | add | subtract | multiply | divide | power
  | equal | notEqual | less | greater | lessEqual | greaterEqual
  | and | or
deriving DecidableEq, Repr, Inhabited

inductive UnaryOp where
  | plus | minus | not
deriving DecidableEq, Repr, Inhabited

/-- Levels of binding strength, loosest first. -/
inductive Level where
  | logic | comparison | arithmetic | term | factor | power
deriving DecidableEq, Repr, Inhabited

def Level.strength : Level → Nat
  | .logic => 0
  | .comparison => 1
  | .arithmetic => 2
  | .term => 3
  | .factor => 4
  | .power => 5

namespace BinaryOp

def ofKind? : Token.Kind → Option BinaryOp
  | .mark .plus => some add
  | .mark .minus => some subtract
  | .mark .star => some multiply
  | .mark .slash => some divide
  | .mark .starStar => some power
  | .mark .equalEqual => some equal
  | .mark .bangEqual => some notEqual
  | .mark .less => some less
  | .mark .lessEqual => some lessEqual
  | .mark .greater => some greater
  | .mark .greaterEqual => some greaterEqual
  | .keyword .and_ => some and
  | .keyword .or_ => some or
  | _ => none

def level : BinaryOp → Level
  | add | subtract => .arithmetic
  | multiply | divide => .term
  | power => .power
  | equal | notEqual | less | greater | lessEqual | greaterEqual => .comparison
  | and | or => .logic

/-- The level at which an operator's right operand is read. -/
def operandLevel (op : BinaryOp) : Level :=
  match op.level with
  | .logic => .comparison
  | .comparison => .arithmetic
  | .arithmetic => .term
  | .term | .factor | .power => .factor

/-- Whether an operator belongs into an expression of level `l`. -/
def fits (op : BinaryOp) (l : Level) : Bool := l.strength ≤ op.level.strength

def symbol : BinaryOp → String
  | add => "+"
  | subtract => "-"
  | multiply => "*"
  | divide => "/"
  | power => "**"
  | equal => "=="
  | notEqual => "!="
  | less => "<"
  | greater => ">"
  | lessEqual => "<="
  | greaterEqual => ">="
  | and => "and"
  | or => "or"

end BinaryOp

def UnaryOp.symbol : UnaryOp → String
  | .plus => "+"
  | .minus => "-"
  | .not => "not"

/-- A right operand binds more tightly than its operator, or is a factor. -/
theorem BinaryOp.strength_operandLevel (op : BinaryOp) :
    op.level.strength < op.operandLevel.strength ∨ op.operandLevel = .factor := by
  cases op <;> decide

end Cyan
