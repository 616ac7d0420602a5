/-
What can go wrong while a program runs.

A `RuntimeFault` is the cause of a failure, without the place it happened at.
-/
import Cyan.Value.Basic

namespace Cyan

/-- What was attempted on values that do not support it. -/
inductive Operation where
  | binary (op : BinaryOp)
  | negation
deriving DecidableEq, Repr, Inhabited

/-- Why evaluation cannot go on. -/
inductive RuntimeFault where
  /-- A name is bound nowhere in the chain of scopes. -/
  | undefined (name : String)
  /-- The left operand has no rule for the operation with this right operand. -/
  | unsupported (left : Value.Kind) (operation : Operation) (right : Value.Kind)
  | divisionByZero
  /-- A function was given another number of arguments than it takes. -/
  | argumentCount (callee : String) (given takes : Nat)
  | notCallable (kind : Value.Kind)
  /-- A string that is to become a number reads as none. -/
  | notNumeral (text : String)
  /-- No value of this kind becomes a number. -/
  | notNumeric (kind : Value.Kind)
  /-- A function was called with as many calls active as are allowed. -/
  | recursionLimit
  /-- The console did not do what it was asked, for a reason of its own. -/
  | console (reason : String)
deriving DecidableEq, Repr, Inhabited

end Cyan
