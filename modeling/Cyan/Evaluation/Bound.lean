/-
The bound of an evaluation does not decide its outcome.

`evaluate_below` says that raising the bound of an evaluation changes nothing but what was cut off.
`evaluate_of_le` is the form in which outcomes are compared: an outcome that is reached is reached
under every larger bound.
-/
import Cyan.Action.Below
import Cyan.Evaluation.Evaluate

namespace Cyan

open Cyan.Action in
/-- Raising the bound by one changes no outcome that is reached. -/
theorem evaluate_below {Place : Type} (config : Config) (n : Nat) (e : Expr Place)
    (scope : ScopeId) (stack : CallStack Place) :
    Below (evaluate config n e scope stack) (evaluate config (n + 1) e scope stack) := by
  induction n generalizing e scope stack with
  | zero => exact Below.cutOff _
  | succ n ih =>
    have hhere (e : Expr Place) := ih e scope stack
    cases e with
    | block _ statements =>
      match statements with
      | [statement] => exact hhere statement
      | [] | _ :: _ :: _ => exact (Below.each hhere _).bind fun _ => Below.refl _
    | pass | number | literal | string | reference | function => exact Below.refl _
    | binary _ _ left right =>
      exact (hhere left).bind fun _ => (hhere right).bind fun _ => Below.refl _
    | unary _ _ operand => exact (hhere operand).bind fun _ => Below.refl _
    | assign _ _ value => exact (hhere value).bind fun _ => Below.refl _
    | conditional _ condition thenBranch elseBranch =>
      refine (hhere condition).bind fun v => ?_
      split
      · exact hhere thenBranch
      · exact hhere elseBranch
    | loop _ condition body =>
      have hround := (hhere condition).bind fun v => Below.refl (pure v.isTruthy)
      exact (Below.repeatWhile hround (hhere body) n).bind fun _ => Below.refl _
    | call _ callee arguments =>
      refine (hhere callee).bind fun target =>
        (Below.collectOnto hhere [] arguments).bind fun values => ?_
      cases target with
      | function f =>
        exact (Below.refl _).bind fun _ => (Below.refl _).bind fun inner => ih f.body inner _
      | none | bool | number | string | builtin => exact Below.refl _

/-- An outcome that is reached is reached under every larger bound. -/
theorem evaluate_of_le {Place : Type} {config : Config} {n m : Nat} (hnm : n ≤ m) {e : Expr Place}
    {scope : ScopeId} {stack : CallStack Place} {w : World Place}
    (h : evaluate config n e scope stack w ≠ .unfinished) :
    evaluate config m e scope stack w = evaluate config n e scope stack w := by
  have hbelow : Action.Below (evaluate config n e scope stack) (evaluate config m e scope stack) := by
    induction hnm with
    | refl => exact Action.Below.refl _
    | step _ ih => exact ih.trans (evaluate_below _ _ _ _ _)
  exact (hbelow w).resolve_left h

end Cyan
