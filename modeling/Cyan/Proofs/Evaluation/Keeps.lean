/-
Relations between worlds that evaluation keeps.

Looking a name up, checking a call and failing leave the world alone.  Names are bound and consoles used
in single steps, and a call makes a scope for the body of its function.  `evaluate_keeps` says that a
relation which these three keep is kept by evaluation; the relation may speak of the scope that is
evaluated in.
-/
import Cyan.Evaluation.Evaluate
import Cyan.Proofs.Action.Keeps

namespace Cyan

variable {Place α : Type}

namespace Evaluation

open Cyan.Action (Keeps)

variable {R : World Place → World Place → Prop}

theorem raise_keeps [Std.Refl R] (stack : CallStack Place) (place : Place) (fault : RuntimeFault) :
    Keeps R (raise stack place fault : Evaluation Place α) := Keeps.fail _

theorem settle_keeps [Std.Refl R] (stack : CallStack Place) (place : Place)
    (result : Except RuntimeFault α) : Keeps R (settle stack place result) := by
  cases result with
  | ok result => exact Keeps.pure result
  | error fault => exact raise_keeps stack place fault

theorem lookUp_keeps [IsPreorder (World Place) R] (stack : CallStack Place) (place : Place)
    (scope : ScopeId) (name : String) : Keeps R (lookUp stack place scope name) := by
  refine Keeps.state.bind fun w => ?_
  split
  · exact Keeps.pure _
  · exact raise_keeps stack place _

theorem checkCall_keeps [Std.Refl R] (config : Config) (stack : CallStack Place) (place : Place)
    (f : Function Place) (given : Nat) : Keeps R (checkCall config stack place f given) := by
  unfold checkCall
  split
  · exact raise_keeps stack place _
  · split
    · exact raise_keeps stack place _
    · exact Keeps.pure ()

theorem useConsole_keeps {use : Console → Except String α × Console}
    (huse : ∀ w : World Place, R w { w with console := (use w.console).2 }) (stack : CallStack Place)
    (place : Place) : Keeps R (useConsole stack place use) := by
  intro w w' h
  have hR := huse w
  rw [useConsole] at h
  rcases hused : use w.console with ⟨result | fault, console⟩ <;> rw [hused] at h hR
  · obtain rfl := Option.some.inj h
    exact hR
  · obtain rfl := Option.some.inj h
    exact hR

theorem callBuiltin_keeps [IsPreorder (World Place) R]
    (hwrite : ∀ (w : World Place) text, R w { w with console := (w.console.write text).2 })
    (hread : ∀ w : World Place, R w { w with console := w.console.readLine.2 })
    (stack : CallStack Place) (place : Place) (b : Builtin) (arguments : List (Value Place)) :
    Keeps R (callBuiltin stack place b arguments) := by
  unfold callBuiltin
  split
  · exact (useConsole_keeps (fun w => hwrite w _) stack place).bind fun _ => Keeps.pure _
  · refine (useConsole_keeps hread stack place).bind fun line? => ?_
    split <;> exact Keeps.pure _
  · exact Keeps.pure _
  · exact (settle_keeps stack place _).bind fun _ => Keeps.pure _
  · exact Keeps.pure _
  · exact raise_keeps stack place _
  · exact raise_keeps stack place _

theorem bindFunction_keeps [Std.Refl R] {scope : ScopeId}
    (hbind : ∀ name v, Keeps R (bindName scope name v)) (config : Config) (f : Function Place) :
    Keeps R (bindFunction config scope f) := by
  unfold bindFunction
  split
  · exact hbind _ _
  · split
    · exact hbind _ _
    · exact Keeps.pure ()

end Evaluation

open Cyan.Action (Keeps) in
open Evaluation in
/-- What binding a name, using the console and entering a function keep is kept by evaluation. -/
theorem evaluate_keeps {R : ScopeId → World Place → World Place → Prop}
    [∀ scope, IsPreorder (World Place) (R scope)]
    (hbind : ∀ scope name v, Keeps (R scope) (bindName scope name v))
    (hwrite : ∀ scope (w : World Place) text, R scope w { w with console := (w.console.write text).2 })
    (hread : ∀ scope (w : World Place), R scope w { w with console := w.console.readLine.2 })
    (henter : ∀ scope f values (body : ScopeId → Evaluation Place (Value Place)),
      (∀ inner, Keeps (R inner) (body inner)) → Keeps (R scope) (enter f values >>= body))
    (config : Config) (n : Nat) (e : Expr Place) (scope : ScopeId) (stack : CallStack Place) :
    Keeps (R scope) (evaluate config n e scope stack) := by
  induction n generalizing e scope stack with
  | zero => exact Keeps.cutOff
  | succ n ih =>
    have hhere (e : Expr Place) := ih e scope stack
    cases e with
    | block _ statements =>
      match statements with
      | [statement] => exact hhere statement
      | [] | _ :: _ :: _ => exact (Keeps.each hhere _).bind fun _ => Keeps.pure _
    | pass | number | literal | string => exact Keeps.pure _
    | binary place _ left right =>
      exact (hhere left).bind fun _ => (hhere right).bind fun _ => settle_keeps stack place _
    | unary place _ operand => exact (hhere operand).bind fun _ => settle_keeps stack place _
    | reference place name => exact lookUp_keeps stack place scope name
    | assign _ name value =>
      exact (hhere value).bind fun v => (hbind scope name v).bind fun _ => Keeps.pure v
    | conditional _ condition thenBranch elseBranch =>
      refine (hhere condition).bind fun v => ?_
      split
      · exact hhere thenBranch
      · exact hhere elseBranch
    | loop _ condition body =>
      have hround := (hhere condition).bind fun v => Keeps.pure v.isTruthy
      exact (Keeps.repeatWhile hround (hhere body) n).bind fun _ => Keeps.pure _
    | function => exact (bindFunction_keeps (hbind scope) config _).bind fun _ => Keeps.pure _
    | call place callee arguments =>
      refine (hhere callee).bind fun target =>
        (Keeps.collectOnto hhere [] arguments).bind fun values => ?_
      cases target with
      | builtin b => exact callBuiltin_keeps (hwrite scope) (hread scope) stack place b values
      | function f =>
        exact (checkCall_keeps config stack place f _).bind fun _ =>
          henter scope f values _ fun inner => ih f.body inner _
      | none | bool | number | string => exact raise_keeps stack place _

end Cyan
