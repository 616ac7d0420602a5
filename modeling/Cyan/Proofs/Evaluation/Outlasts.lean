/-
Two evaluations of which one may give up.

Two evaluations of the same expression are compared, in worlds with the same store and consoles that are
related.  `Evaluation.Outlast` says that they do the same wherever a console is used or a call is checked,
unless the first one gives up there.  Then the second outlasts the first (`Evaluation.Outlast.evaluate`).
-/
import Cyan.Proofs.Action.Outlasts
import Cyan.Proofs.Evaluation.Console
import Cyan.Proofs.Scope.Frame

namespace Cyan

open Cyan.Action (Keeps Relates Outlasts)

variable {Place α : Type}

/-- Worlds with the same store and consoles that are related. -/
structure World.Beside (C : Console → Console → Prop) (w w' : World Place) : Prop where
  store_eq : w.store = w'.store
  console : C w.console w'.console

namespace Evaluation

variable {C : Console → Console → Prop}

theorem raise_beside (stack : CallStack Place) (place : Place) (fault : RuntimeFault) :
    Relates (World.Beside C) Eq Eq (raise stack place fault : Evaluation Place α)
      (raise stack place fault) := .fail rfl

theorem settle_beside (stack : CallStack Place) (place : Place) (result : Except RuntimeFault α) :
    Relates (World.Beside C) Eq Eq (settle stack place result) (settle stack place result) := by
  cases result with
  | ok result => exact .pure rfl
  | error fault => exact raise_beside stack place fault

theorem lookUp_beside (stack : CallStack Place) (place : Place) (scope : ScopeId) (name : String) :
    Relates (World.Beside C) Eq Eq (lookUp stack place scope name) (lookUp stack place scope name) := by
  refine Relates.state.bind fun w w' hw => ?_
  rw [hw.store_eq]
  cases w'.store.get? scope name with
  | some v => exact .pure rfl
  | none => exact raise_beside stack place _

theorem bindName_beside (scope : ScopeId) (name : String) (v : Value Place) :
    Relates (World.Beside C) Eq Eq (bindName scope name v) (bindName scope name v) :=
  .update fun _ _ hw => ⟨congrArg (Store.set · scope name v) hw.store_eq, hw.console⟩

theorem bindFunction_beside {config config' : Config}
    (hanonymous : config.bindsAnonymous = config'.bindsAnonymous) (scope : ScopeId) (f : Function Place) :
    Relates (World.Beside C) Eq Eq (bindFunction config scope f) (bindFunction config' scope f) := by
  rw [bindFunction, bindFunction, hanonymous]
  split
  · exact bindName_beside scope _ _
  · split
    · exact bindName_beside scope _ _
    · exact .pure rfl

theorem enter_beside (f : Function Place) (values : List (Value Place)) :
    Relates (World.Beside C) Eq Eq (enter f values) (enter f values) := by
  intro w w' hw
  obtain ⟨store, console⟩ := w
  obtain ⟨store', console'⟩ := w'
  obtain ⟨rfl, hconsole⟩ := hw
  exact .done rfl ⟨rfl, hconsole⟩

theorem useConsole_beside (stack : CallStack Place) (place : Place)
    {use : Console → Except String α × Console}
    (huse : ∀ c c', C c c' → (use c).1 = (use c').1 ∧ C (use c).2 (use c').2) :
    Relates (World.Beside C) Eq Eq (useConsole stack place use) (useConsole stack place use) := by
  intro w w' hw
  obtain ⟨hresult, hconsole⟩ := huse _ _ hw.console
  rw [useConsole, useConsole]
  rcases hused : use w.console with ⟨result, console⟩
  rcases hused' : use w'.console with ⟨result', console'⟩
  rw [hused, hused'] at hresult hconsole
  obtain rfl : result = result' := hresult
  cases result with
  | ok => exact .done rfl ⟨hw.store_eq, hconsole⟩
  | error => exact .failed rfl ⟨hw.store_eq, hconsole⟩

theorem callValue_follows (config : Config) (n : Nat) (stack : CallStack Place) (place : Place)
    (values : List (Value Place)) (target : Value Place) :
    Keeps World.Follows (callValue config n stack place values target) := by
  cases target with
  | builtin b => exact callBuiltin_follows stack place b values
  | function f =>
    exact (checkCall_keeps config stack place f _).bind fun _ =>
      (enter_follows f values).bind fun inner => evaluate_follows config n f.body inner _
  | none | bool | number | string => exact raise_keeps stack place _

end Evaluation

section

open Evaluation

variable {C : Console → Console → Prop} {G : RuntimeError Place → Prop}
  {R : World Place → World Place → Prop} {config config' : Config}

/-- Where the console is used and calls are checked, the second evaluation outlasts the first. -/
structure Evaluation.Outlast (C : Console → Console → Prop) (G : RuntimeError Place → Prop)
    (R : World Place → World Place → Prop) (config config' : Config) : Prop where
  follows : ∀ w k k', R w k → k.Follows k' → R w k'
  write : ∀ stack place text, Outlasts (World.Beside C) G R (useConsole stack place (Console.write text))
    (useConsole stack place (Console.write text))
  readLine : ∀ stack place, Outlasts (World.Beside C) G R (useConsole stack place Console.readLine)
    (useConsole stack place Console.readLine)
  checkCall : ∀ stack place f given, Outlasts (World.Beside C) G R
    (checkCall config stack place f given) (checkCall config' stack place f given)
  bindsAnonymous_eq : config.bindsAnonymous = config'.bindsAnonymous

theorem Evaluation.Outlast.callBuiltin (h : Outlast C G R config config') (stack : CallStack Place)
    (place : Place) (b : Builtin) (arguments : List (Value Place)) :
    Outlasts (World.Beside C) G R (callBuiltin stack place b arguments)
      (callBuiltin stack place b arguments) := by
  unfold Evaluation.callBuiltin
  split
  · exact (h.write stack place _).bind h.follows (fun _ => .pure _) fun _ => Keeps.pure _
  · refine (h.readLine stack place).bind h.follows (fun line? => ?_) fun line? => ?_
    · cases line? <;> exact .pure _
    · cases line? <;> exact Keeps.pure _
  · exact .pure _
  · exact (Outlasts.of_relates (settle_beside stack place _)).bind h.follows (fun _ => .pure _)
      fun _ => Keeps.pure _
  · exact .pure _
  · exact .of_relates (raise_beside stack place _)
  · exact .of_relates (raise_beside stack place _)

theorem Evaluation.Outlast.evaluate (h : Outlast C G R config config') (n : Nat) (e : Expr Place)
    (scope : ScopeId) (stack : CallStack Place) :
    Outlasts (World.Beside C) G R (Cyan.evaluate config n e scope stack)
      (Cyan.evaluate config' n e scope stack) := by
  induction n generalizing e scope stack with
  | zero => exact .of_relates .cutOff
  | succ n ih =>
    have hhere (e : Expr Place) := ih e scope stack
    have hlater (e : Expr Place) := evaluate_follows config' n e scope stack
    have hsettle (place : Place) (result : Except RuntimeFault (Value Place)) :
        Outlasts (World.Beside C) G R (settle stack place result) (settle stack place result) :=
      .of_relates (settle_beside stack place result)
    cases e with
    | block _ statements =>
      match statements with
      | [statement] => exact hhere statement
      | [] | _ :: _ :: _ =>
        exact (Outlasts.each h.follows hhere hlater _).bind h.follows (fun _ => .pure _)
          fun _ => Keeps.pure _
    | pass | number | literal | string => exact .pure _
    | reference place name => exact .of_relates (lookUp_beside stack place scope name)
    | function _ name? parameters body =>
      have hbind := bindFunction_beside (C := C) h.bindsAnonymous_eq scope ⟨name?, parameters, body, scope⟩
      exact .of_relates (hbind.bind fun _ _ _ => .pure rfl)
    | binary place op left right =>
      refine (hhere left).bind h.follows (fun a => ?_) fun a => ?_
      · exact (hhere right).bind h.follows (fun b => hsettle place _) fun b => settle_keeps stack place _
      · exact (hlater right).bind fun b => settle_keeps stack place _
    | unary place op operand =>
      exact (hhere operand).bind h.follows (fun a => hsettle place _) fun a => settle_keeps stack place _
    | assign _ name value =>
      refine (hhere value).bind h.follows (fun v => ?_) fun v => ?_
      · exact .of_relates ((bindName_beside scope name v).bind fun _ _ _ => .pure rfl)
      · exact (bindName_follows scope name v).bind fun _ => Keeps.pure v
    | conditional _ condition thenBranch elseBranch =>
      refine (hhere condition).bind h.follows (fun v => ?_) fun v => ?_
      · split
        · exact hhere thenBranch
        · exact hhere elseBranch
      · split
        · exact hlater thenBranch
        · exact hlater elseBranch
    | loop _ condition body =>
      have hcondition := (hhere condition).bind h.follows (fun v => .pure v.isTruthy) fun v => Keeps.pure _
      have hcondition' := (hlater condition).bind fun v => Keeps.pure v.isTruthy
      exact (hcondition.repeatWhile h.follows (hhere body) hcondition' (hlater body) n).bind h.follows
        (fun _ => .pure _) fun _ => Keeps.pure _
    | call place callee arguments =>
      rw [evaluate_call, evaluate_call]
      have hvalue := callValue_follows config' n stack place
      refine (hhere callee).bind h.follows (fun target => ?_) fun target =>
        (Keeps.collectOnto hlater [] arguments).bind fun values => hvalue values target
      refine (Outlasts.collectOnto h.follows hhere hlater [] arguments).bind h.follows (fun values => ?_)
        fun values => hvalue values target
      cases target with
      | builtin b => exact h.callBuiltin stack place b values
      | function f =>
        have hbody (inner : ScopeId) := evaluate_follows config' n f.body inner (stack.push f.name? place)
        have hentered := (Outlasts.of_relates (enter_beside f values)).bind h.follows
          (fun inner => ih f.body inner (stack.push f.name? place)) hbody
        exact (h.checkCall stack place f values.length).bind h.follows (fun _ => hentered)
          fun _ => (enter_follows f values).bind hbody
      | none | bool | number | string => exact .of_relates (raise_beside stack place _)

end

end Cyan
