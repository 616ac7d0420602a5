/-
Functions without names.

A function without a name is bound to the name that stands for it, or it is not bound at all; the settings
say which.  For an expression in which that name does not stand this makes no difference
(`evaluate_veiled`): with either settings it is evaluated to the same value or fails with the same error,
and the same happens on the console.  The stores then differ in every scope in which such a function has
been defined, and in nothing else, so they agree but for the name.

The invariant is `Store.Veils`.  What a call runs comes out of the store, so besides the expression that
is evaluated the bodies of all functions that are bound must not mention the name either; in a new session
there are none, and those that are bound later are parts of the expression.
-/
import Cyan.Proofs.Evaluation.Alike
import Cyan.Proofs.Evaluation.Secures
import Cyan.Proofs.Scope.Hidden

namespace Cyan

open Cyan.Action (Relates)
open Store (Veils)

variable {Place α : Type} {before before' : List Console.Event}

namespace Evaluation

variable {S : Store Place → Store Place → Prop} (stack : CallStack Place) (place : Place)

/-! ## Steps with one and the same stack of calls -/

theorem raise_same {R : α → α → Prop} (fault : RuntimeFault) :
    Alike id S before before' R (raise stack place fault) (raise stack place fault) :=
  .fail (RuntimeError.map_id _)

theorem settle_same {R : α → α → Prop} {result : Except RuntimeFault α}
    (h : ∀ x, result = .ok x → R x x) :
    Alike id S before before' R (settle stack place result) (settle stack place result) := by
  cases result with
  | ok x => exact .pure (h x rfl)
  | error fault => exact raise_same stack place fault

theorem useConsole_same {use : Console → Except String α × Console}
    (huse : ∀ {c c'}, Console.Alike before before' c c' →
      (use c).1 = (use c').1 ∧ Console.Alike before before' (use c).2 (use c').2) :
    Alike id S before before' Eq (useConsole stack place use) (useConsole stack place use) := by
  have h := useConsole_alike (f := id) (S := S) stack place huse
  rwa [CallStack.map_id] at h

theorem checkCall_same (limit : Nat) (f : Function Place) (given : Nat) :
    Alike id S before before' Eq (checkCall ⟨limit, true⟩ stack place f given)
      (checkCall ⟨limit, false⟩ stack place f given) :=
  .ite Iff.rfl (raise_same stack place _) (.ite Iff.rfl (raise_same stack place _) (.pure rfl))

/-- A built-in function does not ask for the store, and gives no function. -/
theorem callBuiltin_same {hidden : String} (b : Builtin) (arguments : List (Value Place)) :
    Alike id S before before' (Value.Same hidden) (callBuiltin stack place b arguments)
      (callBuiltin stack place b arguments) := by
  unfold callBuiltin
  split
  · exact (useConsole_same stack place fun hc => hc.write _).bind fun _ _ _ => .pure (.of_ne nofun)
  · refine (useConsole_same stack place Console.Alike.readLine).bind fun line? line?' hline => ?_
    subst hline
    cases line? <;> exact .pure (.of_ne nofun)
  · exact .pure (.of_ne nofun)
  · refine (settle_same stack place fun _ _ => rfl).bind fun n n' hn => ?_
    subst hn
    exact .pure (.of_ne nofun)
  · exact .pure (.of_ne nofun)
  · exact raise_same stack place _
  · exact raise_same stack place _

/-! ## Steps that use the store -/

variable {hidden : String} (scope : ScopeId)

theorem lookUp_veiled {name : String} (hname : name ≠ hidden) :
    Alike id (Veils hidden) before before' (Value.Same hidden) (lookUp stack place scope name)
      (lookUp stack place scope name) := by
  refine Relates.state.bind fun w w' hw => ?_
  have hfound := hw.store.get? scope hname
  generalize w.store.get? scope name = o at hfound ⊢
  generalize w'.store.get? scope name = o' at hfound ⊢
  cases hfound with
  | some hv => exact .pure hv
  | none => exact raise_same stack place _

theorem bindName_veiled (name : String) {v : Value Place} (hv : v.Confined 0 (Expr.Avoids hidden)) :
    Alike id (Veils hidden) before before' Eq (bindName scope name v) (bindName scope name v) :=
  .update fun _ _ hw => ⟨hw.store.set scope name hv, hw.console⟩

/-- A function with a name is bound under both settings, and one without under one of them alone. -/
theorem bindFunction_veiled (limit : Nat) {f : Function Place}
    (hf : (Value.function f).Confined 0 (Expr.Avoids anonymousName)) :
    Alike id (Veils anonymousName) before before' Eq (bindFunction ⟨limit, true⟩ scope f)
      (bindFunction ⟨limit, false⟩ scope f) := by
  unfold bindFunction
  cases f.name? with
  | some name => exact bindName_veiled scope name hf
  | none => exact fun w w' hw => .done rfl ⟨hw.store.hide scope hf, hw.console⟩

theorem enter_veiled (f : Function Place) {values : List (Value Place)}
    (hvalues : ∀ v ∈ values, v.Confined 0 (Expr.Avoids hidden)) :
    Alike id (Veils hidden) before before' Eq (enter f values) (enter f values) := by
  intro w w' hw
  rw [enter_eq, enter_eq]
  refine .done hw.store.agree.size_eq ⟨?_, hw.console⟩
  exact hw.store.addChild f.scope fun entry hentry => hvalues entry.2 (List.of_mem_zip hentry).2

end Evaluation

open Evaluation in
/-- An expression that does not mention the name that stands for functions without names does the same
whether such functions are bound to it or not. -/
theorem evaluate_veiled (limit n : Nat) {e : Expr Place} (he : e.Avoids anonymousName) (scope : ScopeId)
    (stack : CallStack Place) :
    Evaluation.Alike id (Veils anonymousName) before before' (Value.Same anonymousName)
      (evaluate ⟨limit, true⟩ n e scope stack) (evaluate ⟨limit, false⟩ n e scope stack) := by
  induction n generalizing e scope stack with
  | zero => exact .cutOff
  | succ n ih =>
    have hhere (part : Expr Place) (hpart : part ∈ e.children) :
        Evaluation.Alike id (Veils anonymousName) before before' (Value.Same anonymousName)
          (evaluate ⟨limit, true⟩ n part scope stack) (evaluate ⟨limit, false⟩ n part scope stack) :=
      ih (he.child hpart) scope stack
    cases e with
    | block place statements =>
      match statements with
      | [statement] => exact hhere statement List.mem_cons_self
      | [] | _ :: _ :: _ =>
        exact (Relates.each (List.forall₂_same.mpr hhere)).bind fun _ _ _ => .pure (.of_ne nofun)
    | pass | number | string => exact .pure (.of_ne nofun)
    | literal _ value => cases value <;> exact .pure (.of_ne nofun)
    | binary place op left right =>
      refine (hhere left (by simp [Expr.children])).bind fun a a' ha =>
        (hhere right (by simp [Expr.children])).bind fun b b' hb => ?_
      obtain ⟨rfl, -⟩ := ha
      obtain ⟨rfl, -⟩ := hb
      exact settle_same stack place fun v hv => .of_ne (Value.operate_ne_function hv)
    | unary place op operand =>
      refine (hhere operand List.mem_cons_self).bind fun a a' ha => ?_
      obtain ⟨rfl, ha⟩ := ha
      refine settle_same stack place fun v hv => ?_
      rcases Value.operateUnary_cases hv with rfl | hne
      · exact ⟨rfl, ha⟩
      · exact .of_ne hne
    | reference place name =>
      have hname : name ≠ anonymousName := fun h => he.not_mem (List.mem_singleton.mpr h.symm)
      exact lookUp_veiled stack place scope hname
    | assign place name value =>
      refine (hhere value List.mem_cons_self).bind fun v v' hv => ?_
      obtain ⟨rfl, hv⟩ := hv
      exact (bindName_veiled scope name hv).bind fun _ _ _ => .pure ⟨rfl, hv⟩
    | conditional place condition thenBranch elseBranch =>
      refine (hhere condition List.mem_cons_self).bind fun v v' hv => ?_
      obtain ⟨rfl, -⟩ := hv
      exact .ite Iff.rfl (hhere thenBranch (by simp [Expr.children]))
        (hhere elseBranch (by simp [Expr.children]))
    | loop place condition body =>
      have hcondition :
          Evaluation.Alike id (Veils anonymousName) before before' Eq
            (do return (← evaluate ⟨limit, true⟩ n condition scope stack).isTruthy)
            (do return (← evaluate ⟨limit, false⟩ n condition scope stack).isTruthy) :=
        (hhere condition List.mem_cons_self).bind fun v v' hv => .pure (by rw [hv.1])
      exact (hcondition.repeatWhile (hhere body (by simp [Expr.children])) n).bind fun _ _ _ =>
        .pure (.of_ne nofun)
    | function place name? parameters body =>
      have hf : (Value.function ⟨name?, parameters, body, scope⟩).Confined 0 (Expr.Avoids anonymousName) :=
        .function (Nat.zero_le scope) (he.child List.mem_cons_self)
      exact (bindFunction_veiled scope limit hf).bind fun _ _ _ => .pure ⟨rfl, hf⟩
    | call place callee arguments =>
      have hall (argument : Expr Place) (h : argument ∈ arguments) :=
        hhere argument (List.mem_cons_of_mem callee h)
      rw [evaluate_call, evaluate_call]
      refine (hhere callee List.mem_cons_self).bind fun target target' htarget =>
        (Relates.collectOnto (List.forall₂_same.mpr hall) .nil).bind fun values values' hvalues => ?_
      obtain ⟨rfl, htarget⟩ := htarget
      obtain ⟨rfl, hconfined⟩ := Value.Same.forall₂ hvalues
      cases target with
      | builtin b => exact callBuiltin_same stack place b values
      | function f =>
        refine (checkCall_same stack place limit f values.length).bind fun _ _ _ =>
          (enter_veiled f hconfined).bind fun inner inner' hinner => ?_
        subst hinner
        exact ih (htarget f rfl).2 inner (stack.push f.name? place)
      | none | bool | number | string => exact raise_same stack place _

end Cyan
