/-
Evaluation of operands.

Every expression is evaluated in two parts: its operands from left to right, and then what is left to be
done with their values, which is `Evaluation.conclude`.  `evaluate_succ` says so.

`Visit.Passes` and `Visit.Rounds` tell how far a visit has come without a bound.  Under every bound that
is large enough the evaluation comes as far, so the values of operands are determined
(`Visit.Passes.unique`), and an evaluation fails with whatever error something fails with that it comes
to (`Visit.Reaches.failed`).
-/
import Cyan.Evaluation.Bound
import Cyan.Proofs.Evaluation.Visits
import Cyan.Proofs.Scope.Frame

namespace Cyan

variable {Place : Type}

namespace Action

variable {σ ε α β : Type} {a : Action σ ε α} {f : α → Action σ ε β} {s m : σ}

theorem bind_of_done {x : α} (h : a s = .done x m) : (a >>= f) s = f x m := by
  rw [bind_apply, andThen, h]

theorem bind_of_failed {e : ε} (h : a s = .failed e m) : (a >>= f) s = .failed e m := by
  rw [bind_apply, andThen, h]

/-- The results that are there at the start come before those of the action. -/
theorem collectOnto_eq (results : List β) (f : α → Action σ ε β) (list : List α) :
    collectOnto results f list = collect f list >>= fun ys => pure (results.reverse ++ ys) := by
  rw [collect]
  induction list generalizing results with
  | nil =>
    show pure results.reverse = (pure (results.reverse ++ []) : Action σ ε (List β))
    rw [List.append_nil]
  | cons x rest ih =>
    rw [collectOnto_cons, collectOnto_cons, bind_assoc]
    refine congrArg _ (funext fun y => ?_)
    rw [ih (y :: results), ih [y], bind_assoc]
    refine congrArg _ (funext fun ys => ?_)
    rw [pure_bind, List.reverse_cons, List.append_assoc]
    rfl

theorem collect_cons (f : α → Action σ ε β) (x : α) (rest : List α) :
    collect f (x :: rest) = f x >>= fun y => collect f rest >>= fun ys => pure (y :: ys) := by
  rw [collect, collectOnto_cons]
  exact congrArg _ (funext fun y => collectOnto_eq [y] f rest)

theorem collect_append (f : α → Action σ ε β) (list list' : List α) :
    collect f (list ++ list') =
      collect f list >>= fun ys => collect f list' >>= fun zs => pure (ys ++ zs) := by
  induction list with
  | nil => exact (bind_pure _).symm
  | cons x rest ih => simp only [List.cons_append, collect_cons, ih, bind_assoc, pure_bind]

theorem each_eq_collect (f : α → Action σ ε β) (list : List α) :
    each f list = collect f list >>= fun _ => pure () := by
  induction list with
  | nil => rfl
  | cons x rest ih => simp only [each_cons, collect_cons, ih, bind_assoc, pure_bind]

end Action

namespace Evaluation

/-- What is left of an evaluation when the operands have given the values. -/
def conclude (config : Config) (n : Nat) (scope : ScopeId) (stack : CallStack Place) :
    Expr Place → List (Value Place) → Evaluation Place (Value Place)
  | .block _ [_], [v] => pure v
  | .block _ _, _ => pure .none
  | .pass _, _ => pure .none
  | .number _ value, _ => pure (.number value)
  | .literal _ value, _ => pure (.ofLiteral value)
  | .string _ text, _ => pure (.string text)
  | .binary place op _ _, [a, b] => settle stack place (a.operate op b)
  | .unary place op _, [a] => settle stack place (a.operateUnary op)
  | .reference place name, _ => lookUp stack place scope name
  | .assign _ name _, [v] => do
    bindName scope name v
    pure v
  | .conditional _ _ thenBranch elseBranch, [v] =>
    evaluate config n (if v.isTruthy then thenBranch else elseBranch) scope stack
  | .loop _ condition body, _ => do
    Action.repeatWhile (do return (← evaluate config n condition scope stack).isTruthy)
      (evaluate config n body scope stack) n
    pure .none
  | .function _ name? parameters body, _ => do
    bindFunction config scope ⟨name?, parameters, body, scope⟩
    pure (.function ⟨name?, parameters, body, scope⟩)
  | .call place _ _, target :: values => callValue config n stack place values target
  | _, _ => Action.cutOff

end Evaluation

open Evaluation in
/-- An expression is evaluated by its operands and then by what is left to be done. -/
theorem evaluate_succ (config : Config) (n : Nat) (e : Expr Place) (scope : ScopeId)
    (stack : CallStack Place) :
    evaluate config (n + 1) e scope stack =
      Action.collect (fun part => evaluate config n part scope stack) e.operands >>=
        conclude config n scope stack e := by
  cases e with
  | block _ statements =>
    match statements with
    | [] => rfl
    | [statement] =>
      simp only [Expr.operands, Action.collect_cons, bind_assoc]
      exact (bind_pure _).symm
    | first :: second :: rest =>
      show Action.each _ (first :: second :: rest) >>= _ = _
      rw [Action.each_eq_collect, bind_assoc]
      rfl
  | pass | number | literal | string | reference | loop | function => rfl
  | binary | unary | assign =>
    simp only [Expr.operands, Action.collect_cons, bind_assoc]
    rfl
  | conditional _ condition thenBranch elseBranch =>
    simp only [Expr.operands, Action.collect_cons, bind_assoc]
    show evaluate config n condition scope stack >>= _ = _
    refine congrArg _ (funext fun v => ?_)
    show _ = evaluate config n (if v.isTruthy then thenBranch else elseBranch) scope stack
    split <;> rfl
  | call =>
    simp only [evaluate_call, Expr.operands, Action.collect_cons, bind_assoc, pure_bind]
    rfl

namespace Visit

variable {config : Config} {t t' : Visit Place} {w w' : World Place}

/-! ## What is reached under a bound is reached under every larger one -/

theorem outcome_of_le {n m : Nat} (hnm : n ≤ m) (h : t.outcome config n ≠ .unfinished) :
    t.outcome config m = t.outcome config n := evaluate_of_le hnm h

theorem failed_of_le {n m : Nat} {e : RuntimeError Place} (h : t.outcome config n = .failed e w)
    (hnm : n ≤ m) : t.outcome config m = .failed e w := by
  rw [outcome_of_le hnm (by rw [h]; exact nofun), h]

theorem Yields.eventually {v : Value Place} (h : t.Yields config v w) :
    ∃ n, ∀ m ≥ n, t.outcome config m = .done v w := by
  obtain ⟨n, hn⟩ := h
  refine ⟨n, fun m hm => ?_⟩
  rw [outcome_of_le hm (by rw [hn]; exact nofun), hn]

/-- However the evaluation of a visit ends, it does so in one way. -/
theorem outcome_unique {n m : Nat} (hn : t.outcome config n ≠ .unfinished)
    (hm : t.outcome config m ≠ .unfinished) : t.outcome config n = t.outcome config m := by
  rw [← outcome_of_le (Nat.le_max_left n m) hn, ← outcome_of_le (Nat.le_max_right n m) hm]

/-- The operands that a visit has passed are those which its evaluation collects the values of. -/
theorem Passes.collect {before : List (Expr Place)} {values : List (Value Place)}
    (h : t.Passes config before values w) :
    ∃ n, ∀ m ≥ n, Action.collect (fun part => evaluate config m part t.scope t.stack) before t.world =
      .done values w := by
  induction h with
  | nil => exact ⟨0, fun _ _ => rfl⟩
  | @snoc before values e v w w' _ hyields ih =>
    obtain ⟨n, hn⟩ := ih
    obtain ⟨k, hk⟩ := hyields.eventually
    refine ⟨max n k, fun m hm => ?_⟩
    have hbefore := hn m (by omega)
    have hlast : evaluate config m e t.scope t.stack w = .done v w' := hk m (by omega)
    rw [Action.collect_append, Action.bind_of_done hbefore, Action.collect_cons, bind_assoc,
      Action.bind_of_done hlast]
    rfl

/-- The values of operands are determined. -/
theorem Passes.unique {before : List (Expr Place)} {values values' : List (Value Place)}
    (h : t.Passes config before values w) (h' : t.Passes config before values' w') :
    values = values' ∧ w = w' := by
  obtain ⟨n, hn⟩ := h.collect
  obtain ⟨k, hk⟩ := h'.collect
  have heq := (hn (max n k) (Nat.le_max_left n k)).symm.trans (hk (max n k) (Nat.le_max_right n k))
  cases heq
  exact ⟨rfl, rfl⟩

/-- When all operands have been passed, the rest is left to be done. -/
theorem Passes.outcome {values : List (Value Place)} (h : t.Passes config t.node.operands values w) :
    ∃ n, ∀ m ≥ n, t.outcome config (m + 1) =
      Evaluation.conclude config m t.scope t.stack t.node values w := by
  obtain ⟨n, hn⟩ := h.collect
  refine ⟨n, fun m hm => ?_⟩
  rw [Visit.outcome, evaluate_succ]
  exact Action.bind_of_done (hn m hm)

/-- The rounds that a visit has gone through are those which its evaluation has repeated. -/
theorem Rounds.repeatWhile {condition body : Expr Place} (h : t.Rounds config condition body w) :
    ∃ n k, ∀ m ≥ n, ∀ j,
      Action.repeatWhile (do return (← evaluate config m condition t.scope t.stack).isTruthy)
          (evaluate config m body t.scope t.stack) (j + k) t.world =
        Action.repeatWhile (do return (← evaluate config m condition t.scope t.stack).isTruthy)
          (evaluate config m body t.scope t.stack) j w := by
  induction h with
  | start => exact ⟨0, 0, fun _ _ _ => rfl⟩
  | @round w w₁ w₂ v u _ hcondition htrue hbody ih =>
    obtain ⟨n, k, hrounds⟩ := ih
    obtain ⟨n₁, hn₁⟩ := hcondition.eventually
    obtain ⟨n₂, hn₂⟩ := hbody.eventually
    refine ⟨max n (max n₁ n₂), k + 1, fun m hm j => ?_⟩
    have hcondition' : evaluate config m condition t.scope t.stack w = .done v w₁ := hn₁ m (by omega)
    have hbody' : evaluate config m body t.scope t.stack w₁ = .done u w₂ := hn₂ m (by omega)
    rw [show j + (k + 1) = (j + 1) + k by omega, hrounds m (by omega), Action.repeatWhile_succ,
      bind_assoc, Action.bind_of_done hcondition', pure_bind, htrue, if_pos rfl,
      Action.bind_of_done hbody']

/-! ## Errors are passed on -/

/-- If a loop fails behind the rounds it has gone through, it fails. -/
theorem Rounds.failed {place : Place} {condition body : Expr Place}
    (hnode : t.node = .loop place condition body) (h : t.Rounds config condition body w)
    {e : RuntimeError Place} {n : Nat}
    (hround : ∀ m ≥ n, ∀ j,
      Action.repeatWhile (do return (← evaluate config m condition t.scope t.stack).isTruthy)
        (evaluate config m body t.scope t.stack) (j + 1) w = .failed e w') :
    ∃ m, t.outcome config m = .failed e w' := by
  obtain ⟨k, rounds, hrounds⟩ := h.repeatWhile
  refine ⟨max n k + 1 + rounds + 1, ?_⟩
  rw [Visit.outcome, hnode]
  show (Action.repeatWhile _ _ (max n k + 1 + rounds) >>= fun _ => pure Value.none) t.world = _
  refine Action.bind_of_failed ?_
  rw [hrounds _ (by omega)]
  exact hround _ (by omega) _

/-- If an operand fails, so does the whole. -/
theorem Passes.failed {before after : List (Expr Place)} {values : List (Value Place)} {part : Expr Place}
    (hoperands : t.node.operands = before ++ part :: after) (h : t.Passes config before values w)
    {e : RuntimeError Place} {n : Nat} (hpart : (t.beside part w).outcome config n = .failed e w') :
    ∃ m, t.outcome config m = .failed e w' := by
  obtain ⟨k, hk⟩ := h.collect
  have hpart' : evaluate config (max n k) part t.scope t.stack w = .failed e w' :=
    failed_of_le hpart (Nat.le_max_left n k)
  refine ⟨max n k + 1, ?_⟩
  rw [Visit.outcome, evaluate_succ, hoperands, Action.collect_append, bind_assoc,
    Action.bind_of_done (hk _ (Nat.le_max_right n k)), Action.collect_cons]
  exact Action.bind_of_failed (Action.bind_of_failed (Action.bind_of_failed hpart'))

/-- A visit fails with what something fails with that it leads to. -/
theorem Leads.failed (h : t.Leads config t') {n : Nat} {e : RuntimeError Place}
    (hfailed : t'.outcome config n = .failed e w) : ∃ m, t.outcome config m = .failed e w := by
  have hfailed' {m : Nat} (hm : n ≤ m) := failed_of_le hfailed hm
  cases h with
  | operand hoperands hpasses => exact hpasses.failed hoperands hfailed
  | @branch place condition thenBranch elseBranch v w₁ hnode hpasses =>
    obtain ⟨k, hk⟩ := Passes.outcome (by rw [hnode]; exact hpasses)
    refine ⟨max n k + 1, ?_⟩
    rw [hk _ (Nat.le_max_right n k), hnode]
    exact hfailed' (Nat.le_max_left n k)
  | condition hnode hrounds =>
    refine hrounds.failed hnode (n := n) fun m hm j => ?_
    rw [Action.repeatWhile_succ]
    exact Action.bind_of_failed (Action.bind_of_failed (hfailed' hm))
  | @round place condition body w₁ v w₂ hnode hrounds hcondition htrue =>
    obtain ⟨k, hk⟩ := hcondition.eventually
    refine hrounds.failed hnode (n := max n k) fun m hm j => ?_
    have hcondition' : evaluate config m condition t.scope t.stack w₁ = .done v w₂ := hk m (by omega)
    rw [Action.repeatWhile_succ, bind_assoc, Action.bind_of_done hcondition', pure_bind, htrue, if_pos rfl]
    exact Action.bind_of_failed (hfailed' (by omega))
  | @body f inner w₁ henters =>
    obtain ⟨place, callee, arguments, values, m, hnode, hpasses, hcheck, henter⟩ := henters
    obtain ⟨k, hk⟩ := Passes.outcome (by rw [hnode]; exact hpasses)
    refine ⟨max n k + 1, ?_⟩
    rw [hk _ (Nat.le_max_right n k), hnode]
    show Evaluation.callValue config (max n k) t.stack place values (.function f) m = _
    rw [Evaluation.callValue, Action.bind_of_done hcheck, Action.bind_of_done henter]
    have hplace : t.node.place = place := by
      rw [hnode]
      rfl
    rw [← hplace]
    exact hfailed' (Nat.le_max_left n k)

/-- A visit fails with what anything fails with that it comes to, as nothing is done about errors. -/
theorem Reaches.failed (h : t.Reaches config t') {n : Nat} {e : RuntimeError Place}
    (hfailed : t'.outcome config n = .failed e w) : ∃ m, t.outcome config m = .failed e w := by
  induction h using Relation.ReflTransGen.head_induction_on with
  | refl => exact ⟨n, hfailed⟩
  | head hleads _ ih =>
    obtain ⟨m, hm⟩ := ih
    exact hleads.failed hm

end Visit
end Cyan
