/-
How many calls are active.

`Visit.Active config t k t'` says that the visit `t` comes to `t'` inside of `k` calls of functions which
have been entered on the way and have not ended.  `Run.call_depth` says that the stack of calls is as deep
as that, never deeper than the limit, that a traceback is one line longer than the stack is deep, and that
a run fails for the limit exactly if it comes to a call of a function with the right number of arguments
while as many calls are active as are allowed.

No operation and no built-in function fails for the limit (`Visit.raises_limit_iff`), and a call of a
built-in function enters nothing.
-/
import Cyan.Proofs.Evaluation.Failures
import Cyan.Proofs.Evaluation.Operands

namespace Cyan

variable {Place : Type} {config : Config} {t t' : Visit Place}

/-! ## What fails for the limit -/

namespace Value

theorem operate_ne_limit (op : BinaryOp) (a b : Value Place) :
    a.operate op b ≠ .error .recursionLimit := by
  intro h
  unfold operate operate? at h
  cases op <;> cases a <;> cases b <;> simp [sum?, onNumbers?, equal?, logic?] at h
  split at h <;> simp at h

theorem operateUnary_ne_limit (op : UnaryOp) (a : Value Place) :
    a.operateUnary op ≠ .error .recursionLimit := by
  intro h
  cases op with
  | plus => cases h
  | minus => exact operate_ne_limit _ _ _ h
  | not => cases a <;> cases h

theorem toNumber_ne_limit (v : Value Place) : v.toNumber ≠ .error .recursionLimit := by
  intro h
  cases v with
  | string text =>
    rw [toNumber] at h
    split at h <;> cases h
  | none | bool | number | function | builtin => cases h

end Value

namespace Evaluation

open Cyan.Action (Secures)

/-- A built-in function does not fail for the limit of active calls. -/
theorem callBuiltin_ne_limit (stack : CallStack Place) (place : Place) (b : Builtin)
    (values : List (Value Place)) :
    Secures (fun _ => True) (callBuiltin stack place b values) (fun e _ => e.fault ≠ .recursionLimit)
      fun _ _ => True := by
  have huse {α : Type} (use : Console → Except String α × Console) :
      Secures (fun _ => True) (useConsole stack place use) (fun e _ => e.fault ≠ .recursionLimit)
        fun _ _ => True := by
    intro w _
    rw [useConsole]
    rcases use w.console with ⟨result | fault, console⟩
    · intro h
      cases h
    · trivial
  unfold callBuiltin
  split
  · exact (huse _).bind fun _ => Secures.pure fun _ _ => trivial
  · refine (huse _).bind fun line? => ?_
    split <;> exact Secures.pure fun _ _ => trivial
  · exact Secures.pure fun _ _ => trivial
  · next v =>
    refine (settle_secures (fun _ _ _ _ => trivial) fun fault hfault w _ => ?_).bind fun _ =>
      Secures.pure fun _ _ => trivial
    rintro rfl
    exact Value.toNumber_ne_limit v hfault
  · exact Secures.pure fun _ _ => trivial
  · exact raise_secures fun _ _ h => by cases h
  · exact raise_secures fun _ _ h => by cases h

/-- A function can be called with the right number of arguments while fewer calls are active than are
allowed. -/
theorem checkCall_eq_done (stack : CallStack Place) (place : Place) (f : Function Place) (given : Nat)
    (w : World Place) :
    checkCall config stack place f given w = .done () w ↔
      given = f.parameters.length ∧ stack.depth < config.maxCallDepth := by
  unfold checkCall
  by_cases hgiven : given ≠ f.parameters.length
  · rw [if_pos hgiven]
    exact ⟨nofun, fun h => absurd h.1 hgiven⟩
  · rw [if_neg hgiven]
    by_cases hdepth : config.maxCallDepth ≤ stack.depth
    · rw [if_pos hdepth]
      exact ⟨nofun, fun h => absurd h.2 (Nat.not_lt.mpr hdepth)⟩
    · rw [if_neg hdepth]
      exact ⟨fun _ => ⟨by omega, by omega⟩, fun _ => rfl⟩

/-- It is refused for the limit if as many calls are active as are allowed. -/
theorem checkCall_eq_limit (stack : CallStack Place) (place : Place) {f : Function Place} {given : Nat}
    (hgiven : given = f.parameters.length) (hdepth : config.maxCallDepth ≤ stack.depth)
    (w : World Place) :
    checkCall config stack place f given w = .failed ⟨.recursionLimit, place, stack.trace place⟩ w := by
  unfold checkCall
  rw [if_neg (show ¬ given ≠ f.parameters.length by omega), if_pos hdepth]
  rfl

/-- And it is refused for the limit in no other case. -/
theorem of_checkCall_limit {stack : CallStack Place} {place : Place} {f : Function Place} {given : Nat}
    {w w' : World Place} {e : RuntimeError Place}
    (h : checkCall config stack place f given w = .failed e w') (he : e.fault = .recursionLimit) :
    given = f.parameters.length ∧ config.maxCallDepth ≤ stack.depth := by
  unfold checkCall at h
  by_cases hgiven : given ≠ f.parameters.length
  · rw [if_pos hgiven] at h
    cases h
    cases he
  · rw [if_neg hgiven] at h
    by_cases hdepth : config.maxCallDepth ≤ stack.depth
    · exact ⟨by omega, hdepth⟩
    · rw [if_neg hdepth] at h
      cases h

end Evaluation

/-! ## Calls -/

namespace Visit

/-- The visit is a call, and what it calls and the arguments have been evaluated, in the world `w`. -/
def Calls (config : Config) (t : Visit Place) (target : Value Place) (values : List (Value Place))
    (w : World Place) : Prop :=
  ∃ place callee arguments, t.node = .call place callee arguments ∧
    t.Passes config (callee :: arguments) (target :: values) w

variable {target target' : Value Place} {values values' : List (Value Place)} {w w' : World Place}

theorem Calls.unique (h : t.Calls config target values w) (h' : t.Calls config target' values' w') :
    target = target' ∧ values = values' ∧ w = w' := by
  obtain ⟨place, callee, arguments, hnode, hpasses⟩ := h
  obtain ⟨place', callee', arguments', hnode', hpasses'⟩ := h'
  cases hnode.symm.trans hnode'
  obtain ⟨hvalues, hw⟩ := hpasses.unique hpasses'
  cases hvalues
  exact ⟨rfl, rfl, hw⟩

/-- What is left to be done of a call when its operands have been evaluated is to call the value. -/
theorem Calls.outcome (h : t.Calls config target values w) :
    ∃ n, ∀ m ≥ n, t.outcome config (m + 1) =
      Evaluation.callValue config m t.stack t.node.place values target w := by
  obtain ⟨place, callee, arguments, hnode, hpasses⟩ := h
  obtain ⟨n, hn⟩ := Passes.outcome (by rw [hnode]; exact hpasses)
  refine ⟨n, fun m hm => ?_⟩
  rw [hn m hm, hnode]
  rfl

/-- A visit enters a function if it calls it with the right number of arguments while fewer calls are
active than are allowed. -/
theorem exists_enters_iff {f : Function Place} :
    (∃ inner w', t.Enters config f inner w') ↔
      ∃ values w, t.Calls config (.function f) values w ∧ values.length = f.parameters.length ∧
        t.stack.depth < config.maxCallDepth := by
  constructor
  · rintro ⟨inner, w', place, callee, arguments, values, w, hnode, hpasses, hcheck, -⟩
    obtain ⟨hvalues, hdepth⟩ := (Evaluation.checkCall_eq_done _ _ f _ _).mp hcheck
    exact ⟨values, w, ⟨place, callee, arguments, hnode, hpasses⟩, hvalues, hdepth⟩
  · rintro ⟨values, w, ⟨place, callee, arguments, hnode, hpasses⟩, hvalues, hdepth⟩
    have hcheck := (Evaluation.checkCall_eq_done t.stack place f _ w).mpr ⟨hvalues, hdepth⟩
    exact ⟨_, _, place, callee, arguments, values, w, hnode, hpasses, hcheck, Evaluation.enter_eq f values w⟩

/-- Nothing but a call of a function fails for the limit. -/
theorem raises_limit_iff :
    t.Raises config .recursionLimit ↔
      ∃ f values w, t.Calls config (.function f) values w ∧ values.length = f.parameters.length ∧
        config.maxCallDepth ≤ t.stack.depth := by
  constructor
  · intro h
    generalize hfault : RuntimeFault.recursionLimit = fault at h
    cases h with
    | undefined | notCallable => cases hfault
    | binary _ _ hoperate => exact absurd (hfault ▸ hoperate) (Value.operate_ne_limit _ _ _)
    | unary _ _ hoperate => exact absurd (hfault ▸ hoperate) (Value.operateUnary_ne_limit _ _)
    | @builtin place callee arguments b values w e w' _ _ hfailed =>
      have hne := Evaluation.callBuiltin_ne_limit t.stack place b values w trivial
      rw [hfailed] at hne
      exact absurd hfault.symm hne
    | @refused place callee arguments f values w e w' hnode hpasses hfailed =>
      obtain ⟨hvalues, hdepth⟩ := Evaluation.of_checkCall_limit hfailed hfault.symm
      exact ⟨f, values, w, ⟨place, callee, arguments, hnode, hpasses⟩, hvalues, hdepth⟩
  · rintro ⟨f, values, w, ⟨place, callee, arguments, hnode, hpasses⟩, hvalues, hdepth⟩
    have hfailed := Evaluation.checkCall_eq_limit t.stack place hvalues hdepth w
    exact .refused hnode hpasses hfailed

/-- The visit comes to the other one inside of `k` calls of functions, which have been entered on the way
and have not ended. -/
inductive Active (config : Config) (t : Visit Place) : Nat → Visit Place → Prop where
  | refl : Active config t 0 t
  | beside {k u e w} : Active config t k u → u.Leads config (u.beside e w) →
      Active config t k (u.beside e w)
  | calling {k u f inner w} : Active config t k u → u.Enters config f inner w →
      Active config t (k + 1) (u.calling f inner w)

theorem Active.reaches {k : Nat} (h : t.Active config k t') : t.Reaches config t' := by
  induction h with
  | refl => exact .refl
  | beside _ hleads ih => exact ih.tail hleads
  | calling _ henters ih => exact ih.tail (.body henters)

theorem Reaches.exists_active (h : t.Reaches config t') : ∃ k, t.Active config k t' := by
  induction h with
  | refl => exact ⟨0, .refl⟩
  | tail _ hleads ih =>
    obtain ⟨k, hk⟩ := ih
    cases hleads with
    | operand hoperands hpasses => exact ⟨k, hk.beside (.operand hoperands hpasses)⟩
    | branch hnode hpasses => exact ⟨k, hk.beside (.branch hnode hpasses)⟩
    | condition hnode hrounds => exact ⟨k, hk.beside (.condition hnode hrounds)⟩
    | round hnode hrounds hcondition htrue =>
      exact ⟨k, hk.beside (.round hnode hrounds hcondition htrue)⟩
    | body henters => exact ⟨k + 1, hk.calling henters⟩

/-- Each call that is entered makes the stack deeper by one. -/
theorem Active.depth_eq {k : Nat} (h : t.Active config k t') : t'.stack.depth = t.stack.depth + k := by
  induction h with
  | refl => rfl
  | beside _ _ ih => exact ih
  | @calling k u f inner w _ _ ih =>
    show u.stack.depth + 1 = t.stack.depth + (k + 1)
    omega

/-- No call is entered that would make the stack deeper than is allowed. -/
theorem Active.depth_le {k : Nat} (h : t.Active config k t') (ht : t.stack.depth ≤ config.maxCallDepth) :
    t'.stack.depth ≤ config.maxCallDepth := by
  induction h with
  | refl => exact ht
  | beside _ _ ih => exact ih
  | @calling k u f inner w _ henters _ =>
    obtain ⟨_, _, -, -, hdepth⟩ := exists_enters_iff.mp ⟨inner, w, henters⟩
    exact hdepth

end Visit

namespace Run

variable {r : Run Place}

theorem depth_of_active {k : Nat} (h : r.visit.Active config k t) :
    t.stack.depth = k ∧ k ≤ config.maxCallDepth := by
  have hdepth : t.stack.depth = 0 + k := h.depth_eq
  have hle := h.depth_le (Nat.zero_le _)
  omega

/-- A function that a run calls with the right number of arguments, while as many calls are active as are
allowed, is the end of the run. -/
theorem failed_of_calls (hactive : r.visit.Active config config.maxCallDepth t) {f : Function Place}
    {values : List (Value Place)} {w : World Place} (hcalls : t.Calls config (.function f) values w)
    (hvalues : values.length = f.parameters.length) :
    ∃ n, r.visit.outcome config n =
      .failed ⟨.recursionLimit, t.node.place, t.stack.trace t.node.place⟩ w := by
  obtain ⟨n, hn⟩ := hcalls.outcome
  have hdepth := (depth_of_active hactive).1
  have hcheck := Evaluation.checkCall_eq_limit t.stack t.node.place hvalues (Nat.le_of_eq hdepth.symm) w
  have hfailed := (hn n (Nat.le_refl n)).trans (Action.bind_of_failed hcheck)
  exact hactive.reaches.failed hfailed

/-- And a run that fails for the limit has come to such a call. -/
theorem exists_calls_of_failed {n : Nat} {e : RuntimeError Place} {w : World Place}
    (hfailed : r.visit.outcome config n = .failed e w) (hfault : e.fault = .recursionLimit) :
    ∃ t f values, r.visit.Active config config.maxCallDepth t ∧ t.Calls config (.function f) values w ∧
      values.length = f.parameters.length ∧
      e = ⟨.recursionLimit, t.node.place, t.stack.trace t.node.place⟩ := by
  obtain ⟨t, ht, hblames⟩ := Visit.exists_blames hfailed
  obtain ⟨k, hk⟩ := ht.exists_active
  obtain ⟨f, values, w', hcalls, hvalues, hdepth⟩ :=
    Visit.raises_limit_iff.mp (hfault ▸ hblames.raises)
  obtain ⟨hstack, hle⟩ := depth_of_active hk
  obtain rfl : k = config.maxCallDepth := by omega
  -- The call fails in the world it is made in, and the run has no other outcome.
  obtain ⟨m, hm⟩ := failed_of_calls hk hcalls hvalues
  have hsame := Visit.outcome_unique (by rw [hfailed]; exact nofun) (by rw [hm]; exact nofun)
  rw [hfailed, hm] at hsame
  cases hsame
  exact ⟨t, f, values, hk, hcalls, hvalues, rfl⟩

/-- Wherever a run comes to, the stack of calls is as deep as calls are active, and not deeper than is
allowed.  The traceback of an error is one line longer than the stack is deep where the error is raised.
A run fails for the limit exactly if it comes to a call of a function with the right number of arguments
while as many calls are active as are allowed, and has a line for each of them and one more then.  A call
of a built-in function makes no call active, and does not fail for the limit. -/
theorem call_depth (config : Config) (r : Run Place) :
    (∀ t, r.visit.Reaches config t → ∃ k, r.visit.Active config k t) ∧
    (∀ k t, r.visit.Active config k t → t.stack.depth = k ∧ k ≤ config.maxCallDepth) ∧
    (∀ n e w, r.visit.outcome config n = .failed e w →
      ∃ k t, r.visit.Active config k t ∧ t.Blames config e ∧ e.trace.length = t.stack.depth + 1 ∧
        e.trace.length ≤ config.maxCallDepth + 1) ∧
    (∀ e w, (∃ n, r.visit.outcome config n = .failed e w ∧ e.fault = .recursionLimit) ↔
      ∃ t f values, r.visit.Active config config.maxCallDepth t ∧ t.Calls config (.function f) values w ∧
        values.length = f.parameters.length ∧
        e = ⟨.recursionLimit, t.node.place, t.stack.trace t.node.place⟩) ∧
    (∀ n e w, r.visit.outcome config n = .failed e w → e.fault = .recursionLimit →
      e.trace.length = config.maxCallDepth + 1) ∧
    ∀ (t : Visit Place) b values w, t.Calls config (.builtin b) values w →
      (∀ f inner w', ¬ t.Enters config f inner w') ∧ ¬ t.Raises config .recursionLimit := by
  refine ⟨fun t ht => ht.exists_active, fun k t hk => depth_of_active hk, ?_, ?_, ?_, ?_⟩
  · intro n e w hfailed
    obtain ⟨t, ht, hblames⟩ := Visit.exists_blames hfailed
    obtain ⟨k, hk⟩ := ht.exists_active
    obtain ⟨hstack, hle⟩ := depth_of_active hk
    have hlength : e.trace.length = t.stack.depth + 1 := by
      rw [hblames.trace_eq, CallStack.length_trace]
    exact ⟨k, t, hk, hblames, hlength, by omega⟩
  · intro e w
    constructor
    · rintro ⟨n, hfailed, hfault⟩
      exact exists_calls_of_failed hfailed hfault
    · rintro ⟨t, f, values, hactive, hcalls, hvalues, rfl⟩
      obtain ⟨n, hn⟩ := failed_of_calls hactive hcalls hvalues
      exact ⟨n, hn, rfl⟩
  · intro n e w hfailed hfault
    obtain ⟨t, f, values, hactive, -, -, rfl⟩ := exists_calls_of_failed hfailed hfault
    rw [CallStack.length_trace, (depth_of_active hactive).1]
  · intro t b values w hcalls
    constructor
    · intro f inner w' henters
      obtain ⟨values', m, hcalls', -⟩ := Visit.exists_enters_iff.mp ⟨inner, w', henters⟩
      cases (hcalls.unique hcalls').1
    · intro hraises
      obtain ⟨f, values', m, hcalls', -⟩ := Visit.raises_limit_iff.mp hraises
      cases (hcalls.unique hcalls').1

/-- A function that does nothing but call itself fails in its third call if two are allowed, and the
traceback has three lines then. -/
theorem call_depth_two_calls :
    let config : Config := { maxCallDepth := 2 }
    let again : Expr Unit := .call () (.reference () "f") []
    let r : Run Unit :=
      ⟨.block () [.function () (some "f") [] again, again], 0, { store := (Store.addGlobal {}).2 }⟩
    ∃ n e w t, r.visit.outcome config n = .failed e w ∧ e.fault = .recursionLimit ∧
      r.visit.Active config 2 t ∧ t.stack.depth = 2 ∧ e.trace.length = 3 := by
  intro config again r
  obtain ⟨e, w, hfailed, hfault⟩ :
      ∃ e w, r.visit.outcome config 9 = .failed e w ∧ e.fault = .recursionLimit := ⟨_, _, rfl, rfl⟩
  obtain ⟨-, hdepth, -, hiff, hlength, -⟩ := call_depth config r
  obtain ⟨t, f, values, hactive, -⟩ := (hiff e w).mp ⟨9, hfailed, hfault⟩
  exact ⟨9, e, w, t, hfailed, hfault, hactive, (hdepth 2 t hactive).1, hlength 9 e w hfailed hfault⟩

end Run
end Cyan
