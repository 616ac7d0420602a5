/-
The limit of active calls.

A limit can only be the reason for a failure.  A run that does not fail for its limit is the same under
every larger one, and a run that does has written no more than what any run under a larger limit writes
first (`evaluate_of_limit_le`).

The limit is asked for in one place, when a function is called.  There the lower limit gives up or both
go on, and everywhere else both do the same, so that under the larger limit an evaluation outlasts the
one under the smaller (`evaluate_outlasts`).
-/
import Cyan.Evaluation.Bound
import Cyan.Proofs.Evaluation.Outlasts

namespace Cyan

open Cyan.Action (Keeps Outlasts Relates)

variable {Place : Type} {config : Config} {limit limit' : Nat}

/-- The settings with another limit of active calls. -/
def Config.withLimit (config : Config) (limit : Nat) : Config := { config with maxCallDepth := limit }

def RuntimeError.IsLimit (e : RuntimeError Place) : Prop := e.fault = .recursionLimit

namespace Evaluation

/-- Worlds with the same store and the same console are the same. -/
theorem eq_of_beside {w w' : World Place} (h : World.Beside Eq w w') : w = w' := by
  obtain ⟨store, console⟩ := w
  obtain ⟨store', console'⟩ := w'
  obtain ⟨rfl, rfl⟩ := h
  rfl

/-- A call that is refused under the larger limit is refused under the smaller. -/
theorem checkCall_outlasts (h : limit ≤ limit') (stack : CallStack Place) (place : Place)
    (f : Function Place) (given : Nat) :
    Outlasts (World.Beside Eq) RuntimeError.IsLimit World.Follows
      (checkCall (config.withLimit limit) stack place f given)
      (checkCall (config.withLimit limit') stack place f given) := by
  unfold checkCall
  by_cases hcount : given ≠ f.parameters.length
  · rw [if_pos hcount, if_pos hcount]
    exact .of_relates (raise_beside stack place _)
  · rw [if_neg hcount, if_neg hcount]
    by_cases hlow : limit ≤ stack.depth
    · rw [if_pos (show (config.withLimit limit).maxCallDepth ≤ stack.depth from hlow)]
      intro w w' hw
      obtain rfl := eq_of_beside hw
      refine Or.inr ⟨_, w, rfl, rfl, fun w' hw' => ?_⟩
      split at hw'
      · exact raise_keeps stack place _ w w' hw'
      · exact Keeps.pure () w w' hw'
    · have hhigh : ¬ limit' ≤ stack.depth := by omega
      rw [if_neg (show ¬ (config.withLimit limit).maxCallDepth ≤ stack.depth from hlow),
        if_neg (show ¬ (config.withLimit limit').maxCallDepth ≤ stack.depth from hhigh)]
      exact .pure ()

theorem outlast_withLimit (h : limit ≤ limit') :
    Outlast Eq (RuntimeError.IsLimit : RuntimeError Place → Prop) World.Follows (config.withLimit limit)
      (config.withLimit limit') where
  follows _ _ _ hwk hkk := trans_of World.Follows hwk hkk
  write stack place _ := .of_relates (useConsole_beside stack place fun _ _ hc => hc ▸ ⟨rfl, rfl⟩)
  readLine stack place := .of_relates (useConsole_beside stack place fun _ _ hc => hc ▸ ⟨rfl, rfl⟩)
  checkCall := checkCall_outlasts h
  bindsAnonymous_eq := rfl

end Evaluation

/-- Under a larger limit an evaluation goes on where it failed for the smaller one, and does the same
otherwise. -/
theorem evaluate_outlasts (h : limit ≤ limit') (n : Nat) (e : Expr Place) (scope : ScopeId)
    (stack : CallStack Place) (w : World Place) :
    evaluate (config.withLimit limit') n e scope stack w =
      evaluate (config.withLimit limit) n e scope stack w ∨
    ∃ f m, evaluate (config.withLimit limit) n e scope stack w = .failed f m ∧ f.IsLimit ∧
      ∀ m', (evaluate (config.withLimit limit') n e scope stack w).state? = some m' → m.Follows m' := by
  refine ((Evaluation.outlast_withLimit h).evaluate n e scope stack w w ⟨rfl, rfl⟩).imp_left fun hsame => ?_
  generalize evaluate (config.withLimit limit) n e scope stack w = o at hsame ⊢
  generalize evaluate (config.withLimit limit') n e scope stack w = o' at hsame ⊢
  cases hsame with
  | done hv hw => rw [hv, Evaluation.eq_of_beside hw]
  | failed he hw => rw [he, Evaluation.eq_of_beside hw]
  | unfinished => rfl

/-- What a run under a larger limit ends in follows what a run has failed in, whatever the bounds of the
two. -/
theorem follows_of_limit_le (h : limit ≤ limit') {n m : Nat} {e : Expr Place} {scope : ScopeId}
    {stack : CallStack Place} {w w' w'' : World Place} {f : RuntimeError Place}
    (hlow : evaluate (config.withLimit limit) n e scope stack w = .failed f w')
    (hhigh : (evaluate (config.withLimit limit') m e scope stack w).state? = some w'') :
    w'.Follows w'' := by
  -- Both runs end under the larger of the two bounds as they do under their own.
  have hlow' : evaluate (config.withLimit limit) (max n m) e scope stack w = .failed f w' := by
    rw [evaluate_of_le (Nat.le_max_left n m) (by rw [hlow]; exact nofun), hlow]
  have hends : evaluate (config.withLimit limit') m e scope stack w ≠ .unfinished := by
    intro hcut
    rw [hcut] at hhigh
    cases hhigh
  rw [← evaluate_of_le (Nat.le_max_right n m) hends] at hhigh
  rcases evaluate_outlasts h (max n m) e scope stack w with heq | ⟨f', m', hfailed, -, hfollows⟩
  · rw [heq, hlow'] at hhigh
    cases hhigh
    exact refl_of World.Follows w'
  · rw [hlow'] at hfailed
    cases hfailed
    exact hfollows w'' hhigh

/-- A run that does not fail for its limit ends in the same way and in the same world under every larger
one.  What a run has written that does is what every run under a larger limit writes first, however that
ends, and all that has happened on the console of the one has happened on that of the other. -/
theorem evaluate_of_limit_le (config : Config) (h : limit ≤ limit') (e : Expr Place) (scope : ScopeId)
    (stack : CallStack Place) (w : World Place) :
    (∀ n v w', evaluate (config.withLimit limit) n e scope stack w = .done v w' →
      evaluate (config.withLimit limit') n e scope stack w = .done v w') ∧
    (∀ n f w', evaluate (config.withLimit limit) n e scope stack w = .failed f w' →
      f.fault ≠ .recursionLimit →
      evaluate (config.withLimit limit') n e scope stack w = .failed f w') ∧
    ∀ n f w', evaluate (config.withLimit limit) n e scope stack w = .failed f w' →
      f.fault = .recursionLimit →
      ∀ m w'', (evaluate (config.withLimit limit') m e scope stack w).state? = some w'' →
        w'.console.transcript <:+ w''.console.transcript ∧
        ∃ text, w''.console.output = w'.console.output ++ text := by
  refine ⟨?_, ?_, ?_⟩
  · intro n v w' hlow
    rcases evaluate_outlasts h n e scope stack w with heq | ⟨f, m, hfailed, -⟩
    · rw [heq, hlow]
    · rw [hlow] at hfailed
      cases hfailed
  · intro n f w' hlow hfault
    rcases evaluate_outlasts h n e scope stack w with heq | ⟨f', m, hfailed, hlimit, -⟩
    · rw [heq, hlow]
    · rw [hlow] at hfailed
      cases hfailed
      exact absurd hlimit hfault
  · intro n f w' hlow _ m w'' hhigh
    obtain ⟨events, hevents⟩ := follows_of_limit_le h hlow hhigh
    refine ⟨?_, Console.written events, hevents.output_eq⟩
    rw [hevents.transcript_eq]
    exact List.suffix_append events _

/-- A function writes its argument and then calls itself with false, or ends if the argument is false.
Called with true it needs two active calls, and has written once when it is refused the second. -/
theorem evaluate_of_limit_le_two_calls :
    let show_ : Expr Unit := .call () (.reference () "out") [.reference () "n"]
    let again : Expr Unit := .call () (.reference () "f") [.literal () (.bool false)]
    let body : Expr Unit := .block () [show_, .conditional () (.reference () "n") again (.pass ())]
    let program : Expr Unit := .block () [.function () (some "f") ["n"] body,
      .call () (.reference () "f") [.literal () (.bool true)]]
    let w : World Unit := { store := (Store.addGlobal {}).2 }
    let run (limit : Nat) := evaluate (({} : Config).withLimit limit) 9 program 0 {} w
    ∃ f w₁ v w₂, run 1 = .failed f w₁ ∧ f.fault = .recursionLimit ∧ w₁.console.output = "true\n" ∧
      run 2 = .done v w₂ ∧ run 3 = .done v w₂ ∧
      ∃ text, w₂.console.output = w₁.console.output ++ text := by
  intro show_ again body program w run
  obtain ⟨f, w₁, hone, hfault, houtput⟩ : ∃ f w₁, run 1 = .failed f w₁ ∧ f.fault = .recursionLimit ∧
      w₁.console.output = "true\n" := ⟨_, _, rfl, rfl, rfl⟩
  obtain ⟨v, w₂, htwo⟩ : ∃ v w₂, run 2 = .done v w₂ := by
    -- The run is left to the kernel, which is much faster at it than unification.
    have hdone : (match run 2 with | .done _ _ => true | _ => false) = true := by decide +kernel
    cases hrun : run 2 with
    | done v w₂ => exact ⟨v, w₂, rfl⟩
    | failed | unfinished =>
      rw [hrun] at hdone
      cases hdone
  have hthree := (evaluate_of_limit_le {} (show 2 ≤ 3 by omega) program 0 {} w).1 9 v w₂ htwo
  have hfirst := (evaluate_of_limit_le {} (show 1 ≤ 2 by omega) program 0 {} w).2.2 9 f w₁ hone hfault
  have hended : (run 2).state? = some w₂ := by rw [htwo]; rfl
  exact ⟨f, w₁, v, w₂, hone, hfault, houtput, htwo, hthree, (hfirst 9 w₂ hended).2⟩

end Cyan
