/-
Actions that keep a relation.

`Action.Keeps R a` says that `R` leads from the state `a` is started in to the state it ends in,
whether it ends with a result or with an error.  If `R` is reflexive and transitive, every way of
putting actions together keeps it, so that a law about a whole computation comes down to the laws of
the steps that change the state.
-/
import Cyan.Action.Basic
import Mathlib.Order.Defs.Unbundled

namespace Cyan

variable {σ ε α β : Type}

namespace Outcome

/-- The state an action ended in, unless it was cut off. -/
def state? : Outcome σ ε α → Option σ
  | done _ s | failed _ s => some s
  | unfinished => none

end Outcome

namespace Action

theorem each_cons (f : α → Action σ ε β) (x : α) (rest : List α) :
    each f (x :: rest) = f x >>= fun _ => each f rest := by
  funext s
  rw [bind_apply, andThen, each]

theorem collectOnto_cons (results : List β) (f : α → Action σ ε β) (x : α) (rest : List α) :
    collectOnto results f (x :: rest) = f x >>= fun y => collectOnto (y :: results) f rest := by
  funext s
  rw [bind_apply, andThen, collectOnto]

theorem repeatWhile_succ (c : Action σ ε Bool) (b : Action σ ε β) (n : Nat) :
    repeatWhile c b (n + 1) =
      c >>= fun more => if more then b >>= fun _ => repeatWhile c b n else pure () := by
  funext s
  simp only [bind_apply, andThen, repeatWhile]
  cases c s with
  | done more m =>
    cases more with
    | false => rfl
    | true =>
      simp only [if_true, bind_apply, andThen]
  | failed | unfinished => rfl

/-- The first action ended with an error, or with a result from which the second one went on. -/
theorem state?_bind {a : Action σ ε α} {f : α → Action σ ε β} {s s' : σ}
    (h : ((a >>= f) s).state? = some s') :
    (∃ e, a s = .failed e s') ∨ ∃ x m, a s = .done x m ∧ (f x m).state? = some s' := by
  rw [bind_apply, andThen] at h
  cases ha : a s with
  | done x m =>
    rw [ha] at h
    exact Or.inr ⟨x, m, rfl, h⟩
  | failed e m =>
    rw [ha] at h
    obtain rfl : m = s' := Option.some.inj h
    exact Or.inl ⟨e, rfl⟩
  | unfinished =>
    rw [ha] at h
    cases h

/-- Wherever the action ends, `R` leads from its first state to its last. -/
def Keeps (R : σ → σ → Prop) (a : Action σ ε α) : Prop :=
  ∀ s s', (a s).state? = some s' → R s s'

namespace Keeps

variable {R : σ → σ → Prop}

theorem done {a : Action σ ε α} (h : Keeps R a) {s m : σ} {x : α} (ha : a s = .done x m) : R s m :=
  h s m (by rw [ha]; rfl)

theorem failed {a : Action σ ε α} (h : Keeps R a) {s m : σ} {e : ε} (ha : a s = .failed e m) :
    R s m :=
  h s m (by rw [ha]; rfl)

theorem cutOff : Keeps R (Action.cutOff : Action σ ε α) := fun _ _ h => nomatch h

/-- A relation is kept by an action whose outcome leaves the state alone. -/
theorem of_same [Std.Refl R] {a : Action σ ε α} (h : ∀ s s', (a s).state? = some s' → s' = s) :
    Keeps R a := by
  intro s s' hs
  rw [h s s' hs]
  exact refl_of R s

theorem pure [Std.Refl R] (x : α) : Keeps R (Pure.pure x : Action σ ε α) :=
  of_same fun _ _ h => (Option.some.inj h).symm

theorem fail [Std.Refl R] (e : ε) : Keeps R (Action.fail e : Action σ ε α) :=
  of_same fun _ _ h => (Option.some.inj h).symm

theorem state [Std.Refl R] : Keeps R (Action.state : Action σ ε σ) :=
  of_same fun _ _ h => (Option.some.inj h).symm

theorem update {f : σ → σ} (h : ∀ s, R s (f s)) : Keeps R (Action.update f : Action σ ε Unit) := by
  intro s s' hs
  obtain rfl : f s = s' := Option.some.inj hs
  exact h s

variable [IsPreorder σ R]

theorem bind {a : Action σ ε α} {f : α → Action σ ε β} (ha : Keeps R a) (hf : ∀ x, Keeps R (f x)) :
    Keeps R (a >>= f) := by
  intro s s' h
  rcases state?_bind h with ⟨e, h⟩ | ⟨x, m, h, hs⟩
  · exact ha.failed h
  · exact trans_of R (ha.done h) (hf x m s' hs)

theorem each {f : α → Action σ ε β} (hf : ∀ x, Keeps R (f x)) (list : List α) :
    Keeps R (Action.each f list) := by
  induction list with
  | nil => exact pure ()
  | cons x rest ih =>
    rw [each_cons]
    exact (hf x).bind fun _ => ih

theorem collectOnto {f : α → Action σ ε β} (hf : ∀ x, Keeps R (f x)) (results : List β)
    (list : List α) : Keeps R (Action.collectOnto results f list) := by
  induction list generalizing results with
  | nil => exact pure _
  | cons x rest ih =>
    rw [collectOnto_cons]
    exact (hf x).bind fun y => ih (y :: results)

theorem repeatWhile {c : Action σ ε Bool} {b : Action σ ε β} (hc : Keeps R c) (hb : Keeps R b)
    (n : Nat) : Keeps R (Action.repeatWhile c b n) := by
  induction n with
  | zero => exact cutOff
  | succ n ih =>
    rw [repeatWhile_succ]
    refine hc.bind fun more => ?_
    split
    · exact hb.bind fun _ => ih
    · exact pure ()

end Keeps
end Action
end Cyan
