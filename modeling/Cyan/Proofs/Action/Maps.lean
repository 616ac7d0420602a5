/-
Actions on the image of a state.

`Action.Maps f a b` says that `b` does on the image of a state what `a` does on the state itself: where
`a` ends, `b` ends in the image of the state, with the image of the result or of the error.  The three
maps are for states, errors and results.  Putting actions together keeps this, so a computation does
not depend on what a map forgets as soon as its steps do not.
-/
import Cyan.Proofs.Action.Keeps

namespace Cyan

variable {σ σ' ε ε' α α' β β' : Type}

namespace Outcome

def map (onState : σ → σ') (onError : ε → ε') (onResult : α → α') : Outcome σ ε α → Outcome σ' ε' α'
  | done result s => done (onResult result) (onState s)
  | failed error s => failed (onError error) (onState s)
  | unfinished => unfinished

end Outcome

namespace Action

/-- The second action does on images what the first one does. -/
def Maps (onState : σ → σ') (onError : ε → ε') (onResult : α → α') (a : Action σ ε α)
    (b : Action σ' ε' α') : Prop :=
  ∀ s, b (onState s) = (a s).map onState onError onResult

namespace Maps

variable {onState : σ → σ'} {onError : ε → ε'} {onResult : α → α'} {onNext : β → β'}

theorem cutOff : Maps onState onError onResult Action.cutOff Action.cutOff := fun _ => rfl

theorem pure (x : α) :
    Maps onState onError onResult (Pure.pure x) (Pure.pure (onResult x)) := fun _ => rfl

theorem pure_of {x : α} {y : α'} (h : onResult x = y) :
    Maps onState onError onResult (Pure.pure x) (Pure.pure y) := h ▸ pure x

theorem bind {a : Action σ ε α} {b : Action σ' ε' α'} {f : α → Action σ ε β}
    {g : α' → Action σ' ε' β'} (hab : Maps onState onError onResult a b)
    (hfg : ∀ x, Maps onState onError onNext (f x) (g (onResult x))) :
    Maps onState onError onNext (a >>= f) (b >>= g) := by
  intro s
  simp only [bind_apply, andThen]
  rw [hab s]
  cases a s with
  | done x m => exact hfg x m
  | failed | unfinished => rfl

theorem ite {p : Prop} [Decidable p] {a a' : Action σ ε α} {b b' : Action σ' ε' α'}
    (hab : Maps onState onError onResult a b) (hab' : Maps onState onError onResult a' b') :
    Maps onState onError onResult (if p then a else a') (if p then b else b') := by
  by_cases h : p
  · rw [if_pos h, if_pos h]
    exact hab
  · rw [if_neg h, if_neg h]
    exact hab'

end Maps
end Action
end Cyan
