/-
Actions that end more often.

`Action.Below a b` says that `b` ends like `a` wherever `a` ends at all: being cut off is the only thing
`b` may improve on.  The ways in which actions are put together keep this order, so that a computation
that is given a bound is below the same computation with a larger bound as soon as each of its steps
is.
-/
import Cyan.Action.Basic

namespace Cyan
namespace Action

variable {σ ε α β : Type}

/-- Wherever the first action is not cut off, the second ends in the same way. -/
def Below (a b : Action σ ε α) : Prop := ∀ s, a s = .unfinished ∨ b s = a s

namespace Below

theorem refl (a : Action σ ε α) : Below a a := fun _ => Or.inr rfl

theorem trans {a b c : Action σ ε α} (hab : Below a b) (hbc : Below b c) : Below a c := by
  intro s
  rcases hab s with ha | ha
  · exact Or.inl ha
  · rcases hbc s with hb | hb
    · exact Or.inl (ha ▸ hb)
    · exact Or.inr (hb.trans ha)

theorem cutOff (a : Action σ ε α) : Below Action.cutOff a := fun _ => Or.inl rfl

theorem bind {a b : Action σ ε α} {f g : α → Action σ ε β} (hab : Below a b)
    (hfg : ∀ x, Below (f x) (g x)) : Below (a >>= f) (b >>= g) := by
  intro s
  simp only [bind_apply, andThen]
  rcases hab s with ha | ha
  · rw [ha]
    exact Or.inl rfl
  · rw [ha]
    cases a s with
    | done x s => exact hfg x s
    | failed => exact Or.inr rfl
    | unfinished => exact Or.inl rfl

theorem each {f g : α → Action σ ε β} (hfg : ∀ x, Below (f x) (g x)) (list : List α) :
    Below (Action.each f list) (Action.each g list) := by
  induction list with
  | nil => exact refl _
  | cons x rest ih =>
    intro s
    simp only [Action.each]
    rcases hfg x s with hf | hf
    · rw [hf]
      exact Or.inl rfl
    · rw [hf]
      cases f x s with
      | done _ s => exact ih s
      | failed => exact Or.inr rfl
      | unfinished => exact Or.inl rfl

theorem collectOnto {f g : α → Action σ ε β} (hfg : ∀ x, Below (f x) (g x)) (results : List β)
    (list : List α) :
    Below (Action.collectOnto results f list) (Action.collectOnto results g list) := by
  induction list generalizing results with
  | nil => exact refl _
  | cons x rest ih =>
    intro s
    simp only [Action.collectOnto]
    rcases hfg x s with hf | hf
    · rw [hf]
      exact Or.inl rfl
    · rw [hf]
      cases f x s with
      | done y s => exact ih (y :: results) s
      | failed => exact Or.inr rfl
      | unfinished => exact Or.inl rfl

/-- A loop may take more rounds. -/
theorem repeatWhile {c d : Action σ ε Bool} {f g : Action σ ε β} (hcd : Below c d)
    (hfg : Below f g) (n : Nat) :
    Below (Action.repeatWhile c f n) (Action.repeatWhile d g (n + 1)) := by
  induction n with
  | zero => exact cutOff _
  | succ n ih =>
    intro s
    rw [Action.repeatWhile, Action.repeatWhile]
    rcases hcd s with hc | hc
    · simp [hc]
    · simp only [hc]
      cases c s with
      | done more s =>
        cases more with
        | false => exact Or.inr rfl
        | true =>
          rcases hfg s with hf | hf
          · simp [hf]
          · simp only [hf]
            cases f s with
            | done _ s => exact ih s
            | failed => exact Or.inr rfl
            | unfinished => exact Or.inl rfl
      | failed => exact Or.inr rfl
      | unfinished => exact Or.inl rfl

end Below
end Action
end Cyan
