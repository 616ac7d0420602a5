/-
Actions: computations that change a state and may fail.

An action of type `Action σ ε α` is started in a state and ends in one, either with a result or with an
error; a failure does not undo what was done before it.  An action may also be cut off before it ends,
which is kept apart from both and leaves no state.
-/

namespace Cyan

inductive Outcome (σ ε α : Type) where
  | done (result : α) (state : σ)
  | failed (error : ε) (state : σ)
  /-- The action was cut off. -/
  | unfinished
deriving Repr

def Action (σ ε α : Type) := σ → Outcome σ ε α

namespace Action

variable {σ ε α β : Type}

/-- Run one action, and with its result the next one. -/
@[inline] def andThen (a : Action σ ε α) (f : α → Action σ ε β) : Action σ ε β := fun s =>
  match a s with
  | .done result s => f result s
  | .failed error s => .failed error s
  | .unfinished => .unfinished

instance : Monad (Action σ ε) where
  pure result := fun s => .done result s
  bind := andThen

@[inline] def fail (error : ε) : Action σ ε α := fun s => .failed error s

@[inline] def cutOff : Action σ ε α := fun _ => .unfinished

@[inline] def state : Action σ ε σ := fun s => .done s s

@[inline] def update (f : σ → σ) : Action σ ε Unit := fun s => .done () (f s)

def each (f : α → Action σ ε β) : List α → Action σ ε Unit
  | [] => fun s => .done () s
  | a :: rest => fun s =>
    match f a s with
    | .done _ s => each f rest s
    | .failed error s => .failed error s
    | .unfinished => .unfinished

/-- Run an action for each member of a list in order, and put the results behind those collected so
far, which are in reverse order. -/
def collectOnto (results : List β) (f : α → Action σ ε β) : List α → Action σ ε (List β)
  | [] => fun s => .done results.reverse s
  | a :: rest => fun s =>
    match f a s with
    | .done b s => collectOnto (b :: results) f rest s
    | .failed error s => .failed error s
    | .unfinished => .unfinished

def collect (f : α → Action σ ε β) (list : List α) : Action σ ε (List β) := collectOnto [] f list

/-- Run `body` as long as `condition` gives true, at most `n` times. -/
def repeatWhile (condition : Action σ ε Bool) (body : Action σ ε β) : Nat → Action σ ε Unit
  | 0 => cutOff
  | n + 1 => fun s =>
    match condition s with
    | .done true s =>
      match body s with
      | .done _ s => repeatWhile condition body n s
      | .failed error s => .failed error s
      | .unfinished => .unfinished
    | .done false s => .done () s
    | .failed error s => .failed error s
    | .unfinished => .unfinished

theorem bind_apply (a : Action σ ε α) (f : α → Action σ ε β) (s : σ) :
    (a >>= f) s = a.andThen f s := rfl

theorem pure_apply (result : α) (s : σ) : (pure result : Action σ ε α) s = .done result s := rfl

theorem andThen_pure (a : Action σ ε α) : a.andThen pure = a := by
  funext s
  show andThen a _ s = a s
  unfold andThen
  cases a s <;> rfl

theorem andThen_assoc {γ : Type} (a : Action σ ε α) (f : α → Action σ ε β)
    (g : β → Action σ ε γ) : (a.andThen f).andThen g = a.andThen fun x => (f x).andThen g := by
  funext s
  show andThen (andThen a f) g s = andThen a _ s
  unfold andThen
  cases a s <;> rfl

instance : LawfulMonad (Action σ ε) :=
  LawfulMonad.mk' (Action σ ε) andThen_pure (fun _ _ => rfl) andThen_assoc

end Action
end Cyan
