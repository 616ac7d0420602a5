/-
What holds where an action ends.

`Action.Secures P a E Q` says that an action which is started where `P` holds ends, if it ends, with a
result and a state of which `Q` holds, or with an error and a state of which `E` holds.  There is one law
for each way of putting actions together.  The laws for lists carry an invariant that speaks of the
members dealt with so far, and the law for repetition one that holds before every round.
-/
import Cyan.Proofs.Action.Keeps

namespace Cyan

variable {σ ε α β : Type}

/-- `Q` holds of the result and the last state, or `E` of the error and the last state. -/
def Outcome.Meets (E : ε → σ → Prop) (Q : α → σ → Prop) : Outcome σ ε α → Prop
  | done x s => Q x s
  | failed e s => E e s
  | unfinished => True

/-- What is known may be more than what is asked for. -/
theorem Outcome.Meets.weaken {E E' : ε → σ → Prop} {Q Q' : α → σ → Prop} {o : Outcome σ ε α}
    (h : o.Meets E Q) (hE : ∀ e s, E e s → E' e s) (hQ : ∀ x s, Q x s → Q' x s) :
    o.Meets E' Q' := by
  cases o with
  | done x s => exact hQ x s h
  | failed e s => exact hE e s h
  | unfinished => trivial

/-- What holds in both cases holds of the last state. -/
theorem Outcome.Meets.of_state? {P : σ → Prop} {Q : α → σ → Prop} {o : Outcome σ ε α} {s : σ}
    (h : o.Meets (fun _ => P) Q) (hQ : ∀ x s, Q x s → P s) (hs : o.state? = some s) : P s := by
  cases o with
  | done x m =>
    cases hs
    exact hQ x s h
  | failed e m =>
    cases hs
    exact h
  | unfinished => cases hs

namespace Action

/-- From every state of which `P` holds, the outcome meets `E` and `Q`. -/
def Secures (P : σ → Prop) (a : Action σ ε α) (E : ε → σ → Prop) (Q : α → σ → Prop) : Prop :=
  ∀ s, P s → (a s).Meets E Q

namespace Secures

variable {P : σ → Prop} {E : ε → σ → Prop} {Q : α → σ → Prop} {R : β → σ → Prop}

theorem cutOff : Secures P (Action.cutOff : Action σ ε α) E Q := fun _ _ => trivial

theorem pure {x : α} (h : ∀ s, P s → Q x s) : Secures P (Pure.pure x : Action σ ε α) E Q := h

theorem fail {e : ε} (h : ∀ s, P s → E e s) : Secures P (Action.fail e : Action σ ε α) E Q := h

theorem state : Secures P (Action.state : Action σ ε σ) E fun x s => P s ∧ x = s :=
  fun _ hs => ⟨hs, rfl⟩

theorem bind {a : Action σ ε α} {f : α → Action σ ε β} (ha : Secures P a E Q)
    (hf : ∀ x, Secures (Q x) (f x) E R) : Secures P (a >>= f) E R := by
  intro s hs
  have hmeets := ha s hs
  rw [bind_apply, andThen]
  cases h : a s with
  | done x m =>
    rw [h] at hmeets
    exact hf x m hmeets
  | failed e m =>
    rw [h] at hmeets
    exact hmeets
  | unfinished => trivial

theorem weaken {P' : σ → Prop} {E' : ε → σ → Prop} {Q' : α → σ → Prop} {a : Action σ ε α}
    (h : Secures P a E Q) (hP : ∀ s, P' s → P s) (hE : ∀ e s, E e s → E' e s)
    (hQ : ∀ x s, Q x s → Q' x s) : Secures P' a E' Q' := fun s hs => (h s (hP s hs)).weaken hE hQ

theorem pre {P' : σ → Prop} {a : Action σ ε α} (h : Secures P a E Q) (hP : ∀ s, P' s → P s) :
    Secures P' a E Q := h.weaken hP (fun _ _ h => h) fun _ _ h => h

theorem post {Q' : α → σ → Prop} {a : Action σ ε α} (h : Secures P a E Q)
    (hQ : ∀ x s, Q x s → Q' x s) : Secures P a E Q' := h.weaken (fun _ h => h) (fun _ _ h => h) hQ

/-- `I` speaks of the members for which the action has been run. -/
theorem each {I : List α → σ → Prop} {f : α → Action σ ε β} (list : List α)
    (hf : ∀ before x after, list = before ++ x :: after →
      Secures (I before) (f x) E fun _ => I (before ++ [x])) :
    Secures (I []) (Action.each f list) E fun _ => I list := by
  have hrest : ∀ rest before, list = before ++ rest →
      Secures (I before) (Action.each f rest) E fun _ => I list := by
    intro rest
    induction rest with
    | nil =>
      intro before hlist
      rw [List.append_nil] at hlist
      exact pure fun s hs => hlist ▸ hs
    | cons x rest ih =>
      intro before hlist
      rw [each_cons]
      refine (hf before x rest hlist).bind fun _ => ih (before ++ [x]) ?_
      rw [hlist, List.append_cons]
  exact hrest list [] rfl

/-- `I` speaks of the members for which the action has been run, and of the results. -/
theorem collect {I : List α → List β → σ → Prop} {f : α → Action σ ε β} (list : List α)
    (hf : ∀ before x after results, list = before ++ x :: after →
      Secures (I before results) (f x) E fun y => I (before ++ [x]) (results ++ [y])) :
    Secures (I [] []) (Action.collect f list) E fun results => I list results := by
  have hrest : ∀ rest before results, list = before ++ rest →
      Secures (I before results.reverse) (Action.collectOnto results f rest) E
        fun results => I list results := by
    intro rest
    induction rest with
    | nil =>
      intro before results hlist
      rw [List.append_nil] at hlist
      exact pure fun s hs => hlist ▸ hs
    | cons x rest ih =>
      intro before results hlist
      rw [collectOnto_cons]
      refine (hf before x rest results.reverse hlist).bind fun y => ?_
      rw [← List.reverse_cons]
      refine ih (before ++ [x]) (y :: results) ?_
      rw [hlist, List.append_cons]
  exact hrest list [] [] rfl

/-- `P` holds before every round, `B` where the condition gave true, and `D` where it gave false. -/
theorem repeatWhile {B D : σ → Prop} {c : Action σ ε Bool} {b : Action σ ε β}
    (hc : Secures P c E fun more s => if more then B s else D s)
    (hb : Secures B b E fun _ => P) (n : Nat) :
    Secures P (Action.repeatWhile c b n) E fun _ => D := by
  induction n with
  | zero => exact cutOff
  | succ n ih =>
    rw [repeatWhile_succ]
    refine hc.bind fun more => ?_
    cases more with
    | false => exact pure fun s hs => by simpa using hs
    | true =>
      have hround := hb.bind fun _ => ih
      exact hround.weaken (fun s hs => by simpa using hs) (fun _ _ h => h) fun _ _ h => h

end Secures
end Action
end Cyan
