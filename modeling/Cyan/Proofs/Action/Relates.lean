/-
Actions that do the same on states that are alike.

`Action.Relates S E R a b` says that from states related by `S` the two actions end in the same way: in
states related by `S`, with results related by `R` or with errors related by `E`.  Each way of putting
actions together keeps this, so two computations that run in step stay alike as long as their steps do.
-/
import Cyan.Proofs.Action.Keeps
import Mathlib.Data.List.Forall2

namespace Cyan

variable {σ σ' ε ε' α α' β β' : Type} {S : σ → σ' → Prop} {E : ε → ε' → Prop} {R : α → α' → Prop}
  {R' : β → β' → Prop}

namespace Outcome

/-- Two outcomes are of one kind and in states that are alike. -/
inductive Relates (S : σ → σ' → Prop) (E : ε → ε' → Prop) (R : α → α' → Prop) :
    Outcome σ ε α → Outcome σ' ε' α' → Prop
  | done {x y s s'} : R x y → S s s' → Relates S E R (.done x s) (.done y s')
  | failed {e e' s s'} : E e e' → S s s' → Relates S E R (.failed e s) (.failed e' s')
  | unfinished : Relates S E R .unfinished .unfinished

theorem Relates.mono {S₁ : σ → σ' → Prop} {R₁ : α → α' → Prop} {o : Outcome σ ε α}
    {o' : Outcome σ' ε' α'} (h : o.Relates S E R o') (hS : ∀ s s', S s s' → S₁ s s')
    (hR : ∀ x y, R x y → R₁ x y) : o.Relates S₁ E R₁ o' := by
  cases h with
  | done hxy hs => exact .done (hR _ _ hxy) (hS _ _ hs)
  | failed he hs => exact .failed he (hS _ _ hs)
  | unfinished => exact .unfinished

end Outcome

namespace Action

/-- From states that are alike the two actions end alike. -/
def Relates (S : σ → σ' → Prop) (E : ε → ε' → Prop) (R : α → α' → Prop) (a : Action σ ε α)
    (b : Action σ' ε' α') : Prop :=
  ∀ s s', S s s' → (a s).Relates S E R (b s')

namespace Relates

theorem cutOff : Relates S E R Action.cutOff Action.cutOff := fun _ _ _ => .unfinished

theorem pure {x : α} {y : α'} (h : R x y) : Relates S E R (Pure.pure x) (Pure.pure y) :=
  fun _ _ hs => .done h hs

theorem fail {e : ε} {e' : ε'} (h : E e e') : Relates S E R (Action.fail e) (Action.fail e') :=
  fun _ _ hs => .failed h hs

theorem state : Relates S E S Action.state Action.state := fun _ _ hs => .done hs hs

theorem update {f : σ → σ} {g : σ' → σ'} (h : ∀ s s', S s s' → S (f s) (g s')) :
    Relates S E Eq (Action.update f) (Action.update g) :=
  fun s s' hs => .done rfl (h s s' hs)

theorem bind {a : Action σ ε α} {b : Action σ' ε' α'} {f : α → Action σ ε β}
    {g : α' → Action σ' ε' β'} (hab : Relates S E R a b)
    (hfg : ∀ x y, R x y → Relates S E R' (f x) (g y)) : Relates S E R' (a >>= f) (b >>= g) := by
  intro s s' hs
  have h := hab s s' hs
  rw [bind_apply, bind_apply, andThen, andThen]
  generalize a s = o at h
  generalize b s' = o' at h
  cases h with
  | done hxy hs => exact hfg _ _ hxy _ _ hs
  | failed he hs => exact .failed he hs
  | unfinished => exact .unfinished

theorem ite {p q : Prop} [Decidable p] [Decidable q] (hpq : p ↔ q) {a a' : Action σ ε α}
    {b b' : Action σ' ε' α'} (hab : Relates S E R a b) (hab' : Relates S E R a' b') :
    Relates S E R (if p then a else a') (if q then b else b') := by
  by_cases hp : p
  · rw [if_pos hp, if_pos (hpq.mp hp)]
    exact hab
  · rw [if_neg hp, if_neg (mt hpq.mpr hp)]
    exact hab'

theorem each {γ γ' : Type} {f : γ → Action σ ε β} {g : γ' → Action σ' ε' β'} {list : List γ}
    {list' : List γ'} (h : List.Forall₂ (fun x y => Relates S E R' (f x) (g y)) list list') :
    Relates S E Eq (Action.each f list) (Action.each g list') := by
  induction h with
  | nil => exact pure rfl
  | cons hxy _ ih =>
    rw [each_cons, each_cons]
    exact hxy.bind fun _ _ _ => ih

theorem collectOnto {γ γ' : Type} {f : γ → Action σ ε β} {g : γ' → Action σ' ε' β'} {list : List γ}
    {list' : List γ'} (h : List.Forall₂ (fun x y => Relates S E R' (f x) (g y)) list list')
    {results : List β} {results' : List β'} (hresults : List.Forall₂ R' results results') :
    Relates S E (List.Forall₂ R') (Action.collectOnto results f list)
      (Action.collectOnto results' g list') := by
  induction h generalizing results results' with
  | nil => exact pure (List.rel_reverse hresults)
  | cons hxy _ ih =>
    rw [collectOnto_cons, collectOnto_cons]
    exact hxy.bind fun _ _ hresult => ih (.cons hresult hresults)

theorem repeatWhile {c : Action σ ε Bool} {d : Action σ' ε' Bool} {f : Action σ ε β}
    {g : Action σ' ε' β'} (hcd : Relates S E Eq c d) (hfg : Relates S E R' f g) (n : Nat) :
    Relates S E Eq (Action.repeatWhile c f n) (Action.repeatWhile d g n) := by
  induction n with
  | zero => exact cutOff
  | succ n ih =>
    rw [repeatWhile_succ, repeatWhile_succ]
    refine hcd.bind fun more more' hmore => ?_
    subst hmore
    cases more with
    | true => exact hfg.bind fun _ _ _ => ih
    | false => exact pure rfl

end Relates
end Action
end Cyan
