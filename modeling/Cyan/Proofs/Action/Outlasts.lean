/-
Actions that go on where another one gives up.

`Action.Outlasts S G R a b` says that from states related by `S` the action `b` ends as `a` does, unless
`a` gives up, which is to fail with an error of `G`.  In that case `b` may go on, and if it ends, `R` leads
from the state in which `a` gave up to the one in which `b` ends.  Two actions put together outlast two
others if each one outlasts the other of its place and `R` is kept by what `b` does later, as `a` gives up
for good.
-/
import Cyan.Proofs.Action.Relates

namespace Cyan

variable {σ ε α β : Type} {S : σ → σ → Prop} {G : ε → Prop} {R K : σ → σ → Prop}

namespace Action

/-- From states that are alike, where the first action does not give up, the second ends in the same way,
and where it does, the second gets at least as far. -/
def Outlasts (S : σ → σ → Prop) (G : ε → Prop) (R : σ → σ → Prop) (a b : Action σ ε α) : Prop :=
  ∀ s s', S s s' → (a s).Relates S Eq Eq (b s') ∨
    ∃ e m, a s = .failed e m ∧ G e ∧ ∀ m', (b s').state? = some m' → R m m'

namespace Outlasts

theorem of_relates {a b : Action σ ε α} (h : Relates S Eq Eq a b) : Outlasts S G R a b :=
  fun s s' hs => Or.inl (h s s' hs)

theorem pure (x : α) : Outlasts S G R (Pure.pure x) (Pure.pure x) := of_relates (.pure rfl)

variable (hRK : ∀ m k k', R m k → K k k' → R m k')
include hRK

theorem bind {a b : Action σ ε α} {f g : α → Action σ ε β} (hab : Outlasts S G R a b)
    (hfg : ∀ x, Outlasts S G R (f x) (g x)) (hg : ∀ x, Keeps K (g x)) :
    Outlasts S G R (a >>= f) (b >>= g) := by
  intro s s' hs
  rw [bind_apply, bind_apply, andThen, andThen]
  rcases hab s s' hs with hrelates | ⟨e, m, ha, he, hm⟩
  · generalize a s = o at hrelates
    generalize b s' = o' at hrelates
    cases hrelates with
    | @done x y _ _ hxy hs =>
      subst hxy
      exact hfg x _ _ hs
    | failed he hs => exact Or.inl (.failed he hs)
    | unfinished => exact Or.inl .unfinished
  · refine Or.inr ⟨e, m, by rw [ha], he, fun m' h => ?_⟩
    rcases state?_bind h with ⟨e', hb⟩ | ⟨x, k, hb, hk⟩
    · exact hm m' (by rw [hb]; rfl)
    · exact hRK m k m' (hm k (by rw [hb]; rfl)) (hg x k m' hk)

variable [IsPreorder σ K]

theorem each {f g : α → Action σ ε β} (hfg : ∀ x, Outlasts S G R (f x) (g x))
    (hg : ∀ x, Keeps K (g x)) (list : List α) :
    Outlasts S G R (Action.each f list) (Action.each g list) := by
  induction list with
  | nil => exact .pure ()
  | cons x rest ih =>
    rw [each_cons, each_cons]
    exact (hfg x).bind hRK (fun _ => ih) fun _ => Keeps.each hg rest

theorem collectOnto {f g : α → Action σ ε β} (hfg : ∀ x, Outlasts S G R (f x) (g x))
    (hg : ∀ x, Keeps K (g x)) (results : List β) (list : List α) :
    Outlasts S G R (Action.collectOnto results f list) (Action.collectOnto results g list) := by
  induction list generalizing results with
  | nil => exact .pure _
  | cons x rest ih =>
    rw [collectOnto_cons, collectOnto_cons]
    exact (hfg x).bind hRK (fun y => ih (y :: results)) fun y => Keeps.collectOnto hg (y :: results) rest

theorem repeatWhile {c d : Action σ ε Bool} {f g : Action σ ε β} (hcd : Outlasts S G R c d)
    (hfg : Outlasts S G R f g) (hd : Keeps K d) (hg : Keeps K g) (n : Nat) :
    Outlasts S G R (Action.repeatWhile c f n) (Action.repeatWhile d g n) := by
  induction n with
  | zero => exact of_relates .cutOff
  | succ n ih =>
    rw [repeatWhile_succ, repeatWhile_succ]
    have hrounds : Keeps K (Action.repeatWhile d g n) := Keeps.repeatWhile hd hg n
    refine hcd.bind hRK (fun more => ?_) fun more => ?_
    · cases more with
      | true => exact hfg.bind hRK (fun _ => ih) fun _ => hrounds
      | false => exact .pure ()
    · cases more with
      | true => exact hg.bind fun _ => hrounds
      | false => exact Keeps.pure ()

end Outlasts
end Action
end Cyan
