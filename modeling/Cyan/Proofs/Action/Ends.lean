/-
Actions that end.

`Action.Ends P a G` says that an action which is started where `P` holds comes to an end, and that if it
does not fail, `P` holds again and `G` holds of the result.  Of an action that fails nothing more is asked,
as nothing goes on from there.  `Action.Secures` says nothing of an action that is cut off; here that is
what must not happen.
-/
import Cyan.Proofs.Action.Keeps

namespace Cyan

variable {σ ε α β : Type}

namespace Action

/-- From every state of which `P` holds the action ends, and keeps `P` with a result of which `G` holds,
or fails. -/
def Ends (P : σ → Prop) (a : Action σ ε α) (G : α → Prop) : Prop :=
  ∀ s, P s → (∃ x m, a s = .done x m ∧ G x ∧ P m) ∨ ∃ e m, a s = .failed e m

namespace Ends

variable {P : σ → Prop} {G : α → Prop} {H : β → Prop}

theorem ne_unfinished {a : Action σ ε α} (h : Ends P a G) {s : σ} (hs : P s) : a s ≠ .unfinished := by
  rcases h s hs with ⟨x, m, h, -⟩ | ⟨e, m, h⟩ <;> rw [h] <;> exact nofun

theorem pure {x : α} (h : G x) : Ends P (Pure.pure x : Action σ ε α) G :=
  fun s hs => Or.inl ⟨x, s, rfl, h, hs⟩

theorem fail (e : ε) : Ends P (Action.fail e : Action σ ε α) G := fun s _ => Or.inr ⟨e, s, rfl⟩

theorem update {f : σ → σ} (h : ∀ s, P s → P (f s)) :
    Ends P (Action.update f : Action σ ε Unit) fun _ => True :=
  fun s hs => Or.inl ⟨(), f s, rfl, trivial, h s hs⟩

theorem bind {a : Action σ ε α} {f : α → Action σ ε β} (ha : Ends P a G)
    (hf : ∀ x, G x → Ends P (f x) H) : Ends P (a >>= f) H := by
  intro s hs
  rw [bind_apply, andThen]
  rcases ha s hs with ⟨x, m, h, hx, hm⟩ | ⟨e, m, h⟩
  · rw [h]
    exact hf x hx m hm
  · rw [h]
    exact Or.inr ⟨e, m, rfl⟩

theorem each {f : α → Action σ ε β} {list : List α} (hf : ∀ x ∈ list, Ends P (f x) H) :
    Ends P (Action.each f list) fun _ => True := by
  induction list with
  | nil => exact pure trivial
  | cons x rest ih =>
    obtain ⟨hx, hrest⟩ := List.forall_mem_cons.mp hf
    rw [each_cons]
    exact hx.bind fun _ _ => ih hrest

theorem collectOnto {f : α → Action σ ε β} {results : List β} (hresults : ∀ y ∈ results, H y)
    {list : List α} (hf : ∀ x ∈ list, Ends P (f x) H) :
    Ends P (Action.collectOnto results f list) fun ys => ∀ y ∈ ys, H y := by
  induction list generalizing results with
  | nil => exact pure fun y hy => hresults y (List.mem_reverse.mp hy)
  | cons x rest ih =>
    obtain ⟨hx, hrest⟩ := List.forall_mem_cons.mp hf
    rw [collectOnto_cons]
    exact hx.bind fun y hy => ih (List.forall_mem_cons.mpr ⟨hy, hresults⟩) hrest

/-- All results are of the kind that each action gives. -/
theorem collect {f : α → Action σ ε β} {list : List α} (hf : ∀ x ∈ list, Ends P (f x) H) :
    Ends P (Action.collect f list) fun ys => ∀ y ∈ ys, H y :=
  collectOnto (fun _ hy => nomatch hy) hf

end Ends
end Action
end Cyan
