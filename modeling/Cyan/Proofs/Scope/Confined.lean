/-
Functions that a part of the store holds.

`Store.Confines first B` says that nothing leads out of the scopes from `first` on, and that every function
bound there has a body of which `B` holds.  A new global scope is such a part of the store by itself,
whatever there is before it, and it remains one if functions are added that fit.
-/
import Cyan.Proofs.Scope.Agree

namespace Cyan

variable {Place : Type} {first : ScopeId} {B : Expr Place → Prop}

/-- If the value is a function, `B` holds of its body, and it captures a scope from `first` on. -/
def Value.Confined (first : ScopeId) (B : Expr Place → Prop) (v : Value Place) : Prop :=
  ∀ f, v = .function f → first ≤ f.scope ∧ B f.body

namespace Value.Confined

/-- Of a value that is no function nothing is asked. -/
theorem of_ne {v : Value Place} (h : ∀ f, v ≠ .function f) : v.Confined first B :=
  fun f hf => absurd hf (h f)

theorem function {f : Function Place} (hscope : first ≤ f.scope) (hbody : B f.body) :
    (Value.function f).Confined first B := by
  intro g hg
  cases hg
  exact ⟨hscope, hbody⟩

theorem captured {v : Value Place} (h : v.Confined first B) : ∀ id ∈ v.captured, first ≤ id := by
  intro id hid
  cases v with
  | function f =>
    rw [List.mem_singleton.mp hid]
    exact (h f rfl).1
  | none | bool | number | string | builtin => cases hid

end Value.Confined

namespace Store

/-- Nothing leads out of the scopes from `first` on, and of the bodies of all functions bound there `B`
holds. -/
structure Confines (first : ScopeId) (B : Expr Place → Prop) (st : Store Place) : Prop where
  first_le : first ≤ st.size
  closed : st.Closed (first ≤ ·)
  body : ∀ id, first ≤ id → ∀ name f, (st.bindings id).get? name = some (.function f) → B f.body

namespace Confines

variable {st : Store Place}

/-- What a name means in one of the scopes is confined. -/
theorem get? (h : st.Confines first B) {id : ScopeId} (hid : first ≤ id) {name : String}
    {v : Value Place} (hv : st.get? id name = some v) : v.Confined first B := by
  rintro f rfl
  obtain ⟨other, hother, hbound⟩ := get?_bound hv
  exact ⟨h.closed.get? hid hv, h.body other (h.closed.chain hid hother) name f hbound⟩

theorem set (h : st.Confines first B) (id : ScopeId) (name : String) {v : Value Place}
    (hv : v.Confined first B) : (st.set id name v).Confines first B where
  first_le := by
    rw [size_set]
    exact h.first_le
  closed := h.closed.set id name hv.captured
  body other hother key f hf := by
    rcases bound_set hf with ⟨-, hf⟩ | hf
    · exact (hv f hf.symm).2
    · exact h.body other hother key f hf

theorem foldl_set (h : st.Confines first B) (id : ScopeId) {named : List (String × Value Place)}
    (hnamed : ∀ entry ∈ named, entry.2.Confined first B) :
    (named.foldl (fun st (name, v) => st.set id name v) st).Confines first B := by
  induction named generalizing st with
  | nil => exact h
  | cons entry rest ih =>
    obtain ⟨hentry, hrest⟩ := List.forall_mem_cons.mp hnamed
    exact ih (h.set id entry.1 hentry) hrest

theorem addChild (h : st.Confines first B) {parent : ScopeId} (hparent : first ≤ parent) :
    (st.addChild parent).2.Confines first B where
  first_le := by
    rw [size_addChild]
    exact Nat.le_succ_of_le h.first_le
  closed := h.closed.addChild hparent
  body id hid name f hf := by
    rw [bindings_addChild] at hf
    exact h.body id hid name f hf

/-- Scopes that are still to be made lead nowhere and bind nothing. -/
theorem unmade (st : Store Place) : st.Confines st.size B where
  first_le := Nat.le_refl _
  closed _ _ hid hleads := absurd hleads (not_leads hid)
  body id hid name f hf := by
    rw [bindings_eq_nil hid] at hf
    cases hf

theorem addRoot (h : st.Confines first B) : st.addRoot.2.Confines first B where
  first_le := Nat.le_trans h.first_le (Nat.le_of_lt (size_lt_addRoot st))
  closed := h.closed.addRoot
  body id hid name f hf := by
    rw [bindings_addRoot] at hf
    exact h.body id hid name f hf

theorem withGlobal (h : st.Confines first B) : st.addGlobal.2.Confines first B := by
  rw [addGlobal_eq]
  refine h.addRoot.foldl_set st.size fun entry hentry => ?_
  obtain ⟨b, -, rfl⟩ := List.mem_map.mp hentry
  exact Value.Confined.of_ne nofun

/-- A new global scope leads nowhere and binds nothing but built-in functions. -/
theorem addGlobal (st : Store Place) : st.addGlobal.2.Confines st.size B := (unmade st).withGlobal

theorem release (h : st.Confines first B) (id : ScopeId) : (st.release id).Confines first B where
  first_le := by
    rw [size_release]
    exact h.first_le
  closed := h.closed.release id
  body other hother name f hf := h.body other hother name f (bound_release hf)

end Confines
end Store
end Cyan
