/-
Scopes that can be reached.

From a scope one gets to the scopes it is nested in, and to those that the functions bound in it capture.
Where every function captures a scope as it should, this never leaves the tree of one root
(`Store.Lexical.separate`), so releasing one root leaves all bindings alone that another one reaches
(`Store.Lexical.bindings_release`).
-/
import Cyan.Proofs.Scope.Lexical

namespace Cyan

variable {Place : Type}

namespace Store

/-- The scopes that a scope leads to directly. -/
inductive Leads (st : Store Place) (id : ScopeId) : ScopeId → Prop where
  | outer {other} : other ∈ st.outer id → Leads st id other
  | captured {name f} : (st.bindings id).get? name = some (.function f) → Leads st id f.scope

/-- The scopes that a scope leads to, itself included. -/
def Reaches (st : Store Place) : ScopeId → ScopeId → Prop := Relation.ReflTransGen st.Leads

/-- What is reached from a scope is in the tree of its root. -/
def Separate (st : Store Place) : Prop :=
  ∀ id other, st.Reaches id other → st.root other = st.root id

namespace Lexical

variable {config : Config} {runs : List (Run Place)} {st : Store Place} {id other : ScopeId}

theorem leads (h : st.Lexical config runs) (hleads : st.Leads id other) :
    other < st.size ∧ st.root other = st.root id := by
  cases hleads with
  | outer hother =>
    by_cases hid : id < st.size
    · exact h.rooted id hid other (List.mem_cons_of_mem _ hother)
    · rw [outer_eq_nil (Nat.le_of_not_lt hid)] at hother
      cases hother
  | @captured name f hbound =>
    have hcaptures := h.fits id name _ hbound f rfl
    obtain ⟨maker, -, -, hstands⟩ := hcaptures.made
    exact ⟨hcaptures.lt, hstands.root_eq⟩

theorem separate (h : st.Lexical config runs) : st.Separate := by
  intro id other hreaches
  induction hreaches with
  | refl => rfl
  | tail _ hleads ih => rw [(h.leads hleads).2, ih]

/-- Releasing a root empties no scope that is reached from another root. -/
theorem bindings_release (h : st.Lexical config runs) {root : ScopeId}
    (hroot : st.root id ≠ st.root root) (hreaches : st.Reaches id other) :
    (st.release root).bindings other = st.bindings other := by
  rw [← h.separate id other hreaches] at hroot
  have hkept : ¬ (other = root ∨ (st.outer other).getLast? = some (st.root root)) := by
    rintro (rfl | hlast)
    · exact hroot rfl
    · refine hroot ?_
      rw [Store.root, List.getLastD_eq_getLast?, hlast]
      rfl
  rw [bindings_release_eq, if_neg hkept]

end Lexical
end Store
end Cyan
