/-
Stores that agree on the scopes that are reached.

`Store.AgreeOn P` relates stores that have the same scopes, of which only those that satisfy `P` need to
be nested in the same scopes and to bind names to the same values.  What is bound and nested elsewhere is
left open.

If nothing leads from the scopes of `P` to others, and the scopes that are still to be made are all
among them, both stores can do the same and stay like this (`Store.InStep.simulates`): names are looked
up and bound in scopes of `P`, and what is found there leads to scopes of `P` again.
-/
import Cyan.Proofs.Scope.Alike
import Cyan.Proofs.Scope.Reach

namespace Cyan

variable {Place : Type}

namespace Store

/-- Stores with the same scopes that nest those of `P` in the same scopes, and bind the same names in
them to the same values. -/
structure AgreeOn (P : ScopeId → Prop) (st st' : Store Place) : Prop where
  size_eq : st.size = st'.size
  outer_eq : ∀ id, P id → st.outer id = st'.outer id
  get?_eq : ∀ id, P id → ∀ name, (st.bindings id).get? name = (st'.bindings id).get? name

/-- The scopes that some of `roots` lead to, themselves included. -/
def ReachedFrom (st : Store Place) (roots : List ScopeId) (id : ScopeId) : Prop :=
  ∃ root ∈ roots, st.Reaches root id

/-- Nothing leads from the scopes of `P` to others. -/
def Closed (st : Store Place) (P : ScopeId → Prop) : Prop :=
  ∀ id other, P id → st.Leads id other → P other

variable {P Q : ScopeId → Prop} {st st' : Store Place} {scope : ScopeId}

theorem AgreeOn.mono (h : AgreeOn P st st') (hQ : ∀ id, Q id → P id) : AgreeOn Q st st' where
  size_eq := h.size_eq
  outer_eq id hid := h.outer_eq id (hQ id hid)
  get?_eq id hid := h.get?_eq id (hQ id hid)

theorem Closed.reaches (h : st.Closed P) {other : ScopeId} (hscope : P scope)
    (hreaches : st.Reaches scope other) : P other := by
  induction hreaches with
  | refl => exact hscope
  | tail _ hleads ih => exact h _ _ ih hleads

theorem Closed.reachedFrom (h : st.Closed P) {roots : List ScopeId} (hroots : ∀ root ∈ roots, P root) :
    ∀ id, st.ReachedFrom roots id → P id := by
  intro id ⟨root, hroot, hreaches⟩
  exact h.reaches (hroots root hroot) hreaches

theorem closed_reachedFrom (st : Store Place) (roots : List ScopeId) :
    st.Closed (st.ReachedFrom roots) :=
  fun _ _ ⟨root, hroot, hreaches⟩ hleads => ⟨root, hroot, hreaches.tail hleads⟩

theorem Closed.chain (h : st.Closed P) (hscope : P scope) {other : ScopeId}
    (hother : other ∈ st.chain scope) : P other := by
  rcases List.mem_cons.mp hother with rfl | houter
  · exact hscope
  · exact h scope other hscope (.outer houter)

/-- A scope that was never made leads nowhere. -/
theorem not_leads {id other : ScopeId} (hid : st.size ≤ id) : ¬ st.Leads id other := by
  intro hleads
  cases hleads with
  | outer hother =>
    rw [outer_eq_nil hid] at hother
    cases hother
  | captured hbound =>
    rw [bindings_eq_nil hid] at hbound
    cases hbound

/-- Binding a value that holds on to scopes of `P` leads nowhere else. -/
theorem Closed.set (h : st.Closed P) (scope : ScopeId) (name : String) {v : Value Place}
    (hv : ∀ id ∈ v.captured, P id) : (st.set scope name v).Closed P := by
  intro id other hid hleads
  cases hleads with
  | outer hother =>
    rw [outer_set] at hother
    exact h id other hid (.outer hother)
  | captured hbound =>
    rcases bound_set hbound with ⟨-, rfl⟩ | hbound
    · exact hv _ (List.mem_singleton_self _)
    · exact h id _ hid (.captured hbound)

/-- A new scope inside one of `P` leads to scopes of `P` only. -/
theorem Closed.addChild (h : st.Closed P) (hscope : P scope) : (st.addChild scope).2.Closed P := by
  intro id other hid hleads
  cases hleads with
  | outer hother =>
    by_cases hnew : id = st.size
    · rw [hnew, outer_addChild_self] at hother
      exact h.chain hscope hother
    · rw [outer_addChild_of_ne _ _ hnew] at hother
      exact h id other hid (.outer hother)
  | captured hbound =>
    rw [bindings_addChild] at hbound
    exact h id _ hid (.captured hbound)

/-- A new root scope leads nowhere. -/
theorem Closed.addRoot (h : st.Closed P) : st.addRoot.2.Closed P := by
  intro id other hid hleads
  cases hleads with
  | outer hother =>
    by_cases hnew : id = st.size
    · rw [hnew, outer_addRoot_self] at hother
      cases hother
    · rw [outer_addRoot_of_ne st hnew] at hother
      exact h id other hid (.outer hother)
  | captured hbound =>
    rw [bindings_addRoot] at hbound
    exact h id _ hid (.captured hbound)

/-- What is bound after some scopes have been released was bound before. -/
theorem bound_release {released id : ScopeId} {name : String} {v : Value Place}
    (h : ((st.release released).bindings id).get? name = some v) : (st.bindings id).get? name = some v := by
  rw [bindings_release_eq] at h
  split at h
  · cases h
  · exact h

theorem Closed.release (h : st.Closed P) (released : ScopeId) : (st.release released).Closed P := by
  intro id other hid hleads
  cases hleads with
  | outer hother =>
    rw [outer_release] at hother
    exact h id other hid (.outer hother)
  | captured hbound => exact h id _ hid (.captured (bound_release hbound))

/-- A function that is found from a scope of `P` captures a scope of `P`. -/
theorem Closed.get? (h : st.Closed P) (hscope : P scope) {name : String} {f : Function Place}
    (hfound : st.get? scope name = some (.function f)) : P f.scope := by
  obtain ⟨other, hother, hbound⟩ := get?_bound hfound
  exact h other f.scope (h.chain hscope hother) (.captured hbound)

/-- What a name means in a scope of `P` is the same in both stores. -/
theorem AgreeOn.get?_found (h : AgreeOn P st st') (hclosed : st.Closed P) (hscope : P scope)
    (name : String) : st.get? scope name = st'.get? scope name := by
  have houter (ids : List ScopeId) (hids : ∀ id ∈ ids, P id) :
      ids.findSome? (fun id => (st.bindings id).get? name) =
        ids.findSome? fun id => (st'.bindings id).get? name := by
    induction ids with
    | nil => rfl
    | cons id rest ih =>
      obtain ⟨hid, hrest⟩ := List.forall_mem_cons.mp hids
      rw [List.findSome?_cons, List.findSome?_cons, h.get?_eq id hid name, ih hrest]
  have hall : ∀ id ∈ st.outer scope, P id := fun id hid => hclosed scope id hscope (.outer hid)
  rw [Store.get?, Store.get?, h.get?_eq scope hscope name, ← h.outer_eq scope hscope, houter _ hall]

/-! ## Stores in step -/

/-- Scopes that are the same one, of `P`. -/
def Both (P : ScopeId → Prop) (id id' : ScopeId) : Prop := id = id' ∧ P id

theorem Both.eq_value {v v' : Value Place} (h : Value.Alike id (Both P) v v') :
    v = v' ∧ ∀ id ∈ v.captured, P id := by
  cases h with
  | function hcaptured =>
    obtain ⟨rfl, hP⟩ := hcaptured
    rw [Expr.map_id]
    exact ⟨rfl, by simpa [Value.captured] using hP⟩
  | none | bool | number | string | builtin => exact ⟨rfl, by simp [Value.captured]⟩

theorem Both.value {v : Value Place} (h : ∀ id ∈ v.captured, P id) : Value.Alike id (Both P) v v := by
  refine .self fun g hg => ⟨rfl, h g.scope ?_⟩
  rw [hg]
  exact List.mem_singleton_self _

/-- Stores that agree on the scopes of `P`, where nothing is found from these but scopes of `P`, and all
scopes that are made next are of `P`. -/
structure InStep (P : ScopeId → Prop) (st st' : Store Place) : Prop where
  agree : AgreeOn P st st'
  closed : st.Closed P
  fresh : ∀ id, st.size ≤ id → P id

namespace InStep

theorem set (h : InStep P st st') (scope : ScopeId) (name : String) {v : Value Place}
    (hv : ∀ id ∈ v.captured, P id) : InStep P (st.set scope name v) (st'.set scope name v) where
  agree :=
    { size_eq := by rw [size_set, size_set, h.agree.size_eq]
      outer_eq := fun id hid => by rw [outer_set, outer_set, h.agree.outer_eq id hid]
      get?_eq := fun id hid other => by
        rw [get?_bindings_set, get?_bindings_set, h.agree.size_eq, h.agree.get?_eq id hid] }
  closed := h.closed.set scope name hv
  fresh id hid := by
    rw [size_set] at hid
    exact h.fresh id hid

theorem addChild (h : InStep P st st') (hscope : P scope) :
    InStep P (st.addChild scope).2 (st'.addChild scope).2 where
  agree :=
    { size_eq := by rw [size_addChild, size_addChild, h.agree.size_eq]
      outer_eq := fun id hid => by
        rw [outer_addChild, outer_addChild, chain, chain, h.agree.size_eq, h.agree.outer_eq scope hscope,
          h.agree.outer_eq id hid]
      get?_eq := fun id hid name => by
        rw [bindings_addChild, bindings_addChild, h.agree.get?_eq id hid] }
  closed := h.closed.addChild hscope
  fresh id hid := by
    rw [size_addChild] at hid
    exact h.fresh id (Nat.le_of_succ_le hid)

/-- Stores in step stay so while both do the same. -/
theorem simulates : Simulates id (Both P) (InStep P : Store Place → Store Place → Prop) where
  next h := ⟨h.agree.size_eq, h.fresh _ (Nat.le_refl _)⟩
  get? {st st' scope scope'} h hscope name := by
    obtain ⟨rfl, hP⟩ := hscope
    rw [← h.agree.get?_found h.closed hP name]
    cases hfound : st.get? scope name with
    | none => exact .none
    | some v =>
      refine .some (Both.value fun id hid => ?_)
      cases v with
      | function f =>
        rw [List.mem_singleton.mp hid]
        exact h.closed.get? hP hfound
      | none | bool | number | string | builtin => cases hid
  set h hscope name hv := by
    obtain ⟨rfl, -⟩ := hscope
    obtain ⟨rfl, hcaptured⟩ := Both.eq_value hv
    exact h.set _ name hcaptured
  addChild h hscope := by
    obtain ⟨rfl, hP⟩ := hscope
    exact h.addChild hP

/-- Stores that agree on what some scopes reach are in step, if the scopes that are made from now on are
counted in. -/
theorem of_reachedFrom {roots : List ScopeId} (h : AgreeOn (st.ReachedFrom roots) st st') :
    InStep (fun id => st.ReachedFrom roots id ∨ st.size ≤ id) st st' where
  agree :=
    { size_eq := h.size_eq
      outer_eq := by
        rintro id (hid | hid)
        · exact h.outer_eq id hid
        · rw [outer_eq_nil hid, outer_eq_nil (h.size_eq ▸ hid)]
      get?_eq := by
        rintro id (hid | hid) name
        · exact h.get?_eq id hid name
        · rw [bindings_eq_nil hid, bindings_eq_nil (h.size_eq ▸ hid)] }
  closed := by
    rintro id other (hid | hid) hleads
    · exact Or.inl (closed_reachedFrom st roots id other hid hleads)
    · exact absurd hleads (not_leads hid)
  fresh _ hid := Or.inr hid

end InStep
end Store
end Cyan
