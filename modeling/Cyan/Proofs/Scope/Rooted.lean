/-
Scopes and their roots.

Every scope is nested in scopes that have the same root as it has: `Store.Rooted` says so, and every
operation on a store keeps it.  A name that is looked up in a scope is therefore found, if at all, in
a scope with the same root (`Store.get?_bound`).

`Store.Grows` is what all operations have in common: scopes are added and none is nested anew.
-/
import Cyan.Proofs.Scope.Frame

namespace Cyan

variable {Place : Type}

namespace Store

/-! ## Nesting only grows -/

/-- From the first store to the second, scopes may have been added, and all keep their nesting. -/
structure Grows (st st' : Store Place) : Prop where
  size_le : st.size ≤ st'.size
  outer_eq : ∀ id < st.size, st'.outer id = st.outer id

theorem Extends.grows {scope : ScopeId} {st st' : Store Place} (h : st.Extends scope st') :
    st.Grows st' := ⟨h.size_le, h.outer_eq⟩

namespace Grows

variable {st st' : Store Place} {id : ScopeId}

theorem refl (st : Store Place) : st.Grows st := ⟨Nat.le_refl _, fun _ _ => rfl⟩

theorem trans {a b c : Store Place} (hab : a.Grows b) (hbc : b.Grows c) : a.Grows c where
  size_le := Nat.le_trans hab.size_le hbc.size_le
  outer_eq id h := by
    rw [hbc.outer_eq id (Nat.lt_of_lt_of_le h hab.size_le), hab.outer_eq id h]

theorem set (st : Store Place) (id : ScopeId) (name : String) (v : Value Place) :
    st.Grows (st.set id name v) := (Extends.set st name v).grows

theorem addChild (st : Store Place) (parent : ScopeId) : st.Grows (st.addChild parent).2 := by
  have hextends : st.Extends parent (st.addChild parent).2 := Extends.addChild st parent
  exact hextends.grows

theorem release (st : Store Place) (id : ScopeId) : st.Grows (st.release id) where
  size_le := Nat.le_of_eq (size_release st id).symm
  outer_eq other _ := outer_release st id other

theorem lt (h : st.Grows st') (hid : id < st.size) : id < st'.size :=
  Nat.lt_of_lt_of_le hid h.size_le

theorem chain_eq (h : st.Grows st') (hid : id < st.size) : st'.chain id = st.chain id := by
  rw [chain, chain, h.outer_eq id hid]

theorem root_eq (h : st.Grows st') (hid : id < st.size) : st'.root id = st.root id := by
  rw [root, root, h.outer_eq id hid]

end Grows

theorem getLast?_chain (st : Store Place) (id : ScopeId) :
    (st.chain id).getLast? = some (st.root id) := by
  rw [chain, root, List.getLast?_cons, List.getLastD_eq_getLast?]

theorem chain_addChild (st : Store Place) (parent : ScopeId) :
    (st.addChild parent).2.chain st.size = st.size :: st.chain parent := by
  rw [chain, outer_addChild_self]

/-- Names are bound only in scopes that have been made. -/
theorem lt_of_bound {st : Store Place} {id : ScopeId} {name : String} {v : Value Place}
    (h : (st.bindings id).get? name = some v) : id < st.size := by
  by_cases hlt : id < st.size
  · exact hlt
  · rw [bindings_eq_nil (Nat.le_of_not_lt hlt)] at h
    cases h

/-- What a name means in a scope is bound to it in one of the scopes of its chain. -/
theorem get?_bound {st : Store Place} {id : ScopeId} {name : String} {v : Value Place}
    (h : st.get? id name = some v) :
    ∃ other ∈ st.chain id, (st.bindings other).get? name = some v := by
  rw [get?] at h
  split at h
  · next u hu =>
    cases h
    exact ⟨id, List.mem_cons_self, hu⟩
  · obtain ⟨other, hother, h⟩ := List.exists_of_findSome?_eq_some h
    exact ⟨other, List.mem_cons_of_mem _ hother, h⟩

theorem outer_eq_nil {st : Store Place} {id : ScopeId} (h : st.size ≤ id) : st.outer id = [] := by
  have hget : st.cells[id]? = none := Array.getElem?_eq_none h
  simp [outer, hget]

/-! ## Roots -/

/-- Releasing empties a scope and the scopes that are nested in its root. -/
theorem bindings_release_eq (st : Store Place) (id other : ScopeId) :
    (st.release id).bindings other =
      if other = id ∨ (st.outer other).getLast? = some (st.root id) then [] else st.bindings other := by
  rw [bindings_release, bindings, outer]
  cases hcell : st.cells[other]? with
  | none => simp
  | some cell => simp [isReleasedBy]

/-- The scopes that a scope is nested in have been made, and have the same root. -/
def Rooted (st : Store Place) : Prop :=
  ∀ id < st.size, ∀ other ∈ st.chain id, other < st.size ∧ st.root other = st.root id

/-- A new root scope is nested in no other. -/
theorem outer_addRoot_self (st : Store Place) : st.addRoot.2.outer st.size = [] := by
  simp [outer, addRoot, size]

/-- A new root scope changes the nesting of no other. -/
theorem outer_addRoot_of_ne (st : Store Place) {other : ScopeId} (h : other ≠ st.size) :
    st.addRoot.2.outer other = st.outer other := by
  have h : other ≠ st.cells.size := h
  simp [outer, addRoot, Array.getElem?_push, h]

theorem outer_addRoot (st : Store Place) (id : ScopeId) :
    st.addRoot.2.outer id = if id = st.size then [] else st.outer id := by
  split
  · next h => rw [h, outer_addRoot_self]
  · next h => rw [outer_addRoot_of_ne _ h]

theorem outer_addChild (st : Store Place) (parent id : ScopeId) :
    (st.addChild parent).2.outer id = if id = st.size then st.chain parent else st.outer id := by
  split
  · next h => rw [h, outer_addChild_self]
  · next h => rw [outer_addChild_of_ne _ _ h]

/-- A new root scope begins without bindings, and the others keep theirs. -/
theorem bindings_addRoot (st : Store Place) (other : ScopeId) :
    st.addRoot.2.bindings other = st.bindings other := by
  by_cases h : other = st.cells.size
  · subst h
    simp [bindings, addRoot]
  · simp [bindings, addRoot, Array.getElem?_push, h]

theorem size_addRoot (st : Store Place) : st.addRoot.2.size = st.size + 1 := by
  simp [addRoot, size]

theorem Grows.addRoot (st : Store Place) : st.Grows st.addRoot.2 where
  size_le := by
    rw [size_addRoot]
    exact Nat.le_succ _
  outer_eq id h := outer_addRoot_of_ne st (Nat.ne_of_lt h)

theorem addGlobal_eq (st : Store Place) :
    st.addGlobal = (st.size, (Builtin.all.map fun b => (b.name, Value.builtin b)).foldl
      (fun st' (name, v) => st'.set st.size name v) st.addRoot.2) := by
  rw [List.foldl_map]
  rfl

/-- Beyond making its scope, making a global scope only binds names. -/
theorem grows_addGlobal (st : Store Place) : st.addRoot.2.Grows st.addGlobal.2 := by
  rw [addGlobal_eq]
  exact (Extends.foldl_set _ _).grows

theorem Grows.addGlobal (st : Store Place) : st.Grows st.addGlobal.2 :=
  (Grows.addRoot st).trans (grows_addGlobal st)

theorem size_lt_addRoot (st : Store Place) : st.size < st.addRoot.2.size := by
  rw [size_addRoot]
  exact Nat.lt_succ_self _

theorem lt_addGlobal (st : Store Place) : st.addGlobal.1 < st.addGlobal.2.size :=
  (grows_addGlobal st).lt (size_lt_addRoot st)

theorem outer_addGlobal (st : Store Place) : st.addGlobal.2.outer st.addGlobal.1 = [] := by
  show st.addGlobal.2.outer st.size = []
  rw [(grows_addGlobal st).outer_eq st.size (size_lt_addRoot st), outer_addRoot_self]

namespace Rooted

variable {st : Store Place}

/-- Among the scopes that were there before, nothing changed. -/
theorem of_grows (h : st.Rooted) {st' : Store Place} (hgrows : st.Grows st') {id : ScopeId}
    (hid : id < st.size) : ∀ other ∈ st'.chain id, other < st'.size ∧ st'.root other = st'.root id := by
  intro other hother
  rw [hgrows.chain_eq hid] at hother
  obtain ⟨hlt, hroot⟩ := h id hid other hother
  rw [hgrows.root_eq hlt, hgrows.root_eq hid]
  exact ⟨hgrows.lt hlt, hroot⟩

theorem set (h : st.Rooted) (id : ScopeId) (name : String) (v : Value Place) :
    (st.set id name v).Rooted := by
  intro other hother
  rw [size_set] at hother
  exact h.of_grows (Grows.set st id name v) hother

theorem release (h : st.Rooted) (id : ScopeId) : (st.release id).Rooted := by
  intro other hother
  rw [size_release] at hother
  exact h.of_grows (Grows.release st id) hother

theorem addRoot (h : st.Rooted) : st.addRoot.2.Rooted := by
  intro id hid
  rw [size_addRoot] at hid
  rcases Nat.lt_succ_iff_lt_or_eq.mp hid with hid | rfl
  · exact h.of_grows (Grows.addRoot st) hid
  · intro other hother
    rw [chain, outer_addRoot_self, List.mem_singleton] at hother
    rw [hother, size_addRoot]
    exact ⟨Nat.lt_succ_self _, rfl⟩

/-- The root of a new scope is the root of its parent. -/
theorem root_addChild (st : Store Place) (parent : ScopeId) :
    (st.addChild parent).2.root st.size = st.root parent := by
  rw [root, outer_addChild_self, List.getLastD_eq_getLast?, getLast?_chain]
  rfl

theorem addChild (h : st.Rooted) {parent : ScopeId} (hparent : parent < st.size) :
    (st.addChild parent).2.Rooted := by
  have hgrows := Grows.addChild st parent
  intro id hid
  rw [size_addChild] at hid
  rcases Nat.lt_succ_iff_lt_or_eq.mp hid with hid | rfl
  · exact h.of_grows hgrows hid
  · intro other hother
    rw [chain_addChild, List.mem_cons] at hother
    rcases hother with rfl | hother
    · rw [size_addChild]
      exact ⟨Nat.lt_succ_self _, rfl⟩
    · obtain ⟨hlt, hroot⟩ := h parent hparent other hother
      rw [hgrows.root_eq hlt, root_addChild]
      exact ⟨hgrows.lt hlt, hroot⟩

end Rooted
end Store
end Cyan
