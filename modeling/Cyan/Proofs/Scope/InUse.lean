/-
Scopes that handles lead to.

A scope is in use if a handle is to it or to a scope that leads there.  Scopes in use have a count above
zero (`Handled.isHeld_of_inUse`), so freeing scopes of count zero takes nothing away that can be seen
through a handle (`Handled.agree_letGo`).

`Handled.Agree` relates stores with the same handles that agree on what is in use.  Whatever is done
through the handles of both, they stay like this.
-/
import Cyan.Proofs.Scope.Agree
import Cyan.Scope.Heap

namespace Cyan

variable {Place : Type}

theorem Bindings.mem_of_get? {α : Type} {b : Bindings α} {name : String} {a : α}
    (h : b.get? name = some a) : (name, a) ∈ b := by
  induction b with
  | nil => cases h
  | cons entry rest ih =>
    rw [get?] at h
    split at h
    · next hkey =>
      cases h
      subst hkey
      exact List.mem_cons_self
    · exact List.mem_cons_of_mem _ (ih h)

namespace Store

variable {P : ScopeId → Prop} {st st' st'' : Store Place} {id other : ScopeId}

theorem AgreeOn.symm (h : AgreeOn P st st') : AgreeOn P st' st :=
  ⟨h.size_eq.symm, fun id hid => (h.outer_eq id hid).symm, fun id hid name => (h.get?_eq id hid name).symm⟩

theorem AgreeOn.trans (h : AgreeOn P st st') (h' : AgreeOn P st' st'') : AgreeOn P st st'' :=
  ⟨h.size_eq.trans h'.size_eq, fun id hid => (h.outer_eq id hid).trans (h'.outer_eq id hid),
    fun id hid name => (h.get?_eq id hid name).trans (h'.get?_eq id hid name)⟩

theorem AgreeOn.leads (h : AgreeOn P st st') (hid : P id) (hleads : st.Leads id other) :
    st'.Leads id other := by
  cases hleads with
  | outer hother => exact .outer (h.outer_eq id hid ▸ hother)
  | captured hbound => exact .captured (h.get?_eq id hid _ ▸ hbound)

/-- Stores that agree on what is reached in one of them reach the same. -/
theorem AgreeOn.reachedFrom_iff {roots : List ScopeId} (h : AgreeOn (st.ReachedFrom roots) st st') :
    st'.ReachedFrom roots id ↔ st.ReachedFrom roots id := by
  constructor
  · refine Closed.reachedFrom (fun id other hid hleads => ?_) (fun root hroot => ⟨root, hroot, .refl⟩) id
    exact closed_reachedFrom st roots id other hid (h.symm.leads hid hleads)
  · rintro ⟨root, hroot, hreaches⟩
    refine ⟨root, hroot, ?_⟩
    induction hreaches with
    | refl => exact .refl
    | tail hreaches hleads ih => exact ih.tail (h.leads ⟨root, hroot, hreaches⟩ hleads)

theorem AgreeOn.addRoot (h : AgreeOn P st st') : AgreeOn P st.addRoot.2 st'.addRoot.2 where
  size_eq := by rw [size_addRoot, size_addRoot, h.size_eq]
  outer_eq id hid := by rw [outer_addRoot, outer_addRoot, h.size_eq, h.outer_eq id hid]
  get?_eq id hid name := by rw [bindings_addRoot, bindings_addRoot, h.get?_eq id hid]

theorem Closed.clear (h : st.Closed P) (ids : List ScopeId) : (st.clear ids).Closed P := by
  intro id other hid hleads
  cases hleads with
  | outer hother =>
    rw [outer_clear] at hother
    exact h id other hid (.outer hother)
  | captured hbound =>
    rw [bindings_clear] at hbound
    split at hbound
    · cases hbound
    · exact h id _ hid (.captured hbound)

end Store

namespace Handled

open Store (AgreeOn InStep)

variable {v w u : Handled Place} {id : ScopeId} {h : Nat}

/-! ## What is in use -/

def InUse (w : Handled Place) (id : ScopeId) : Prop := w.store.ReachedFrom w.held id

theorem mem_held : id ∈ w.held ↔ ∃ h, w.scope? h = some id := by
  simp only [held, scope?, List.mem_filterMap, Array.mem_toList_iff, Array.mem_iff_getElem?,
    Option.join_eq_some_iff, id_eq]
  constructor
  · rintro ⟨_, ⟨h, hget⟩, rfl⟩
    exact ⟨h, hget⟩
  · rintro ⟨h, hget⟩
    exact ⟨_, ⟨h, hget⟩, rfl⟩

theorem inUse_of_scope? (hid : w.scope? h = some id) : w.InUse id :=
  ⟨id, mem_held.mpr ⟨h, hid⟩, .refl⟩

theorem closed_inUse (w : Handled Place) : w.store.Closed w.InUse :=
  Store.closed_reachedFrom w.store w.held

/-- Where scopes are in use, the scopes around one are its parent and the scopes around that. -/
def Chained (w : Handled Place) : Prop :=
  ∀ ⦃id parent rest⦄, w.InUse id → w.store.outer id = parent :: rest → w.store.outer parent = rest

/-- Each of the scopes around one in use is the parent of one in use. -/
theorem Chained.exists_child (hw : w.Chained) {other : ScopeId} (hid : w.InUse id)
    (hother : other ∈ w.store.outer id) :
    ∃ c, w.InUse c ∧ (w.store.outer c).head? = some other := by
  generalize hl : w.store.outer id = l at hother
  induction l generalizing id with
  | nil => cases hother
  | cons parent rest ih =>
    rcases List.mem_cons.mp hother with rfl | hother
    · exact ⟨id, hid, by rw [hl, List.head?_cons]⟩
    · refine ih ?_ (hw hid hl) hother
      exact w.closed_inUse id parent hid (.outer (hl ▸ List.mem_cons_self))

theorem mem_references {b : ScopeId} (h : id ∈ w.store.references b) : id ∈ w.references :=
  List.mem_flatMap.mpr ⟨b, List.mem_range.mpr (Store.lt_of_mem_references h), h⟩

/-- What holds on to a scope is a handle or a scope. -/
theorem isHeld_iff :
    w.isHeld id = true ↔ (∃ h, w.scope? h = some id) ∨ ∃ b, id ∈ w.store.references b := by
  have hreferences : id ∈ w.references ↔ ∃ b, id ∈ w.store.references b := by
    refine ⟨fun hmem => ?_, fun ⟨b, hb⟩ => mem_references hb⟩
    obtain ⟨b, -, hb⟩ := List.mem_flatMap.mp hmem
    exact ⟨b, hb⟩
  rw [isHeld, count, decide_eq_true_eq, Nat.add_pos_iff_pos_or_pos, List.count_pos_iff,
    List.count_pos_iff, mem_held, hreferences]

theorem isHeld_of_scope? (hid : w.scope? h = some id) : w.isHeld id = true := isHeld_iff.mpr (Or.inl ⟨h, hid⟩)

/-- What is in use counts. -/
theorem isHeld_of_inUse (hw : w.Chained) (hid : w.InUse id) : w.isHeld id = true := by
  obtain ⟨root, hroot, hreaches⟩ := hid
  rw [isHeld_iff]
  rcases Relation.ReflTransGen.cases_tail hreaches with rfl | ⟨b, hb, hleads⟩
  · exact Or.inl (mem_held.mp hroot)
  · refine Or.inr ?_
    cases hleads with
    | outer hother =>
      obtain ⟨c, -, hhead⟩ := hw.exists_child ⟨root, hroot, hb⟩ hother
      refine ⟨c, List.mem_append_left _ ?_⟩
      rw [hhead]
      exact List.mem_singleton_self _
    | captured hbound =>
      refine ⟨b, List.mem_append_right _ ?_⟩
      exact List.mem_flatMap.mpr ⟨_, Bindings.mem_of_get? hbound, List.mem_singleton_self _⟩

/-! ## Agreement -/

/-- The same handles, to stores that agree on what is in use. -/
structure Agree (v w : Handled Place) : Prop where
  handles_eq : v.handles = w.handles
  agree : AgreeOn v.InUse v.store w.store

namespace Agree

theorem refl (w : Handled Place) : w.Agree w := ⟨rfl, rfl, fun _ _ => rfl, fun _ _ _ => rfl⟩

theorem held_eq (h : v.Agree w) : v.held = w.held := by rw [held, held, h.handles_eq]

theorem scope?_eq (h : v.Agree w) (k : Nat) : v.scope? k = w.scope? k := by
  rw [scope?, scope?, h.handles_eq]

theorem inUse_iff (h : v.Agree w) : w.InUse id ↔ v.InUse id := by
  rw [InUse, ← h.held_eq]
  exact h.agree.reachedFrom_iff

theorem trans (h : v.Agree w) (h' : w.Agree u) : v.Agree u where
  handles_eq := h.handles_eq.trans h'.handles_eq
  agree := h.agree.trans (h'.agree.mono fun _ => h.inUse_iff.mpr)

theorem symm (h : v.Agree w) : w.Agree v where
  handles_eq := h.handles_eq.symm
  agree := h.agree.symm.mono fun _ => h.inUse_iff.mp

theorem chained (h : v.Agree w) (hv : v.Chained) : w.Chained := by
  intro id parent rest hid houter
  rw [h.inUse_iff] at hid
  rw [← h.agree.outer_eq id hid] at houter
  have hparent := v.closed_inUse id parent hid (.outer (houter ▸ List.mem_cons_self))
  rw [← h.agree.outer_eq parent hparent, hv hid houter]

theorem get?_eq (h : v.Agree w) (k : Nat) (name : String) : v.get? k name = w.get? k name := by
  rw [get?, get?, ← h.scope?_eq]
  cases hs : v.scope? k with
  | none => rfl
  | some s => exact h.agree.get?_found v.closed_inUse (inUse_of_scope? hs) name

end Agree

/-- Freeing a scope of count zero is not noticed. -/
theorem agree_free (hw : w.Chained) (hid : w.isHeld id = false) : w.Agree (w.free id) := by
  have hne : ∀ other, w.InUse other → other ≠ id := by
    rintro other hother rfl
    rw [isHeld_of_inUse hw hother] at hid
    cases hid
  refine ⟨rfl, (Store.size_free ..).symm, fun other hother => ?_, fun other hother name => ?_⟩
  · rw [free, Store.outer_free, if_neg (hne other hother)]
  · rw [free, Store.bindings_free, if_neg (hne other hother)]

/-- Letting scopes go is not noticed. -/
theorem agree_letGo (hw : w.Chained) (ids : List ScopeId) : w.Agree (w.letGo ids) := by
  fun_induction w.letGo ids with
  | case1 w => exact .refl w
  | case2 w id ids _ ih => exact ih hw
  | case3 w id ids hid ih =>
    have hfree := agree_free hw (Bool.eq_false_iff.mpr hid)
    exact hfree.trans (ih (hfree.chained hw))

/-! ## The same operation on both -/

/-- The scopes in use, and those that have not been made. -/
def InUseOrNew (w : Handled Place) (id : ScopeId) : Prop := w.InUse id ∨ w.store.size ≤ id

theorem inUse_imp {P : ScopeId → Prop} (hclosed : w.store.Closed P)
    (hheld : ∀ k s, w.scope? k = some s → P s) : ∀ id, w.InUse id → P id := by
  refine hclosed.reachedFrom fun s hs => ?_
  obtain ⟨k, hk⟩ := mem_held.mp hs
  exact hheld k s hk

/-- A new handle is to a scope that was in use or new. -/
theorem scope?_give_imp {P : ScopeId → Prop} {s? : Option ScopeId} (hnew : ∀ s, s? = some s → P s)
    (hheld : ∀ k s, w.scope? k = some s → P s) (k : Nat) (s : ScopeId)
    (hs : (w.give s?).scope? k = some s) : P s := by
  rw [scope?_give] at hs
  split at hs
  · exact hnew s hs
  · exact hheld k s hs

theorem inUseOrNew_of_scope? (k : Nat) (s : ScopeId) (hs : w.scope? k = some s) : w.InUseOrNew s :=
  Or.inl (inUse_of_scope? hs)

/-- What is found through a handle captures scopes in use. -/
theorem inUse_captured {name : String} {x : Value Place} (hfound : w.get? h name = some x) :
    ∀ c ∈ x.captured, w.InUse c := by
  intro c hc
  obtain ⟨s, hs, hfound⟩ := Option.bind_eq_some_iff.mp hfound
  cases x with
  | function f =>
    rw [List.mem_singleton.mp hc]
    exact w.closed_inUse.get? (inUse_of_scope? hs) hfound
  | none | bool | number | string | builtin => cases hc

namespace Agree

theorem inStep (h : v.Agree w) : InStep v.InUseOrNew v.store w.store := .of_reachedFrom h.agree

/-- Both stores have changed, and nothing leads from the scopes that were in use or new to others. -/
theorem of_inStep {v' w' : Handled Place} (hhandles : v'.handles = w'.handles)
    (hagree : AgreeOn v.InUseOrNew v'.store w'.store) (hclosed : v'.store.Closed v.InUseOrNew)
    (hheld : ∀ k s, v'.scope? k = some s → v.InUseOrNew s) :
    v'.Agree w' ∧ ∀ id, v'.InUse id → v.InUseOrNew id :=
  have hinUse := inUse_imp hclosed hheld
  ⟨⟨hhandles, hagree.mono hinUse⟩, hinUse⟩

theorem give (h : v.Agree w) {s? : Option ScopeId} (hs : ∀ s, s? = some s → v.InUse s) :
    (v.give s?).Agree (w.give s?) ∧ ∀ id, (v.give s?).InUse id → v.InUseOrNew id :=
  of_inStep (by rw [Handled.give, Handled.give, h.handles_eq]) h.inStep.agree h.inStep.closed
    (scope?_give_imp (fun s hnew => Or.inl (hs s hnew)) inUseOrNew_of_scope?)

theorem root (h : v.Agree w) : v.root.Agree w.root ∧ ∀ id, v.root.InUse id → v.InUseOrNew id :=
  of_inStep (by rw [Handled.root, Handled.root, h.handles_eq, h.agree.size_eq]) h.inStep.agree.addRoot
    h.inStep.closed.addRoot
    (scope?_give_imp (fun s hnew => Or.inr (Nat.le_of_eq (Option.some.inj hnew))) inUseOrNew_of_scope?)

theorem child (h : v.Agree w) (k : Nat) :
    (v.child k).Agree (w.child k) ∧ ∀ id, (v.child k).InUse id → v.InUseOrNew id := by
  rw [Handled.child, Handled.child, ← h.scope?_eq]
  cases hs : v.scope? k with
  | none => exact h.give fun _ hnone => nomatch hnone
  | some s =>
    have hstep := h.inStep.addChild (Or.inl (inUse_of_scope? hs))
    exact of_inStep (by rw [h.handles_eq, h.agree.size_eq]) hstep.agree hstep.closed
      (scope?_give_imp (fun s hnew => Or.inr (Nat.le_of_eq (Option.some.inj hnew))) inUseOrNew_of_scope?)

theorem clone (h : v.Agree w) (k : Nat) :
    (v.clone k).Agree (w.clone k) ∧ ∀ id, (v.clone k).InUse id → v.InUseOrNew id := by
  rw [Handled.clone, Handled.clone, ← h.scope?_eq]
  exact h.give fun _ => inUse_of_scope?

theorem get (h : v.Agree w) (k : Nat) (name : String) :
    (v.get k name).Agree (w.get k name) ∧ ∀ id, (v.get k name).InUse id → v.InUseOrNew id := by
  rw [Handled.get, Handled.get, ← h.get?_eq]
  refine h.give fun s hs => ?_
  obtain ⟨x, hx, hs⟩ := Option.bind_eq_some_iff.mp hs
  exact inUse_captured hx s (List.mem_of_head? hs)

theorem drop (h : v.Agree w) (k : Nat) :
    (v.drop k).Agree (w.drop k) ∧ ∀ id, (v.drop k).InUse id → v.InUseOrNew id := by
  refine of_inStep (by rw [Handled.drop, Handled.drop, h.handles_eq]) h.inStep.agree h.inStep.closed
    fun j s hs => ?_
  rw [scope?_drop] at hs
  split at hs
  · cases hs
  · exact inUseOrNew_of_scope? j s hs

theorem set (h : v.Agree w) (k : Nat) (name : String) {x : Value Place}
    (hx : ∀ c ∈ x.captured, v.InUse c) :
    (v.set k name x).Agree (w.set k name x) ∧ ∀ id, (v.set k name x).InUse id → v.InUseOrNew id := by
  rw [Handled.set, Handled.set, ← h.scope?_eq]
  cases v.scope? k with
  | none => exact of_inStep h.handles_eq h.inStep.agree h.inStep.closed inUseOrNew_of_scope?
  | some s =>
    have hstep := h.inStep.set s name fun c hc => Or.inl (hx c hc)
    exact of_inStep h.handles_eq hstep.agree hstep.closed (inUseOrNew_of_scope? (w := v))

/-- Some scopes are emptied in one store, and the same ones as far as they are in use in the other. -/
theorem clear (h : v.Agree w) (ids : List ScopeId) {s : ScopeId}
    (hids : ∀ id, v.InUse id →
      (id ∈ ids ↔ id = s ∨ (w.store.outer id).getLast? = some (w.store.root s))) :
    Agree { v with store := v.store.clear ids } { w with store := w.store.release s } ∧
      ∀ id, InUse { v with store := v.store.clear ids } id → v.InUseOrNew id := by
  have hstep := h.inStep
  refine of_inStep h.handles_eq ⟨?_, fun id hid => ?_, fun id hid name => ?_⟩ (hstep.closed.clear ids)
    (inUseOrNew_of_scope? (w := v))
  · rw [Store.size_clear, Store.size_release, hstep.agree.size_eq]
  · rw [Store.outer_clear, Store.outer_release, hstep.agree.outer_eq id hid]
  · rcases hid with hid | hid
    · rw [Store.bindings_clear, Store.bindings_release_eq]
      by_cases hmem : id ∈ ids
      · rw [if_pos hmem, if_pos ((hids id hid).mp hmem)]
      · rw [if_neg hmem, if_neg (mt (hids id hid).mpr hmem), h.agree.get?_eq id hid name]
    · rw [Store.bindings_eq_nil (by rwa [Store.size_clear]),
        Store.bindings_eq_nil (by rwa [Store.size_release, ← h.agree.size_eq])]

end Agree
end Handled
end Cyan
