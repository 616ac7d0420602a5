/-
Scopes that are forgotten.

Where an operation takes something from what holds on to scopes, it says which scopes to let go.  So what
nothing holds on to is freed there and then: it has no bindings left and holds on to no parent
(`Trace.run_forgets`).

`Handled.Forgets w ids` says this of the scopes that are not still to be let go.  An operation puts into
`ids` what it takes something from (`Handled.Forgets.of_step`), and `Handled.letGo` empties `ids` again.
-/
import Cyan.Proofs.Scope.Family

namespace Cyan

variable {Place : Type}

/-- What is bound stays bound when a name is set, unless this is what the name was bound to. -/
theorem Bindings.mem_set_or {α : Type} {b : Bindings α} {entry : String × α} (h : entry ∈ b)
    (name : String) (a : α) : entry ∈ b.set name a ∨ b.get? name = some entry.2 := by
  induction b with
  | nil => cases h
  | cons first rest ih =>
    rw [set, get?]
    rcases List.mem_cons.mp h with rfl | h
    · split
      · exact Or.inr rfl
      · exact Or.inl List.mem_cons_self
    · split
      · exact Or.inl (List.mem_cons_of_mem _ h)
      · exact (ih h).imp_left (List.mem_cons_of_mem _)

namespace Handled

variable {v w : Handled Place} {ids : List ScopeId}

/-- Of the scopes that are not in `ids`, those that nothing holds on to have been freed. -/
def Forgets (w : Handled Place) (ids : List ScopeId) : Prop :=
  ∀ id, id ∉ ids → w.isHeld id = false → w.store.outer id = [] ∧ w.store.bindings id = []

/-- Letting go what may not be held on to any more frees all that is not. -/
theorem Forgets.letGo (hw : w.Forgets ids) : (w.letGo ids).Forgets [] := by
  fun_induction w.letGo ids with
  | case1 w => exact hw
  | case2 w id ids hid ih =>
    refine ih fun other hother hnot => hw other (fun hmem => ?_) hnot
    rcases List.mem_cons.mp hmem with rfl | hmem
    · rw [hid] at hnot
      cases hnot
    · exact hother hmem
  | case3 w id ids hid ih =>
    refine ih fun other hother hnot => ?_
    rw [List.mem_append, not_or] at hother
    rw [free, Store.outer_free, Store.bindings_free]
    by_cases hother' : other = id
    · rw [if_pos hother', if_pos hother']
      exact ⟨rfl, rfl⟩
    · rw [if_neg hother', if_neg hother']
      refine hw other (fun hmem => (List.mem_cons.mp hmem).elim hother' hother.2) ?_
      -- What holds on to another scope is not the one that is freed, so it still does.
      rw [← Bool.not_eq_true, isHeld_iff] at hnot ⊢
      refine mt (Or.imp_right fun hheld => ?_) hnot
      obtain ⟨b, hb⟩ := hheld
      have hne : b ≠ id := by
        rintro rfl
        exact hother.1 hb
      refine ⟨b, ?_⟩
      rwa [free, Store.references_free, if_neg hne]

/-- What held on to a scope still does, or the scope is to be let go. -/
theorem Forgets.of_step (hw : w.Forgets [])
    (hhandles : ∀ h s, w.scope? h = some s → (∃ k, v.scope? k = some s) ∨ s ∈ ids)
    (hreferences : ∀ b, ∀ s ∈ w.store.references b, s ∈ v.store.references b ∨ s ∈ ids)
    (hcells : ∀ s, v.isHeld s = false → w.store.outer s = [] → w.store.bindings s = [] →
      v.store.outer s = [] ∧ v.store.bindings s = []) : v.Forgets ids := by
  intro s hs hnot
  have hwnot : w.isHeld s = false := by
    rw [← Bool.not_eq_true, isHeld_iff] at hnot ⊢
    refine mt (fun hheld => ?_) hnot
    rcases hheld with ⟨h, hh⟩ | ⟨b, hb⟩
    · exact Or.inl ((hhandles h s hh).resolve_right hs)
    · exact Or.inr ⟨b, (hreferences b s hb).resolve_right hs⟩
  obtain ⟨houter, hbindings⟩ := hw s List.not_mem_nil hwnot
  exact hcells s hnot houter hbindings

namespace Forgets

theorem give (hw : w.Forgets []) (s? : Option ScopeId) : (w.give s?).Forgets [] := by
  refine hw.of_step (fun h s hs => Or.inl ⟨h, ?_⟩) (fun _ _ => Or.inl) fun _ _ => And.intro
  rwa [scope?_give, if_neg (Nat.ne_of_lt (lt_of_scope? hs))]

theorem root (hw : w.Forgets []) : w.root.Forgets [] := by
  have houter (s : ScopeId) : w.store.addRoot.2.outer s = w.store.outer s := by
    rw [Store.outer_addRoot]
    split
    · next hs => rw [hs, Store.outer_eq_nil (Nat.le_refl _)]
    · rfl
  refine (hw.give (some w.store.size)).of_step (fun h s hs => Or.inl ⟨h, hs⟩) (fun b s hs => Or.inl ?_)
    fun s _ hnone hempty => ?_
  · rwa [Handled.root, Store.references, Store.captured, houter, Store.bindings_addRoot]
  · rw [Handled.root, houter, Store.bindings_addRoot]
    exact ⟨hnone, hempty⟩

theorem child (hw : w.Forgets []) (h : Nat) : (w.child h).Forgets [] := by
  rw [Handled.child]
  cases hs : w.scope? h with
  | none => exact hw.give none
  | some p =>
    refine (hw.give (some w.store.size)).of_step (fun h s hs => Or.inl ⟨h, hs⟩) (fun b s hs => Or.inl ?_)
      fun s hnot houter hbindings => ?_
    · have hb : b ≠ w.store.size := Nat.ne_of_lt (Store.lt_of_mem_references hs)
      rwa [Store.references, Store.captured, Store.outer_addChild, if_neg hb, Store.bindings_addChild]
    · have hne : s ≠ w.store.size := by
        rintro rfl
        have hnew := (scope?_give w (some w.store.size) w.handles.size).trans (if_pos rfl)
        exact Bool.eq_false_iff.mp hnot (isHeld_of_scope? hnew)
      rw [Store.outer_addChild, if_neg hne, Store.bindings_addChild]
      exact ⟨houter, hbindings⟩

theorem drop (hw : w.Forgets []) (h : Nat) : (w.drop h).Forgets (w.scope? h).toList := by
  refine hw.of_step (fun k s hs => ?_) (fun _ _ => Or.inl) fun _ _ => And.intro
  by_cases hk : k = h
  · subst hk
    exact Or.inr (Option.mem_toList.mpr hs)
  · exact Or.inl ⟨k, by rwa [scope?_drop, if_neg hk]⟩

theorem set (hw : w.Forgets []) (h : Nat) (name : String) (x : Value Place) :
    (w.set h name x).Forgets
      (((w.scope? h).bind fun s => (w.store.bindings s).get? name).elim [] Value.captured) := by
  rw [Handled.set]
  cases hs : w.scope? h with
  | none => exact hw
  | some scope =>
    refine hw.of_step (fun k s hk => Or.inl ⟨k, hk⟩) (fun b s hb => ?_) fun s hnot houter hbindings => ?_
    · have hlt : b < w.store.size := Store.lt_of_mem_references hb
      rw [Store.references, Store.captured, Store.outer_set]
      by_cases hne : b = scope
      · subst hne
        rw [Store.bindings_set_self hlt]
        rcases List.mem_append.mp hb with hb | hb
        · exact Or.inl (List.mem_append_left _ hb)
        · obtain ⟨entry, hentry, hcaptured⟩ := List.mem_flatMap.mp hb
          rcases Bindings.mem_set_or hentry name x with hentry | hprevious
          · exact Or.inl (List.mem_append_right _ (List.mem_flatMap.mpr ⟨entry, hentry, hcaptured⟩))
          · rw [Option.bind_some, hprevious]
            exact Or.inr hcaptured
      · rw [Store.bindings_set_of_ne _ hne]
        exact Or.inl hb
    · have hne : s ≠ scope := by
        rintro rfl
        exact Bool.eq_false_iff.mp hnot (isHeld_of_scope? hs)
      rw [Store.outer_set, Store.bindings_set_of_ne _ hne]
      exact ⟨houter, hbindings⟩

theorem clear (hw : w.Forgets []) (emptied : List ScopeId) :
    Forgets { w with store := w.store.clear emptied } (emptied.flatMap w.store.captured) := by
  refine hw.of_step (fun k s hk => Or.inl ⟨k, hk⟩) (fun b s hb => ?_) fun s _ houter hbindings => ?_
  · rw [Store.references, Store.captured, Store.outer_clear, Store.bindings_clear]
    rcases List.mem_append.mp hb with hb | hb
    · exact Or.inl (List.mem_append_left _ hb)
    · split
      · next hmem => exact Or.inr (List.mem_flatMap.mpr ⟨b, hmem, hb⟩)
      · exact Or.inl (List.mem_append_right _ hb)
  · rw [Store.outer_clear, Store.bindings_clear]
    refine ⟨houter, ?_⟩
    split
    · rfl
    · exact hbindings

end Forgets
end Handled

namespace Trace

theorem forgets_perform {heap : Heap Place} (hw : heap.Forgets []) (operation : Handled.Operation Place) :
    (heap.perform operation).Forgets [] := by
  cases operation with
  | root => exact hw.root
  | child h => exact heap.toHandled_child h ▸ hw.child h
  | clone h => exact hw.give _
  | drop h => exact (hw.drop h).letGo
  | get h name => exact hw.give _
  | set h name u =>
    rw [Heap.perform]
    cases u.resolved heap.scope? with
    | none => exact hw
    | some x => exact (hw.set h name x).letGo
  | release h =>
    rw [Heap.perform, Heap.release]
    cases heap.scope? h with
    | none => exact hw
    | some s => exact (hw.clear _).letGo

theorem forgets_run (t : Trace Place) : (run t).Forgets [] := by
  induction t with
  | nil => exact fun _ _ _ => ⟨rfl, rfl⟩
  | cons operation t ih => exact forgets_perform ih operation

/-- Behind any trace, a scope that nothing holds on to has been freed. -/
theorem run_forgets (t : Trace Place) {id : ScopeId} (h : (run t).isHeld id = false) :
    (run t).store.outer id = [] ∧ (run t).store.bindings id = [] :=
  forgets_run t id List.not_mem_nil h

end Trace
end Cyan
