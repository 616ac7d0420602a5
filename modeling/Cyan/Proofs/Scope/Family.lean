/-
Scopes that are released by the list of their root.

`Trace.run` carries a trace out on a `Heap`, which frees scopes and strikes them off the lists.  Its
lookups are nevertheless those of the trace (`Trace.run_lookup`).

The heap is compared with a store that keeps all scopes.  Both agree on what is in use, and the scopes in
use that are not roots stand on the list of their root (`Trace.Lists.mem`).  Striking off keeps it so, as
what is in use counts.  A release by the list therefore empties the same scopes in use as one that
compares roots (`Trace.Matches.release`).
-/
import Cyan.Proofs.Scope.InUse
import Cyan.Proofs.Scope.Trace
import Mathlib.Data.List.Basic

namespace Cyan

variable {Place : Type}

namespace Heap

def perform (heap : Heap Place) : Handled.Operation Place → Heap Place
  | .root => heap.root
  | .child h => heap.child h
  | .clone h => heap.clone h
  | .drop h => heap.drop h
  | .set h name v =>
    match v.resolved heap.scope? with
    | some v => heap.set h name v
    | none => heap
  | .get h name => heap.get h name
  | .release h => heap.release h

end Heap

namespace Trace

/-- What the operations make of a heap without scopes. -/
def run : Trace Place → Heap Place
  | [] => {}
  | operation :: t => (run t).perform operation

/-- The lists of a heap behind a trace. -/
structure Lists (t : Trace Place) (heap : Heap Place) : Prop where
  size_eq : heap.familyOf.size = size t
  family_lt : ∀ s < size t, heap.family s < heap.families.size
  family_eq_iff : ∀ s < size t, ∀ r < size t, heap.family s = heap.family r ↔ rootOf t s = rootOf t r
  of_mem : ∀ {k s}, s ∈ heap.members k → s < size t ∧ outer t s ≠ [] ∧ heap.family s = k
  mem : ∀ {s}, heap.InUse s → outer t s ≠ [] → s ∈ heap.members (heap.family s)

/-- A heap and a store that keeps all scopes agree on what is in use. -/
structure Matches (t : Trace Place) (heap : Heap Place) : Prop where
  agree : heap.toHandled.Agree (kept t)
  lists : Lists t heap

variable {t t' : Trace Place} {heap : Heap Place} {h : Nat} {s : ScopeId}

theorem chained_kept (t : Trace Place) : (kept t).Chained := by
  intro id parent rest _ houter
  rw [(follows_kept t).outer_eq] at houter ⊢
  exact (outer_parent houter).2

/-! ## Lists -/

namespace Lists

theorem mem_of_inUseOrNew (hl : Lists t heap) (hstore : heap.store.size = size t)
    (hs : heap.InUseOrNew s) (hne : outer t s ≠ []) : s ∈ heap.members (heap.family s) := by
  rcases hs with hs | hs
  · exact hl.mem hs hne
  · exact absurd (outer_eq_nil (hstore ▸ hs)) hne

/-- The lists stay the same, and so does the nesting. -/
theorem same (hl : Lists t heap) {v : Handled Place} (hsize : size t' = size t)
    (houter : ∀ s, outer t' s = outer t s) (hstore : heap.store.size = size t)
    (hinUse : ∀ s, v.InUse s → heap.InUseOrNew s) : Lists t' { heap with toHandled := v } := by
  have hroot (s : ScopeId) : rootOf t' s = rootOf t s := by rw [rootOf, rootOf, houter]
  refine ⟨hl.size_eq.trans hsize.symm, ?_, fun s hs r hr => ?_, fun {k s} hmem => ?_, fun {s} hs hne => ?_⟩
  · rw [hsize]
    exact hl.family_lt
  · rw [hsize] at hs hr
    rw [hroot, hroot]
    exact hl.family_eq_iff s hs r hr
  · rw [hsize, houter]
    exact hl.of_mem hmem
  · rw [houter] at hne
    exact hl.mem_of_inUseOrNew hstore (hinUse s hs) hne

/-- A new root has a new list, which is empty. -/
theorem root (hl : Lists t heap) (hstore : heap.store.size = size t)
    (hinUse : ∀ s, heap.toHandled.root.InUse s → heap.InUseOrNew s) : Lists (.root :: t) heap.root := by
  have hfamily (s : ScopeId) :
      heap.root.family s = if s = size t then heap.families.size else heap.family s := by
    rw [Heap.family, Heap.root, Array.getElem?_push, hl.size_eq, Heap.family]
    split <;> rfl
  have hmembers (k : Nat) : heap.root.members k = heap.members k := by
    rw [Heap.members, Heap.root, Array.getElem?_push, Heap.members]
    split
    · next hk =>
      rw [hk, Array.getElem?_eq_none (Nat.le_refl _)]
      rfl
    · rfl
  have hroot (s : ScopeId) : rootOf (.root :: t) s = rootOf t s := rfl
  have hnew : rootOf t (size t) = size t := by
    rw [rootOf, outer_eq_nil (Nat.le_refl _)]
    rfl
  have hold {s : ScopeId} (hs : outer t s ≠ []) : s ≠ size t := by
    rintro rfl
    exact hs (outer_eq_nil (Nat.le_refl _))
  refine ⟨?_, fun s hs => ?_, fun s hs r hr => ?_, fun {k s} hmem => ?_, fun {s} hs hne => ?_⟩
  · rw [Heap.root, Array.size_push, hl.size_eq, size]
  · rw [hfamily, Heap.root, Array.size_push]
    rcases Nat.lt_succ_iff_lt_or_eq.mp hs with hs | rfl
    · rw [if_neg (Nat.ne_of_lt hs)]
      exact Nat.lt_succ_of_lt (hl.family_lt s hs)
    · rw [if_pos rfl]
      exact Nat.lt_succ_self _
  · rw [hfamily, hfamily, hroot, hroot]
    rcases Nat.lt_succ_iff_lt_or_eq.mp hs with hs | rfl <;>
      rcases Nat.lt_succ_iff_lt_or_eq.mp hr with hr | rfl
    · rw [if_neg (Nat.ne_of_lt hs), if_neg (Nat.ne_of_lt hr)]
      exact hl.family_eq_iff s hs r hr
    · rw [if_neg (Nat.ne_of_lt hs), if_pos rfl, hnew]
      exact iff_of_false (Nat.ne_of_lt (hl.family_lt s hs)) (Nat.ne_of_lt (rootOf_lt hs))
    · rw [if_pos rfl, if_neg (Nat.ne_of_lt hr), hnew]
      exact iff_of_false (Nat.ne_of_gt (hl.family_lt r hr)) (Nat.ne_of_gt (rootOf_lt hr))
    · exact iff_of_true rfl rfl
  · rw [hmembers] at hmem
    obtain ⟨hs, hne, hk⟩ := hl.of_mem hmem
    rw [hfamily, if_neg (hold hne)]
    exact ⟨Nat.lt_succ_of_lt hs, hne, hk⟩
  · have hne : outer t s ≠ [] := hne
    rw [hfamily, if_neg (hold hne), hmembers]
    exact hl.mem_of_inUseOrNew hstore (hinUse s hs) hne

/-- A new scope has the list of its parent, and is put on it. -/
theorem child {p : ScopeId} (hl : Lists t heap) (hstore : heap.store.size = size t)
    (hscope : heap.scope? h = some p) (hp : scope? t h = some p)
    (hinUse : ∀ s, (heap.toHandled.child h).InUse s → heap.InUseOrNew s)
    (hchained : (heap.toHandled.child h).Chained) : Lists (.child h :: t) (heap.child h) := by
  have hsize : size (.child h :: t) = size t + 1 := by simp [size, hp]
  have houter (s : ScopeId) :
      outer (.child h :: t) s = if s = size t then p :: outer t p else outer t s := by
    simp only [outer, hp]
  have hfamily (s : ScopeId) :
      (heap.child h).family s = if s = size t then heap.family p else heap.family s := by
    simp only [Heap.family, Heap.child, hscope, Array.getElem?_push, hl.size_eq]
    split <;> rfl
  -- Every scope has the list and the root of one that was there before.
  have hbefore (s : ScopeId) (hs : s < size t + 1) : ∃ r < size t,
      (heap.child h).family s = heap.family r ∧ rootOf (.child h :: t) s = rootOf t r := by
    rcases Nat.lt_succ_iff_lt_or_eq.mp hs with hs | rfl
    · refine ⟨s, hs, ?_, ?_⟩
      · rw [hfamily, if_neg (Nat.ne_of_lt hs)]
      · rw [rootOf, houter, if_neg (Nat.ne_of_lt hs), rootOf]
    · refine ⟨p, scope?_lt hp, ?_, ?_⟩
      · rw [hfamily, if_pos rfl]
      · rw [rootOf, houter, if_pos rfl, List.getLastD_cons, rootOf]
  have hmembers (k : Nat) : (heap.child h).members k = if k = heap.family p then
      ((heap.families[k]?.getD {}).prune (heap.toHandled.child h).isHeld).members ++ [size t]
      else heap.members k := by
    have hlt := hl.family_lt p (scope?_lt hp)
    simp only [Heap.members, Heap.child, hscope, Array.getElem?_modify, hstore]
    by_cases hk : k = heap.family p
    · simp [hk, hlt, Family.push]
    · simp [hk, Ne.symm hk]
  refine ⟨?_, fun s hs => ?_, fun s hs r hr => ?_, fun {k s} hmem => ?_, fun {s} hs hne => ?_⟩
  · simp only [Heap.child, hscope, Array.size_push, hl.size_eq, hsize]
  · obtain ⟨r, hr, hfamily, -⟩ := hbefore s (hsize ▸ hs)
    rw [hfamily]
    simp only [Heap.child, hscope, Array.size_modify]
    exact hl.family_lt r hr
  · obtain ⟨s', hs', hfamily, hroot⟩ := hbefore s (hsize ▸ hs)
    obtain ⟨r', hr', hfamily', hroot'⟩ := hbefore r (hsize ▸ hr)
    rw [hfamily, hfamily', hroot, hroot']
    exact hl.family_eq_iff s' hs' r' hr'
  · have hold (hmem : s ∈ heap.members k) : s < size t + 1 ∧
        (if s = size t then p :: outer t p else outer t s) ≠ [] ∧
        (if s = size t then heap.family p else heap.family s) = k := by
      obtain ⟨hs, hne, hk⟩ := hl.of_mem hmem
      rw [if_neg (Nat.ne_of_lt hs), if_neg (Nat.ne_of_lt hs)]
      exact ⟨Nat.lt_succ_of_lt hs, hne, hk⟩
    rw [hsize, houter, hfamily]
    rw [hmembers] at hmem
    split at hmem
    · next hk =>
      rcases List.mem_append.mp hmem with hmem | hmem
      · exact hold (Family.mem_of_mem_prune hmem)
      · obtain rfl := List.mem_singleton.mp hmem
        rw [if_pos rfl, if_pos rfl]
        exact ⟨Nat.lt_succ_self _, List.cons_ne_nil _ _, hk.symm⟩
    · exact hold hmem
  · have hs : (heap.toHandled.child h).InUse s := heap.toHandled_child h ▸ hs
    rw [hfamily, hmembers]
    by_cases hnew : s = size t
    · rw [if_pos hnew, if_pos rfl, hnew]
      exact List.mem_append_right _ (List.mem_singleton_self _)
    · rw [houter, if_neg hnew] at hne
      have hmem := hl.mem_of_inUseOrNew hstore (hinUse s hs) hne
      rw [if_neg hnew]
      split
      · have hheld := Handled.isHeld_of_inUse hchained hs
        exact List.mem_append_left _ (Family.mem_prune hmem hheld)
      · exact hmem

end Lists

/-! ## One operation more -/

namespace Matches

theorem size_eq (hm : Matches t heap) : heap.store.size = size t :=
  hm.agree.agree.size_eq.trans (follows_kept t).size_eq

theorem scope?_eq (hm : Matches t heap) (h : Nat) : heap.scope? h = scope? t h :=
  (hm.agree.scope?_eq h).trans ((follows_kept t).scope?_eq h)

theorem chained (hm : Matches t heap) : heap.Chained := hm.agree.symm.chained (chained_kept t)

/-- The lists stay the same, and some scopes are let go. -/
theorem letGo (hm : Matches t heap) (t' : Trace Place) {v : Handled Place} (hsize : size t' = size t)
    (houter : ∀ s, outer t' s = outer t s)
    (hv : v.Agree (kept t') ∧ ∀ s, v.InUse s → heap.InUseOrNew s) (ids : List ScopeId) :
    Matches t' { heap with toHandled := v.letGo ids } := by
  have hgone := Handled.agree_letGo (hv.1.symm.chained (chained_kept t')) ids
  exact ⟨hgone.symm.trans hv.1,
    hm.lists.same hsize houter hm.size_eq fun s hs => hv.2 s (hgone.inUse_iff.mp hs)⟩

theorem start : Matches ([] : Trace Place) {} where
  agree := .refl _
  lists :=
    { size_eq := rfl
      family_lt := fun _ hs => absurd hs (Nat.not_lt_zero _)
      family_eq_iff := fun _ hs => absurd hs (Nat.not_lt_zero _)
      of_mem := fun hmem => by simp [Heap.members] at hmem
      mem := fun _ hne => absurd rfl hne }

theorem clone (hm : Matches t heap) (h : Nat) : Matches (.clone h :: t) (heap.clone h) := by
  obtain ⟨hagree, hinUse⟩ := hm.agree.clone h
  exact ⟨hagree, hm.lists.same rfl (fun _ => rfl) hm.size_eq hinUse⟩

theorem get (hm : Matches t heap) (h : Nat) (name : String) :
    Matches (.get h name :: t) (heap.get h name) := by
  obtain ⟨hagree, hinUse⟩ := hm.agree.get h name
  exact ⟨hagree, hm.lists.same rfl (fun _ => rfl) hm.size_eq hinUse⟩

theorem drop (hm : Matches t heap) (h : Nat) : Matches (.drop h :: t) (heap.drop h) :=
  hm.letGo (.drop h :: t) rfl (fun _ => rfl) (hm.agree.drop h) _

theorem set (hm : Matches t heap) (h : Nat) (name : String) (u : Value Place) :
    Matches (.set h name u :: t) (heap.perform (.set h name u)) := by
  have hresolved : heap.scope? = (kept t).scope? := funext hm.agree.scope?_eq
  have hkept : kept (.set h name u :: t) = (kept t).perform (.set h name u) := rfl
  rw [Handled.perform, ← hresolved] at hkept
  rw [Heap.perform]
  cases hv : u.resolved heap.scope? with
  | none =>
    rw [hv] at hkept
    refine ⟨by rw [hkept]; exact hm.agree, hm.lists.same rfl (fun _ => rfl) hm.size_eq fun _ => Or.inl⟩
  | some v =>
    rw [hv] at hkept
    refine hm.letGo (.set h name u :: t) rfl (fun _ => rfl) ?_ _
    rw [hkept]
    refine hm.agree.set h name fun c hc => ?_
    obtain ⟨k, hk⟩ := Value.captured_resolved hv c hc
    exact Handled.inUse_of_scope? hk

theorem release (hm : Matches t heap) (g : Nat) : Matches (.release g :: t) (heap.release g) := by
  have hkept : kept (.release g :: t) = (kept t).release g := rfl
  rw [Handled.release, ← hm.agree.scope?_eq] at hkept
  rw [Heap.release]
  cases hs : heap.scope? g with
  | none =>
    rw [hs] at hkept
    refine ⟨by rw [hkept]; exact hm.agree, hm.lists.same rfl (fun _ => rfl) hm.size_eq fun _ => Or.inl⟩
  | some s =>
    rw [hs] at hkept
    refine hm.letGo (.release g :: t) rfl (fun _ => rfl) ?_ _
    rw [hkept]
    refine hm.agree.clear _ fun id hid => ?_
    have hlt : s < size t := scope?_lt ((hm.scope?_eq g).symm.trans hs)
    rw [(follows_kept t).outer_eq, Store.root, (follows_kept t).outer_eq]
    rw [List.mem_append, List.mem_singleton, or_comm, List.mem_filter]
    refine or_congr Iff.rfl (Iff.trans ?_ getLast?_outer.symm)
    constructor
    · rintro ⟨hmem, -⟩
      obtain ⟨hid, hne, hfamily⟩ := hm.lists.of_mem hmem
      exact ⟨hne, (hm.lists.family_eq_iff id hid s hlt).mp hfamily⟩
    · rintro ⟨hne, hroot⟩
      have hmem := hm.lists.mem hid hne
      refine ⟨?_, Handled.isHeld_of_inUse hm.chained hid⟩
      rwa [(hm.lists.family_eq_iff id (hm.lists.of_mem hmem).1 s hlt).mpr hroot] at hmem

theorem root (hm : Matches t heap) : Matches (.root :: t) heap.root :=
  ⟨hm.agree.root.1, hm.lists.root hm.size_eq hm.agree.root.2⟩

theorem child (hm : Matches t heap) (h : Nat) : Matches (.child h :: t) (heap.child h) := by
  obtain ⟨hagree, hinUse⟩ := hm.agree.child h
  have hscope := hm.scope?_eq h
  cases hp : scope? t h with
  | none =>
    have hchild : heap.child h = { heap with toHandled := heap.toHandled.child h } := by
      rw [Heap.child, hscope, hp]
    rw [hchild]
    exact ⟨hagree, hm.lists.same (by simp [size, hp]) (fun s => by simp [outer, hp]) hm.size_eq hinUse⟩
  | some p =>
    rw [hp] at hscope
    have hchained := hagree.symm.chained (chained_kept (.child h :: t))
    exact ⟨heap.toHandled_child h ▸ hagree, hm.lists.child hm.size_eq hscope hp hinUse hchained⟩

theorem perform (hm : Matches t heap) (operation : Handled.Operation Place) :
    Matches (operation :: t) (heap.perform operation) := by
  cases operation with
  | root => exact hm.root
  | child h => exact hm.child h
  | clone h => exact hm.clone h
  | drop h => exact hm.drop h
  | set h name v => exact hm.set h name v
  | get h name => exact hm.get h name
  | release h => exact hm.release h

end Matches

theorem matches_run (t : Trace Place) : Matches t (run t) := by
  induction t with
  | nil => exact .start
  | cons operation t ih => exact ih.perform operation

/-! ## Lookups -/

theorem run_scope? (t : Trace Place) (h : Nat) : (run t).scope? h = scope? t h :=
  (matches_run t).scope?_eq h

/-- A heap answers like a store that keeps all scopes, in which a release compares roots. -/
theorem run_get?_kept (t : Trace Place) (h : Nat) (name : String) :
    (run t).get? h name = (kept t).get? h name :=
  (matches_run t).agree.get?_eq h name

theorem run_get? (t : Trace Place) (h : Nat) (name : String) : (run t).get? h name = lookup t h name :=
  (run_get?_kept t h name).trans (kept_get? t h name)

theorem run_chain (hs : scope? t h = some s) : (run t).store.chain s = chain t s := by
  have hinUse := Handled.inUse_of_scope? ((run_scope? t h).trans hs)
  rw [Store.chain, (matches_run t).agree.agree.outer_eq s hinUse, (follows_kept t).outer_eq, chain]

/-- A release covers no scope with another root. -/
theorem not_covers {g p : ScopeId} (hs : s < size t) (hroot : rootOf t s ≠ rootOf t g)
    (hp : p ∈ chain t s) : ¬ Covers (outer t) g p := by
  have hsame := (chain_rooted hs p hp).2
  rintro (rfl | ⟨-, hcovered⟩)
  · exact hroot hsame.symm
  · exact hroot (hsame.symm.trans hcovered)

/-- What the scopes answer behind any trace: the latest value that no release has covered since, in the
nearest scope that has one.  Parents never change, clones answer alike for as long as both are held, what
is dropped is not missed, a release covers nothing below other roots, and behind it a scope can be used
again. -/
theorem run_lookup (t : Trace Place) (h : Nat) :
    (∀ name, (run t).get? h name = lookup t h name) ∧
    ∀ s, (run t).scope? h = some s →
      (∀ later r, (run (later ++ t)).scope? h = some r →
        (run (later ++ t)).store.chain r = (run t).store.chain s) ∧
      (∀ later, let heap := run (later ++ .clone h :: t)
        (heap.scope? h).isSome → (heap.scope? (given t)).isSome →
          ∀ name, heap.get? (given t) name = heap.get? h name) ∧
      (∀ g ≠ h, ∀ name, (run (.drop g :: t)).get? h name = (run t).get? h name) ∧
      ∀ g r, (run t).scope? g = some r →
        (∀ name, (run (.release g :: t)).get? h name =
          (chain t s).findSome? fun p => if Covers (outer t) r p then none else lastSet? t p name) ∧
        (rootOf t s ≠ rootOf t r → ∀ name, (run (.release g :: t)).get? h name = (run t).get? h name) ∧
        ∀ name u v, u.resolved (run t).scope? = some v →
          (run (.set h name u :: .release g :: t)).get? h name = some v := by
  refine ⟨run_get? t h, fun s hs => ?_⟩
  rw [run_scope?] at hs
  refine ⟨fun later r hr => ?_, fun later => ?_, fun g hne name => ?_, fun g r hr => ?_⟩
  · rw [run_scope?] at hr
    obtain rfl := Option.some.inj (hs.symm.trans (scope?_append later (lt_given hs) hr))
    rw [run_chain hr, run_chain hs, chain, (outer_append later (scope?_lt hs)).2, chain]
  · intro heap hh hg name
    have hlt : given t < given (.clone h :: t) := Nat.lt_succ_self _
    have hclone : scope? (.clone h :: t) (given t) = scope? (.clone h :: t) h := by
      rw [scope?, scope?, if_pos rfl, if_neg (Nat.ne_of_lt (lt_given hs))]
    rw [run_scope?] at hh hg
    obtain ⟨r, hr⟩ := Option.isSome_iff_exists.mp hh
    obtain ⟨q, hq⟩ := Option.isSome_iff_exists.mp hg
    have hr' := scope?_append later (Nat.lt_succ_of_lt (lt_given hs)) hr
    have hq' := scope?_append later hlt hq
    obtain rfl := Option.some.inj (hr'.symm.trans (hclone.symm.trans hq'))
    rw [run_get?, run_get?, lookup, lookup, hr, hq]
  · rw [run_get?, run_get?, lookup, lookup, scope?, if_neg (Ne.symm hne)]
    rfl
  · rw [run_scope?] at hr
    have hreleased (name : String) : (run (.release g :: t)).get? h name =
        (chain t s).findSome? fun p => if Covers (outer t) r p then none else lastSet? t p name := by
      rw [run_get?, lookup, scope?, hs, Option.bind_some]
      simp only [lastSet?, hr]
      rfl
    refine ⟨hreleased, fun hroot name => ?_, fun name u v hv => ?_⟩
    · rw [hreleased, run_get?, lookup, hs, Option.bind_some, ← List.head?_filterMap,
        ← List.head?_filterMap]
      refine congrArg List.head? (List.filterMap_congr fun p hp => ?_)
      exact if_neg (not_covers (scope?_lt hs) hroot hp)
    · have hresolved : (run t).scope? = scope? (.release g :: t) := funext (run_scope? t)
      rw [hresolved] at hv
      have hlast : lastSet? (.set h name u :: .release g :: t) s name = some v := by
        rw [lastSet?, hv]
        exact if_pos ⟨hs, rfl⟩
      rw [run_get?, lookup, scope?, scope?, hs, Option.bind_some, chain, List.findSome?_cons, hlast]

/-- The list of the first root is full when the fifth scope is made below it, and only the first one is
struck off: the fourth is still captured by a function.  A release through another handle to the second
then covers it, but neither the root of both nor another root. -/
theorem run_lookup_release :
    let f : Function Unit := ⟨some "f", [], .pass (), 4⟩
    let t : Trace Unit := List.reverse [.root, .child 0, .child 0, .child 0, .child 0,
      .set 4 "x" (.bool false), .set 0 "x" (.bool true), .set 0 "f" (.function f), .drop 1, .drop 4,
      .child 0, .get 0 "f", .clone 2, .root, .set 8 "x" .none]
    (run t).get? 6 "x" = some (.bool false) ∧ (run (.release 7 :: t)).get? 6 "x" = some (.bool true) ∧
      (run (.set 6 "x" .none :: .release 7 :: t)).get? 6 "x" = some .none ∧
      (run (.release 7 :: t)).get? 8 "x" = some .none := by
  intro f t
  have hscope (h : Nat) (s : ScopeId) (hs : scope? t h = some s) : (run t).scope? h = some s :=
    (run_scope? t h).trans hs
  obtain ⟨hlookup, hheld⟩ := run_lookup t 6
  obtain ⟨-, -, -, hreleases⟩ := hheld 4 (hscope 6 4 rfl)
  obtain ⟨hreleased, -, hset⟩ := hreleases 7 2 (hscope 7 2 rfl)
  obtain ⟨hlookup', hheld'⟩ := run_lookup t 8
  obtain ⟨-, -, -, hreleases'⟩ := hheld' 6 (hscope 8 6 rfl)
  obtain ⟨-, huntouched, -⟩ := hreleases' 7 2 (hscope 7 2 rfl)
  refine ⟨?_, ?_, hset "x" .none .none rfl, ?_⟩
  · rw [hlookup]
    rfl
  · rw [hreleased]
    rfl
  · rw [huntouched (by decide), hlookup']
    rfl

end Trace
end Cyan
