/-
What a trace of operations on scopes leaves bound.

A `Trace` lists operations, the latest first.  What a lookup gives behind it can be told from the trace
alone: the value of the latest `set` of the name that no release has covered since, in the nearest scope
of the chain that has one (`Trace.lookup`).

`Trace.kept` carries a trace out on a store that keeps all scopes and in which a release compares roots.
Its lookups are those of the trace (`Trace.kept_get?`).
-/
import Cyan.Proofs.Scope.Rooted
import Cyan.Scope.Heap

namespace Cyan

variable {Place : Type}

/-- The value with the scope of a handle in the place of the handle. -/
def Value.resolved (scope? : Nat → Option ScopeId) : Value Place → Option (Value Place)
  | .function f => (scope? f.scope).map fun s => .function { f with scope := s }
  | v => some v

/-- What is captured by a value that has been resolved is the scope of a handle. -/
theorem Value.captured_resolved {scope? : Nat → Option ScopeId} {u v : Value Place}
    (h : u.resolved scope? = some v) : ∀ c ∈ v.captured, ∃ k, scope? k = some c := by
  intro c hc
  cases u with
  | function f =>
    obtain ⟨s, hs, rfl⟩ := Option.map_eq_some_iff.mp h
    rw [List.mem_singleton.mp hc]
    exact ⟨f.scope, hs⟩
  | none | bool | number | string | builtin =>
    obtain rfl := Option.some.inj h
    cases hc

namespace Handled

/-- What can be done with scopes through handles, which are numbered in the order in which they are given
out.  A function that is to be bound has, in the place of its scope, the handle to the scope that it
captures. -/
inductive Operation (Place : Type) where
  | root
  | child (h : Nat)
  | clone (h : Nat)
  | drop (h : Nat)
  | set (h : Nat) (name : String) (v : Value Place)
  | get (h : Nat) (name : String)
  | release (h : Nat)

def release (w : Handled Place) (h : Nat) : Handled Place :=
  match w.scope? h with
  | some s => { w with store := w.store.release s }
  | none => w

def perform (w : Handled Place) : Operation Place → Handled Place
  | .root => w.root
  | .child h => w.child h
  | .clone h => w.clone h
  | .drop h => w.drop h
  | .set h name v =>
    match v.resolved w.scope? with
    | some v => w.set h name v
    | none => w
  | .get h name => w.get h name
  | .release h => w.release h

end Handled

/-- Operations on scopes, the latest one first. -/
abbrev Trace (Place : Type) := List (Handled.Operation Place)

namespace Trace

/-- What the operations make of a store without scopes, if all scopes are kept. -/
def kept : Trace Place → Handled Place
  | [] => {}
  | operation :: t => (kept t).perform operation

/-! ## What can be told from a trace -/

/-- How many handles have been given out. -/
def given : Trace Place → Nat
  | [] => 0
  | .root :: t | .child _ :: t | .clone _ :: t | .get _ _ :: t => given t + 1
  | .drop _ :: t | .set _ _ _ :: t | .release _ :: t => given t

/-- Whether a release through a handle to `g` covers `s`: it is the same scope, or one that is not a root
and has the root of `g`. -/
def Covers (outer : ScopeId → List ScopeId) (g s : ScopeId) : Prop :=
  s = g ∨ outer s ≠ [] ∧ (outer s).getLastD s = (outer g).getLastD g

instance (outer : ScopeId → List ScopeId) (g s : ScopeId) : Decidable (Covers outer g s) :=
  inferInstanceAs (Decidable (_ ∨ _))

mutual

/-- How many scopes have been made.  They are numbered in the order in which they are made. -/
def size : Trace Place → Nat
  | [] => 0
  | .root :: t => size t + 1
  | .child h :: t => if (scope? t h).isSome then size t + 1 else size t
  | .clone _ :: t | .drop _ :: t | .set _ _ _ :: t | .get _ _ :: t | .release _ :: t => size t

/-- The scope that a handle is to, until it is dropped.  A lookup gives out a handle to the scope that
is captured by what is found. -/
def scope? : Trace Place → Nat → Option ScopeId
  | [], _ => none
  | .root :: t, k => if k = given t then some (size t) else scope? t k
  | .child h :: t, k => if k = given t then (scope? t h).map fun _ => size t else scope? t k
  | .clone h :: t, k => if k = given t then scope? t h else scope? t k
  | .get h name :: t, k =>
    if k = given t then
      ((scope? t h).bind fun s => (s :: outer t s).findSome? fun s => lastSet? t s name).bind
        (·.captured.head?)
    else scope? t k
  | .drop h :: t, k => if k = h then none else scope? t k
  | .set _ _ _ :: t, k | .release _ :: t, k => scope? t k

/-- The parent of a scope, the parent of that, and so on to the root. -/
def outer : Trace Place → ScopeId → List ScopeId
  | [], _ => []
  | .child h :: t, s =>
    match scope? t h with
    | some parent => if s = size t then parent :: outer t parent else outer t s
    | none => outer t s
  | .root :: t, s | .clone _ :: t, s | .drop _ :: t, s | .set _ _ _ :: t, s | .get _ _ :: t, s
  | .release _ :: t, s => outer t s

/-- What a name was last set to in a scope, unless a release has covered the scope since. -/
def lastSet? : Trace Place → ScopeId → String → Option (Value Place)
  | [], _, _ => none
  | .set h key v :: t, s, name =>
    match v.resolved (scope? t) with
    | some v => if scope? t h = some s ∧ name = key then some v else lastSet? t s name
    | none => lastSet? t s name
  | .release g :: t, s, name =>
    match scope? t g with
    | some r => if Covers (outer t) r s then none else lastSet? t s name
    | none => lastSet? t s name
  | .root :: t, s, name | .child _ :: t, s, name | .clone _ :: t, s, name | .drop _ :: t, s, name
  | .get _ _ :: t, s, name => lastSet? t s name

end

/-- A scope and the scopes around it, nearest first. -/
def chain (t : Trace Place) (s : ScopeId) : List ScopeId := s :: outer t s

def rootOf (t : Trace Place) (s : ScopeId) : ScopeId := (outer t s).getLastD s

/-- What a name means from a handle. -/
def lookup (t : Trace Place) (h : Nat) (name : String) : Option (Value Place) :=
  (scope? t h).bind fun s => (chain t s).findSome? fun s => lastSet? t s name

theorem getLast?_outer {t : Trace Place} {s root : ScopeId} :
    (outer t s).getLast? = some root ↔ outer t s ≠ [] ∧ rootOf t s = root := by
  rw [rootOf, List.getLastD_eq_getLast?]
  cases outer t s with
  | nil => simp
  | cons parent rest => simp [List.getLast?_cons]

/-! ## One operation more -/

/-- What a store that keeps all scopes looks like behind a trace. -/
structure Follows (t : Trace Place) (w : Handled Place) : Prop where
  given_eq : w.handles.size = given t
  size_eq : w.store.size = size t
  scope?_eq : ∀ k, w.scope? k = scope? t k
  scope?_lt : ∀ k s, scope? t k = some s → s < size t
  outer_eq : ∀ s, w.store.outer s = outer t s
  get?_eq : ∀ s name, (w.store.bindings s).get? name = lastSet? t s name
  captured_lt : ∀ s name v, lastSet? t s name = some v → ∀ c ∈ v.captured, c < size t

variable {t : Trace Place} {w : Handled Place} {h k : Nat} {s p : ScopeId}

namespace Follows

theorem start : Follows ([] : Trace Place) {} where
  given_eq := rfl
  size_eq := rfl
  scope?_eq _ := by simp [Handled.scope?, scope?]
  scope?_lt _ _ h := by simp [scope?] at h
  outer_eq _ := by simp [Store.outer, outer]
  get?_eq _ _ := by simp [Store.bindings, Bindings.get?, lastSet?]
  captured_lt _ _ _ h := by simp [lastSet?] at h

theorem get?_lookup (hw : Follows t w) (h : Nat) (name : String) : w.get? h name = lookup t h name := by
  rw [Handled.get?, hw.scope?_eq, lookup]
  refine congrArg _ (funext fun s => ?_)
  rw [Store.get?, hw.get?_eq, hw.outer_eq, chain, List.findSome?_cons]
  simp only [hw.get?_eq]
  cases lastSet? t s name <;> rfl

theorem lookup_captured_lt (hw : Follows t w) {name : String} {v : Value Place}
    (hfound : lookup t h name = some v) : ∀ c ∈ v.captured, c < size t := by
  obtain ⟨s, -, hfound⟩ := Option.bind_eq_some_iff.mp hfound
  obtain ⟨other, -, hset⟩ := List.exists_of_findSome?_eq_some hfound
  exact hw.captured_lt other name v hset

/-- Nothing is done but that a handle is given out. -/
theorem give (hw : Follows t w) {t' : Trace Place} {s? : Option ScopeId}
    (hgiven : given t' = given t + 1) (hsize : size t' = size t)
    (hscope : ∀ k, scope? t' k = if k = given t then s? else scope? t k)
    (houter : ∀ s, outer t' s = outer t s) (hset : ∀ s name, lastSet? t' s name = lastSet? t s name)
    (hlt : ∀ s, s? = some s → s < size t) : Follows t' (w.give s?) where
  given_eq := by rw [Handled.give, Array.size_push, hw.given_eq, hgiven]
  size_eq := hw.size_eq.trans hsize.symm
  scope?_eq k := by rw [Handled.scope?_give, hw.given_eq, hw.scope?_eq, hscope]
  scope?_lt k s hk := by
    rw [hscope] at hk
    rw [hsize]
    split at hk
    · exact hlt s hk
    · exact hw.scope?_lt k s hk
  outer_eq s := (hw.outer_eq s).trans (houter s).symm
  get?_eq s name := (hw.get?_eq s name).trans (hset s name).symm
  captured_lt s name v hv := by
    rw [hset] at hv
    rw [hsize]
    exact hw.captured_lt s name v hv

theorem root (hw : Follows t w) : Follows (.root :: t) w.root where
  given_eq := by rw [Handled.root, Array.size_push, hw.given_eq, given]
  size_eq := by rw [Handled.root, Store.size_addRoot, hw.size_eq, size]
  scope?_eq k := by
    show (w.give (some w.store.size)).scope? k = _
    rw [Handled.scope?_give, hw.given_eq, hw.size_eq, hw.scope?_eq, scope?]
  scope?_lt k s hk := by
    rw [scope?] at hk
    rw [size]
    split at hk
    · cases hk
      exact Nat.lt_succ_self _
    · exact Nat.lt_succ_of_lt (hw.scope?_lt k s hk)
  outer_eq s := by
    rw [Handled.root, Store.outer_addRoot, outer, ← hw.outer_eq]
    split
    · next hs => rw [hs, Store.outer_eq_nil (Nat.le_refl _)]
    · rfl
  get?_eq s name := by rw [Handled.root, Store.bindings_addRoot, hw.get?_eq, lastSet?]
  captured_lt s name v hv c hc := Nat.lt_succ_of_lt (hw.captured_lt s name v hv c hc)

theorem child (hw : Follows t w) (h : Nat) : Follows (.child h :: t) (w.child h) := by
  cases hs : scope? t h with
  | none =>
    rw [Handled.child, hw.scope?_eq, hs]
    refine hw.give rfl (by simp [size, hs]) (fun k => by simp [scope?, hs])
      (fun s => by simp [outer, hs]) (fun _ _ => rfl) (fun _ h => nomatch h)
  | some parent =>
    have hsize : size (.child h :: t) = size t + 1 := by simp [size, hs]
    rw [Handled.child, hw.scope?_eq, hs]
    refine ⟨?_, ?_, fun k => ?_, fun k s hk => ?_, fun s => ?_, fun s name => ?_,
      fun s name v hv c hc => ?_⟩
    · rw [Array.size_push, hw.given_eq, given]
    · rw [Store.size_addChild, hw.size_eq, hsize]
    · show (w.give (some w.store.size)).scope? k = _
      rw [Handled.scope?_give, hw.given_eq, hw.size_eq, hw.scope?_eq, scope?, hs, Option.map_some]
    · rw [scope?, hs] at hk
      rw [hsize]
      split at hk
      · cases hk
        exact Nat.lt_succ_self _
      · exact Nat.lt_succ_of_lt (hw.scope?_lt k s hk)
    · rw [Store.outer_addChild, Store.chain, outer, hs, hw.size_eq, hw.outer_eq, hw.outer_eq]
    · rw [Store.bindings_addChild, hw.get?_eq, lastSet?]
    · rw [hsize]
      exact Nat.lt_succ_of_lt (hw.captured_lt s name v hv c hc)

theorem clone (hw : Follows t w) (h : Nat) : Follows (.clone h :: t) (w.clone h) := by
  rw [Handled.clone, hw.scope?_eq]
  exact hw.give rfl rfl (fun _ => rfl) (fun _ => rfl) (fun _ _ => rfl) (hw.scope?_lt h)

theorem get (hw : Follows t w) (h : Nat) (name : String) : Follows (.get h name :: t) (w.get h name) := by
  rw [Handled.get, hw.get?_lookup]
  refine hw.give rfl rfl (fun _ => rfl) (fun _ => rfl) (fun _ _ => rfl) fun s hs => ?_
  obtain ⟨v, hv, hs⟩ := Option.bind_eq_some_iff.mp hs
  exact hw.lookup_captured_lt hv s (List.mem_of_head? hs)

theorem drop (hw : Follows t w) (h : Nat) : Follows (.drop h :: t) (w.drop h) where
  given_eq := by rw [Handled.drop, Array.size_setIfInBounds, hw.given_eq, given]
  size_eq := hw.size_eq
  scope?_eq k := by rw [Handled.scope?_drop, hw.scope?_eq, scope?]
  scope?_lt k s hk := by
    rw [scope?] at hk
    split at hk
    · cases hk
    · exact hw.scope?_lt k s hk
  outer_eq := hw.outer_eq
  get?_eq := hw.get?_eq
  captured_lt := hw.captured_lt

/-- Only what is bound changes. -/
theorem of_bindings (hw : Follows t w) {t' : Trace Place} {store : Store Place}
    (hgiven : given t' = given t) (hsize : size t' = size t) (hscope : ∀ k, scope? t' k = scope? t k)
    (houter : ∀ s, outer t' s = outer t s) (hstore : store.size = w.store.size)
    (hnested : ∀ s, store.outer s = w.store.outer s)
    (hget : ∀ s name, (store.bindings s).get? name = lastSet? t' s name)
    (hcaptured : ∀ s name v, lastSet? t' s name = some v → ∀ c ∈ v.captured, c < size t) :
    Follows t' { w with store } where
  given_eq := hw.given_eq.trans hgiven.symm
  size_eq := hstore.trans (hw.size_eq.trans hsize.symm)
  scope?_eq k := (hw.scope?_eq k).trans (hscope k).symm
  scope?_lt k s hk := by
    rw [hscope] at hk
    rw [hsize]
    exact hw.scope?_lt k s hk
  outer_eq s := (hnested s).trans ((hw.outer_eq s).trans (houter s).symm)
  get?_eq := hget
  captured_lt s name v hv := by
    rw [hsize]
    exact hcaptured s name v hv

/-- Nothing changes. -/
theorem unchanged (hw : Follows t w) {t' : Trace Place} (hgiven : given t' = given t)
    (hsize : size t' = size t) (hscope : ∀ k, scope? t' k = scope? t k)
    (houter : ∀ s, outer t' s = outer t s) (hset : ∀ s name, lastSet? t' s name = lastSet? t s name) :
    Follows t' w :=
  hw.of_bindings hgiven hsize hscope houter rfl (fun _ => rfl)
    (fun s name => (hw.get?_eq s name).trans (hset s name).symm)
    fun s name v hv => hw.captured_lt s name v ((hset s name).symm.trans hv)

theorem set (hw : Follows t w) (h : Nat) (key : String) (u : Value Place) :
    Follows (.set h key u :: t) (w.perform (.set h key u)) := by
  have hresolved : w.scope? = scope? t := funext hw.scope?_eq
  rw [Handled.perform, hresolved]
  cases hv : u.resolved (scope? t) with
  | none => exact hw.unchanged rfl rfl (fun _ => rfl) (fun _ => rfl) fun _ _ => by simp [lastSet?, hv]
  | some v =>
    cases hr : scope? t h with
    | none =>
      simp only [Handled.set, hw.scope?_eq, hr]
      exact hw.unchanged rfl rfl (fun _ => rfl) (fun _ => rfl) fun _ _ => by simp [lastSet?, hv, hr]
    | some r =>
      simp only [Handled.set, hw.scope?_eq, hr]
      have hlast (s : ScopeId) (name : String) : lastSet? (.set h key u :: t) s name =
          if s = r ∧ name = key then some v else lastSet? t s name := by
        simp [lastSet?, hv, hr, eq_comm]
      refine hw.of_bindings rfl rfl (fun _ => rfl) (fun _ => rfl) (Store.size_set ..)
        (fun _ => Store.outer_set ..) (fun s name => ?_) fun s name x hx c hc => ?_
      · rw [Store.get?_bindings_set, hlast, hw.get?_eq, hw.size_eq]
        by_cases hs : s = r
        · simp [hs, hw.scope?_lt h r hr]
        · simp [hs]
      · rw [hlast] at hx
        split at hx
        · cases hx
          obtain ⟨k, hk⟩ := Value.captured_resolved hv c hc
          exact hw.scope?_lt k c hk
        · exact hw.captured_lt s name x hx c hc

theorem release (hw : Follows t w) (g : Nat) : Follows (.release g :: t) (w.release g) := by
  rw [Handled.release, hw.scope?_eq]
  cases hr : scope? t g with
  | none => exact hw.unchanged rfl rfl (fun _ => rfl) (fun _ => rfl) fun _ _ => by simp [lastSet?, hr]
  | some r =>
    have hlast (s : ScopeId) (name : String) : lastSet? (.release g :: t) s name =
        if Covers (outer t) r s then none else lastSet? t s name := by
      simp [lastSet?, hr]
    refine hw.of_bindings rfl rfl (fun _ => rfl) (fun _ => rfl) (Store.size_release ..)
      (fun _ => Store.outer_release ..) (fun s name => ?_) fun s name v hv => ?_
    · have hcovers : s = r ∨ (outer t s).getLast? = some (rootOf t r) ↔ Covers (outer t) r s :=
        or_congr Iff.rfl getLast?_outer
      rw [Store.bindings_release_eq, hlast, Store.root, hw.outer_eq, hw.outer_eq]
      by_cases hs : Covers (outer t) r s
      · rw [if_pos hs]
        exact congrArg (Bindings.get? · name) (if_pos (hcovers.mpr hs))
      · rw [if_neg hs, ← hw.get?_eq]
        exact congrArg (Bindings.get? · name) (if_neg (mt hcovers.mp hs))
    · rw [hlast] at hv
      split at hv
      · cases hv
      · exact hw.captured_lt s name v hv

theorem perform (hw : Follows t w) (operation : Handled.Operation Place) :
    Follows (operation :: t) (w.perform operation) := by
  cases operation with
  | root => exact hw.root
  | child h => exact hw.child h
  | clone h => exact hw.clone h
  | drop h => exact hw.drop h
  | set h name v => exact hw.set h name v
  | get h name => exact hw.get h name
  | release h => exact hw.release h

end Follows

theorem follows_kept (t : Trace Place) : Follows t (kept t) := by
  induction t with
  | nil => exact .start
  | cons operation t ih => exact ih.perform operation

/-- With all scopes kept, lookups are those of the trace. -/
theorem kept_get? (t : Trace Place) (h : Nat) (name : String) : (kept t).get? h name = lookup t h name :=
  (follows_kept t).get?_lookup h name

/-! ## Nesting and handles for ever -/

theorem scope?_lt (hs : scope? t h = some s) : s < size t := (follows_kept t).scope?_lt h s hs

theorem lt_given (hs : scope? t h = some s) : h < given t := by
  rw [← (follows_kept t).scope?_eq] at hs
  rw [← (follows_kept t).given_eq]
  exact Handled.lt_of_scope? hs

/-- A scope stays where it is nested. -/
theorem outer_append (later : Trace Place) (hs : s < size t) :
    s < size (later ++ t) ∧ outer (later ++ t) s = outer t s := by
  induction later with
  | nil => exact ⟨hs, rfl⟩
  | cons operation later ih =>
    obtain ⟨hlt, houter⟩ := ih
    rw [List.cons_append]
    cases operation with
    | root => exact ⟨Nat.lt_succ_of_lt hlt, houter⟩
    | child h =>
      rw [size, outer]
      cases scope? (later ++ t) h with
      | none => exact ⟨hlt, houter⟩
      | some parent => exact ⟨Nat.lt_succ_of_lt hlt, (if_neg (Nat.ne_of_lt hlt)).trans houter⟩
    | clone _ | drop _ | set _ _ _ | get _ _ | release _ => exact ⟨hlt, houter⟩

/-- A handle is to the same scope until it is dropped. -/
theorem scope?_append (later : Trace Place) (hk : k < given t) (hs : scope? (later ++ t) k = some s) :
    scope? t k = some s := by
  have hgiven : k < given (later ++ t) ∧ ∀ s, scope? (later ++ t) k = some s → scope? t k = some s := by
    clear hs
    induction later with
    | nil => exact ⟨hk, fun _ => id⟩
    | cons operation later ih =>
      obtain ⟨hlt, hscope⟩ := ih
      have hne : k ≠ given (later ++ t) := Nat.ne_of_lt hlt
      rw [List.cons_append]
      cases operation with
      | root | child _ | clone _ | get _ _ =>
        refine ⟨Nat.lt_succ_of_lt hlt, fun s hs => hscope s ?_⟩
        rwa [scope?, if_neg hne] at hs
      | drop h =>
        refine ⟨hlt, fun s hs => hscope s ?_⟩
        rw [scope?] at hs
        split at hs
        · cases hs
        · exact hs
      | set _ _ _ | release _ => exact ⟨hlt, hscope⟩
  exact hgiven.2 s hs

/-- The scopes around a scope are its parent and the scopes around that. -/
theorem outer_parent {rest : List ScopeId} (hs : outer t s = p :: rest) :
    p < size t ∧ outer t p = rest := by
  induction t generalizing s with
  | nil => cases hs
  | cons operation t ih =>
    cases operation with
    | root => exact ⟨Nat.lt_succ_of_lt (ih hs).1, (ih hs).2⟩
    | child h =>
      cases hparent : scope? t h with
      | none =>
        simp only [outer, size, hparent] at hs ⊢
        exact ih hs
      | some parent =>
        have hkept {p : ScopeId} (hp : p < size t) :
            p < size t + 1 ∧ (if p = size t then parent :: outer t parent else outer t p) = outer t p :=
          ⟨Nat.lt_succ_of_lt hp, if_neg (Nat.ne_of_lt hp)⟩
        simp only [outer, size, hparent, Option.isSome_some, if_true] at hs ⊢
        split at hs
        · obtain ⟨rfl, rfl⟩ := List.cons_eq_cons.mp hs
          exact hkept (scope?_lt hparent)
        · obtain ⟨hp, rfl⟩ := ih hs
          exact hkept hp
    | clone _ | drop _ | set _ _ _ | get _ _ | release _ => exact ih hs

theorem outer_eq_nil (hs : size t ≤ s) : outer t s = [] := by
  rw [← (follows_kept t).outer_eq]
  exact Store.outer_eq_nil ((follows_kept t).size_eq ▸ hs)

/-- Around a scope there are scopes that have been made, with the same root. -/
theorem chain_rooted (hs : s < size t) : ∀ p ∈ chain t s, p < size t ∧ rootOf t p = rootOf t s := by
  refine List.forall_mem_cons.mpr ⟨⟨hs, rfl⟩, fun p hp => ?_⟩
  generalize houter : outer t s = l at hp
  induction l generalizing s with
  | nil => cases hp
  | cons parent rest ih =>
    obtain ⟨hlt, hrest⟩ := outer_parent houter
    have hroot : rootOf t parent = rootOf t s := by
      rw [rootOf, rootOf, hrest, houter, List.getLastD_cons]
    rcases List.mem_cons.mp hp with rfl | hp
    · exact ⟨hlt, hroot⟩
    · rw [← hroot]
      exact ih hlt hrest hp

theorem rootOf_lt (hs : s < size t) : rootOf t s < size t := by
  refine (chain_rooted hs (rootOf t s) ?_).1
  rw [rootOf, chain, List.getLastD_eq_getLast?]
  cases houter : (outer t s).getLast? with
  | none => exact List.mem_cons_self
  | some root => exact List.mem_cons_of_mem _ (List.mem_of_getLast? houter)

end Trace
end Cyan
