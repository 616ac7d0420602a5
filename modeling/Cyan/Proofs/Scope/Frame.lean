/-
What evaluation may do to the scopes that are already there.

`Store.Extends scope` says that one store came out of another by making new scopes and by binding
names in `scope`: of every other scope nothing changed, and no scope is nested in others than before.
`evaluate_extends` says that evaluation in a scope does no more than that, however it ends, and
`Evaluation.callValue_extends` that the body of a called function does not even bind names in scopes
that were there before the call.  `evaluate_frame` puts both in terms of single scopes.
-/
import Cyan.Proofs.Evaluation.Keeps

namespace Cyan

variable {Place α : Type}

namespace Store

/-- From the first store to the second, scopes may have been added and names bound in `scope`. -/
structure Extends (scope : ScopeId) (st st' : Store Place) : Prop where
  size_le : st.size ≤ st'.size
  outer_eq : ∀ id < st.size, st'.outer id = st.outer id
  bindings_eq : ∀ id < st.size, id ≠ scope → st'.bindings id = st.bindings id
  isSome_get? : ∀ name, ((st.bindings scope).get? name).isSome →
    ((st'.bindings scope).get? name).isSome

theorem bindings_eq_nil {st : Store Place} {id : ScopeId} (h : st.size ≤ id) :
    st.bindings id = [] := by
  have hget : st.cells[id]? = none := Array.getElem?_eq_none h
  simp [bindings, hget]

namespace Extends

variable {scope : ScopeId}

theorem refl (st : Store Place) : Extends scope st st :=
  ⟨Nat.le_refl _, fun _ _ => rfl, fun _ _ _ => rfl, fun _ h => h⟩

theorem trans {a b c : Store Place} (hab : Extends scope a b) (hbc : Extends scope b c) :
    Extends scope a c where
  size_le := Nat.le_trans hab.size_le hbc.size_le
  outer_eq id h := by
    rw [hbc.outer_eq id (Nat.lt_of_lt_of_le h hab.size_le), hab.outer_eq id h]
  bindings_eq id h hne := by
    rw [hbc.bindings_eq id (Nat.lt_of_lt_of_le h hab.size_le) hne, hab.bindings_eq id h hne]
  isSome_get? name h := hbc.isSome_get? name (hab.isSome_get? name h)

theorem set (st : Store Place) (name : String) (v : Value Place) :
    Extends scope st (st.set scope name v) where
  size_le := Nat.le_of_eq (size_set st scope name v).symm
  outer_eq id _ := outer_set st scope name v id
  bindings_eq id _ hne := bindings_set_of_ne st hne name v
  isSome_get? other h := by
    by_cases hlt : scope < st.size
    · rw [bindings_set_self hlt]
      exact Bindings.isSome_get?_set h name v
    · rw [bindings_eq_nil (Nat.le_of_not_lt hlt)] at h
      cases h

theorem foldl_set (st : Store Place) (named : List (String × Value Place)) :
    Extends scope st (named.foldl (fun st (name, v) => st.set scope name v) st) := by
  induction named generalizing st with
  | nil => exact refl st
  | cons entry rest ih =>
    rw [List.foldl_cons]
    exact (set st entry.1 entry.2).trans (ih _)

theorem addChild (st : Store Place) (parent : ScopeId) :
    Extends scope st (st.addChild parent).2 where
  size_le := by
    rw [size_addChild]
    exact Nat.le_succ _
  outer_eq id h := outer_addChild_of_ne st parent (Nat.ne_of_lt h)
  bindings_eq id _ _ := bindings_addChild st parent id
  isSome_get? name h := by rwa [bindings_addChild]

/-- If names were bound in the first new scope only, all scopes that were there are as before. -/
theorem of_fresh {st st' : Store Place} (h : Extends st.size st st') : Extends scope st st' where
  size_le := h.size_le
  outer_eq := h.outer_eq
  bindings_eq id hid _ := h.bindings_eq id hid (Nat.ne_of_lt hid)
  isSome_get? name hname := by
    by_cases hlt : scope < st.size
    · rwa [h.bindings_eq scope hlt (Nat.ne_of_lt hlt)]
    · rw [bindings_eq_nil (Nat.le_of_not_lt hlt)] at hname
      cases hname

end Extends
end Store

/-- From the first world to the second, the store extends in `scope`. -/
def World.Extends (scope : ScopeId) (w w' : World Place) : Prop := w.store.Extends scope w'.store

instance (scope : ScopeId) : IsPreorder (World Place) (World.Extends scope) where
  refl w := Store.Extends.refl w.store
  trans _ _ _ := Store.Extends.trans

namespace Evaluation

open Cyan.Action (Keeps state?_bind)

variable {scope : ScopeId}

theorem bindName_extends (scope : ScopeId) (name : String) (v : Value Place) :
    Keeps (World.Extends scope) (bindName scope name v) :=
  Keeps.update fun w => Store.Extends.set w.store name v

theorem enter_eq (f : Function Place) (arguments : List (Value Place)) (w : World Place) :
    enter f arguments w =
      .done w.store.size { w with
        store := (f.parameters.zip arguments).foldl
          (fun st (name, v) => st.set w.store.size name v) (w.store.addChild f.scope).2 } := rfl

/-- Entering a function makes one scope, which is the next one, and binds names in it alone. -/
theorem enter_apply (f : Function Place) (arguments : List (Value Place)) (w : World Place) :
    ∃ store, enter f arguments w = .done w.store.size { w with store } ∧
      w.store.Extends w.store.size store :=
  ⟨_, enter_eq f arguments w,
    (Store.Extends.addChild w.store f.scope).trans (Store.Extends.foldl_set _ _)⟩

/-- A function's body binds names in the scope of its call alone. -/
theorem enter_bind_extends {body : ScopeId → Evaluation Place α}
    (hbody : ∀ inner, Keeps (World.Extends inner) (body inner)) (f : Function Place)
    (arguments : List (Value Place)) :
    Keeps (fun w w' => w.store.Extends w.store.size w'.store) (enter f arguments >>= body) := by
  intro w w' h
  obtain ⟨store, henter, hstore⟩ := enter_apply f arguments w
  rcases state?_bind h with ⟨e, h⟩ | ⟨inner, m, h, hs⟩
  · rw [henter] at h
    cases h
  · rw [henter] at h
    cases h
    exact hstore.trans (hbody _ _ _ hs)

/-- What a call does once its callee and its arguments have values. -/
def callValue (config : Config) (n : Nat) (stack : CallStack Place) (place : Place)
    (values : List (Value Place)) : Value Place → Evaluation Place (Value Place)
  | .builtin b => callBuiltin stack place b values
  | .function f => do
    checkCall config stack place f values.length
    let inner ← enter f values
    evaluate config n f.body inner (stack.push f.name? place)
  | v => raise stack place (.notCallable v.kind)

theorem evaluate_call (config : Config) (n : Nat) (scope : ScopeId) (stack : CallStack Place)
    (place : Place) (callee : Expr Place) (arguments : List (Expr Place)) :
    evaluate config (n + 1) (.call place callee arguments) scope stack = (do
      let target ← evaluate config n callee scope stack
      let values ← Action.collect (fun e => evaluate config n e scope stack) arguments
      callValue config n stack place values target) := by
  rw [evaluate]
  rfl

/-- A call leaves all scopes as they were when its callee and its arguments had been evaluated, the
caller's own scope included. -/
theorem callValue_extends {config : Config} {n : Nat}
    (hbody : ∀ (e : Expr Place) inner stack,
      Keeps (World.Extends inner) (evaluate config n e inner stack))
    (stack : CallStack Place) (place : Place) (values : List (Value Place)) (target : Value Place) :
    Keeps (fun w w' => w.store.Extends w.store.size w'.store)
      (callValue config n stack place values target) := by
  intro w w' h
  cases target with
  | function f =>
    rcases state?_bind h with ⟨e, h⟩ | ⟨_, m, h, hs⟩
    · exact (checkCall_keeps (R := World.Extends w.store.size) config stack place f _).failed h
    · obtain rfl := (checkCall_keeps (R := Eq) config stack place f _).done h
      exact enter_bind_extends (fun inner => hbody f.body inner _) f values w w' hs
  | builtin b =>
    have hkeeps := callBuiltin_keeps (R := World.Extends w.store.size)
      (fun w _ => Store.Extends.refl w.store) (fun w => Store.Extends.refl w.store) stack place b values
    exact hkeeps w w' h
  | none | bool | number | string =>
    exact raise_keeps (R := World.Extends w.store.size) stack place _ w w' h

end Evaluation

open Evaluation in
/-- Evaluation makes new scopes, binds names in its own scope and changes no other. -/
theorem evaluate_extends (config : Config) (n : Nat) (e : Expr Place) (scope : ScopeId)
    (stack : CallStack Place) :
    Action.Keeps (World.Extends scope) (evaluate config n e scope stack) := by
  refine evaluate_keeps bindName_extends (fun _ w _ => Store.Extends.refl w.store)
    (fun _ w => Store.Extends.refl w.store) (fun scope f values body hbody => ?_) config n e scope stack
  intro w w' h
  exact (enter_bind_extends hbody f values w w' h).of_fresh

open Evaluation in
/-- However evaluation in a scope ends, the other scopes are bound and nested as before, and no name
is unbound in the scope itself.  Of a call, all that comes after its callee and its arguments have
been evaluated changes no scope that is there by then, not even the scope of the caller. -/
theorem evaluate_frame (config : Config) (n : Nat) (e : Expr Place) (scope : ScopeId)
    (stack : CallStack Place) (w w' : World Place)
    (h : (evaluate config n e scope stack w).state? = some w') :
    (∀ id < w.store.size, id ≠ scope → w'.store.bindings id = w.store.bindings id) ∧
    (∀ id < w.store.size, w'.store.outer id = w.store.outer id) ∧
    (∀ name, ((w.store.bindings scope).get? name).isSome →
      ((w'.store.bindings scope).get? name).isSome) ∧
    ∀ m place callee arguments target values w₁ w₂,
      n = m + 1 → e = .call place callee arguments →
      evaluate config m callee scope stack w = .done target w₁ →
      Action.collect (fun e => evaluate config m e scope stack) arguments w₁ = .done values w₂ →
      ∀ id < w₂.store.size,
        w'.store.bindings id = w₂.store.bindings id ∧ w'.store.outer id = w₂.store.outer id := by
  have hextends := evaluate_extends config n e scope stack w w' h
  refine ⟨hextends.bindings_eq, hextends.outer_eq, hextends.isSome_get?, ?_⟩
  intro m place callee arguments target values w₁ w₂ hn he hcallee harguments id hid
  subst hn he
  have hcall : (callValue config m stack place values target w₂).state? = some w' := by
    rw [← h, evaluate_call, Action.bind_apply, Action.andThen, hcallee]
    simp only [Action.bind_apply, Action.andThen, harguments]
  have hfresh := callValue_extends (evaluate_extends config m) stack place values target w₂ w' hcall
  exact ⟨hfresh.bindings_eq id hid (Nat.ne_of_lt hid), hfresh.outer_eq id hid⟩

/-- A function that is defined in the inner of two scopes and called there with its own name for an
argument binds that name in a third scope. -/
theorem evaluate_frame_shadowing :
    let x : Bindings (Value Unit) := [("x", .number (.int 1))]
    let w : World Unit := { store := ⟨#[{ bindings := x }, { outer := [0] }]⟩ }
    let f : Expr Unit := .function () (some "f") ["a"] (.assign () "x" (.reference () "a"))
    let e : Expr Unit := .call () f [.assign () "y" (.number () (.int 2))]
    ∃ w', (evaluate {} 5 e 1 {} w).state? = some w' ∧ w'.store.size = 3 ∧
      (w'.store.get? 2 "x").map Value.kind = some .number ∧ w'.store.bindings 0 = x ∧
      ((w'.store.bindings 1).get? "x").isNone := by
  intro x w f e
  obtain ⟨w', h⟩ : ∃ w', (evaluate {} 5 e 1 {} w).state? = some w' := ⟨_, rfl⟩
  have hframe := evaluate_frame {} 5 e 1 {} w w' h
  have hcall := hframe.2.2.2 4 () f _ _ _ _ _ rfl rfl rfl rfl 1 (by decide)
  refine ⟨w', h, ?_, ?_, hframe.1 0 (by decide) (by decide), ?_⟩
  · cases h
    rfl
  · cases h
    rfl
  · rw [hcall.1]
    rfl

end Cyan
