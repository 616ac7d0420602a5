/-
Scopes that are not reached do not matter.

From worlds with the same console, whose stores have the same scopes and agree on all that the current
scope reaches, an expression is evaluated to the same, and leaves worlds that agree again on all that is
reached, from the current scope and from the result (`evaluate_unreached`).  The same is true of a call,
for what the function's own scope and the arguments reach: whoever calls it, nothing else of the caller's
bindings can matter.

Scopes that are reached at one time are related to themselves, and so are scopes that are made later.
Evaluation then goes through `evaluate_related` with the stores in step (`Store.InStep`).
-/
import Cyan.Proofs.Evaluation.Alike
import Cyan.Proofs.Scope.Agree

namespace Cyan

open Store (Both InStep)

variable {Place : Type}

/-- The same outcome, in worlds that cannot be told apart from `roots` nor from the result. -/
inductive Outcome.SameFrom (roots : List ScopeId) :
    Outcome (World Place) (RuntimeError Place) (Value Place) →
      Outcome (World Place) (RuntimeError Place) (Value Place) → Prop
  | done {v : Value Place} {w w' : World Place} : w.console = w'.console →
    w.store.AgreeOn (w.store.ReachedFrom (v.captured ++ roots)) w'.store →
    SameFrom roots (.done v w) (.done v w')
  | failed {e : RuntimeError Place} {w w' : World Place} : w.console = w'.console →
    w.store.AgreeOn (w.store.ReachedFrom roots) w'.store →
    SameFrom roots (.failed e w) (.failed e w')
  | unfinished : SameFrom roots .unfinished .unfinished

/-- Worlds with the same console and with stores in step. -/
abbrev World.InStep (P : ScopeId → Prop) : World Place → World Place → Prop :=
  World.Related (Store.InStep P) [] []

variable {P : ScopeId → Prop} {roots : List ScopeId} {w w' : World Place}

namespace World.InStep

theorem of_agree (hconsole : w.console = w'.console)
    (hagree : w.store.AgreeOn (w.store.ReachedFrom roots) w'.store) :
    InStep (fun id => w.store.ReachedFrom roots id ∨ w.store.size ≤ id) w w' where
  store := .of_reachedFrom hagree
  console := by
    rw [← hconsole]
    exact .refl w.console

/-- Worlds in step agree on all that is reached from scopes of `P`. -/
theorem agreeOn (h : InStep P w w') (hroots : ∀ root ∈ roots, P root) :
    w.store.AgreeOn (w.store.ReachedFrom roots) w'.store :=
  h.store.agree.mono (h.store.closed.reachedFrom hroots)

end World.InStep

/-- Outcomes in step are the same for those who start from scopes of `P`. -/
theorem Outcome.SameFrom.of_relates {o o' : Outcome (World Place) (RuntimeError Place) (Value Place)}
    (h : o.Relates (World.InStep P) (fun e e' => e.map id = e') (Value.Alike id (Both P)) o')
    (hroots : ∀ root ∈ roots, P root) : SameFrom roots o o' := by
  cases h with
  | done hv hw =>
    obtain ⟨rfl, hcaptured⟩ := Both.eq_value hv
    refine .done hw.console.eq (hw.agreeOn fun root hroot => ?_)
    rcases List.mem_append.mp hroot with hroot | hroot
    · exact hcaptured root hroot
    · exact hroots root hroot
  | failed he hw =>
    rw [RuntimeError.map_id] at he
    subst he
    exact .failed hw.console.eq (hw.agreeOn hroots)
  | unfinished => exact .unfinished

theorem evaluate_inStep (config : Config) (n : Nat) (e : Expr Place) {scope scope' : ScopeId}
    (stack : CallStack Place) (hscope : Both P scope scope') :
    Evaluation.Alike id (Store.InStep P) [] [] (Value.Alike id (Both P))
      (evaluate config n e scope stack) (evaluate config n e scope' stack) := by
  have h : Evaluation.Alike id (Store.InStep P) [] [] (Value.Alike id (Both P))
      (evaluate config n e scope stack) (evaluate config n (e.map id) scope' (stack.map id)) :=
    evaluate_related id InStep.simulates config n e stack hscope
  rwa [Expr.map_id, CallStack.map_id] at h

theorem callValue_inStep (config : Config) (n : Nat) (stack : CallStack Place) (place : Place)
    {values : List (Value Place)} (hvalues : ∀ v ∈ values, ∀ id ∈ v.captured, P id)
    {target : Value Place} (htarget : ∀ id ∈ target.captured, P id) :
    Evaluation.Alike id (Store.InStep P) [] [] (Value.Alike id (Both P))
      (Evaluation.callValue config n stack place values target)
      (Evaluation.callValue config n stack place values target) := by
  have hbody (e : Expr Place) {scope scope' : ScopeId} (stack : CallStack Place)
      (hscope : Both P scope scope') :
      Evaluation.Alike id (Store.InStep P) [] [] (Value.Alike id (Both P))
        (evaluate config n e scope stack) (evaluate config n (e.map id) scope' (stack.map id)) := by
    rw [Expr.map_id, CallStack.map_id]
    exact evaluate_inStep config n e stack hscope
  have hsame : List.Forall₂ (Value.Alike id (Both P)) values values :=
    List.forall₂_same.mpr fun v hv => Both.value (hvalues v hv)
  have h := Evaluation.callValue_alike stack place InStep.simulates hbody hsame (Both.value htarget)
  rwa [CallStack.map_id] at h

/-- What an expression does depends on nothing but what the current scope reaches, and what a call of a
function does on nothing but what the function's scope and the arguments reach.  The worlds in which
this ends agree again, on what is reached by then from the same scopes and from the result. -/
theorem evaluate_unreached (config : Config) (n : Nat) {w w' : World Place}
    (hconsole : w.console = w'.console) :
    (∀ e scope stack, w.store.AgreeOn (w.store.ReachedFrom [scope]) w'.store →
      Outcome.SameFrom [scope] (evaluate config n e scope stack w)
        (evaluate config n e scope stack w')) ∧
    ∀ f values stack place,
      w.store.AgreeOn (w.store.ReachedFrom (f.scope :: values.flatMap Value.captured)) w'.store →
      Outcome.SameFrom (f.scope :: values.flatMap Value.captured)
        (Evaluation.callValue config n stack place values (.function f) w)
        (Evaluation.callValue config n stack place values (.function f) w') := by
  have hroot (roots : List ScopeId) (root : ScopeId) (hroot : root ∈ roots) :
      w.store.ReachedFrom roots root ∨ w.store.size ≤ root := Or.inl ⟨root, hroot, .refl⟩
  constructor
  · intro e scope stack hagree
    have hstart := World.InStep.of_agree hconsole hagree
    have hscope := hroot [scope] scope (List.mem_singleton_self _)
    exact .of_relates (evaluate_inStep config n e stack ⟨rfl, hscope⟩ w w' hstart) (hroot [scope])
  · intro f values stack place hagree
    have hstart := World.InStep.of_agree hconsole hagree
    have hroots := hroot (f.scope :: values.flatMap Value.captured)
    refine .of_relates (callValue_inStep config n stack place ?_ ?_ w w' hstart) hroots
    · intro v hv id hid
      exact hroots id (List.mem_cons_of_mem _ (List.mem_flatMap.mpr ⟨v, hv, hid⟩))
    · intro id hid
      rw [List.mem_singleton.mp hid]
      exact hroots f.scope List.mem_cons_self

/-- A function of the global scope mentions a name that only a scope nested there binds.  What it is
bound to there does not matter for the function, not even if it is called from there. -/
theorem evaluate_unreached_caller :
    let f : Function Unit := ⟨some "f", ["a"], .reference () "x", 0⟩
    let w (x : Value Unit) : World Unit :=
      { store := ⟨#[{ bindings := [("f", .function f)] }, { outer := [0], bindings := [("x", x)] }]⟩ }
    (w .none).store.AgreeOn ((w .none).store.ReachedFrom [0]) (w (.bool true)).store ∧
      Outcome.SameFrom [0]
        (evaluate {} 5 (.call () (.reference () "f") [.pass ()]) 0 {} (w .none))
        (evaluate {} 5 (.call () (.reference () "f") [.pass ()]) 0 {} (w (.bool true))) ∧
      Outcome.SameFrom [0]
        (Evaluation.callValue {} 5 {} () [.none] (.function f) (w .none))
        (Evaluation.callValue {} 5 {} () [.none] (.function f) (w (.bool true))) := by
  intro f w
  have hclosed : (w .none).store.Closed (· = 0) := by
    intro id other hid hleads
    subst hid
    cases hleads with
    | outer hother => cases hother
    | @captured name g hbound =>
      by_cases hname : "f" = name
      · rw [show ((w .none).store.bindings 0).get? name = some (.function f) from if_pos hname] at hbound
        cases hbound
        rfl
      · rw [show ((w .none).store.bindings 0).get? name = none from if_neg hname] at hbound
        cases hbound
  have hagree : (w .none).store.AgreeOn ((w .none).store.ReachedFrom [0]) (w (.bool true)).store := by
    have hzero : (w .none).store.AgreeOn (· = 0) (w (.bool true)).store := by
      refine ⟨rfl, ?_, ?_⟩
      · intro id hid
        subst hid
        rfl
      · intro id hid name
        subst hid
        rfl
    exact hzero.mono (hclosed.reachedFrom fun root hroot => List.mem_singleton.mp hroot)
  have hconsole : (w .none).console = (w (.bool true)).console := rfl
  obtain ⟨hevaluate, hcall⟩ := evaluate_unreached {} 5 hconsole
  exact ⟨hagree, hevaluate _ 0 {} hagree, hcall f [.none] {} () hagree⟩

end Cyan
