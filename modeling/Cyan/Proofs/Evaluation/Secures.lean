/-
What the single steps of an evaluation secure.

There is one law for each step that is no evaluation of an expression itself, in the manner of
`Action.Secures`.  Operations and built-in functions never give a function, but for the prefix
operation that leaves its operand as it is.
-/
import Cyan.Evaluation.Evaluate
import Cyan.Proofs.Action.Secures

namespace Cyan

variable {Place α : Type}

/-! ## Values that are no functions -/

namespace Value

theorem operate_ne_function {op : BinaryOp} {a b v : Value Place} (h : a.operate op b = .ok v)
    (f : Function Place) : v ≠ .function f := by
  intro hv
  subst hv
  unfold operate operate? at h
  cases op <;> cases a <;> cases b <;>
    simp [sum?, onNumbers?, equal?, logic?] at h
  split at h <;> cases h

/-- A prefix operation gives a function only by leaving it alone. -/
theorem operateUnary_cases {op : UnaryOp} {a v : Value Place} (h : a.operateUnary op = .ok v) :
    v = a ∨ ∀ f, v ≠ .function f := by
  cases op with
  | plus =>
    cases h
    exact Or.inl rfl
  | minus => exact Or.inr fun f => operate_ne_function h f
  | not => cases a <;> cases h <;> exact Or.inr fun f hf => nomatch hf

end Value

namespace Evaluation

open Cyan.Action (Secures)

variable {P : World Place → Prop} {E : RuntimeError Place → World Place → Prop}
  {Q : α → World Place → Prop}

theorem raise_secures {stack : CallStack Place} {place : Place} {fault : RuntimeFault}
    (h : ∀ w, P w → E ⟨fault, place, stack.trace place⟩ w) :
    Secures P (raise stack place fault : Evaluation Place α) E Q :=
  Secures.fail h

theorem settle_secures {stack : CallStack Place} {place : Place} {result : Except RuntimeFault α}
    (hok : ∀ v, result = .ok v → ∀ w, P w → Q v w)
    (herror : ∀ fault, result = .error fault → ∀ w, P w → E ⟨fault, place, stack.trace place⟩ w) :
    Secures P (settle stack place result) E Q := by
  cases result with
  | ok v => exact Secures.pure (hok v rfl)
  | error fault => exact raise_secures (herror fault rfl)

theorem lookUp_secures {stack : CallStack Place} {place : Place} {scope : ScopeId} {name : String}
    {Q : Value Place → World Place → Prop}
    (hsome : ∀ w v, P w → w.store.get? scope name = some v → Q v w)
    (hnone : ∀ w, P w → w.store.get? scope name = none →
      E ⟨.undefined name, place, stack.trace place⟩ w) :
    Secures P (lookUp stack place scope name) E Q := by
  refine Secures.state.bind fun m => ?_
  split
  · next v hv =>
    refine Secures.pure fun w ⟨hw, hm⟩ => ?_
    subst hm
    exact hsome m v hw hv
  · next hv =>
    refine raise_secures fun w ⟨hw, hm⟩ => ?_
    subst hm
    exact hnone m hw hv

theorem bindName_secures {scope : ScopeId} {name : String} {v : Value Place}
    {Q : Unit → World Place → Prop}
    (h : ∀ w, P w → Q () { w with store := w.store.set scope name v }) :
    Secures P (bindName scope name v) E Q := h

theorem bindFunction_secures {config : Config} {scope : ScopeId} {f : Function Place}
    {Q : Unit → World Place → Prop}
    (h : ∀ name w, P w → Q () { w with store := w.store.set scope name (.function f) })
    (hnot : ∀ w, P w → Q () w) : Secures P (bindFunction config scope f) E Q := by
  unfold bindFunction
  split
  · exact bindName_secures (h _)
  · split
    · exact bindName_secures (h _)
    · exact Secures.pure hnot

/-- A built-in function gives no function and leaves the store alone. -/
theorem callBuiltin_secures (stack : CallStack Place) (place : Place) (b : Builtin)
    (arguments : List (Value Place)) {Q : Value Place → World Place → Prop}
    (hP : ∀ w console, P w → P { w with console })
    (hE : ∀ fault w, P w → E ⟨fault, place, stack.trace place⟩ w)
    (hQ : ∀ v w, (∀ f, v ≠ .function f) → P w → Q v w) :
    Secures P (callBuiltin stack place b arguments) E Q := by
  have huse : ∀ {β : Type} (use : Console → Except String β × Console),
      Secures P (useConsole stack place use) E fun _ => P := by
    intro β use w hw
    rw [useConsole]
    rcases use w.console with ⟨result | fault, console⟩
    · exact hE _ _ (hP w console hw)
    · exact hP w console hw
  unfold callBuiltin
  split
  · exact (huse _).bind fun _ => Secures.pure fun w => hQ _ w nofun
  · refine (huse _).bind fun line? => ?_
    split <;> exact Secures.pure fun w => hQ _ w nofun
  · exact Secures.pure fun w => hQ _ w nofun
  · refine (settle_secures (Q := fun _ => P) (fun _ _ w hw => hw) fun fault _ => hE fault).bind
      fun n => ?_
    exact Secures.pure fun w => hQ _ w nofun
  · exact Secures.pure fun w => hQ _ w nofun
  · exact raise_secures (hE _)
  · exact raise_secures (hE _)

theorem checkCall_secures (config : Config) (stack : CallStack Place) (place : Place)
    (f : Function Place) (given : Nat) :
    Secures P (checkCall config stack place f given)
      (fun e w => P w ∧ e = ⟨e.fault, place, stack.trace place⟩ ∧
        checkCall config stack place f given w = .failed e w)
      fun _ w => P w ∧ checkCall config stack place f given w = .done () w := by
  intro w hw
  unfold checkCall
  split
  · exact ⟨hw, rfl, rfl⟩
  · split
    · exact ⟨hw, rfl, rfl⟩
    · exact ⟨hw, rfl⟩

end Evaluation
end Cyan
