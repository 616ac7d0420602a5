/-
Where an evaluation fails.

`Visit.Raises` says that a visit cannot go on, all that it had to evaluate having been evaluated: its name
is bound nowhere, or an operation or a call does not admit its operands.  An evaluation that fails does so
for its own visit or in one that it leads to directly (`Visit.fails`), so there is a visit at the bottom
which raises the error, and the error has its place and its active calls (`Visit.exists_blames`).
-/
import Cyan.Proofs.Evaluation.Lexical

namespace Cyan

open Cyan.Action (Secures)

variable {Place : Type} {config : Config} {t t' : Visit Place}

namespace Visit

/-- The visit fails by itself, when all that it leads to has been evaluated. -/
inductive Raises (config : Config) (t : Visit Place) : RuntimeFault → Prop where
  | undefined {place name} : t.node = .reference place name →
      t.world.store.get? t.scope name = none → Raises config t (.undefined name)
  | binary {place op left right a b w fault} : t.node = .binary place op left right →
      t.Passes config [left, right] [a, b] w → a.operate op b = .error fault →
      Raises config t fault
  | unary {place op operand a w fault} : t.node = .unary place op operand →
      t.Passes config [operand] [a] w → a.operateUnary op = .error fault → Raises config t fault
  | builtin {place callee arguments b values w e w'} : t.node = .call place callee arguments →
      t.Passes config (callee :: arguments) (.builtin b :: values) w →
      Evaluation.callBuiltin t.stack place b values w = .failed e w' → Raises config t e.fault
  | refused {place callee arguments f values w e w'} : t.node = .call place callee arguments →
      t.Passes config (callee :: arguments) (.function f :: values) w →
      Evaluation.checkCall config t.stack place f values.length w = .failed e w' →
      Raises config t e.fault
  | notCallable {place callee arguments v values w} : t.node = .call place callee arguments →
      t.Passes config (callee :: arguments) (v :: values) w →
      v.kind ≠ .function → v.kind ≠ .builtin → Raises config t (.notCallable v.kind)

/-- The error is raised by the visit: it has the visit's place and active calls. -/
structure Blames (config : Config) (t : Visit Place) (e : RuntimeError Place) : Prop where
  raises : t.Raises config e.fault
  place_eq : e.place = t.node.place
  trace_eq : e.trace = t.stack.trace t.node.place

/-- The error is raised by the visit, or comes from a visit it leads to, under the bound `n`. -/
def Fails (config : Config) (n : Nat) (t : Visit Place) (e : RuntimeError Place) (w : World Place) :
    Prop :=
  t.Blames config e ∨ ∃ t', t.Leads config t' ∧ t'.outcome config n = .failed e w

theorem Raises.fails {fault : RuntimeFault} {place : Place} (h : t.Raises config fault)
    (hplace : t.node.place = place) (n : Nat) (w : World Place) :
    t.Fails config n ⟨fault, place, t.stack.trace place⟩ w :=
  Or.inl ⟨h, hplace.symm, hplace ▸ rfl⟩

/-! ## One step -/

theorem part_fails (n : Nat) (part : Expr Place) {P : World Place → Prop}
    (hP : ∀ w, P w → t.Leads config (t.beside part w)) :
    Secures P (evaluate config n part t.scope t.stack) (t.Fails config n) fun v w' =>
      ∃ w, P w ∧ (t.beside part w).Yields config v w' := by
  intro w hw
  cases h : evaluate config n part t.scope t.stack w with
  | done v w' => exact ⟨w, hw, n, h⟩
  | failed e w' => exact Or.inr ⟨t.beside part w, hP w hw, h⟩
  | unfinished => trivial

theorem operand_fails (n : Nat) (before : List (Expr Place)) (values : List (Value Place))
    (part : Expr Place) (after : List (Expr Place))
    (hoperands : t.node.operands = before ++ part :: after) :
    Secures (t.Passes config before values) (evaluate config n part t.scope t.stack)
      (t.Fails config n) fun v => t.Passes config (before ++ [part]) (values ++ [v]) := by
  have hpart := part_fails n part (P := t.Passes config before values)
    fun w hw => .operand hoperands hw
  exact hpart.post fun v w' ⟨w, hpasses, hyields⟩ => hpasses.snoc hyields

theorem block_fails (n : Nat) {place : Place} {statements : List (Expr Place)}
    (hnode : t.node = .block place statements) :
    Secures (t.Passes config [] [])
      (Action.each (fun e => evaluate config n e t.scope t.stack) statements) (t.Fails config n)
      fun _ _ => True := by
  have hstatement : ∀ before e after, statements = before ++ e :: after →
      Secures (fun w => ∃ values, t.Passes config before values w)
        (evaluate config n e t.scope t.stack) (t.Fails config n)
        fun _ w => ∃ values, t.Passes config (before ++ [e]) values w := by
    intro before e after hstatements w ⟨values, hw⟩
    have hoperands : t.node.operands = before ++ e :: after := by
      rw [hnode]
      exact hstatements
    have hoperand := operand_fails n before values e after hoperands w hw
    exact hoperand.weaken (fun _ _ h => h) fun v _ h => ⟨values ++ [v], h⟩
  exact (Secures.each statements hstatement).weaken (fun w hw => ⟨[], hw⟩) (fun _ _ h => h)
    fun _ _ _ => trivial

theorem loop_fails (n : Nat) {place : Place} {condition body : Expr Place}
    (hnode : t.node = .loop place condition body) :
    Secures (t.Passes config [] [])
      (Action.repeatWhile (do return (← evaluate config n condition t.scope t.stack).isTruthy)
        (evaluate config n body t.scope t.stack) n)
      (t.Fails config n) fun _ _ => True := by
  let within (w : World Place) := ∃ v m, t.Rounds config condition body m ∧
    (t.beside condition m).Yields config v w ∧ v.isTruthy = true
  have hcondition := part_fails n condition (P := t.Rounds config condition body)
    fun w hw => .condition hnode hw
  have hbody := part_fails n body (P := within)
    fun w ⟨v, m, hm, hv, htrue⟩ => .round hnode hm hv htrue
  have hmore : Secures (t.Rounds config condition body)
      (do return (← evaluate config n condition t.scope t.stack).isTruthy) (t.Fails config n)
      fun more w => if more then within w else True := by
    refine hcondition.bind fun v => Secures.pure fun w ⟨m, hm, hv⟩ => ?_
    split
    · next htrue => exact ⟨v, m, hm, hv, htrue⟩
    · trivial
  have hround : Secures within (evaluate config n body t.scope t.stack) (t.Fails config n)
      fun _ => t.Rounds config condition body :=
    hbody.post fun u w ⟨_, ⟨v, m, hm, hv, htrue⟩, hu⟩ => hm.round hv htrue hu
  refine (hmore.repeatWhile (D := fun _ => True) hround n).pre fun w hw => ?_
  rw [hw.world_eq]
  exact .start

/-- What a visit fails with that this one leads to, this one fails with. -/
theorem Leads.meets_fails (h : t.Leads config t') (n : Nat) :
    (t'.outcome config n).Meets (t.Fails config n) fun _ _ => True := by
  cases houtcome : t'.outcome config n with
  | done v w => trivial
  | failed e w => exact Or.inr ⟨t', h, houtcome⟩
  | unfinished => trivial

section

variable {place : Place} {callee : Expr Place} {arguments : List (Expr Place)}
  (hnode : t.node = .call place callee arguments)

include hnode

theorem place_of_call : t.node.place = place := by
  rw [hnode]
  rfl

/-- What a built-in function fails with is said to be at the call. -/
theorem callBuiltin_fails (n : Nat) (b : Builtin) (values : List (Value Place)) :
    Secures (t.Passes config (callee :: arguments) (.builtin b :: values))
      (Evaluation.callBuiltin t.stack place b values) (t.Fails config n) fun _ _ => True := by
  have hbuiltin := Evaluation.callBuiltin_secures (P := fun _ => True)
    (E := fun e _ => e = ⟨e.fault, place, t.stack.trace place⟩) (Q := fun _ _ => True)
    t.stack place b values (fun _ _ _ => trivial) (fun _ _ _ => rfl) (fun _ _ _ _ => trivial)
  intro w hw
  have hplace := hbuiltin w trivial
  cases h : Evaluation.callBuiltin t.stack place b values w with
  | done v w' => trivial
  | failed e w' =>
    rw [h] at hplace
    have hraises : t.Raises config e.fault := .builtin hnode hw h
    rw [show e = _ from hplace]
    exact hraises.fails (place_of_call hnode) n w'
  | unfinished => trivial

/-- A function that is called is refused at the call, or its body is what fails. -/
theorem callFunction_fails (n : Nat) (f : Function Place) (values : List (Value Place)) :
    Secures (t.Passes config (callee :: arguments) (.function f :: values))
      (Evaluation.callValue config n t.stack place values (.function f)) (t.Fails config n)
      fun _ _ => True := by
  have hcheck := Evaluation.checkCall_secures config t.stack place f values.length
    (P := t.Passes config (callee :: arguments) (.function f :: values))
  refine Secures.bind (hcheck.weaken (fun _ h => h) (fun e m h => ?_) fun _ _ h => h) fun _ m h => ?_
  · obtain ⟨hm, he, hfailed⟩ := h
    have hraises : t.Raises config e.fault := .refused hnode hm hfailed
    rw [he]
    exact hraises.fails (place_of_call hnode) n m
  · obtain ⟨hm, hchecked⟩ := h
    obtain ⟨inner, m', henter⟩ : ∃ inner m', Evaluation.enter f values m = .done inner m' :=
      ⟨_, _, Evaluation.enter_eq f values m⟩
    have henters : t.Enters config f inner m' :=
      ⟨place, callee, arguments, values, m, hnode, hm, hchecked, henter⟩
    rw [Action.bind_apply, Action.andThen, henter, ← place_of_call hnode]
    exact Leads.meets_fails (.body henters) n

theorem call_fails (n : Nat) :
    Secures (t.Passes config [] [])
      (do
        let target ← evaluate config n callee t.scope t.stack
        let values ← Action.collect (fun e => evaluate config n e t.scope t.stack) arguments
        Evaluation.callValue config n t.stack place values target)
      (t.Fails config n) fun _ _ => True := by
  have hcallee := @operand_fails Place config t n [] [] callee arguments (by rw [hnode]; rfl)
  refine hcallee.bind fun target => ?_
  have harguments := Secures.collect arguments (E := t.Fails config n)
    (f := fun e => evaluate config n e t.scope t.stack)
    (I := fun before values => t.Passes config (callee :: before) (target :: values))
    fun before e after values hlist =>
      operand_fails n (callee :: before) (target :: values) e after (by rw [hnode, hlist]; rfl)
  refine harguments.bind fun values => ?_
  cases target with
  | builtin b => exact callBuiltin_fails hnode n b values
  | function f => exact callFunction_fails hnode n f values
  | none | bool | number | string =>
    intro w hw
    have hraises := Raises.notCallable hnode hw (by simp [Value.kind]) (by simp [Value.kind])
    exact hraises.fails (place_of_call hnode) n w

end

open Evaluation in
/-- An evaluation that fails does so for its own visit, or in one that it leads to directly. -/
theorem secures_fails (n : Nat) (t : Visit Place) :
    Secures (t.Passes config [] []) (evaluate config (n + 1) t.node t.scope t.stack)
      (t.Fails config n) fun _ _ => True := by
  have hoperand := @operand_fails Place config t n
  have hdone {α : Type} (a : Evaluation Place α) {P : World Place → Prop}
      (ha : ∀ w, P w → ∃ v w', a w = .done v w') :
      Secures P a (t.Fails config n) fun _ _ => True := by
    intro w hw
    obtain ⟨v, w', h⟩ := ha w hw
    rw [h]
    trivial
  cases hnode : t.node with
  | block place statements =>
    match statements with
    | [statement] =>
      have hstatement := hoperand [] [] statement [] (by rw [hnode]; rfl)
      exact hstatement.post fun _ _ _ => trivial
    | [] | _ :: _ :: _ =>
      exact (block_fails n hnode).bind fun _ => Secures.pure fun _ _ => trivial
  | pass | number | literal | string => exact hdone _ fun w _ => ⟨_, w, rfl⟩
  | binary place op left right =>
    have hleft := hoperand [] [] left [right] (by rw [hnode]; rfl)
    refine hleft.bind fun a => ?_
    have hright := hoperand [left] [a] right [] (by rw [hnode]; rfl)
    refine hright.bind fun b => settle_secures (fun _ _ _ _ => trivial) fun fault hfault w hw => ?_
    exact (Raises.binary hnode hw hfault).fails (by rw [hnode]; rfl) n w
  | unary place op operand =>
    have hoperand := hoperand [] [] operand [] (by rw [hnode]; rfl)
    refine hoperand.bind fun a => settle_secures (fun _ _ _ _ => trivial) fun fault hfault w hw => ?_
    exact (Raises.unary hnode hw hfault).fails (by rw [hnode]; rfl) n w
  | reference place name =>
    refine lookUp_secures (fun _ _ _ _ => trivial) fun w hw hnone => ?_
    rw [hw.world_eq] at hnone
    exact (Raises.undefined hnode hnone).fails (by rw [hnode]; rfl) n w
  | assign place name value =>
    have hvalue := hoperand [] [] value [] (by rw [hnode]; rfl)
    exact hvalue.bind fun v => hdone _ fun w _ => ⟨v, _, rfl⟩
  | conditional place condition thenBranch elseBranch =>
    have hcondition := hoperand [] [] condition [] (by rw [hnode]; rfl)
    refine hcondition.bind fun v => ?_
    have hbranch (part : Expr Place) (heq : (if v.isTruthy then thenBranch else elseBranch) = part) :
        Secures (t.Passes config [condition] [v]) (evaluate config n part t.scope t.stack)
          (t.Fails config n) fun _ _ => True := by
      have hleads (w : World Place) (hw : t.Passes config [condition] [v] w) :
          t.Leads config (t.beside part w) := by
        rw [← heq]
        exact .branch hnode hw
      exact (part_fails n part hleads).post fun _ _ _ => trivial
    split
    · next htrue => exact hbranch thenBranch (if_pos htrue)
    · next hfalse => exact hbranch elseBranch (if_neg hfalse)
  | loop place condition body =>
    exact (loop_fails n hnode).bind fun _ => Secures.pure fun _ _ => trivial
  | function place name? parameters body =>
    refine Secures.bind (Q := fun _ _ => True) ?_ fun _ => Secures.pure fun _ _ => trivial
    exact bindFunction_secures (fun _ _ _ => trivial) fun _ _ => trivial
  | call place callee arguments =>
    rw [evaluate_call]
    exact call_fails hnode n

theorem fails {n : Nat} {e : RuntimeError Place} {w : World Place}
    (h : t.outcome config (n + 1) = .failed e w) : t.Fails config n e w := by
  have hmeets : (t.outcome config (n + 1)).Meets (t.Fails config n) fun _ _ => True :=
    secures_fails n t t.world .nil
  rw [h] at hmeets
  exact hmeets

/-! ## All steps -/

/-- Every error is raised by a visit that the evaluation comes to. -/
theorem exists_blames {n : Nat} {e : RuntimeError Place} {w : World Place}
    (h : t.outcome config n = .failed e w) : ∃ t', t.Reaches config t' ∧ t'.Blames config e := by
  induction n generalizing t with
  | zero => cases h
  | succ n ih =>
    rcases fails h with hblames | ⟨next, hleads, hnext⟩
    · exact ⟨t, .refl, hblames⟩
    · obtain ⟨t', hreaches, hblames⟩ := ih hnext
      exact ⟨t', .head hleads hreaches, hblames⟩

end Visit
end Cyan
