/-
Evaluation without loops.

Evaluating an expression goes one step deeper for each expression inside it, which the height of the
expression bounds, and on into the body of a function for each call.  How deep calls can be nested is
limited, so `evaluate_ends` has as a bound the height of the expression and for each call that is still
allowed the height of the highest body there is.

The functions that are called come out of the store, where anything may be bound.  The invariant is that
those in reach have bodies without loops that are no higher than a given height, `Expr.Shallow`; in what
is made by evaluation they are parts of the expression itself (`Store.Confines`).
-/
import Cyan.Proofs.Action.Ends
import Cyan.Proofs.Evaluation.Secures
import Cyan.Proofs.Grammar.Nodes
import Cyan.Proofs.Scope.Confined

namespace Cyan

variable {Place α : Type}

namespace Expr

mutual

/-- How many expressions stand inside one another in an expression, itself counted. -/
def height : Expr Place → Nat
  | block _ statements => maxHeight statements + 1
  | pass _ => 1
  | number _ _ => 1
  | literal _ _ => 1
  | string _ _ => 1
  | binary _ _ left right => max (height left) (height right) + 1
  | unary _ _ operand => height operand + 1
  | reference _ _ => 1
  | assign _ _ value => height value + 1
  | conditional _ condition thenBranch elseBranch =>
    max (height condition) (max (height thenBranch) (height elseBranch)) + 1
  | loop _ condition body => max (height condition) (height body) + 1
  | function _ _ _ body => height body + 1
  | call _ callee arguments => max (height callee) (maxHeight arguments) + 1

/-- The height of the highest of several expressions. -/
def maxHeight : List (Expr Place) → Nat
  | [] => 0
  | e :: rest => max (height e) (maxHeight rest)

end

theorem height_le_maxHeight {e : Expr Place} {list : List (Expr Place)} (h : e ∈ list) :
    e.height ≤ maxHeight list := by
  induction list with
  | nil => cases h
  | cons first rest ih =>
    rw [maxHeight]
    rcases List.mem_cons.mp h with rfl | hrest
    · omega
    · have hle := ih hrest
      omega

theorem height_lt {e part : Expr Place} (h : part ∈ e.children) : part.height < e.height := by
  cases e with
  | block _ statements =>
    have hle := height_le_maxHeight h
    rw [height]
    exact Nat.lt_succ_of_le hle
  | call _ callee arguments =>
    have hle : part.height ≤ maxHeight (callee :: arguments) := height_le_maxHeight h
    rw [maxHeight] at hle
    rw [height]
    exact Nat.lt_succ_of_le hle
  | binary | unary | assign | conditional | loop | function =>
    simp only [children, List.mem_cons, List.not_mem_nil, or_false] at h
    rw [height]
    grind
  | pass | number | literal | string | reference => cases h

theorem height_pos (e : Expr Place) : 0 < e.height := by
  cases e <;> rw [height] <;> omega

def isLoop : Expr Place → Bool
  | loop _ _ _ => true
  | _ => false

/-- There is no loop in the expression, not even in the body of a function. -/
def Loopless (e : Expr Place) : Prop := ∀ node ∈ e.nodes, node.isLoop = false

instance (e : Expr Place) : Decidable e.Loopless :=
  inferInstanceAs (Decidable (∀ node ∈ e.nodes, node.isLoop = false))

/-- No loop, and a height of at most `most`. -/
structure Shallow (most : Nat) (e : Expr Place) : Prop where
  loopless : e.Loopless
  height_le : e.height ≤ most

namespace Shallow

variable {most : Nat} {e part : Expr Place}

theorem isLoop_eq (h : e.Shallow most) : e.isLoop = false := h.loopless e e.mem_nodes_self

theorem child (h : e.Shallow most) (hpart : part ∈ e.children) : part.Shallow most where
  loopless node hnode := h.loopless node (mem_nodes_of_child hpart hnode)
  height_le := Nat.le_of_lt (Nat.lt_of_lt_of_le (height_lt hpart) h.height_le)

end Shallow
end Expr

namespace Evaluation

open Cyan.Action (Ends)

variable {P : World Place → Prop} {G : α → Prop}

/-! ## Single steps end -/

theorem settle_ends (stack : CallStack Place) (place : Place) {result : Except RuntimeFault α}
    (h : ∀ x, result = .ok x → G x) : Ends P (settle stack place result) G := by
  cases result with
  | ok x => exact Ends.pure (h x rfl)
  | error fault => exact Ends.fail _

theorem useConsole_ends (hP : ∀ w console, P w → P { w with console })
    (use : Console → Except String α × Console) (stack : CallStack Place) (place : Place) :
    Ends P (useConsole stack place use) fun _ => True := by
  intro w hw
  rw [useConsole]
  rcases use w.console with ⟨fault | result, console⟩
  · exact Or.inr ⟨_, _, rfl⟩
  · exact Or.inl ⟨result, _, rfl, trivial, hP w console hw⟩

/-- A built-in function ends, and gives no function. -/
theorem callBuiltin_ends {G : Value Place → Prop} (hP : ∀ w console, P w → P { w with console })
    (hG : ∀ v, (∀ f, v ≠ .function f) → G v) (stack : CallStack Place) (place : Place) (b : Builtin)
    (arguments : List (Value Place)) : Ends P (callBuiltin stack place b arguments) G := by
  unfold callBuiltin
  split
  · exact (useConsole_ends hP _ stack place).bind fun _ _ => Ends.pure (hG _ nofun)
  · refine (useConsole_ends hP _ stack place).bind fun line? _ => ?_
    split <;> exact Ends.pure (hG _ nofun)
  · exact Ends.pure (hG _ nofun)
  · exact (settle_ends (G := fun _ => True) stack place fun _ _ => trivial).bind fun _ _ =>
      Ends.pure (hG _ nofun)
  · exact Ends.pure (hG _ nofun)
  · exact Ends.fail _
  · exact Ends.fail _

/-- Where a call is not refused, fewer calls are active than are allowed. -/
theorem checkCall_ends (config : Config) (stack : CallStack Place) (place : Place) (f : Function Place)
    (given : Nat) :
    Ends P (checkCall config stack place f given) fun _ => stack.depth < config.maxCallDepth := by
  unfold checkCall
  split
  · exact Ends.fail _
  · split
    · exact Ends.fail _
    · next hdepth => exact Ends.pure (Nat.lt_of_not_le hdepth)

variable {first : ScopeId} {B : Expr Place → Prop} {scope : ScopeId}

/-- The scopes from `first` on are confined in the store of the world. -/
abbrev Confines (first : ScopeId) (B : Expr Place → Prop) (w : World Place) : Prop :=
  w.store.Confines first B

theorem lookUp_apply (stack : CallStack Place) (place : Place) (scope : ScopeId) (name : String)
    (w : World Place) :
    lookUp stack place scope name w =
      match w.store.get? scope name with
      | some v => .done v w
      | none => raise stack place (.undefined name) w := by
  show (match w.store.get? scope name with
    | some v => pure v
    | none => raise stack place (.undefined name) : Evaluation Place (Value Place)) w = _
  cases w.store.get? scope name <;> rfl

theorem lookUp_ends (stack : CallStack Place) (place : Place) (hscope : first ≤ scope) (name : String) :
    Ends (Confines first B) (lookUp stack place scope name) fun v => v.Confined first B := by
  intro w hw
  rw [lookUp_apply]
  cases hv : w.store.get? scope name with
  | some v => exact Or.inl ⟨v, w, rfl, hw.get? hscope hv, hw⟩
  | none => exact Or.inr ⟨_, w, rfl⟩

theorem bindName_ends (scope : ScopeId) (name : String) {v : Value Place} (hv : v.Confined first B) :
    Ends (Confines first B) (bindName scope name v) fun _ => True :=
  Ends.update fun _ hw => hw.set scope name hv

theorem bindFunction_ends (config : Config) (scope : ScopeId) {f : Function Place}
    (hf : (Value.function f).Confined first B) :
    Ends (Confines first B) (bindFunction config scope f) fun _ => True := by
  unfold bindFunction
  split
  · exact bindName_ends scope _ hf
  · split
    · exact bindName_ends scope _ hf
    · exact Ends.pure trivial

theorem enter_ends {f : Function Place} (hscope : first ≤ f.scope) {values : List (Value Place)}
    (hvalues : ∀ v ∈ values, v.Confined first B) :
    Ends (Confines first B) (enter f values) fun inner => first ≤ inner := by
  intro w hw
  refine Or.inl ⟨_, _, enter_eq f values w, hw.first_le, ?_⟩
  refine (hw.addChild hscope).foldl_set w.store.size fun entry hentry => ?_
  exact hvalues entry.2 (List.of_mem_zip hentry).2

end Evaluation

open Cyan.Action (Ends) in
open Evaluation in
/-- An expression without loops is evaluated to its end under every bound that is large enough for its
height and for as many bodies as calls are still allowed. -/
theorem evaluate_ends (config : Config) {first : ScopeId} {most : Nat} (n : Nat) {e : Expr Place}
    (he : e.Shallow most) {scope : ScopeId} (hscope : first ≤ scope) (stack : CallStack Place)
    (hn : e.height + (config.maxCallDepth - stack.depth) * most ≤ n) :
    Ends (Confines first (Expr.Shallow most)) (evaluate config n e scope stack)
      fun v => v.Confined first (Expr.Shallow most) := by
  induction n generalizing e scope stack with
  | zero =>
    have hpos := e.height_pos
    omega
  | succ n ih =>
    have hhere (part : Expr Place) (hpart : part ∈ e.children) :
        Ends (Confines first (Expr.Shallow most)) (evaluate config n part scope stack)
          fun v => v.Confined first (Expr.Shallow most) := by
      have hlt := Expr.height_lt hpart
      exact ih (he.child hpart) hscope stack (by omega)
    cases e with
    | block _ statements =>
      match statements with
      | [statement] => exact hhere statement List.mem_cons_self
      | [] | _ :: _ :: _ => exact (Ends.each hhere).bind fun _ _ => Ends.pure (.of_ne nofun)
    | pass | number | string => exact Ends.pure (.of_ne nofun)
    | literal _ value => cases value <;> exact Ends.pure (.of_ne nofun)
    | binary place op left right =>
      refine (hhere left (by simp [Expr.children])).bind fun a _ =>
        (hhere right (by simp [Expr.children])).bind fun b _ => settle_ends stack place fun v hv => ?_
      exact .of_ne (Value.operate_ne_function hv)
    | unary place op operand =>
      refine (hhere operand List.mem_cons_self).bind fun a ha => settle_ends stack place fun v hv => ?_
      rcases Value.operateUnary_cases hv with rfl | hne
      · exact ha
      · exact .of_ne hne
    | reference place name => exact lookUp_ends stack place hscope name
    | assign _ name value =>
      exact (hhere value List.mem_cons_self).bind fun v hv =>
        (bindName_ends scope name hv).bind fun _ _ => Ends.pure hv
    | conditional _ condition thenBranch elseBranch =>
      refine (hhere condition List.mem_cons_self).bind fun v _ => ?_
      split
      · exact hhere thenBranch (by simp [Expr.children])
      · exact hhere elseBranch (by simp [Expr.children])
    | loop => cases he.isLoop_eq
    | function _ name? parameters body =>
      have hf : (Value.function ⟨name?, parameters, body, scope⟩).Confined first (Expr.Shallow most) :=
        .function hscope (he.child List.mem_cons_self)
      exact (bindFunction_ends config scope hf).bind fun _ _ => Ends.pure hf
    | call place callee arguments =>
      refine (hhere callee List.mem_cons_self).bind fun target htarget =>
        (Ends.collect fun e he => hhere e (List.mem_cons_of_mem _ he)).bind fun values hvalues => ?_
      cases target with
      | builtin b => exact callBuiltin_ends (fun _ _ hw => hw) (fun _ => .of_ne) stack place b values
      | function f =>
        obtain ⟨hcaptured, hbody⟩ := htarget f rfl
        refine (checkCall_ends config stack place f values.length).bind fun _ hdepth =>
          (enter_ends hcaptured hvalues).bind fun inner hinner => ?_
        -- One call less is allowed now, which makes up for the height of the body.
        refine ih hbody hinner (stack.push f.name? place) ?_
        show f.body.height + (config.maxCallDepth - (stack.depth + 1)) * most ≤ n
        have hpos := Expr.height_pos (.call place callee arguments)
        have hle := hbody.height_le
        rw [show config.maxCallDepth - stack.depth = config.maxCallDepth - (stack.depth + 1) + 1 by omega,
          Nat.succ_mul] at hn
        omega
      | none | bool | number | string => exact Ends.fail _

end Cyan
