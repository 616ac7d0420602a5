/-
Evaluation in worlds that are alike.

What an expression does depends neither on the places in program text nor on which identities scopes
have.  Evaluating it with mapped places, in scopes that belong together and in worlds that are alike,
ends in worlds that are alike, with values that are alike or with the same error at the mapped place.
Worlds are alike if their stores are, and if their consoles offer the same and have seen the same since
some moment in the past.

Of the stores only that is needed which `Store.Simulates` asks for (`evaluate_related`), so there are
several ways for stores to be alike; `evaluate_alike` is for `Store.Alike`.
-/
import Cyan.Proofs.Action.Relates
import Cyan.Proofs.Scope.Alike

namespace Cyan

open Cyan.Action (Relates)

variable {Place Place' α β : Type} {f : Place → Place'} {ρ : ScopeId → ScopeId → Prop}
  {S : Store Place → Store Place' → Prop}

/-! ## Worlds -/

/-- Consoles with the same input and room, on which the same has happened after the events `before` of
the one and `before'` of the other. -/
structure Console.Alike (before before' : List Console.Event) (c c' : Console) : Prop where
  input_eq : c.input = c'.input
  room?_eq : c.room? = c'.room?
  transcript_eq : ∃ events, c.transcript = events ++ before ∧ c'.transcript = events ++ before'

/-- Worlds with stores that are related, and with consoles that are alike. -/
structure World.Related (S : Store Place → Store Place' → Prop) (before before' : List Console.Event)
    (w : World Place) (w' : World Place') : Prop where
  store : S w.store w'.store
  console : w.console.Alike before before' w'.console

abbrev World.Alike (f : Place → Place') (ρ : ScopeId → ScopeId → Prop)
    (before before' : List Console.Event) : World Place → World Place' → Prop :=
  Related (Store.Alike f ρ) before before'

namespace Console

variable {before before' : List Event} {c c' : Console}

theorem Alike.write (h : Alike before before' c c') (text : String) :
    (c.write text).1 = (c'.write text).1 ∧ Alike before before' (c.write text).2 (c'.write text).2 := by
  obtain ⟨input, room?, transcript⟩ := c
  obtain ⟨input', room?', transcript'⟩ := c'
  obtain ⟨rfl, rfl, events, rfl, rfl⟩ := h
  match room? with
  | none => exact ⟨rfl, rfl, rfl, _ :: events, rfl, rfl⟩
  | some ⟨0, _⟩ => exact ⟨rfl, rfl, rfl, _ :: events, rfl, rfl⟩
  | some ⟨n + 1, _⟩ => exact ⟨rfl, rfl, rfl, _ :: events, rfl, rfl⟩

theorem Alike.readLine (h : Alike before before' c c') :
    c.readLine.1 = c'.readLine.1 ∧ Alike before before' c.readLine.2 c'.readLine.2 := by
  obtain ⟨input, room?, transcript⟩ := c
  obtain ⟨input', room?', transcript'⟩ := c'
  obtain ⟨rfl, rfl, events, rfl, rfl⟩ := h
  match input with
  | [] => exact ⟨rfl, rfl, rfl, _ :: events, rfl, rfl⟩
  | .line text :: rest => exact ⟨rfl, rfl, rfl, _ :: events, rfl, rfl⟩
  | .failure _ :: rest => exact ⟨rfl, rfl, rfl, _ :: events, rfl, rfl⟩

theorem Alike.refl (c : Console) : Alike [] [] c c :=
  ⟨rfl, rfl, c.transcript, (List.append_nil _).symm, (List.append_nil _).symm⟩

/-- Consoles on which the same had happened at the moment in the past are the same. -/
theorem Alike.eq (h : Alike before before c c') : c = c' := by
  obtain ⟨input, room?, transcript⟩ := c
  obtain ⟨input', room?', transcript'⟩ := c'
  obtain ⟨rfl, rfl, events, rfl, rfl⟩ := h
  rfl

end Console

/-! ## Values -/

namespace Value

variable {a b : Value Place} {a' b' : Value Place'}

theorem Alike.kind_eq (h : Alike f ρ a a') : a.kind = a'.kind := by
  cases h <;> rfl

theorem Alike.isTruthy_eq (h : Alike f ρ a a') : a.isTruthy = a'.isTruthy := by
  cases h <;> rfl

theorem Alike.shown_eq (h : Alike f ρ a a') : a.shown = a'.shown := by
  cases h <;> rfl

theorem Alike.toNumber_eq (h : Alike f ρ a a') : a.toNumber = a'.toNumber := by
  cases h <;> rfl

theorem Alike.map_shown {values : List (Value Place)} {values' : List (Value Place')}
    (h : List.Forall₂ (Alike f ρ) values values') : values.map shown = values'.map shown := by
  induction h with
  | nil => rfl
  | cons hv _ ih => rw [List.map_cons, List.map_cons, hv.shown_eq, ih]

/-- Results of an operation: the same fault, or values that are alike. -/
inductive AlikeResult (f : Place → Place') (ρ : ScopeId → ScopeId → Prop) :
    Except RuntimeFault (Value Place) → Except RuntimeFault (Value Place') → Prop
  | ok {v : Value Place} {v' : Value Place'} : Alike f ρ v v' → AlikeResult f ρ (.ok v) (.ok v')
  | error {fault : RuntimeFault} : AlikeResult f ρ (.error fault) (.error fault)

theorem Alike.onNumbers? {g : Number → Number → Value Place} {g' : Number → Number → Value Place'}
    (hg : ∀ x y, Alike f ρ (g x y) (g' x y))
    (ha : Alike f ρ a a') (hb : Alike f ρ b b') :
    Option.Rel (Alike f ρ) (onNumbers? g a b) (onNumbers? g' a' b') := by
  cases ha with
  | number =>
    cases hb with
    | number => exact .some (hg _ _)
    | _ => exact .none
  | _ => exact .none

theorem Alike.sum? (ha : Alike f ρ a a') (hb : Alike f ρ b b') :
    Option.Rel (Alike f ρ) (sum? a b) (sum? a' b') := by
  cases ha with
  | number =>
    cases hb with
    | number => exact .some .number
    | _ => exact .none
  | string =>
    cases hb with
    | string => exact .some .string
    | _ => exact .none
  | _ => exact .none

theorem Alike.equal?_eq (ha : Alike f ρ a a') (hb : Alike f ρ b b') : equal? a b = equal? a' b' := by
  cases ha <;> cases hb <;> rfl

theorem Alike.logic? (g : Bool → Bool → Bool) (ha : Alike f ρ a a') (hb : Alike f ρ b b') :
    Option.Rel (Alike f ρ) (logic? g a b) (logic? g a' b') := by
  cases ha with
  | bool =>
    rw [Value.logic?, Value.logic?, hb.isTruthy_eq]
    exact .some .bool
  | number =>
    cases hb with
    | number => exact .some .bool
    | _ => exact .none
  | _ => exact .none

theorem Alike.operate? (op : BinaryOp) (ha : Alike f ρ a a') (hb : Alike f ρ b b') :
    Option.Rel (AlikeResult f ρ) (a.operate? op b) (a'.operate? op b') := by
  have hok {o : Option (Value Place)} {o' : Option (Value Place')} (h : Option.Rel (Alike f ρ) o o') :
      Option.Rel (AlikeResult f ρ) (o.map .ok) (o'.map .ok) := by
    cases h with
    | some hv => exact .some (.ok hv)
    | none => exact .none
  have hbool (negate : Bool → Bool) :
      Option.Rel (AlikeResult f ρ) ((equal? a b).map fun same => .ok (.bool (negate same) : Value Place))
        ((equal? a' b').map fun same => .ok (.bool (negate same))) := by
    rw [ha.equal?_eq hb]
    cases equal? a' b' with
    | some same => exact .some (.ok .bool)
    | none => exact .none
  cases op with
  | add => exact hok (ha.sum? hb)
  | subtract | multiply | power => exact hok (ha.onNumbers? (fun _ _ => .number) hb)
  | less | greater | lessEqual | greaterEqual => exact hok (ha.onNumbers? (fun _ _ => .bool) hb)
  | equal => exact hbool id
  | notEqual => exact hbool not
  | and | or => exact hok (ha.logic? _ hb)
  | divide =>
    cases ha with
    | @number x =>
      cases hb with
      | @number y =>
        rw [Value.operate?, Value.operate?]
        cases x.divide? y with
        | some q => exact .some (.ok .number)
        | none => exact .some .error
      | _ => exact .none
    | _ => exact .none

theorem Alike.operate (op : BinaryOp) (ha : Alike f ρ a a') (hb : Alike f ρ b b') :
    AlikeResult f ρ (a.operate op b) (a'.operate op b') := by
  rw [Value.operate, Value.operate, ha.kind_eq, hb.kind_eq]
  have h := ha.operate? op hb
  generalize a.operate? op b = o at h ⊢
  generalize a'.operate? op b' = o' at h ⊢
  cases h with
  | some h => exact h
  | none => exact .error

theorem Alike.operateUnary (op : UnaryOp) (ha : Alike f ρ a a') :
    AlikeResult f ρ (a.operateUnary op) (a'.operateUnary op) := by
  cases op with
  | plus => exact .ok ha
  | minus => exact ha.operate .multiply .number
  | not =>
    cases ha with
    | bool | number => exact .ok .bool
    | _ => exact .error

end Value

/-! ## Steps of an evaluation -/

def Frame.map (f : Place → Place') (frame : Frame Place) : Frame Place' := ⟨frame.name?, f frame.site⟩

def CallStack.map (f : Place → Place') (stack : CallStack Place) : CallStack Place' :=
  ⟨stack.frames.map (Frame.map f), stack.depth, by rw [List.length_map, stack.depth_eq]⟩

def RuntimeError.map (f : Place → Place') (e : RuntimeError Place) : RuntimeError Place' :=
  ⟨e.fault, f e.place, e.trace.map fun entry => (entry.1, f entry.2)⟩

theorem CallStack.trace_map (f : Place → Place') (stack : CallStack Place) (place : Place) :
    (stack.map f).trace (f place) = (stack.trace place).map fun entry => (entry.1, f entry.2) := by
  have hfrom (frames : List (Frame Place)) (place : Place) :
      traceFrom (f place) (frames.map (Frame.map f)) =
        (traceFrom place frames).map fun entry => (entry.1, f entry.2) := by
    induction frames generalizing place with
    | nil => rfl
    | cons frame rest ih =>
      rw [List.map_cons, traceFrom, traceFrom, List.map_cons, ← ih]
      rfl
  exact hfrom stack.frames place

theorem RuntimeError.map_id (e : RuntimeError Place) : e.map id = e := by
  simp [map]

theorem CallStack.map_id (stack : CallStack Place) : stack.map id = stack := by
  obtain ⟨frames, depth, hdepth⟩ := stack
  have hframes : frames.map (Frame.map id) = frames := List.map_id frames
  simp only [map, hframes]

namespace Evaluation

/-- Two evaluations do the same in worlds that are related. -/
abbrev Alike (f : Place → Place') (S : Store Place → Store Place' → Prop)
    (before before' : List Console.Event) (R : α → β → Prop) :
    Evaluation Place α → Evaluation Place' β → Prop :=
  Relates (World.Related S before before') (fun e e' => e.map f = e') R

variable {before before' : List Console.Event} {R : α → β → Prop} (stack : CallStack Place)
  (place : Place) {scope scope' : ScopeId}

theorem raise_alike (fault : RuntimeFault) :
    Alike f S before before' R (raise stack place fault) (raise (stack.map f) (f place) fault) := by
  refine .fail ?_
  rw [RuntimeError.map, CallStack.trace_map]

theorem settle_alike {x : Except RuntimeFault (Value Place)} {y : Except RuntimeFault (Value Place')}
    (h : Value.AlikeResult f ρ x y) :
    Alike f S before before' (Value.Alike f ρ) (settle stack place x)
      (settle (stack.map f) (f place) y) := by
  cases h with
  | ok hv => exact .pure hv
  | error => exact raise_alike stack place _

theorem lookUp_alike (hS : Store.Simulates f ρ S) (hscope : ρ scope scope') (name : String) :
    Alike f S before before' (Value.Alike f ρ) (lookUp stack place scope name)
      (lookUp (stack.map f) (f place) scope' name) := by
  refine Relates.state.bind fun w w' hw => ?_
  have hfound := hS.get? hw.store hscope name
  generalize w.store.get? scope name = o at hfound ⊢
  generalize w'.store.get? scope' name = o' at hfound ⊢
  cases hfound with
  | some hv => exact .pure hv
  | none => exact raise_alike stack place _

theorem useConsole_alike {use : Console → Except String α × Console}
    (huse : ∀ {c c'}, Console.Alike before before' c c' →
      (use c).1 = (use c').1 ∧ Console.Alike before before' (use c).2 (use c').2) :
    Alike f S before before' Eq (useConsole stack place use)
      (useConsole (stack.map f) (f place) use) := by
  intro w w' hw
  obtain ⟨hresult, hconsole⟩ := huse hw.console
  rw [useConsole, useConsole]
  generalize use w.console = r at hresult hconsole
  generalize use w'.console = r' at hresult hconsole
  obtain ⟨result, c⟩ := r
  obtain ⟨result', c'⟩ := r'
  obtain rfl : result = result' := hresult
  cases result with
  | ok x => exact .done rfl ⟨hw.store, hconsole⟩
  | error fault => exact raise_alike stack place _ _ _ ⟨hw.store, hconsole⟩

theorem callBuiltin_alike (b : Builtin) {arguments : List (Value Place)}
    {arguments' : List (Value Place')} (h : List.Forall₂ (Value.Alike f ρ) arguments arguments') :
    Alike f S before before' (Value.Alike f ρ) (callBuiltin stack place b arguments)
      (callBuiltin (stack.map f) (f place) b arguments') := by
  have hcount (takes : Nat) :
      Alike f S before before' (Value.Alike f ρ)
        (raise stack place (.argumentCount b.name arguments.length takes))
        (raise (stack.map f) (f place) (.argumentCount b.name arguments'.length takes)) := by
    rw [h.length_eq]
    exact raise_alike stack place _
  cases b with
  | out =>
    rw [callBuiltin, callBuiltin, Value.Alike.map_shown h]
    exact (useConsole_alike stack place fun hc => hc.write _).bind fun _ _ _ => .pure .none
  | inp =>
    cases h with
    | nil =>
      refine (useConsole_alike stack place Console.Alike.readLine).bind fun line? line?' hline => ?_
      subst hline
      cases line? with
      | some line => exact .pure .string
      | none => exact .pure .none
    | cons => exact hcount 0
  | toBool =>
    match h with
    | .cons hv .nil =>
      rw [callBuiltin, callBuiltin, hv.isTruthy_eq]
      exact .pure .bool
    | .nil | .cons _ (.cons _ _) => exact hcount 1
  | toNumber =>
    match h with
    | .cons (b := v) hv .nil =>
      rw [callBuiltin, callBuiltin, hv.toNumber_eq]
      cases v.toNumber with
      | ok n => exact .pure .number
      | error fault => exact raise_alike stack place fault
    | .nil | .cons _ (.cons _ _) => exact hcount 1
  | toString =>
    match h with
    | .cons hv .nil =>
      rw [callBuiltin, callBuiltin, hv.shown_eq]
      exact .pure .string
    | .nil | .cons _ (.cons _ _) => exact hcount 1

variable (hS : Store.Simulates f ρ S)
include hS

theorem bindName_alike (hscope : ρ scope scope') (name : String) {v : Value Place} {v' : Value Place'}
    (hv : Value.Alike f ρ v v') :
    Alike f S before before' Eq (bindName scope name v) (bindName scope' name v') :=
  .update fun _ _ hw => ⟨hS.set hw.store hscope name hv, hw.console⟩

theorem bindFunction_alike (config : Config) (hscope : ρ scope scope') (name? : Option String)
    (parameters : List String) (body : Expr Place) :
    Alike f S before before' Eq (bindFunction config scope ⟨name?, parameters, body, scope⟩)
      (bindFunction config scope' ⟨name?, parameters, body.map f, scope'⟩) := by
  cases name? with
  | some name => exact bindName_alike hS hscope name (.function hscope)
  | none =>
    show Alike f S before before' Eq (if _ then _ else _) (if _ then _ else _)
    exact .ite Iff.rfl (bindName_alike hS hscope _ (.function hscope)) (.pure rfl)

theorem enter_alike {name? : Option String} {parameters : List String} {body : Expr Place}
    (hscope : ρ scope scope') {values : List (Value Place)} {values' : List (Value Place')}
    (h : List.Forall₂ (Value.Alike f ρ) values values') :
    Alike f S before before' ρ (enter ⟨name?, parameters, body, scope⟩ values)
      (enter ⟨name?, parameters, body.map f, scope'⟩ values') := by
  intro w w' hw
  have hnext := hS.next hw.store
  have hchild := hS.addChild hw.store hscope
  have hbinds := hS.foldl_set hchild hnext (Bindings.Alike.zip h parameters)
  exact .done hnext ⟨hbinds, hw.console⟩

theorem callValue_alike {config : Config} {n : Nat}
    (hbody : ∀ (e : Expr Place) {scope scope'} stack, ρ scope scope' →
      Alike f S before before' (Value.Alike f ρ) (evaluate config n e scope stack)
        (evaluate config n (e.map f) scope' (stack.map f)))
    {values : List (Value Place)} {values' : List (Value Place')}
    (hvalues : List.Forall₂ (Value.Alike f ρ) values values')
    {target : Value Place} {target' : Value Place'} (htarget : Value.Alike f ρ target target') :
    Alike f S before before' (Value.Alike f ρ) (callValue config n stack place values target)
      (callValue config n (stack.map f) (f place) values' target') := by
  cases htarget with
  | builtin => exact callBuiltin_alike stack place _ hvalues
  | @function name? parameters body id id' hid =>
    have hcheck :
        Alike f S before before' Eq
          (checkCall config stack place ⟨name?, parameters, body, id⟩ values.length)
          (checkCall config (stack.map f) (f place) ⟨name?, parameters, body.map f, id'⟩
            values'.length) := by
      rw [hvalues.length_eq]
      exact .ite Iff.rfl (raise_alike stack place _)
        (.ite Iff.rfl (raise_alike stack place _) (.pure rfl))
    exact hcheck.bind fun _ _ _ => (enter_alike hS hid hvalues).bind fun _ _ hinner =>
      hbody body (stack.push name? place) hinner
  | none | bool | number | string => exact raise_alike stack place _

end Evaluation

/-! ## Evaluation -/

open Evaluation in
/-- With mapped places, in scopes that belong together and in worlds that are related, an expression does
the same. -/
theorem evaluate_related (f : Place → Place') (hS : Store.Simulates f ρ S)
    {before before' : List Console.Event} (config : Config) (n : Nat) (e : Expr Place)
    {scope scope' : ScopeId} (stack : CallStack Place) (hscope : ρ scope scope') :
    Evaluation.Alike f S before before' (Value.Alike f ρ) (evaluate config n e scope stack)
      (evaluate config n (e.map f) scope' (stack.map f)) := by
  induction n generalizing e scope scope' stack with
  | zero => exact .cutOff
  | succ n ih =>
    have hhere (e : Expr Place) := ih e stack hscope
    have hall (list : List (Expr Place)) :
        List.Forall₂ (fun e e' => Evaluation.Alike f S before before' (Value.Alike f ρ)
          (evaluate config n e scope stack) (evaluate config n e' scope' (stack.map f)))
          list (list.map (Expr.map f)) :=
      List.forall₂_map_right_iff.mpr (List.forall₂_same.mpr fun e _ => hhere e)
    cases e with
    | block place statements =>
      match statements with
      | [] => exact .pure .none
      | [statement] => exact hhere statement
      | first :: second :: rest =>
        rw [Expr.map, Expr.mapAll_eq_map]
        exact (Relates.each (hall _)).bind fun _ _ _ => .pure .none
    | pass => exact .pure .none
    | number => exact .pure .number
    | literal place value =>
      cases value with
      | bool => exact .pure .bool
      | none => exact .pure .none
    | string => exact .pure .string
    | binary place op left right =>
      exact (hhere left).bind fun a a' ha => (hhere right).bind fun b b' hb =>
        settle_alike stack place (ha.operate op hb)
    | unary place op operand =>
      exact (hhere operand).bind fun a a' ha => settle_alike stack place (ha.operateUnary op)
    | reference place name => exact lookUp_alike stack place hS hscope name
    | assign place name value =>
      exact (hhere value).bind fun v v' hv => (bindName_alike hS hscope name hv).bind fun _ _ _ =>
        .pure hv
    | conditional place condition thenBranch elseBranch =>
      refine (hhere condition).bind fun v v' hv => ?_
      rw [hv.isTruthy_eq]
      exact .ite Iff.rfl (hhere thenBranch) (hhere elseBranch)
    | loop place condition body =>
      have hcondition :
          Evaluation.Alike f S before before' Eq
            (do return (← evaluate config n condition scope stack).isTruthy)
            (do return (← evaluate config n (condition.map f) scope' (stack.map f)).isTruthy) :=
        (hhere condition).bind fun v v' hv => .pure hv.isTruthy_eq
      exact (hcondition.repeatWhile (hhere body) n).bind fun _ _ _ => .pure .none
    | function place name? parameters body =>
      exact (bindFunction_alike hS config hscope name? parameters body).bind fun _ _ _ =>
        .pure (.function hscope)
    | call place callee arguments =>
      rw [Expr.map, Expr.mapAll_eq_map, evaluate_call, evaluate_call]
      exact (hhere callee).bind fun target target' htarget =>
        (Relates.collectOnto (hall arguments) .nil).bind fun values values' hvalues =>
          callValue_alike stack place hS (fun e => ih e) hvalues htarget

/-- With mapped places, in scopes that belong together and in worlds that are alike, an expression does
the same. -/
theorem evaluate_alike (f : Place → Place') (hρ : Relator.BiUnique ρ)
    {before before' : List Console.Event} (config : Config) (n : Nat) (e : Expr Place)
    {scope scope' : ScopeId} (stack : CallStack Place) (hscope : ρ scope scope') :
    Relates (World.Alike f ρ before before') (fun e e' => e.map f = e') (Value.Alike f ρ)
      (evaluate config n e scope stack) (evaluate config n (e.map f) scope' (stack.map f)) :=
  evaluate_related f (Store.Alike.simulates hρ) config n e stack hscope

end Cyan
