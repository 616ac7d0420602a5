/-
Evaluation.

An expression is evaluated in a scope, under a stack of calls, and in a world that holds the store of
scopes and the console.  Operands and arguments are evaluated from left to right, and both operands of
a logical operator always are.  Names are looked up from the scope outwards and bound in the scope
itself.  A call runs the function's body in a new scope nested in the one the function was defined in,
whoever calls it.

A failure carries the place of the expression that failed and the calls that were active, the
innermost first: each with the place it had come to, which is the place of the failure for the
innermost call and the place of a call for all others.

Evaluation is given a number that bounds how deep it goes and how often a loop runs; it is cut off
when that number is used up.  An outcome that is reached is the same under every larger bound.
-/
import Cyan.Action.Basic
import Cyan.Evaluation.Console
import Cyan.Evaluation.Operation
import Cyan.Scope.Store

namespace Cyan

structure Config where
  /-- How many function calls may be active at once. -/
  maxCallDepth : Nat := 1000
  /-- Whether a function without a name is bound to the name that stands for it. -/
  bindsAnonymous : Bool := true
deriving DecidableEq, Repr, Inhabited

/-- What an active call was made for. -/
inductive Context where
  | module
  | function (name? : Option String)
deriving DecidableEq, Repr, Inhabited

def Context.shown : Context → String
  | module => "<module>"
  | function name? => shownName name?

/-- An active call of a function, and the place it was called from. -/
structure Frame (Place : Type) where
  name? : Option String
  site : Place
deriving Repr

/-- The active calls, the innermost first, and how many they are. -/
structure CallStack (Place : Type) where
  frames : List (Frame Place) := []
  depth : Nat := 0
  depth_eq : depth = frames.length := by rfl

namespace CallStack

variable {Place : Type}

def push (stack : CallStack Place) (name? : Option String) (site : Place) : CallStack Place :=
  ⟨⟨name?, site⟩ :: stack.frames, stack.depth + 1, by rw [stack.depth_eq, List.length_cons]⟩

/-- The active contexts with the place each has come to, when the innermost has come to `place`. -/
def traceFrom (place : Place) : List (Frame Place) → List (Context × Place)
  | [] => [(.module, place)]
  | frame :: rest => (.function frame.name?, place) :: traceFrom frame.site rest

def trace (stack : CallStack Place) (place : Place) : List (Context × Place) :=
  traceFrom place stack.frames

/-- A traceback has one entry for each active call and one for the module. -/
theorem length_trace (stack : CallStack Place) (place : Place) :
    (stack.trace place).length = stack.depth + 1 := by
  have hgo : ∀ (frames : List (Frame Place)) (place : Place),
      (traceFrom place frames).length = frames.length + 1 := by
    intro frames
    induction frames with
    | nil => intro _; rfl
    | cons frame rest ih => intro _; rw [traceFrom, List.length_cons, ih, List.length_cons]
  rw [trace, hgo, stack.depth_eq]

end CallStack

/-- A failure: its cause, the place of the expression that failed, and the active contexts. -/
structure RuntimeError (Place : Type) where
  fault : RuntimeFault
  place : Place
  trace : List (Context × Place)
deriving Repr

/-- Everything evaluation can change. -/
structure World (Place : Type) where
  store : Store Place := {}
  console : Console := {}
deriving Inhabited

/-- An evaluation with a result of type `α`. -/
abbrev Evaluation (Place α : Type) := Action (World Place) (RuntimeError Place) α

namespace Evaluation

variable {Place α : Type}

def raise (stack : CallStack Place) (place : Place) (fault : RuntimeFault) : Evaluation Place α :=
  Action.fail ⟨fault, place, stack.trace place⟩

def settle (stack : CallStack Place) (place : Place) : Except RuntimeFault α → Evaluation Place α
  | .ok result => pure result
  | .error fault => raise stack place fault

def lookUp (stack : CallStack Place) (place : Place) (scope : ScopeId) (name : String) :
    Evaluation Place (Value Place) := do
  match (← Action.state).store.get? scope name with
  | some v => pure v
  | none => raise stack place (.undefined name)

def bindName (scope : ScopeId) (name : String) (v : Value Place) : Evaluation Place Unit :=
  Action.update fun w => { w with store := w.store.set scope name v }

/-- Bind a function in the scope it is defined in, so that its body can call it. -/
def bindFunction (config : Config) (scope : ScopeId) (f : Function Place) : Evaluation Place Unit :=
  match f.name? with
  | some name => bindName scope name (.function f)
  | none =>
    if config.bindsAnonymous then bindName scope anonymousName (.function f) else pure ()

/-- Write to the console or read from it. -/
def useConsole (stack : CallStack Place) (place : Place)
    (use : Console → Except String α × Console) : Evaluation Place α := fun w =>
  match use w.console with
  | (.ok result, console) => .done result { w with console }
  | (.error fault, console) => raise stack place (.console fault) { w with console }

/-- Make a new scope for a call of `f` and bind its parameters to the arguments, from left to
right. -/
def enter (f : Function Place) (arguments : List (Value Place)) : Evaluation Place ScopeId := fun w =>
  let (scope, store) := w.store.addChild f.scope
  let store := (f.parameters.zip arguments).foldl (fun st (name, v) => st.set scope name v) store
  .done scope { w with store }

/-- Call a built-in function. -/
def callBuiltin (stack : CallStack Place) (place : Place) (b : Builtin)
    (arguments : List (Value Place)) : Evaluation Place (Value Place) :=
  match b, arguments with
  | .out, arguments => do
    let line := " ".intercalate (arguments.map Value.shown) ++ "\n"
    useConsole stack place (Console.write line)
    pure .none
  | .inp, [] => do
    match ← useConsole stack place Console.readLine with
    | some line => pure (.string line)
    | none => pure .none
  | .toBool, [v] => pure (.bool v.isTruthy)
  | .toNumber, [v] => do return .number (← settle stack place v.toNumber)
  | .toString, [v] => pure (.string v.shown)
  | .inp, arguments => raise stack place (.argumentCount b.name arguments.length 0)
  | b, arguments => raise stack place (.argumentCount b.name arguments.length 1)

/-- Check that `f` can be called with so many arguments under the active calls. -/
def checkCall (config : Config) (stack : CallStack Place) (place : Place) (f : Function Place)
    (given : Nat) : Evaluation Place Unit :=
  if given ≠ f.parameters.length then
    raise stack place (.argumentCount (shownName f.name?) given f.parameters.length)
  else if config.maxCallDepth ≤ stack.depth then raise stack place .recursionLimit
  else pure ()

end Evaluation

open Evaluation in
/-- The value of an expression in a scope, under the active calls `stack`. -/
def evaluate {Place : Type} (config : Config) :
    Nat → Expr Place → ScopeId → CallStack Place → Evaluation Place (Value Place)
  | 0, _, _, _ => Action.cutOff
  | n + 1, e, scope, stack =>
    match e with
    | .block _ [statement] => evaluate config n statement scope stack
    | .block _ statements => do
      Action.each (fun statement => evaluate config n statement scope stack) statements
      pure .none
    | .pass _ => pure .none
    | .number _ value => pure (.number value)
    | .literal _ value => pure (.ofLiteral value)
    | .string _ text => pure (.string text)
    | .binary place op left right => do
      let a ← evaluate config n left scope stack
      let b ← evaluate config n right scope stack
      settle stack place (a.operate op b)
    | .unary place op operand => do
      let a ← evaluate config n operand scope stack
      settle stack place (a.operateUnary op)
    | .reference place name => lookUp stack place scope name
    | .assign _ name value => do
      let v ← evaluate config n value scope stack
      bindName scope name v
      pure v
    | .conditional _ condition thenBranch elseBranch => do
      let v ← evaluate config n condition scope stack
      if v.isTruthy then evaluate config n thenBranch scope stack
      else evaluate config n elseBranch scope stack
    | .loop _ condition body => do
      Action.repeatWhile (do return (← evaluate config n condition scope stack).isTruthy)
        (evaluate config n body scope stack) n
      pure .none
    | .function _ name? parameters body => do
      let f : Function Place := ⟨name?, parameters, body, scope⟩
      bindFunction config scope f
      pure (.function f)
    | .call place callee arguments => do
      let target ← evaluate config n callee scope stack
      let values ←
        Action.collect (fun argument => evaluate config n argument scope stack) arguments
      match target with
      | .builtin b => callBuiltin stack place b values
      | .function f =>
        checkCall config stack place f values.length
        let inner ← enter f values
        evaluate config n f.body inner (stack.push f.name? place)
      | v => raise stack place (.notCallable v.kind)

end Cyan
