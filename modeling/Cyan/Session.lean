/-
Sessions: programs run one after another in one interpreter.

A session has a global scope that lasts, so that a program run in it sees what earlier programs have
bound.  A program can also be run in a fresh global scope of its own, which is emptied afterwards
whether the program failed or not; files always are.  All programs of a session share one console.
-/
import Cyan.Diagnostic.Report
import Cyan.Grammar.Rules

namespace Cyan

/-- The program a source is. -/
def Expr.ofSource? (source : Source) : Except Diagnostic (Expr Span) := do
  let tokens ← (TokenStream.ofSource? source).mapError .lexical
  (Expr.ofStream? tokens).mapError .syntactic

/-- Run a source in a scope.  `bound` bounds the evaluation. -/
def Source.execute (source : Source) (config : Config) (bound : Nat) (scope : ScopeId) :
    Action (World Span) Diagnostic (Value Span) := fun w =>
  match Expr.ofSource? source with
  | .error d => .failed d w
  | .ok program =>
    match evaluate config bound program scope {} w with
    | .done v w => .done v w
    | .failed e w => .failed (.runtime e) w
    | .unfinished => .unfinished

/-- An interpreter between two programs. -/
structure Session where
  world : World Span
  globals : ScopeId
  config : Config

namespace Session

def start (config : Config) (console : Console) : Session :=
  let (globals, store) := Store.addGlobal {}
  ⟨⟨store, console⟩, globals, config⟩

def withConsole (s : Session) (console : Console) : Session :=
  { s with world := { s.world with console } }

/-- What an outcome in a session's world means for the session. -/
def resume (config : Config) (globals : ScopeId) {α : Type} :
    Outcome (World Span) Diagnostic α → Outcome Session Diagnostic α
  | .done v world => .done v ⟨world, globals, config⟩
  | .failed d world => .failed d ⟨world, globals, config⟩
  | .unfinished => .unfinished

/-- Run a program in the lasting global scope. -/
def run (bound : Nat) (source : Source) : Action Session Diagnostic (Value Span) :=
  fun ⟨world, globals, config⟩ =>
    resume config globals (source.execute config bound globals world)

/-- A world without the bindings of a scope and all scopes nested in its root. -/
def releasing (scope : ScopeId) {α : Type} :
    Outcome (World Span) Diagnostic α → Outcome (World Span) Diagnostic α
  | .done v w => .done v { w with store := w.store.release scope }
  | .failed d w => .failed d { w with store := w.store.release scope }
  | .unfinished => .unfinished

/-- Run a program in a fresh global scope. -/
def runFresh (bound : Nat) (source : Source) : Action Session Diagnostic (Value Span) :=
  fun ⟨world, globals, config⟩ =>
    let (scope, store) := world.store.addGlobal
    resume config globals
      (releasing scope (source.execute config bound scope { world with store }))

/-- Run a file in a fresh global scope.  The program goes by the file's path as it was given. -/
def runFile (bound : Nat) (files : Files) (path : String) :
    Action Session Diagnostic (Value Span) := fun s =>
  match files.readText path with
  | .error fault => .failed (.unreadable path fault) s
  | .ok text => runFresh bound ⟨path, text⟩ s

/-- Write to the console, whether that succeeds or not. -/
def print (text : String) (s : Session) : Session :=
  s.withConsole (s.world.console.write text).2

end Session
end Cyan
