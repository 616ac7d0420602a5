/-
The history of a session.

An `Act` is what can be done with a session: a program is run in its lasting global scope or in a fresh
one, or a file is run.  `Act.begun` is the run that this begins, which there is unless the file cannot
be read or its text is no program.  `History` lists the runs that a session has seen, the latest first,
with any console at any time.

`Act.state?_perform` says what an act leaves behind in terms of the program's evaluation alone.
-/
import Cyan.Proofs.Evaluation.Visits
import Cyan.Proofs.Scope.Rooted
import Cyan.Session

namespace Cyan

/-- What can be done with a session. -/
inductive Act where
  | run (source : Source)
  | fresh (source : Source)
  | file (files : Files) (path : String)

namespace Act

/-- Do it, with a bound for the evaluation. -/
def perform (bound : Nat) : Act → Action Session Diagnostic (Value Span)
  | run source => Session.run bound source
  | fresh source => Session.runFresh bound source
  | file files path => Session.runFile bound files path

/-- The source that is run, unless it cannot be read. -/
def source? : Act → Option Source
  | run source | fresh source => some source
  | file files path => (files.readText path).toOption.map fun text => ⟨path, text⟩

/-- The scope a program is run in, and the world it begins in. -/
def opening : Act → Session → ScopeId × World Span
  | run _, s => (s.globals, s.world)
  | _, s => (s.world.store.addGlobal.1, { s.world with store := s.world.store.addGlobal.2 })

/-- What becomes of the store when a program has been run in a scope. -/
def closing : Act → ScopeId → Store Span → Store Span
  | run _, _, st => st
  | _, scope, st => st.release scope

/-- The run that is begun. -/
def begun (a : Act) (s : Session) : Option (Run Span) := do
  let source ← a.source?
  let program ← (Expr.ofSource? source).toOption
  return ⟨program, (a.opening s).1, (a.opening s).2⟩

end Act

/-- A session with the settings `config` that has seen the runs. -/
inductive History (config : Config) : List (Run Span) → Session → Prop where
  | start (console : Console) : History config [] (Session.start config console)
  | console {runs s} (console : Console) : History config runs s →
      History config runs (s.withConsole console)
  | act {runs s} (a : Act) {bound : Nat} {s' : Session} : History config runs s →
      (a.perform bound s).state? = some s' → History config ((a.begun s).toList ++ runs) s'

/-! ## What an act leaves behind -/

theorem Session.state?_resume {α : Type} (config : Config) (globals : ScopeId)
    (o : Outcome (World Span) Diagnostic α) :
    (resume config globals o).state? = o.state?.map (⟨·, globals, config⟩) := by
  cases o <;> rfl

theorem Session.state?_releasing {α : Type} (scope : ScopeId)
    (o : Outcome (World Span) Diagnostic α) :
    (releasing scope o).state? =
      o.state?.map fun w => { w with store := w.store.release scope } := by
  cases o <;> rfl

theorem Source.state?_execute (source : Source) (config : Config) (bound : Nat) (scope : ScopeId)
    (w : World Span) :
    (source.execute config bound scope w).state? =
      match Expr.ofSource? source with
      | .error _ => some w
      | .ok program => (evaluate config bound program scope {} w).state? := by
  rw [execute]
  cases Expr.ofSource? source with
  | error d => rfl
  | ok program =>
    dsimp only
    cases evaluate config bound program scope {} w <;> rfl

namespace Act

theorem begun_opening {a : Act} {s : Session} {r : Run Span} (h : a.begun s = some r) :
    r.root = (a.opening s).1 ∧ r.world = (a.opening s).2 := by
  obtain ⟨source, -, h⟩ := Option.bind_eq_some_iff.mp h
  obtain ⟨program, -, h⟩ := Option.bind_eq_some_iff.mp h
  cases h
  exact ⟨rfl, rfl⟩

theorem state?_perform_of_none {a : Act} (h : a.source? = none) (bound : Nat) (s : Session) :
    (a.perform bound s).state? = some s := by
  cases a with
  | run | fresh => cases h
  | file files path =>
    show (Session.runFile bound files path s).state? = some s
    rw [Session.runFile]
    cases hread : files.readText path with
    | error fault => rfl
    | ok text =>
      rw [source?, hread] at h
      cases h

/-- An act runs its source in the scope and the world of its opening. -/
theorem state?_perform {a : Act} {source : Source} (h : a.source? = some source) (bound : Nat)
    (s : Session) :
    (a.perform bound s).state? =
      (source.execute s.config bound (a.opening s).1 (a.opening s).2).state?.map fun w =>
        ⟨{ w with store := a.closing (a.opening s).1 w.store }, s.globals, s.config⟩ := by
  have hfresh : (Session.runFresh bound source s).state? =
      (source.execute s.config bound (opening (.fresh source) s).1
        (opening (.fresh source) s).2).state?.map fun w =>
        ⟨{ w with store := w.store.release (opening (.fresh source) s).1 }, s.globals, s.config⟩ := by
    show (Session.resume _ _ (Session.releasing _ _)).state? = _
    rw [Session.state?_resume, Session.state?_releasing, Option.map_map]
    rfl
  cases a with
  | run source' =>
    cases h
    exact Session.state?_resume _ _ _
  | fresh source' =>
    cases h
    exact hfresh
  | file files path =>
    cases hread : files.readText path with
    | error fault =>
      rw [source?, hread] at h
      cases h
    | ok text =>
      rw [source?, hread] at h
      cases h
      show (Session.runFile bound files path s).state? = _
      rw [Session.runFile, hread]
      exact hfresh

/-- An act that begins no run leaves the world as it is at its opening, and one that begins a run
leaves the world in which the evaluation of the program ends. -/
theorem perform_cases {a : Act} {bound : Nat} {s s' : Session}
    (h : (a.perform bound s).state? = some s') :
    s'.globals = s.globals ∧ s'.config = s.config ∧
      (a.begun s = none ∧ (s' = s ∨
        s'.world.store = a.closing (a.opening s).1 (a.opening s).2.store) ∨
      ∃ r w, a.begun s = some r ∧ (r.visit.outcome s.config bound).state? = some w ∧
        s'.world.store = a.closing r.root w.store) := by
  cases hsource : a.source? with
  | none =>
    rw [state?_perform_of_none hsource] at h
    cases h
    refine ⟨rfl, rfl, Or.inl ⟨?_, Or.inl rfl⟩⟩
    rw [begun, hsource]
    rfl
  | some source =>
    rw [state?_perform hsource, Source.state?_execute] at h
    obtain ⟨w, hw, hs⟩ := Option.map_eq_some_iff.mp h
    subst hs
    refine ⟨rfl, rfl, ?_⟩
    cases hprogram : Expr.ofSource? source with
    | error d =>
      rw [hprogram] at hw
      cases hw
      refine Or.inl ⟨?_, Or.inr rfl⟩
      rw [begun, hsource]
      show (Expr.ofSource? source).toOption.bind _ = none
      rw [hprogram]
      rfl
    | ok program =>
      rw [hprogram] at hw
      refine Or.inr ⟨⟨program, (a.opening s).1, (a.opening s).2⟩, w, ?_, hw, rfl⟩
      rw [begun, hsource]
      show (Expr.ofSource? source).toOption.bind _ = _
      rw [hprogram]
      rfl

end Act
end Cyan
