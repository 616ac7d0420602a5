/-
What a session answers.

An `Answer` is what can be seen of an act: its result, and what happens on the console meanwhile.  Two
sessions with the same settings, in worlds that are alike, give the same answers (`Session.answers_eq`);
for programs that run in a fresh scope, the lasting scopes need not even belong together.

What makes sessions do the same is what makes programs do the same in related stores, if opening and
releasing a global scope keeps the stores related.  `Session.Lifts` is that, for any relation between stores
and for settings that need not be the same, and `Session.Lifts.perform` is what follows for all that can be
done with a session.
-/
import Cyan.Proofs.Evaluation.Alike
import Cyan.Proofs.Session.History

namespace Cyan

/-- What can be seen of a value.  Nothing shows which scope a function captures. -/
def Value.seen {Place : Type} : Value Place → Value Place
  | .function f => .function { f with scope := 0 }
  | v => v

/-- What can be seen of an act: its result, and what happens on the console, the latest first. -/
structure Answer where
  result : Except Diagnostic (Value Span)
  events : List Console.Event

/-- What has happened on the console since it was in an earlier state. -/
def Console.since (c before : Console) : List Console.Event :=
  c.transcript.take (c.transcript.length - before.transcript.length)

/-- The answers to acts that are done one after the other, up to the first that does not end. -/
def Session.answers (bound : Nat) : List Act → Session → List Answer
  | [], _ => []
  | a :: rest, s =>
    match a.perform bound s with
    | .done v s' => ⟨.ok v.seen, s'.world.console.since s.world.console⟩ :: answers bound rest s'
    | .failed d s' => ⟨.error d, s'.world.console.since s.world.console⟩ :: answers bound rest s'
    | .unfinished => []

/-- Whether the program of an act is run in a fresh scope. -/
def Act.isFresh : Act → Bool
  | run _ => false
  | fresh _ | file _ _ => true

variable {α β : Type} {ρ : ScopeId → ScopeId → Prop} {before before' : List Console.Event}

theorem Value.Alike.seen_eq {v v' : Value Span} (h : Alike id ρ v v') : v.seen = v'.seen := by
  cases h with
  | @function name? parameters body =>
    rw [Expr.map_id]
    rfl
  | none | bool | number | string | builtin => rfl

namespace Console.Alike

variable {c c' : Console}

theorem since_eq {earlier earlier' : Console}
    (h : Alike earlier.transcript earlier'.transcript c c') : c.since earlier = c'.since earlier' := by
  obtain ⟨events, htranscript, htranscript'⟩ := h.transcript_eq
  rw [since, since, htranscript, htranscript', List.length_append, List.length_append,
    Nat.add_sub_cancel, Nat.add_sub_cancel, List.take_left, List.take_left]

/-- Consoles that offer the same are alike from now on. -/
theorem now (hinput : c.input = c'.input) (hroom : c.room? = c'.room?) :
    Alike c.transcript c'.transcript c c' := ⟨hinput, hroom, [], rfl, rfl⟩

end Console.Alike

/-! ## Programs -/

section

variable {S : Store Span → Store Span → Prop} {R : α → β → Prop} {config config' : Config}

/-- A source does the same in two sessions if the program that it is does. -/
theorem Source.execute_related {R : Value Span → Value Span → Prop} (source : Source) {bound : Nat}
    {scope scope' : ScopeId}
    (h : ∀ program, Expr.ofSource? source = .ok program →
      Evaluation.Alike id S before before' R (evaluate config bound program scope {})
        (evaluate config' bound program scope' {})) :
    Action.Relates (World.Related S before before') Eq R (source.execute config bound scope)
      (source.execute config' bound scope') := by
  intro w w' hw
  rw [execute, execute]
  cases hprogram : Expr.ofSource? source with
  | error d => exact .failed rfl hw
  | ok program =>
    have h := h program hprogram w w' hw
    dsimp only
    generalize evaluate config bound program scope {} w = o at h ⊢
    generalize evaluate config' bound program scope' {} w' = o' at h ⊢
    cases h with
    | done hv hw => exact .done hv hw
    | @failed e e' _ _ he hw =>
      rw [RuntimeError.map_id] at he
      exact .failed (congrArg Diagnostic.runtime he) hw
    | unfinished => exact .unfinished

namespace Session

theorem resume_related {W : World Span → World Span → Prop} {T : Session → Session → Prop}
    {globals globals' : ScopeId} {o : Outcome (World Span) Diagnostic α}
    {o' : Outcome (World Span) Diagnostic β} (h : o.Relates W Eq R o')
    (hT : ∀ w w', W w w' → T ⟨w, globals, config⟩ ⟨w', globals', config'⟩) :
    (resume config globals o).Relates T Eq R (resume config' globals' o') := by
  cases h with
  | done hv hw => exact .done hv (hT _ _ hw)
  | failed he hw => exact .failed he (hT _ _ hw)
  | unfinished => exact .unfinished

theorem releasing_related {scope scope' : ScopeId} {o : Outcome (World Span) Diagnostic α}
    {o' : Outcome (World Span) Diagnostic β} (h : o.Relates (World.Related S before before') Eq R o')
    (hS : ∀ st st', S st st' → S (st.release scope) (st'.release scope')) :
    (releasing scope o).Relates (World.Related S before before') Eq R (releasing scope' o') := by
  cases h with
  | done hv hw => exact .done hv ⟨hS _ _ hw.store, hw.console⟩
  | failed he hw => exact .failed he ⟨hS _ _ hw.store, hw.console⟩
  | unfinished => exact .unfinished

/-- Stores that `S` relates stay so while the same programs are run in sessions with the settings `config`
and `config'`, in scopes that `ρ` relates. -/
structure Lifts (S : Store Span → Store Span → Prop) (ρ : ScopeId → ScopeId → Prop)
    (R : Value Span → Value Span → Prop) (config config' : Config) : Prop where
  evaluate : ∀ {source program}, Expr.ofSource? source = .ok program →
    ∀ before before' bound {scope scope'}, ρ scope scope' →
      Evaluation.Alike id S before before' R (Cyan.evaluate config bound program scope {})
        (Cyan.evaluate config' bound program scope' {})
  addGlobal : ∀ {st st'}, S st st' →
    ρ st.addGlobal.1 st'.addGlobal.1 ∧ S st.addGlobal.2 st'.addGlobal.2
  release : ∀ {scope scope'}, ρ scope scope' → ∀ st st', S st st' →
    S (st.release scope) (st'.release scope')

variable {R : Value Span → Value Span → Prop} {T : Session → Session → Prop} {w w' : World Span}
  {globals globals' : ScopeId}

theorem Lifts.runFresh (h : Lifts S ρ R config config') (bound : Nat) (source : Source)
    (hw : World.Related S before before' w w')
    (hT : ∀ w w', World.Related S before before' w w' →
      T ⟨w, globals, config⟩ ⟨w', globals', config'⟩) :
    (Session.runFresh bound source ⟨w, globals, config⟩).Relates T Eq R
      (Session.runFresh bound source ⟨w', globals', config'⟩) := by
  obtain ⟨hscope, hopened⟩ := h.addGlobal hw.store
  have hexecute := source.execute_related fun program hprogram =>
    h.evaluate hprogram before before' bound hscope
  have hreleased := releasing_related
    (hexecute { w with store := w.store.addGlobal.2 } { w' with store := w'.store.addGlobal.2 }
      ⟨hopened, hw.console⟩) (h.release hscope)
  exact resume_related hreleased hT

/-- Whatever is done with two sessions does the same in both.  For a program that is run in the lasting
scopes these have to be related. -/
theorem Lifts.perform (h : Lifts S ρ R config config') (a : Act) (bound : Nat)
    (hw : World.Related S before before' w w') (hglobals : a.isFresh = true ∨ ρ globals globals')
    (hT : ∀ w w', World.Related S before before' w w' →
      T ⟨w, globals, config⟩ ⟨w', globals', config'⟩) :
    (a.perform bound ⟨w, globals, config⟩).Relates T Eq R
      (a.perform bound ⟨w', globals', config'⟩) := by
  cases a with
  | run source =>
    rcases hglobals with hfresh | hglobals
    · cases hfresh
    · have hexecute := source.execute_related fun program hprogram =>
        h.evaluate hprogram before before' bound hglobals
      exact resume_related (hexecute w w' hw) hT
  | fresh source => exact h.runFresh bound source hw hT
  | file files path =>
    show (runFile bound files path _).Relates _ _ _ (runFile bound files path _)
    rw [runFile, runFile]
    cases files.readText path with
    | error fault => exact .failed rfl (hT w w' hw)
    | ok text => exact h.runFresh bound ⟨path, text⟩ hw hT

end Session

end

/-! ## Sessions in worlds that are alike -/

namespace Session

/-- Sessions with the same settings in worlds that are alike.  Nothing is said of their lasting
scopes. -/
structure Alike (ρ : ScopeId → ScopeId → Prop) (before before' : List Console.Event)
    (s s' : Session) : Prop where
  world : s.world.Alike id ρ before before' s'.world
  config_eq : s.config = s'.config

theorem Alike.now {s s' : Session} (h : Alike ρ before before' s s') :
    Alike ρ s.world.console.transcript s'.world.console.transcript s s' :=
  ⟨⟨h.world.store, .now h.world.console.input_eq h.world.console.room?_eq⟩, h.config_eq⟩

variable (hρ : Relator.BiUnique ρ)
include hρ

theorem lifts_alike (config : Config) :
    Lifts (Store.Alike id ρ) ρ (Value.Alike id ρ) config config where
  evaluate {source program} hprogram before before' bound scope scope' hscope := by
    have h : Evaluation.Alike id (Store.Alike id ρ) before before' (Value.Alike id ρ)
        (Cyan.evaluate config bound program scope {})
        (Cyan.evaluate config bound (program.map id) scope' (CallStack.map id {})) :=
      evaluate_alike id hρ config bound program {} hscope
    rwa [Expr.map_id, CallStack.map_id] at h
  addGlobal h := ⟨h.next 0, h.addGlobal hρ⟩
  release hscope _ _ h := h.release hρ hscope

/-- Sessions that are alike stay alike, whatever is done with them.  For a program that is run in the
lasting scopes these have to belong together. -/
theorem perform_alike (a : Act) (bound : Nat) {s s' : Session} (h : Alike ρ before before' s s')
    (hglobals : a.isFresh = true ∨ ρ s.globals s'.globals) :
    (a.perform bound s).Relates (Alike ρ before before') Eq (Value.Alike id ρ)
      (a.perform bound s') := by
  obtain ⟨w, globals, config⟩ := s
  obtain ⟨w', globals', config'⟩ := s'
  obtain ⟨hw, hconfig⟩ := h
  obtain rfl : config = config' := hconfig
  exact (lifts_alike hρ config).perform a bound hw hglobals fun w w' hw => ⟨hw, rfl⟩

/-- The first answers are the same, and so are the others if they are in any sessions that the first act
leaves alike. -/
theorem answers_cons_eq (a : Act) (rest : List Act) (bound : Nat) {s s' : Session}
    (h : Alike ρ before before' s s') (hglobals : a.isFresh = true ∨ ρ s.globals s'.globals)
    (hrest : ∀ t t', (a.perform bound s).state? = some t → (a.perform bound s').state? = some t' →
      Alike ρ s.world.console.transcript s'.world.console.transcript t t' →
      answers bound rest t = answers bound rest t') :
    answers bound (a :: rest) s = answers bound (a :: rest) s' := by
  have hperform := perform_alike hρ a bound h.now hglobals
  rw [answers, answers]
  generalize a.perform bound s = o at hperform hrest ⊢
  generalize a.perform bound s' = o' at hperform hrest ⊢
  cases hperform with
  | @done v v' t t' hv ht =>
    have hevents := ht.world.console.since_eq
    dsimp only
    rw [hv.seen_eq, hevents, hrest t t' rfl rfl ht]
  | @failed d d' t t' hd ht =>
    have hevents := ht.world.console.since_eq
    dsimp only
    rw [hd, hevents, hrest t t' rfl rfl ht]
  | unfinished => rfl

/-- Sessions that are alike and whose lasting scopes belong together give the same answers. -/
theorem answers_eq (bound : Nat) (acts : List Act) {s s' : Session} (h : Alike ρ before before' s s')
    (hglobals : ρ s.globals s'.globals) : answers bound acts s = answers bound acts s' := by
  induction acts generalizing before before' s s' with
  | nil => rfl
  | cons a rest ih =>
    refine answers_cons_eq hρ a rest bound h (Or.inr hglobals) fun t t' ht ht' halike => ?_
    refine ih halike ?_
    rw [(Act.perform_cases ht).1, (Act.perform_cases ht').1]
    exact hglobals

end Session
end Cyan
