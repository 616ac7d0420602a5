/-
What was on the console before.

A program sees of its console what there is to read and whether there is room to write.  What has happened
there before it is run does not matter: in two sessions that differ in nothing else the same program does
the same, and what happens on the console meanwhile comes on top of whatever there was
(`Session.run_withTranscript`).
-/
import Cyan.Proofs.Evaluation.Console
import Cyan.Proofs.Session.Answers

namespace Cyan

open Cyan.Action (Relates)

variable {Place : Type} {before before' : List Console.Event}

theorem Value.Alike.eq {v v' : Value Place} (h : Value.Alike id Eq v v') : v = v' := by
  cases h with
  | function hscope =>
    rw [hscope, Expr.map_id]
  | none | bool | number | string | builtin => rfl

/-- Equal stores stay equal while the same is done with both. -/
theorem Store.simulates_eq : Store.Simulates id Eq (Eq : Store Place → Store Place → Prop) where
  next h := by rw [h]
  get? h hid name := by
    subst h hid
    cases Store.get? _ _ _ with
    | none => exact .none
    | some v => exact .some (.self fun _ _ => rfl)
  set h hid name hv := by rw [h, hid, hv.eq]
  addChild h hid := by rw [h, hid]

theorem evaluate_replays (config : Config) (n : Nat) (e : Expr Place) (scope : ScopeId)
    (stack : CallStack Place) :
    Evaluation.Alike id Eq before before' Eq (evaluate config n e scope stack)
      (evaluate config n e scope stack) := by
  intro w w' hw
  have h := evaluate_related id Store.simulates_eq config n e stack (rfl : scope = scope) w w' hw
  rw [Expr.map_id, CallStack.map_id] at h
  generalize evaluate config n e scope stack w = o at h ⊢
  generalize evaluate config n e scope stack w' = o' at h ⊢
  cases h with
  | done hv hw => exact .done hv.eq hw
  | failed he hw => exact .failed he hw
  | unfinished => exact .unfinished

/-! ## What is added on the console -/

theorem Source.execute_follows {source : Source} {config : Config} {bound : Nat} {scope : ScopeId}
    {w w' : World Span} (h : (source.execute config bound scope w).state? = some w') :
    w.console.Follows w'.console := by
  rw [Source.state?_execute] at h
  cases hprogram : Expr.ofSource? source with
  | error d =>
    rw [hprogram] at h
    cases h
    exact ⟨[], .refl w.console⟩
  | ok program =>
    rw [hprogram] at h
    exact evaluate_follows config bound program scope {} w w' h

theorem Act.console_opening (a : Act) (s : Session) : (a.opening s).2.console = s.world.console := by
  cases a <;> simp only [opening]

/-- Whatever is done with a session, it adds to what has happened on the console. -/
theorem Act.perform_follows {a : Act} {bound : Nat} {s s' : Session}
    (h : (a.perform bound s).state? = some s') : s.world.console.Follows s'.world.console := by
  cases hsource : a.source? with
  | none =>
    rw [state?_perform_of_none hsource] at h
    cases h
    exact ⟨[], .refl s.world.console⟩
  | some source =>
    rw [state?_perform hsource] at h
    obtain ⟨w, hw, rfl⟩ := Option.map_eq_some_iff.mp h
    have hfollows := Source.execute_follows hw
    rwa [a.console_opening s] at hfollows

/-! ## Runs on other consoles -/

namespace Session

/-- The same session, but for what has happened on the console: `before` on the one and `before'` on the
other, and the same on both since then. -/
structure Replays (before before' : List Console.Event) (s s' : Session) : Prop where
  world : World.Related Eq before before' s.world s'.world
  globals_eq : s.globals = s'.globals
  config_eq : s.config = s'.config

/-- The session as if this were what has happened on its console, the latest first. -/
def withTranscript (s : Session) (transcript : List Console.Event) : Session :=
  s.withConsole { s.world.console with transcript }

theorem Replays.of_withTranscript (s : Session) (transcript : List Console.Event) :
    Replays s.world.console.transcript transcript s (s.withTranscript transcript) :=
  ⟨⟨rfl, rfl, rfl, [], rfl, rfl⟩, rfl, rfl⟩

theorem Replays.eq_withTranscript {s s' : Session} (h : Replays before before' s s')
    {events : List Console.Event} (hevents : s.world.console.transcript = events ++ before) :
    s' = s.withTranscript (events ++ before') := by
  obtain ⟨⟨hstore, hinput, hroom, events', htranscript, htranscript'⟩, hglobals, hconfig⟩ := h
  obtain rfl : events' = events := List.append_cancel_right (htranscript.symm.trans hevents)
  obtain ⟨⟨store, input, room?, transcript⟩, globals, config⟩ := s
  obtain ⟨⟨store', input', room?', transcript'⟩, globals', config'⟩ := s'
  obtain rfl : store = store' := hstore
  obtain rfl : input = input' := hinput
  obtain rfl : room? = room?' := hroom
  obtain rfl : globals = globals' := hglobals
  obtain rfl : config = config' := hconfig
  obtain rfl : transcript' = events' ++ before' := htranscript'
  rfl

theorem lifts_eq (config : Config) : Lifts Eq Eq Eq config config where
  evaluate {source program} hprogram before before' bound scope scope' hscope := by
    subst hscope
    exact evaluate_replays config bound program scope {}
  addGlobal h := by
    rw [h]
    exact ⟨rfl, rfl⟩
  release hscope st st' h := by rw [hscope, h]

/-- A program does the same whatever has happened on the console before. -/
theorem run_replays (bound : Nat) (source : Source) :
    Relates (Replays before before') Eq Eq (run bound source) (run bound source) := by
  intro ⟨w, globals, config⟩ ⟨w', globals', config'⟩ ⟨hw, hglobals, hconfig⟩
  obtain rfl : globals = globals' := hglobals
  obtain rfl : config = config' := hconfig
  exact (lifts_eq config).perform (.run source) bound hw (Or.inr rfl) fun w w' hw => ⟨hw, rfl, rfl⟩

/-- A program ends in the same way and with the same events, whatever has happened before. -/
theorem run_withTranscript (bound : Nat) (source : Source) (s : Session)
    (transcript : List Console.Event) :
    (run bound source s).Relates
      (fun t t' => ∀ events, t.world.console.transcript = events ++ s.world.console.transcript →
        t' = t.withTranscript (events ++ transcript))
      Eq Eq (run bound source (s.withTranscript transcript)) := by
  have h := run_replays bound source _ _ (.of_withTranscript s transcript)
  generalize run bound source s = o at h ⊢
  generalize run bound source (s.withTranscript transcript) = o' at h ⊢
  cases h with
  | done hv hs => exact .done hv fun _ => hs.eq_withTranscript
  | failed hd hs => exact .failed hd fun _ => hs.eq_withTranscript
  | unfinished => exact .unfinished

/-- A program adds to what has happened on the console, and takes input only by reading it. -/
theorem run_follows (bound : Nat) (source : Source) {s s' : Session}
    (h : (run bound source s).state? = some s') : s.world.console.Follows s'.world.console :=
  Act.perform_follows (a := .run source) h

end Session
end Cyan
