/-
Functions without names in sessions.

Whether a function without a name is bound to the name that stands for it is a setting of a session.
Twins are two sessions that differ in their settings, and with which the same has been done from the start
on.  Twins that differ in this setting alone are not told apart by anything that is done next: it comes to
the same value or the same error, with the same output and the same input left, or it does not end in
either (`Session.anonymous_unseen`).

The stores of twins may differ in every scope, but only in what that one name is bound to.  To see this a
program would have to mention the name, and all names in programs are identifiers.
-/
import Cyan.Proofs.Evaluation.Anonymous
import Cyan.Proofs.Session.Answers

namespace Cyan
namespace Session

/-- Two sessions with the settings `config` and `config'`, with which the same has been done. -/
inductive Twins (config config' : Config) : Session → Session → Prop where
  | start (console : Console) : Twins config config' (start config console) (start config' console)
  | console {s s'} (console : Console) : Twins config config' s s' →
      Twins config config' (s.withConsole console) (s'.withConsole console)
  | act {s s' t t'} (a : Act) {bound : Nat} : Twins config config' s s' →
      (a.perform bound s).state? = some t → (a.perform bound s').state? = some t' →
      Twins config config' t t'

variable {limit : Nat} {s s' : Session}

/-- Sessions of which one binds functions without names and the other does not, on the same console and
with stores that agree but for the name that stands for such functions. -/
structure Veiled (limit : Nat) (s s' : Session) : Prop where
  world : World.Related (Store.Veils anonymousName) [] [] s.world s'.world
  globals_eq : s.globals = s'.globals
  config_eq : s.config = ⟨limit, true⟩
  config_eq' : s'.config = ⟨limit, false⟩

theorem lifts_veils (limit : Nat) :
    Lifts (Store.Veils anonymousName) Eq (Value.Same anonymousName) ⟨limit, true⟩ ⟨limit, false⟩ where
  evaluate {source program} hprogram before before' bound scope scope' hscope := by
    subst hscope
    exact evaluate_veiled limit bound (Expr.ofSource?_avoids hprogram) scope {}
  addGlobal h := ⟨h.agree.size_eq, h.addGlobal⟩
  release hscope st st' h := by
    subst hscope
    exact h.release _

namespace Veiled

theorem start (limit : Nat) (console : Console) :
    Veiled limit (Session.start ⟨limit, true⟩ console) (Session.start ⟨limit, false⟩ console) where
  world := ⟨Store.Veils.addGlobal ⟨.refl {}, .unmade {}⟩, .refl console⟩
  globals_eq := rfl
  config_eq := rfl
  config_eq' := rfl

theorem perform (h : Veiled limit s s') (a : Act) (bound : Nat) :
    (a.perform bound s).Relates (Veiled limit) Eq (Value.Same anonymousName) (a.perform bound s') := by
  obtain ⟨w, globals, config⟩ := s
  obtain ⟨w', globals', config'⟩ := s'
  obtain ⟨hw, hglobals, hconfig, hconfig'⟩ := h
  obtain rfl : config = ⟨limit, true⟩ := hconfig
  obtain rfl : config' = ⟨limit, false⟩ := hconfig'
  exact (lifts_veils limit).perform a bound hw (Or.inr hglobals) fun w w' hw => ⟨hw, hglobals, rfl, rfl⟩

/-- What is done next ends in both sessions or in none, and leaves them as alike as they were. -/
theorem state? (h : Veiled limit s s') (a : Act) (bound : Nat) :
    Option.Rel (Veiled limit) (a.perform bound s).state? (a.perform bound s').state? := by
  have hperform := h.perform a bound
  generalize a.perform bound s = o at hperform ⊢
  generalize a.perform bound s' = o' at hperform ⊢
  cases hperform with
  | done _ hs => exact .some hs
  | failed _ hs => exact .some hs
  | unfinished => exact .none

end Veiled

theorem Twins.veiled (h : Twins ⟨limit, true⟩ ⟨limit, false⟩ s s') : Veiled limit s s' := by
  induction h with
  | start console => exact .start limit console
  | console console _ ih =>
    exact ⟨⟨ih.world.store, .refl console⟩, ih.globals_eq, ih.config_eq, ih.config_eq'⟩
  | @act s s' t t' a bound _ ht ht' ih =>
    have hstate := ih.state? a bound
    rw [ht, ht'] at hstate
    cases hstate with
    | some hveiled => exact hveiled

/-- Every session that binds functions without names has a twin that does not. -/
theorem exists_twin {runs : List (Run Span)} (h : History ⟨limit, true⟩ runs s) :
    ∃ s', Twins ⟨limit, true⟩ ⟨limit, false⟩ s s' := by
  induction h with
  | start console => exact ⟨_, .start console⟩
  | console console _ ih =>
    obtain ⟨s', htwins⟩ := ih
    exact ⟨_, htwins.console console⟩
  | @act _ s a bound t _ ht ih =>
    obtain ⟨s', htwins⟩ := ih
    have hstate := htwins.veiled.state? a bound
    rw [ht] at hstate
    cases ht' : (a.perform bound s').state? with
    | none =>
      rw [ht'] at hstate
      cases hstate
    | some t' => exact ⟨t', htwins.act a ht ht'⟩

/-- Every name in a program is an identifier, so bindings of functions without names are not seen: of two
sessions, one of which makes them and one does not, everything comes to the same value or to the same
error, with the same written and the same read. -/
theorem anonymous_unseen :
    (∀ source program, Expr.ofSource? source = .ok program →
      ∀ node ∈ program.nodes, ∀ name ∈ node.names, IsIdentifier name) ∧
    (∀ limit runs s, History ⟨limit, true⟩ runs s → ∃ s', Twins ⟨limit, true⟩ ⟨limit, false⟩ s s') ∧
    ∀ limit s s', Twins ⟨limit, true⟩ ⟨limit, false⟩ s s' → ∀ (a : Act) bound,
      (a.perform bound s).Relates (fun t t' => t.world.console = t'.world.console) Eq Eq
        (a.perform bound s') := by
  refine ⟨fun source program => Expr.ofSource?_names, fun limit runs s => exists_twin,
    fun limit s s' htwins a bound => ?_⟩
  exact (htwins.veiled.perform a bound).mono (fun _ _ hs => hs.world.console.eq) fun _ _ hv => hv.1

/-- A program binds a name to a function that has none itself, and another program calls it.  By then one
session binds the name that stands for the function, and its twin does not. -/
theorem anonymous_unseen_call :
    let make : Source := ⟨"make", "let f = fun(a) { a }"⟩
    let use : Act := .run ⟨"use", "f(1)"⟩
    ∃ program s s', Expr.ofSource? make = .ok program ∧
      (∀ node ∈ program.nodes, ∀ name ∈ node.names, IsIdentifier name) ∧
      Twins ⟨3, true⟩ ⟨3, false⟩ s s' ∧
      (s.world.store.get? s.globals anonymousName).isSome ∧
      s'.world.store.get? s'.globals anonymousName = none ∧
      (use.perform 9 s).Relates (fun t t' => t.world.console = t'.world.console) Eq Eq
        (use.perform 9 s') := by
  intro make use
  let span (start stop : Nat) : Span := ⟨make, ⟨start, 0, start⟩, ⟨stop, 0, stop⟩⟩
  -- The text is scanned first, which is all that does not reduce by itself.
  have hmake : TokenStream.ofSource? make = .ok
      ⟨[⟨.keyword .let_, span 0 3⟩, ⟨.identifier "f", span 4 5⟩, ⟨.mark .equal, span 6 7⟩,
        ⟨.keyword .fun_, span 8 11⟩, ⟨.mark .leftParen, span 11 12⟩, ⟨.identifier "a", span 12 13⟩,
        ⟨.mark .rightParen, span 13 14⟩, ⟨.mark .leftBrace, span 15 16⟩, ⟨.identifier "a", span 17 18⟩,
        ⟨.mark .rightBrace, span 19 20⟩], span 20 20⟩ := by cbv
  let body : Expr Span := .block (span 15 20) [.reference (span 17 18) "a"]
  let program : Expr Span := .block (span 0 20)
    [.assign (span 0 20) "f" (.function (span 8 20) none ["a"] body)]
  have hprogram : Expr.ofSource? make = .ok program := by
    rw [Expr.ofSource?, hmake]
    rfl
  have hrun (config : Config) :
      ((Act.run make).perform 9 (Session.start config {})).state? =
        (evaluate config 9 program 0 {} (Session.start config {}).world).state?.map (⟨·, 0, config⟩) := by
    rw [Act.state?_perform rfl, Source.state?_execute, hprogram]
    rfl
  have hstart : Twins ⟨3, true⟩ ⟨3, false⟩ _ _ := .start {}
  have htwins := hstart.act (.run make) ((hrun _).trans rfl) ((hrun _).trans rfl)
  obtain ⟨hnames, -, hunseen⟩ := anonymous_unseen
  exact ⟨program, _, _, hprogram, hnames make program hprogram, htwins, rfl, rfl,
    hunseen 3 _ _ htwins use 9⟩

end Session
end Cyan
