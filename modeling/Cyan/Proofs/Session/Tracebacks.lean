/-
Tracebacks tell what has happened.

A run-time error is placed at a node of a program that the session has run, which may be an earlier one
than the program that fails, and the lines of its traceback are for the calls that were active
(`History.reports_calls`).

What a run comes to stands in a program of the session by lexical scoping, and all places in a program
are in the source that it was read from (`Within.source_eq`): reading depends on the places of tokens
only through the places of nodes, and the tokens of a text are all in that text.
-/
import Cyan.Proofs.Evaluation.Failures
import Cyan.Proofs.Evaluation.Traceback
import Cyan.Proofs.Grammar.Sources
import Cyan.Proofs.Session.Lexical

namespace Cyan

variable {Place Place' : Type} {config : Config} {runs : List (Run Span)} {s s' : Session}

/-! ## Where nodes are -/

theorem Expr.children_map (f : Place → Place') (e : Expr Place) :
    (e.map f).children = e.children.map (Expr.map f) := by
  cases e <;> simp [map, children, mapAll_eq_map]

/-- Maps that agree on the places of a program agree on the places of what stands in it. -/
theorem Within.map_eq {f g : Place → Place'} {program node : Expr Place} {ds : List (Expr Place)}
    (h : Within program ds node) (hmap : program.map f = program.map g) : node.map f = node.map g := by
  have hchildren {e part : Expr Place} (he : e.map f = e.map g) (hpart : part ∈ e.children) :
      part.map f = part.map g := by
    have hlists := congrArg Expr.children he
    rw [Expr.children_map, Expr.children_map, List.map_inj_left] at hlists
    exact hlists part hpart
  induction h with
  | root => exact hmap
  | inside _ _ hpart ih => exact hchildren ih hpart
  | body _ ih => exact hchildren ih List.mem_cons_self

/-- The tokens of a text are in that text. -/
theorem TokenStream.map_source {source : Source} {stream : TokenStream Span}
    (h : TokenStream.ofSource? source = .ok stream) :
    stream.map Span.source = stream.map fun _ => source := by
  obtain ⟨pieces, dot, -, rfl⟩ := TokenStream.ofSource?_eq_ok.mp h
  have htokens (start : Position) (pieces : List Piece) :
      (Piece.tokens source start pieces).map (Token.map Span.source) =
        (Piece.tokens source start pieces).map (Token.map fun _ => source) := by
    induction pieces generalizing start with
    | nil => rfl
    | cons p rest ih =>
      rw [Piece.tokens, List.map_append, List.map_append, ih]
      cases p.kind? <;> rfl
  exact congrArg₂ mk (htokens .origin pieces) rfl

/-- What stands in a program is in the source that the program was read from. -/
theorem Within.source_eq {source : Source} {program node : Expr Span} {ds : List (Expr Span)}
    (hprogram : Expr.ofSource? source = .ok program) (h : Within program ds node) :
    node.place.source = source := by
  have hjoins : Grammar.Joins Span.source Span.through fun a _ => a := fun _ _ => rfl
  have hconst : Grammar.Joins (fun _ => source) Span.through fun a _ => a := fun _ _ => rfl
  have hmap : program.map Span.source = program.map fun _ => source := by
    cases hs : TokenStream.ofSource? source with
    | error e =>
      rw [Expr.ofSource?, hs] at hprogram
      cases hprogram
    | ok stream =>
      have hread := Expr.ofTokens?_map Span.source hjoins stream
      rw [TokenStream.map_source hs, Expr.ofTokens?_map _ hconst] at hread
      rw [Expr.ofSource?_of_tokens hs, Expr.ofStream?] at hprogram
      cases hr : Expr.ofTokens? Span.through stream with
      | error e =>
        rw [hr] at hprogram
        cases hprogram
      | ok e =>
        rw [hr] at hread hprogram
        cases hprogram
        exact (Except.ok.inj hread).symm
  have hplace := congrArg Expr.place (h.map_eq hmap)
  rwa [Expr.place_map, Expr.place_map] at hplace

/-! ## Runs of a session -/

theorem Act.begun_source {a : Act} {r : Run Span} (h : a.begun s = some r) :
    ∃ source, Expr.ofSource? source = .ok r.program := by
  obtain ⟨source, -, h⟩ := Option.bind_eq_some_iff.mp h
  obtain ⟨program, hprogram, h⟩ := Option.bind_eq_some_iff.mp h
  cases h
  refine ⟨source, ?_⟩
  cases hread : Expr.ofSource? source with
  | error d =>
    rw [hread] at hprogram
    cases hprogram
  | ok e =>
    rw [hread] at hprogram
    cases hprogram
    rfl

/-- Every program that a session has run was read from a source. -/
theorem History.exists_source (h : History config runs s) :
    ∀ r ∈ runs, ∃ source, Expr.ofSource? source = .ok r.program := by
  induction h with
  | start => simp
  | console _ _ ih => exact ih
  | @act runs s a bound s' _ _ ih =>
    intro r hr
    rcases List.mem_append.mp hr with hr | hr
    · exact Act.begun_source (Option.mem_toList.mp hr)
    · exact ih r hr

/-- A source that is no program is reported before anything is run. -/
theorem Expr.ofSource?_ne_runtime (source : Source) (e : RuntimeError Span) :
    Expr.ofSource? source ≠ .error (.runtime e) := by
  intro h
  cases hs : TokenStream.ofSource? source with
  | error fault =>
    rw [ofSource?, hs] at h
    cases h
  | ok stream =>
    rw [ofSource?_of_tokens hs] at h
    cases hr : Expr.ofStream? stream with
    | error fault =>
      rw [hr] at h
      cases h
    | ok program =>
      rw [hr] at h
      cases h

theorem Session.resume_failed {α : Type} {globals : ScopeId}
    {o : Outcome (World Span) Diagnostic α} {d : Diagnostic}
    (h : resume config globals o = .failed d s') : ∃ w, o = .failed d w := by
  cases o with
  | failed d' w =>
    cases h
    exact ⟨w, rfl⟩
  | done | unfinished => cases h

theorem Session.releasing_failed {α : Type} {scope : ScopeId}
    {o : Outcome (World Span) Diagnostic α} {d : Diagnostic} {w : World Span}
    (h : releasing scope o = .failed d w) : ∃ w, o = .failed d w := by
  cases o with
  | failed d' w =>
    cases h
    exact ⟨w, rfl⟩
  | done | unfinished => cases h

namespace Act

variable {a : Act} {bound : Nat}

/-- An error that an act ends with while its source is run is one that running the source ends with. -/
theorem execute_failed {source : Source} (hsource : a.source? = some source) {d : Diagnostic}
    (h : a.perform bound s = .failed d s') :
    ∃ w, source.execute s.config bound (a.opening s).1 (a.opening s).2 = .failed d w := by
  have hfresh (h : Session.runFresh bound source s = .failed d s') :
      ∃ w, source.execute s.config bound (opening (.fresh source) s).1
        (opening (.fresh source) s).2 = .failed d w := by
    obtain ⟨w, hw⟩ := Session.resume_failed h
    exact Session.releasing_failed hw
  cases a with
  | run =>
    cases hsource
    exact Session.resume_failed h
  | fresh =>
    cases hsource
    exact hfresh h
  | file files path =>
    cases hread : files.readText path with
    | error fault =>
      rw [source?, hread] at hsource
      cases hsource
    | ok text =>
      rw [source?, hread] at hsource
      cases hsource
      refine hfresh ?_
      rw [← h]
      show _ = Session.runFile bound files path s
      rw [Session.runFile, hread]

/-- An act that ends with a run-time error has begun a run whose evaluation fails with it. -/
theorem perform_failed {e : RuntimeError Span} (h : a.perform bound s = .failed (.runtime e) s') :
    ∃ r w, a.begun s = some r ∧ r.visit.outcome s.config bound = .failed e w := by
  cases hsource : a.source? with
  | none =>
    cases a with
    | run | fresh => cases hsource
    | file files path =>
      change Session.runFile bound files path s = _ at h
      rw [Session.runFile] at h
      cases hread : files.readText path with
      | error fault =>
        rw [hread] at h
        cases h
      | ok text =>
        rw [source?, hread] at hsource
        cases hsource
  | some source =>
    obtain ⟨w, hw⟩ := execute_failed hsource h
    rw [Source.execute] at hw
    cases hprogram : Expr.ofSource? source with
    | error d =>
      rw [hprogram] at hw
      cases hw
      exact absurd hprogram (Expr.ofSource?_ne_runtime source e)
    | ok program =>
      rw [hprogram] at hw
      refine ⟨⟨program, (a.opening s).1, (a.opening s).2⟩, ?_⟩
      have hbegun : a.begun s = some ⟨program, (a.opening s).1, (a.opening s).2⟩ := by
        rw [begun, hsource]
        show (Expr.ofSource? source).toOption.bind _ = _
        rw [hprogram]
        rfl
      dsimp only at hw
      cases houtcome : evaluate s.config bound program (a.opening s).1 {} (a.opening s).2 with
      | failed e' w' =>
        rw [houtcome] at hw
        cases hw
        exact ⟨_, hbegun, houtcome⟩
      | done v w' =>
        rw [houtcome] at hw
        cases hw
      | unfinished =>
        rw [houtcome] at hw
        cases hw

end Act

namespace History

/-- Every node that a run comes to stands in a program of the session, this one or an earlier one, and is
in the source of that program. -/
theorem stands_in_source (h : History config runs s) {a : Act} {r : Run Span}
    (hr : a.begun s = some r) {t : Visit Span} (ht : r.visit.Reaches config t) :
    ∃ r' ∈ r :: runs, ∃ source ds, Expr.ofSource? source = .ok r'.program ∧
      Within r'.program ds t.node ∧ t.node.place.source = source := by
  have hsits := (Act.opens_begun h.lexical hr).sits.reaches (Visited.first config r runs) ht
  obtain ⟨r', hr', -, ds, hwithin, -⟩ := hsits.stands
  obtain ⟨source, hsource⟩ : ∃ source, Expr.ofSource? source = .ok r'.program := by
    rcases List.mem_cons.mp hr' with rfl | hr'
    · exact Act.begun_source hr
    · exact h.exists_source r' hr'
  exact ⟨r', hr', source, ds, hsource, hwithin, hwithin.source_eq hsource⟩

/-- A run-time error is raised by a visit that the run has come to, and has the place of its node.  The
traceback has a line for that visit and for each of the calls that have led there, down to the program.
All nodes a run comes to stand in programs of the session and are in their sources. -/
theorem reports_calls (h : History config runs s) {a : Act} {bound : Nat} {e : RuntimeError Span}
    (hfailed : a.perform bound s = .failed (.runtime e) s') :
    ∃ r t, a.begun s = some r ∧ r.visit.Reaches config t ∧ t.Blames config e ∧
      Run.Traceback config r t e.trace ∧
      (e.trace.head?.map fun line => (line.2.source.name, line.2.line)) =
        some (e.place.source.name, e.place.line) ∧
      (e.trace.getLast?.map fun line => line.1.shown) = some "<module>" ∧
      ∀ v, r.visit.Reaches config v →
        ∃ r' ∈ r :: runs, ∃ source ds, Expr.ofSource? source = .ok r'.program ∧
          Within r'.program ds v.node ∧ v.node.place.source = source := by
  obtain ⟨r, w, hr, houtcome⟩ := Act.perform_failed hfailed
  rw [h.lexical.config_eq] at houtcome
  obtain ⟨t, ht, hblames⟩ := Visit.exists_blames houtcome
  have htraceback := Run.traceback ht
  rw [← hblames.trace_eq] at htraceback
  refine ⟨r, t, hr, ht, hblames, htraceback, ?_, ?_, fun v hv => h.stands_in_source hr hv⟩
  · have hhead := congrArg (Option.map fun place : Span => (place.source.name, place.line))
      htraceback.head?
    rwa [Option.map_map, ← hblames.place_eq] at hhead
  · have hlast := congrArg (Option.map Context.shown) htraceback.getLast?
    rwa [Option.map_map] at hlast

set_option maxRecDepth 4000 in
/-- The second run calls a function of its own, which calls one that the first run has bound.  The error
is found in the text of the first run. -/
theorem reports_calls_later_run :
    let make : Source := ⟨"make", "fun f() { x }"⟩
    let use : Source := ⟨"use", "fun g() { f() }; g()"⟩
    ∃ s r e s' t, ((Act.run make).perform 9 (Session.start {} {})).state? = some s ∧
      (Act.run use).begun s = some r ∧
      (Act.run use).perform 9 s = .failed (.runtime e) s' ∧ e.place.source = make ∧
      (e.trace.map fun line => (line.1.shown, line.2.source.name)) =
        [("f", "make"), ("g", "use"), ("<module>", "use")] ∧
      t.Blames {} e ∧ Run.Traceback {} r t e.trace := by
  intro make use
  let span (source : Source) (start stop : Nat) : Span :=
    ⟨source, ⟨start, 0, start⟩, ⟨stop, 0, stop⟩⟩
  -- The texts are scanned and parsed first, which is all that does not reduce by itself.
  have hmake : TokenStream.ofSource? make = .ok
      ⟨[⟨.keyword .fun_, span make 0 3⟩, ⟨.identifier "f", span make 4 5⟩,
        ⟨.mark .leftParen, span make 5 6⟩, ⟨.mark .rightParen, span make 6 7⟩,
        ⟨.mark .leftBrace, span make 8 9⟩, ⟨.identifier "x", span make 10 11⟩,
        ⟨.mark .rightBrace, span make 12 13⟩], span make 13 13⟩ := by cbv
  have huse : TokenStream.ofSource? use = .ok
      ⟨[⟨.keyword .fun_, span use 0 3⟩, ⟨.identifier "g", span use 4 5⟩,
        ⟨.mark .leftParen, span use 5 6⟩, ⟨.mark .rightParen, span use 6 7⟩,
        ⟨.mark .leftBrace, span use 8 9⟩, ⟨.identifier "f", span use 10 11⟩,
        ⟨.mark .leftParen, span use 11 12⟩, ⟨.mark .rightParen, span use 12 13⟩,
        ⟨.mark .rightBrace, span use 14 15⟩, ⟨.mark .semicolon, span use 15 16⟩,
        ⟨.identifier "g", span use 17 18⟩, ⟨.mark .leftParen, span use 18 19⟩,
        ⟨.mark .rightParen, span use 19 20⟩], span use 20 20⟩ := by cbv
  let f : Expr Span := .block (span make 8 13) [.reference (span make 10 11) "x"]
  have hfirst : Expr.ofSource? make =
      .ok (.block (span make 0 13) [.function (span make 0 13) (some "f") [] f]) := by
    rw [Expr.ofSource?, hmake]
    rfl
  let g : Expr Span :=
    .block (span use 8 15) [.call (span use 10 13) (.reference (span use 10 11) "f") []]
  let program : Expr Span := .block (span use 0 20)
    [.function (span use 0 15) (some "g") [] g,
      .call (span use 17 20) (.reference (span use 17 18) "g") []]
  have hsecond : Expr.ofSource? use = .ok program := by
    rw [Expr.ofSource?, huse]
    rfl
  let w : World Span :=
    { store := (Store.addGlobal {}).2.set 0 "f" (.function ⟨some "f", [], f, 0⟩) }
  let s : Session := ⟨w, 0, {}⟩
  have hs : ((Act.run make).perform 9 (Session.start {} {})).state? = some s := by
    rw [Act.state?_perform rfl, Source.state?_execute, hfirst]
    rfl
  let e : RuntimeError Span := ⟨.undefined "x", span make 10 11, [(.function (some "f"), span make 10 11),
    (.function (some "g"), span use 10 13), (.module, span use 17 20)]⟩
  obtain ⟨s', hfailed⟩ : ∃ s', (Act.run use).perform 9 s = .failed (.runtime e) s' := by
    show ∃ s', Session.run 9 use s = .failed (.runtime e) s'
    simp only [Session.run, Source.execute, hsecond, s]
    exact ⟨_, rfl⟩
  have hhistory : History {} _ s := (History.start {}).act (.run make) hs
  obtain ⟨r, t, hr, -, hblames, htraceback, -⟩ := hhistory.reports_calls hfailed
  exact ⟨s, r, e, s', t, hs, hr, hfailed, rfl, rfl, hblames, htraceback⟩

end History
end Cyan
