/-
Files that are run together.

The files of one command line share a console and an interpreter.  Nothing but the console passes from
one to the next: running files together is running the first of them, and then the others on the input
that these have left (`Command.run_append`).  This holds however a file fails and whatever it binds.

A file is run in a scope of its own, so the session behind some files is as good as a new one on the same
input.  `Alongside` relates the two, and each further file keeps it.  It also relates the exit codes,
of which the first is 0 only if no file before has failed.
-/
import Cyan.Command
import Cyan.Proofs.Session.Isolation
import Cyan.Proofs.Session.Replay

namespace Cyan

theorem Session.Alike.print {ρ : ScopeId → ScopeId → Prop} {before before' : List Console.Event}
    {s s' : Session} (h : Alike ρ before before' s s') (text : String) :
    Alike ρ before before' (s.print text) (s'.print text) :=
  ⟨⟨h.world.store, (h.world.console.write text).2⟩, h.config_eq⟩

namespace Command

variable {bound : Nat} {files : Files} {ρ : ScopeId → ScopeId → Prop} {before before' : List Console.Event}
  {code : Nat}

/-! ## One file after the other -/

/-- The exit code and the session of two runs.  The first has come behind other files, with the exit
code `code`. -/
structure Alongside (code : Nat) (ρ : ScopeId → ScopeId → Prop) (before before' : List Console.Event)
    (p p' : Nat × Session) : Prop where
  session : p.2.Alike ρ before before' p'.2
  exit : p.1 = 0 ↔ code = 0 ∧ p'.1 = 0

/-- A file does the same in both runs. -/
theorem runPath_alongside (bound : Nat) (files : Files) (hρ : Relator.BiUnique ρ) {p p' : Nat × Session}
    (h : Alongside code ρ before before' p p') (path : String) :
    Option.Rel (Alongside code ρ before before') (runPath bound files p path)
      (runPath bound files p' path) := by
  obtain ⟨k, s⟩ := p
  obtain ⟨k', s'⟩ := p'
  have hfile : (s.runFile bound files path).Relates (Session.Alike ρ before before') Eq (Value.Alike id ρ)
      (s'.runFile bound files path) :=
    Session.perform_alike hρ (.file files path) bound h.session (Or.inl rfl)
  rw [runPath, runPath]
  by_cases hhas : files.has path = true
  · rw [if_pos hhas, if_pos hhas]
    generalize s.runFile bound files path = o at hfile ⊢
    generalize s'.runFile bound files path = o' at hfile ⊢
    cases hfile with
    | done _ hs => exact .some ⟨hs, h.exit⟩
    | @failed d d' _ _ hd hs =>
      subst hd
      exact .some ⟨hs.print _, by omega⟩
    | unfinished => exact .none
  · rw [if_neg hhas, if_neg hhas]
    exact .some ⟨h.session, by omega⟩

theorem runPaths_alongside (bound : Nat) (files : Files) (hρ : Relator.BiUnique ρ) (paths : List String)
    {p p' : Nat × Session} (h : Alongside code ρ before before' p p') :
    Option.Rel (Alongside code ρ before before') (paths.foldlM (runPath bound files) p)
      (paths.foldlM (runPath bound files) p') := by
  induction paths generalizing p p' with
  | nil => exact .some h
  | cons path rest ih =>
    rw [List.foldlM_cons, List.foldlM_cons]
    have hstep := runPath_alongside bound files hρ h path
    generalize runPath bound files p path = o at hstep ⊢
    generalize runPath bound files p' path = o' at hstep ⊢
    cases hstep with
    | none => exact .none
    | some hnext => exact ih hnext

/-- The session behind a file has the settings of the one before, and a console that has become what it
is by what happened meanwhile. -/
theorem runPath_follows {p q : Nat × Session} {path : String} (h : runPath bound files p path = some q) :
    q.2.config = p.2.config ∧ p.2.world.console.Follows q.2.world.console := by
  obtain ⟨k, s⟩ := p
  have hended (s' : Session) (hs : (s.runFile bound files path).state? = some s') :
      s'.config = s.config ∧ s.world.console.Follows s'.world.console :=
    ⟨(Act.perform_cases (a := .file files path) hs).2.1, Act.perform_follows (a := .file files path) hs⟩
  rw [runPath] at h
  split at h
  · cases hfile : s.runFile bound files path with
    | done v s' =>
      rw [hfile] at h
      cases h
      exact hended s' (by rw [hfile]; rfl)
    | failed d s' =>
      rw [hfile] at h
      cases h
      obtain ⟨hconfig, events, hevents⟩ := hended s' (by rw [hfile]; rfl)
      obtain ⟨printed, hprinted⟩ := Console.write_follows (d.report ++ "\n") s'.world.console
      exact ⟨hconfig, printed ++ events, hevents.trans hprinted⟩
    | unfinished =>
      rw [hfile] at h
      cases h
  · cases h
    exact ⟨rfl, [], .refl _⟩

theorem runPaths_follows {paths : List String} {p q : Nat × Session}
    (h : paths.foldlM (runPath bound files) p = some q) :
    q.2.config = p.2.config ∧ p.2.world.console.Follows q.2.world.console := by
  induction paths generalizing p with
  | nil =>
    cases h
    exact ⟨rfl, [], .refl _⟩
  | cons path rest ih =>
    rw [List.foldlM_cons] at h
    obtain ⟨next, hnext, hrest⟩ := Option.bind_eq_some_iff.mp h
    obtain ⟨hconfig, events, hevents⟩ := runPath_follows hnext
    obtain ⟨hconfig', events', hevents'⟩ := ih hrest
    exact ⟨hconfig'.trans hconfig, events' ++ events, hevents.trans hevents'⟩

/-- What is written in two runs that go on alongside each other is the same. -/
theorem Alongside.output_eq {p p' : Nat × Session} (h : Alongside code ρ before [] p p') :
    p.2.world.console.output = Console.written before ++ p'.2.world.console.output := by
  obtain ⟨events, htranscript, htranscript'⟩ := h.session.world.console.transcript_eq
  show Console.written _ = _ ++ Console.written _
  rw [htranscript, htranscript', Console.written_append, List.append_nil]

/-! ## The command -/

/-- The new session of a command. -/
def opened (input : List Input) : Session := Session.start {} { input }

/-- The session behind some files and a new one on the input they have left go on alongside each
other. -/
theorem alongside_opened {paths : List String} {input : List Input} {p : Nat × Session}
    (h : paths.foldlM (runPath bound files) (0, opened input) = some p) :
    ∃ ρ, Relator.BiUnique ρ ∧ Alongside p.1 ρ p.2.world.console.transcript [] p
      (0, opened p.2.world.console.input) := by
  obtain ⟨hconfig, events, hevents⟩ := runPaths_follows h
  have hroom : p.2.world.console.room? = none := hevents.room?_eq rfl
  exact ⟨_, Store.Shares.biUnique (Nat.zero_le _) (Nat.zero_le _),
    ⟨⟨.of_none _ _, rfl, hroom, [], rfl, rfl⟩, hconfig⟩, (and_iff_left rfl).symm⟩

/-- A command line with files runs them one after the other in a new session. -/
theorem run_of_paths {arguments paths : List String} {debug : Bool} (hpaths : paths ≠ [])
    (harguments : Request.ofArguments arguments = .run debug paths) (input : List Input)
    (rules? : Option String) :
    run bound files input rules? arguments =
      (paths.foldlM (runPath bound files) (0, opened input)).map fun p => .ofSession p.1 p.2 := by
  rw [run, harguments]
  obtain ⟨path, rest, rfl⟩ := List.exists_cons_of_ne_nil hpaths
  rw [perform, runFiles, ← opened]
  · cases (path :: rest).foldlM (runPath bound files) (0, opened input) <;> rfl
  · exact fun h => nomatch h

section

variable {arguments first second P Q : List String} {debug debug₁ debug₂ : Bool}

/-- Running files together is running the first of them, and then the others on the input that is
left. -/
theorem run_append (hP : P ≠ []) (hQ : Q ≠ [])
    (harguments : Request.ofArguments arguments = .run debug (P ++ Q))
    (hfirst : Request.ofArguments first = .run debug₁ P)
    (hsecond : Request.ofArguments second = .run debug₂ Q)
    (bound : Nat) (files : Files) (input : List Input) (rules? : Option String) :
    (∀ r t, run bound files input rules? first = some r →
      run bound files r.unread rules? second = some t →
      ∃ u, run bound files input rules? arguments = some u ∧ u.output = r.output ++ t.output ∧
        u.unread = t.unread ∧ (u.exit = 0 ↔ r.exit = 0 ∧ t.exit = 0)) ∧
    (run bound files input rules? arguments = none ↔ run bound files input rules? first = none ∨
      ∃ r, run bound files input rules? first = some r ∧
        run bound files r.unread rules? second = none) := by
  have hPQ : P ++ Q ≠ [] := fun h => hP (List.append_eq_nil_iff.mp h).1
  simp only [run_of_paths hPQ harguments, run_of_paths hP hfirst, run_of_paths hQ hsecond,
    List.foldlM_append]
  cases hleft : P.foldlM (runPath bound files) (0, opened input) with
  | none => exact ⟨fun r t hr => (nomatch hr), ⟨fun _ => Or.inl rfl, fun _ => rfl⟩⟩
  | some p =>
    obtain ⟨ρ, hρ, halongside⟩ := alongside_opened hleft
    have hright := runPaths_alongside bound files hρ Q halongside
    rw [Option.bind_eq_bind, Option.bind_some]
    generalize Q.foldlM (runPath bound files) p = o at hright ⊢
    constructor
    · intro r t hr ht
      obtain rfl := Option.some.inj hr
      obtain ⟨q', hq', rfl⟩ := Option.map_eq_some_iff.mp ht
      change Q.foldlM (runPath bound files) (0, opened p.2.world.console.input) = some q' at hq'
      rw [hq'] at hright
      cases hright with
      | @some q _ hq =>
        exact ⟨_, rfl, hq.output_eq, hq.session.world.console.input_eq, hq.exit⟩
    · generalize hlater : Q.foldlM (runPath bound files) (0, opened p.2.world.console.input) = o' at hright
      cases hright with
      | none =>
        refine ⟨fun _ => Or.inr ⟨_, rfl, ?_⟩, fun _ => rfl⟩
        exact congrArg (Option.map _) hlater
      | some =>
        refine ⟨fun h => (nomatch h), ?_⟩
        rintro (h | ⟨r, hr, h⟩)
        · cases h
        · obtain rfl := Option.some.inj hr
          have hdone := Option.map_eq_none_iff.mp h
          exact absurd (hlater.symm.trans hdone) nofun

end

set_option maxRecDepth 4000 in
/-- A file is missing, and of two that read a line and write it, the second reads the line that the
first has left. -/
theorem run_append_missing :
    let files : Files := fun path =>
      if path = "missing" then .error .notFound else .ok "out(inp())".toUTF8
    run 9 files [.line "x", .line "y"] none ["missing", "a"] = some ⟨1, "x\n", [.line "y"]⟩ ∧
      run 9 files [.line "y"] none ["b"] = some ⟨0, "y\n", []⟩ ∧
      ∃ u, run 9 files [.line "x", .line "y"] none ["missing", "a", "b"] = some u ∧
        u.output = "x\n" ++ "y\n" ∧ u.unread = [] ∧ (u.exit = 0 ↔ 1 = 0 ∧ 0 = 0) := by
  intro files
  have harguments : Request.ofArguments ["missing", "a", "b"] = .run false (["missing", "a"] ++ ["b"]) := by
    decide +kernel
  have hfirst : Request.ofArguments ["missing", "a"] = .run false ["missing", "a"] := by decide +kernel
  have hsecond : Request.ofArguments ["b"] = .run false ["b"] := by decide +kernel
  have hcontent (path : String) (h : path ≠ "missing") : files path = .ok "out(inp())".toUTF8 := if_neg h
  have hhas (path : String) (h : path ≠ "missing") : files.has path = true := by
    rw [Files.has, hcontent path h]
  have hrun (path : String) (h : path ≠ "missing") (s : Session) :
      s.runFile 9 files path = s.runFresh 9 ⟨path, "out(inp())"⟩ := by
    rw [Session.runFile, Files.readText_of_encoded (hcontent path h)]
  -- The text is scanned first, which is all that does not reduce by itself.
  have hscan (name : String) : TokenStream.ofSource? ⟨name, "out(inp())"⟩ = .ok
      (let span (start stop : Nat) : Span :=
        ⟨⟨name, "out(inp())"⟩, ⟨start, 0, start⟩, ⟨stop, 0, stop⟩⟩
      ⟨[⟨.identifier "out", span 0 3⟩, ⟨.mark .leftParen, span 3 4⟩, ⟨.identifier "inp", span 4 7⟩,
        ⟨.mark .leftParen, span 7 8⟩, ⟨.mark .rightParen, span 8 9⟩, ⟨.mark .rightParen, span 9 10⟩],
        span 10 10⟩) := by cbv
  have hr : run 9 files [.line "x", .line "y"] none ["missing", "a"] =
      some ⟨1, "x\n", [.line "y"]⟩ := by
    rw [run_of_paths (List.cons_ne_nil _ _) hfirst]
    show Option.map _ (List.foldlM (runPath 9 files) (1, opened [.line "x", .line "y"]) ["a"]) = _
    rw [List.foldlM_cons, runPath, if_pos (hhas "a" (by decide)), hrun "a" (by decide)]
    simp only [Session.runFresh, Source.execute, Expr.ofSource?, hscan]
    rfl
  have ht : run 9 files [.line "y"] none ["b"] = some ⟨0, "y\n", []⟩ := by
    rw [run_of_paths (List.cons_ne_nil _ _) hsecond, List.foldlM_cons, runPath,
      if_pos (hhas "b" (by decide)), hrun "b" (by decide)]
    simp only [Session.runFresh, Source.execute, Expr.ofSource?, hscan]
    rfl
  have happend := run_append (List.cons_ne_nil _ _) (List.cons_ne_nil _ _) harguments hfirst hsecond 9 files
    [.line "x", .line "y"] none
  exact ⟨hr, ht, happend.1 _ _ hr ht⟩

end Command
end Cyan
