/-
The shell is a session of lines.

`Shell.Turns` is about a session that no shell writes to: line after line is taken from its input, and
unless it is blank, it is run as the next program.  A `Shell.Turn` is what that comes to for one line: the
line, what happens on the console while it is run, and a remark on how it ended.

`Shell.run_turns`, for which this file is there, says that the shell is nothing but such a session with a
prompt in front of each line and the remark behind it.  It goes on until the prompt finds no line, and it
does not come to an end only if the run of a line does not.

The console of the shell has more written on it than that of the session, and that nothing depends on this
is `Session.run_withTranscript`.  `Shell.prompts_of_takes` is the law for one turn, and
`Shell.exists_turns` the one for all of them, by induction on the number of prompts.

The example scans its text by `cbv`, with the equation of `≤` that stands in
`Mathlib.Algebra.Module.Submodule.Lattice`.
-/
import Cyan.Proofs.Session.Replay
import Cyan.Shell
import Mathlib.Algebra.Module.Submodule.Lattice

namespace Cyan

open Console (taken written)

namespace Session

/-- The session with this for the input that is left. -/
def withInput (s : Session) (input : List Input) : Session :=
  s.withConsole { s.world.console with input }

theorem print_withTranscript {s : Session} (hroom : s.world.console.room? = none) (text : String)
    (transcript : List Console.Event) :
    (s.withTranscript transcript).print text = s.withTranscript (.wrote text :: transcript) := by
  obtain ⟨⟨store, input, room?, earlier⟩, globals, config⟩ := s
  obtain rfl : room? = none := hroom
  rfl

end Session

namespace Shell

/-- A line that is taken from the input, what happens on the console when it is run, the latest first,
and what there is to say about it. -/
structure Turn where
  line : String
  events : List Console.Event
  remark? : Option String

/-- What there is to say about the run of a line: the form in which a value is printed, unless it is
`none`, or the report of an error. -/
def remark? : Outcome Session Diagnostic (Value Span) → Option String
  | .done .none _ => none
  | .done v _ => some (v.shown ++ "\n")
  | .failed d _ => some (d.report ++ "\n")
  | .unfinished => none

/-- The session takes a line from its input, and runs it unless it is blank. -/
inductive Takes (bound : Nat) (s : Session) : Turn → Session → Prop where
  | blank {line input} : s.world.console.input = .line line :: input →
      line.toList.all Text.isBlank = true → Takes bound s ⟨line, [], none⟩ (s.withInput input)
  | ran {line input t events} : s.world.console.input = .line line :: input →
      line.toList.all Text.isBlank = false →
      ((s.withInput input).run bound ⟨sourceName, line⟩).state? = some t →
      t.world.console.transcript = events ++ s.world.console.transcript →
      Takes bound s ⟨line, events, remark? ((s.withInput input).run bound ⟨sourceName, line⟩)⟩ t

/-- The session takes one line after the other. -/
inductive Turns (bound : Nat) : Session → List Turn → Session → Prop where
  | nil {s} : Turns bound s [] s
  | cons {s t u turn turns} : Takes bound s turn t → Turns bound t turns u →
      Turns bound s (turn :: turns) u

/-- There is no line to take: the input is at its end, or the next piece of it fails.  What happens then
on the console, and the input that is left. -/
inductive Stops (s : Session) : Console.Event → List Input → Prop where
  | ended : s.world.console.input = [] → Stops s .readEnd []
  | failed {reason input} : s.world.console.input = .failure reason :: input →
      Stops s (.readFailed reason) input

/-- There is a line to take, but its run does not end. -/
def Hangs (bound : Nat) (s : Session) : Prop :=
  ∃ line input, s.world.console.input = .line line :: input ∧
    line.toList.all Text.isBlank = false ∧
    (s.withInput input).run bound ⟨sourceName, line⟩ = .unfinished

/-- The pieces of input that a turn takes: the line, and what the program reads. -/
def Turn.takes (turn : Turn) : List Input := .line turn.line :: taken turn.events

/-- What the shell does to the console in a turn, the latest first. -/
def Turn.log (turn : Turn) : List Console.Event :=
  turn.remark?.toList.map .wrote ++ (turn.events ++ [.read turn.line, .wrote prompt])

/-- What is to be seen of a turn. -/
def Turn.text (turn : Turn) : String := prompt ++ written turn.events ++ turn.remark?.getD ""

/-- What the shell does to the console from its greeting on, the latest first. -/
def log (logging : Bool) (turns : List Turn) (stop : Console.Event) : List Console.Event :=
  .wrote farewell :: stop :: .wrote prompt :: (turns.reverse.flatMap Turn.log ++ [.wrote (banner logging)])

/-! ## What a session does next -/

section

variable {bound : Nat} {s t : Session} {turn : Turn}

theorem takes_or_stops_or_hangs (bound : Nat) (s : Session) :
    (∃ turn t, Takes bound s turn t) ∨ (∃ stop input, Stops s stop input) ∨ Hangs bound s := by
  match hinput : s.world.console.input with
  | [] => exact Or.inr (Or.inl ⟨_, _, .ended hinput⟩)
  | .failure _ :: input => exact Or.inr (Or.inl ⟨_, _, .failed hinput⟩)
  | .line line :: input =>
    by_cases hline : line.toList.all Text.isBlank = true
    · exact Or.inl ⟨_, _, .blank hinput hline⟩
    · have hline : line.toList.all Text.isBlank = false := by simpa using hline
      cases hstate : ((s.withInput input).run bound ⟨sourceName, line⟩).state? with
      | some t =>
        obtain ⟨events, hbecomes⟩ := Session.run_follows bound _ hstate
        exact Or.inl ⟨_, t, .ran hinput hline hstate hbecomes.transcript_eq⟩
      | none =>
        refine Or.inr (Or.inr ⟨line, input, hinput, hline, ?_⟩)
        cases hrun : (s.withInput input).run bound ⟨sourceName, line⟩ with
        | done v t =>
          rw [hrun] at hstate
          cases hstate
        | failed d t =>
          rw [hrun] at hstate
          cases hstate
        | unfinished => rfl

/-- A turn is determined by the session it begins in. -/
theorem Takes.unique {turn' : Turn} {t' : Session} (h : Takes bound s turn t)
    (h' : Takes bound s turn' t') : turn = turn' ∧ t = t' := by
  cases h with
  | blank => cases h' <;> grind
  | ran hinput hline hstate hevents =>
    cases h' with
    | blank => grind
    | ran hinput' _ hstate' hevents' =>
      rw [hinput] at hinput'
      cases hinput'
      rw [hstate] at hstate'
      cases hstate'
      rw [List.append_cancel_right (hevents.symm.trans hevents')]
      exact ⟨rfl, rfl⟩

theorem Stops.unique {stop stop' : Console.Event} {input input' : List Input} (h : Stops s stop input)
    (h' : Stops s stop' input') : stop = stop' ∧ input = input' := by
  cases h <;> cases h' <;> simp_all

theorem Stops.not_takes {stop : Console.Event} {input : List Input} (h : Stops s stop input) :
    ¬ Takes bound s turn t := by
  intro htakes
  cases h <;> cases htakes <;> simp_all

theorem Hangs.not_takes (h : Hangs bound s) : ¬ Takes bound s turn t := by
  obtain ⟨line, input, hinput, hline, hrun⟩ := h
  intro htakes
  cases htakes with
  | blank => grind
  | ran hinput' _ hstate _ =>
    rw [hinput] at hinput'
    cases hinput'
    rw [hrun] at hstate
    cases hstate

theorem Stops.not_hangs {stop : Console.Event} {input : List Input} (h : Stops s stop input) :
    ¬ Hangs bound s := by
  rintro ⟨line, input', hinput, -⟩
  cases h <;> simp_all

theorem Takes.input_eq (h : Takes bound s turn t) :
    s.world.console.input = turn.takes ++ t.world.console.input := by
  cases h with
  | blank hinput _ => exact hinput
  | ran hinput _ hstate hevents =>
    obtain ⟨events, hbecomes⟩ := Session.run_follows bound _ hstate
    rw [List.append_cancel_right (hevents.symm.trans hbecomes.transcript_eq), hinput]
    exact congrArg _ hbecomes.input_eq

theorem Takes.room?_eq (h : Takes bound s turn t) (hroom : s.world.console.room? = none) :
    t.world.console.room? = none := by
  cases h with
  | blank => exact hroom
  | ran _ _ hstate _ =>
    obtain ⟨events, hbecomes⟩ := Session.run_follows bound _ hstate
    exact hbecomes.room?_eq hroom

/-- All turns up to where there is no further one are determined. -/
theorem Turns.unique {turns turns' : List Turn} {t' : Session} (h : Turns bound s turns t)
    (h' : Turns bound s turns' t') (ht : ∀ turn u, ¬ Takes bound t turn u)
    (ht' : ∀ turn u, ¬ Takes bound t' turn u) : turns = turns' ∧ t = t' := by
  induction h generalizing turns' with
  | nil =>
    cases h' with
    | nil => exact ⟨rfl, rfl⟩
    | cons htakes _ => exact absurd htakes (ht _ _)
  | cons htakes _ ih =>
    cases h' with
    | nil => exact absurd htakes (ht' _ _)
    | cons htakes' h' =>
      obtain ⟨rfl, rfl⟩ := htakes.unique htakes'
      obtain ⟨rfl, rfl⟩ := ih h' ht
      exact ⟨rfl, rfl⟩

theorem Turns.room?_eq {turns : List Turn} (h : Turns bound s turns t)
    (hroom : s.world.console.room? = none) : t.world.console.room? = none := by
  induction h with
  | nil => exact hroom
  | cons htakes _ ih => exact ih (htakes.room?_eq hroom)

/-- Every piece of input is taken by the prompt or by the program that is run, each once and in order. -/
theorem Turns.input_eq {turns : List Turn} (h : Turns bound s turns t) :
    s.world.console.input = turns.flatMap Turn.takes ++ t.world.console.input := by
  induction h with
  | nil => rfl
  | cons htakes _ ih => rw [htakes.input_eq, ih, List.flatMap_cons, List.append_assoc]

/-! ## What the shell does in one turn -/

theorem prompts_of_line {line : String} {input : List Input} (n : Nat)
    (hroom : s.world.console.room? = none) (hinput : s.world.console.input = .line line :: input)
    (transcript : List Console.Event) :
    prompts bound (n + 1) (s.withTranscript transcript) =
      (answer bound line ((s.withInput input).withTranscript (.read line :: .wrote prompt :: transcript))).bind
        (prompts bound n) := by
  obtain ⟨⟨store, input', room?, earlier⟩, globals, config⟩ := s
  obtain rfl : room? = none := hroom
  obtain rfl : input' = .line line :: input := hinput
  rfl

/-- After a line has been run, the shell says what there is to say. -/
theorem answer_withTranscript {line : String} {events : List Console.Event}
    (hline : line.toList.all Text.isBlank = false) (hroom : t.world.console.room? = none)
    (hstate : (s.run bound ⟨sourceName, line⟩).state? = some t)
    (hevents : t.world.console.transcript = events ++ s.world.console.transcript)
    (transcript : List Console.Event) :
    answer bound line (s.withTranscript transcript) =
      some (t.withTranscript ((remark? (s.run bound ⟨sourceName, line⟩)).toList.map .wrote ++
        (events ++ transcript))) := by
  have hrun := Session.run_withTranscript bound ⟨sourceName, line⟩ s transcript
  rw [answer, hline]
  generalize s.run bound ⟨sourceName, line⟩ = o at hstate hrun ⊢
  generalize (s.withTranscript transcript).run bound ⟨sourceName, line⟩ = o' at hrun ⊢
  cases hrun with
  | @done v _ _ _ hv hs =>
    cases hstate
    rw [← hv, hs events hevents]
    cases v with
    | none => rfl
    | bool | number | string | function | builtin =>
      exact congrArg some (Session.print_withTranscript hroom _ _)
  | failed hd hs =>
    cases hstate
    rw [← hd, hs events hevents]
    exact congrArg some (Session.print_withTranscript hroom _ _)
  | unfinished => cases hstate

theorem prompts_of_takes (n : Nat) (hroom : s.world.console.room? = none) (h : Takes bound s turn t)
    (transcript : List Console.Event) :
    prompts bound (n + 1) (s.withTranscript transcript) =
      prompts bound n (t.withTranscript (turn.log ++ transcript)) := by
  have hroom' := h.room?_eq hroom
  cases h with
  | blank hinput hline =>
    rw [prompts_of_line n hroom hinput, answer, if_pos hline]
    rfl
  | ran hinput hline hstate hevents =>
    rw [prompts_of_line n hroom hinput, answer_withTranscript hline hroom' hstate hevents]
    show prompts bound n _ = _
    simp [Turn.log]

theorem prompts_of_stops {stop : Console.Event} {input : List Input} (n : Nat)
    (hroom : s.world.console.room? = none) (h : Stops s stop input) (transcript : List Console.Event) :
    prompts bound (n + 1) (s.withTranscript transcript) =
      some ((s.withInput input).withTranscript (stop :: .wrote prompt :: transcript)) := by
  obtain ⟨⟨store, input', room?, earlier⟩, globals, config⟩ := s
  obtain rfl : room? = none := hroom
  cases h with
  | ended hinput | failed hinput =>
    cases hinput
    rfl

theorem prompts_of_hangs (n : Nat) (hroom : s.world.console.room? = none) (h : Hangs bound s)
    (transcript : List Console.Event) : prompts bound (n + 1) (s.withTranscript transcript) = none := by
  obtain ⟨line, input, hinput, hline, hrun⟩ := h
  have hsame := Session.run_withTranscript bound ⟨sourceName, line⟩ (s.withInput input)
    (.read line :: .wrote prompt :: transcript)
  rw [prompts_of_line n hroom hinput, answer, hline]
  rw [hrun] at hsame
  generalize Session.run _ _ (Session.withTranscript _ _) = o at hsame ⊢
  cases hsame
  rfl

/-! ## The whole shell -/

/-- There are turns up to where the shell stops or hangs. -/
theorem exists_turns (bound n : Nat) (hroom : s.world.console.room? = none)
    (hn : s.world.console.input.length < n) (transcript : List Console.Event) :
    ∃ turns t, Turns bound s turns t ∧
      ((∃ stop input, Stops t stop input ∧ prompts bound n (s.withTranscript transcript) =
          some ((t.withInput input).withTranscript
            (stop :: .wrote prompt :: (turns.reverse.flatMap Turn.log ++ transcript)))) ∨
        Hangs bound t ∧ prompts bound n (s.withTranscript transcript) = none) := by
  induction n generalizing s transcript with
  | zero => omega
  | succ n ih =>
    rcases takes_or_stops_or_hangs bound s with ⟨turn, u, htakes⟩ | ⟨stop, input, hstops⟩ | hhangs
    · have hlength : u.world.console.input.length < n := by
        rw [htakes.input_eq, Turn.takes] at hn
        simp only [List.cons_append, List.length_cons, List.length_append] at hn
        omega
      obtain ⟨turns, t, hturns, hend⟩ := ih (htakes.room?_eq hroom) hlength (turn.log ++ transcript)
      refine ⟨turn :: turns, t, .cons htakes hturns, ?_⟩
      rw [prompts_of_takes n hroom htakes]
      simpa using hend
    · exact ⟨[], s, .nil, Or.inl ⟨stop, input, hstops, prompts_of_stops n hroom hstops transcript⟩⟩
    · exact ⟨[], s, .nil, Or.inr ⟨hhangs, prompts_of_hangs n hroom hhangs transcript⟩⟩

/-- The shell makes the turns of a session, until it stops or hangs. -/
theorem run_cases (bound : Nat) (logging : Bool) (hroom : s.world.console.room? = none) :
    ∃ turns t, Turns bound s turns t ∧
      ((∃ stop input, Stops t stop input ∧ run bound logging s = some ((t.withInput input).withTranscript
          (log logging turns stop ++ s.world.console.transcript))) ∨
        Hangs bound t ∧ run bound logging s = none) := by
  have hrun : run bound logging s = (prompts bound (s.world.console.input.length + 1)
      (s.withTranscript (.wrote (banner logging) :: s.world.console.transcript))).map
        (·.print farewell) := by
    obtain ⟨⟨store, input, room?, earlier⟩, globals, config⟩ := s
    obtain rfl : room? = none := hroom
    show (prompts _ _ _).bind _ = _
    exact Option.map_eq_bind.symm
  obtain ⟨turns, t, hturns, hend⟩ := exists_turns bound _ hroom (Nat.lt_succ_self _)
    (.wrote (banner logging) :: s.world.console.transcript)
  refine ⟨turns, t, hturns, ?_⟩
  rcases hend with ⟨stop, input, hstops, hprompts⟩ | ⟨hhangs, hprompts⟩
  · refine Or.inl ⟨stop, input, hstops, ?_⟩
    have hroom' : (t.withInput input).world.console.room? = none := hturns.room?_eq hroom
    rw [hrun, hprompts, Option.map_some, Session.print_withTranscript hroom', log]
    simp
  · refine Or.inr ⟨hhangs, ?_⟩
    rw [hrun, hprompts]
    rfl

end

/-! ## What is to be seen -/

theorem Turn.written_log (turn : Turn) : written turn.log = turn.text := by
  have hremark : written (turn.remark?.toList.map .wrote) = turn.remark?.getD "" := by
    cases turn.remark? <;> simp [written, Console.Event.text]
  have hline : written [.read turn.line, .wrote prompt] = prompt := by
    simp [written, Console.Event.text]
  rw [Turn.log, Console.written_append, Console.written_append, hremark, hline, Turn.text]

theorem written_turns (turns : List Turn) :
    written (turns.reverse.flatMap Turn.log) = String.join (turns.map Turn.text) := by
  induction turns with
  | nil => rfl
  | cons turn rest ih =>
    rw [List.reverse_cons, List.flatMap_append, Console.written_append, ih, List.map_cons]
    simp [Turn.written_log]

/-- The shell greets, prompts for each line and shows what it comes to, and says farewell behind one more
prompt. -/
theorem written_log {t : Session} {stop : Console.Event} {input : List Input} (h : Stops t stop input)
    (logging : Bool) (turns : List Turn) :
    written (log logging turns stop) =
      banner logging ++ String.join (turns.map Turn.text) ++ prompt ++ farewell := by
  have hend : written [.wrote farewell, stop, .wrote prompt] = prompt ++ farewell := by
    cases h <;> simp [written, Console.Event.text]
  have hgreeting : written [.wrote (banner logging)] = banner logging := by
    simp [written, Console.Event.text]
  show written ([.wrote farewell, stop, .wrote prompt] ++ (_ ++ [.wrote (banner logging)])) = _
  rw [Console.written_append, Console.written_append, hend, hgreeting, written_turns, String.append_assoc,
    String.append_assoc, String.append_assoc]

/-- Under any bound for evaluation, the shell ends exactly if a session, to which it does not write, takes
line after line from the same input up to where there is no line to take.  What the shell does to the
console is then the greeting, the turns and the farewell, and it leaves the rest of the input.  It does not
end exactly if the session comes to a line the run of which does not.  In both cases no piece of input is
taken twice or left out. -/
theorem run_turns (bound : Nat) (logging : Bool) {s : Session} (hroom : s.world.console.room? = none) :
    (∀ s', run bound logging s = some s' ↔
      ∃ turns t stop input, Turns bound s turns t ∧ Stops t stop input ∧
        s' = (t.withInput input).withTranscript (log logging turns stop ++ s.world.console.transcript)) ∧
    (run bound logging s = none ↔ ∃ turns t, Turns bound s turns t ∧ Hangs bound t) ∧
    ∀ turns t, Turns bound s turns t →
      s.world.console.input = turns.flatMap Turn.takes ++ t.world.console.input ∧
      ∀ stop input, Stops t stop input →
        written (log logging turns stop) =
          banner logging ++ String.join (turns.map Turn.text) ++ prompt ++ farewell := by
  obtain ⟨turns, t, hturns, hend⟩ := run_cases bound logging hroom
  refine ⟨fun s' => ⟨fun h => ?_, ?_⟩, ⟨fun h => ?_, ?_⟩, fun turns t hturns => ⟨hturns.input_eq, ?_⟩⟩
  · rcases hend with ⟨stop, input, hstops, hrun⟩ | ⟨-, hrun⟩
    · rw [hrun] at h
      exact ⟨turns, t, stop, input, hturns, hstops, (Option.some.inj h).symm⟩
    · rw [hrun] at h
      cases h
  · rintro ⟨turns', t', stop', input', hturns', hstops', rfl⟩
    rcases hend with ⟨stop, input, hstops, hrun⟩ | ⟨hhangs, -⟩
    · obtain ⟨rfl, rfl⟩ := hturns.unique hturns' (fun _ _ => hstops.not_takes) fun _ _ => hstops'.not_takes
      obtain ⟨rfl, rfl⟩ := hstops.unique hstops'
      exact hrun
    · obtain ⟨rfl, rfl⟩ := hturns.unique hturns' (fun _ _ => hhangs.not_takes) fun _ _ => hstops'.not_takes
      exact absurd hhangs hstops'.not_hangs
  · rcases hend with ⟨stop, input, -, hrun⟩ | ⟨hhangs, -⟩
    · rw [hrun] at h
      cases h
    · exact ⟨turns, t, hturns, hhangs⟩
  · rintro ⟨turns', t', hturns', hhangs'⟩
    rcases hend with ⟨stop, input, hstops, -⟩ | ⟨-, hrun⟩
    · obtain ⟨rfl, rfl⟩ := hturns.unique hturns' (fun _ _ => hstops.not_takes) fun _ _ => hhangs'.not_takes
      exact absurd hhangs' hstops.not_hangs
    · exact hrun
  · intro stop input hstops
    exact written_log hstops logging turns

set_option maxRecDepth 4000 in
/-- A blank line, a line that reads the next one, and a line that fails, before a read that fails. -/
theorem run_turns_reading_line :
    let s := Session.start {} { input :=
      [.line " ", .line "inp()", .line "text", .line "x", .failure "gone", .line "more"] }
    ∃ s' d, run 9 false s = some s' ∧ s'.world.console.input = [.line "more"] ∧
      s'.world.console.transcript = log false [⟨" ", [], none⟩, ⟨"inp()", [.read "text"], some "text\n"⟩,
        ⟨"x", [], some (Diagnostic.report d ++ "\n")⟩] (.readFailed "gone") := by
  intro s
  let span (line : String) (start stop : Nat) : Span :=
    ⟨⟨sourceName, line⟩, ⟨start, 0, start⟩, ⟨stop, 0, stop⟩⟩
  -- The lines are scanned and parsed first, which is all that does not reduce by itself.
  have hread : TokenStream.ofSource? ⟨sourceName, "inp()"⟩ = .ok
      ⟨[⟨.identifier "inp", span "inp()" 0 3⟩, ⟨.mark .leftParen, span "inp()" 3 4⟩,
        ⟨.mark .rightParen, span "inp()" 4 5⟩], span "inp()" 5 5⟩ := by cbv
  have hname : TokenStream.ofSource? ⟨sourceName, "x"⟩ = .ok
      ⟨[⟨.identifier "x", span "x" 0 1⟩], span "x" 1 1⟩ := by cbv
  have hfirst : Expr.ofSource? ⟨sourceName, "inp()"⟩ = .ok (.block (span "inp()" 0 5)
      [.call (span "inp()" 0 5) (.reference (span "inp()" 0 3) "inp") []]) := by
    rw [Expr.ofSource?, hread]
    rfl
  have hsecond : Expr.ofSource? ⟨sourceName, "x"⟩ = .ok (.block (span "x" 0 1)
      [.reference (span "x" 0 1) "x"]) := by
    rw [Expr.ofSource?, hname]
    rfl
  let s₁ := s.withInput [.line "inp()", .line "text", .line "x", .failure "gone", .line "more"]
  let s₂ := (s.withInput [.line "x", .failure "gone", .line "more"]).withTranscript [.read "text"]
  let s₃ := s₂.withInput [.failure "gone", .line "more"]
  let d : Diagnostic := .runtime ⟨.undefined "x", span "x" 0 1, [(.module, span "x" 0 1)]⟩
  have hrun : (s₁.withInput [.line "text", .line "x", .failure "gone", .line "more"]).run 9
      ⟨sourceName, "inp()"⟩ = .done (.string "text") s₂ := by
    simp only [Session.run, Source.execute, hfirst, s₁, s₂, s]
    rfl
  have hfail : s₃.run 9 ⟨sourceName, "x"⟩ = .failed d s₃ := by
    simp only [Session.run, Source.execute, hsecond, s₃, s₂, s]
    rfl
  have h₁ : Takes 9 s ⟨" ", [], none⟩ s₁ := .blank rfl (by decide)
  have h₂ : Takes 9 s₁ ⟨"inp()", [.read "text"], remark? (.done (.string "text") s₂)⟩ s₂ := by
    rw [← hrun]
    exact .ran rfl (by decide) (by rw [hrun]; rfl) rfl
  have h₃ : Takes 9 s₂ ⟨"x", [], remark? (.failed d s₃)⟩ s₃ := by
    rw [← hfail]
    exact .ran rfl (by decide) (by show (s₃.run 9 _).state? = _; rw [hfail]; rfl) rfl
  have hturns := Turns.cons h₁ (.cons h₂ (.cons h₃ .nil))
  have hroom : s.world.console.room? = none := rfl
  refine ⟨_, d, ((run_turns 9 false hroom).1 _).mpr ⟨_, s₃, _, _, hturns, .failed rfl, rfl⟩, rfl, ?_⟩
  exact List.append_nil _

end Shell
end Cyan
