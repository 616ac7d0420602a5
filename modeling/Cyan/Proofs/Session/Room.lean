/-
A console that runs out of room.

A run on a console with room for `n` writes is compared with the same run on a console that admits any
number of them.  Up to the write behind the first `n` the two do the same, and if there is one, it is the
last thing that happens on the smaller console: the run fails there and nothing is tried behind it
(`Source.execute_withRoom`).

While there is room, the one console is the other with the rest of the room (`Console.Metered`).  The write
that finds none is the only step that tells them apart, and there the first run gives up
(`Evaluation.outlast_withRoom`).

The example scans its text by `cbv`, with the equation of `≤` that stands in
`Mathlib.Algebra.Module.Submodule.Lattice`.
-/
import Cyan.Proofs.Evaluation.Outlasts
import Cyan.Proofs.Session.Replay
import Mathlib.Algebra.Module.Submodule.Lattice

namespace Cyan

open Cyan.Action (Outlasts)

variable {Place : Type} {n : Nat} {reason : String} {before : List Console.Event}

namespace Console

/-- The text that an event writes. -/
def Event.written? : Event → Option String
  | wrote text => some text
  | writeFailed | read _ | readFailed _ | readEnd => none

/-- The texts that the events write, in their order.  The events are listed from the latest on. -/
def writes (events : List Event) : List String := events.reverse.filterMap Event.written?

theorem writes_append (events earlier : List Event) :
    writes (events ++ earlier) = writes earlier ++ writes events := by
  simp [writes]

theorem writes_cons (e : Event) (events : List Event) :
    writes (e :: events) = writes events ++ e.written?.toList := by
  rw [← List.singleton_append, writes_append]
  cases e <;> rfl

theorem written_eq_join (events : List Event) : written events = String.join (writes events) := by
  induction events with
  | nil => rfl
  | cons e earlier ih =>
    rw [writes_cons, String.join_append, ← ih, ← List.singleton_append, written_append]
    cases e <;> rfl

/-- The console with room for so many writes, which gives the reason for refusing the next one. -/
def withRoom (n : Nat) (reason : String) (c : Console) : Console := { c with room? := some ⟨n, reason⟩ }

/-- The first console is the second, which admits any number of writes, with the room that is left of
`n` since the events `before`. -/
structure Metered (n : Nat) (reason : String) (before : List Event) (c c' : Console) : Prop where
  room?_eq : c'.room? = none
  rest : ∃ events, c'.transcript = events ++ before ∧ (writes events).length ≤ n ∧
    c = c'.withRoom (n - (writes events).length) reason

/-- Since the events `before` there were `n` writes on both consoles.  The next one was refused on the first
console, on which it was the last thing that happened, and done on the second. -/
def Refused (n : Nat) (before : List Event) (c c' : Console) : Prop :=
  ∃ earlier text later, c'.transcript = later ++ .wrote text :: (earlier ++ before) ∧
    (writes earlier).length = n ∧ c.transcript = .writeFailed :: (earlier ++ before)

theorem Refused.follows {c k k' : Console} (h : Refused n before c k) (hk : k.Follows k') :
    Refused n before c k' := by
  obtain ⟨earlier, text, later, htranscript, hcount, hfailed⟩ := h
  obtain ⟨events, hevents⟩ := hk
  refine ⟨earlier, text, events ++ later, ?_, hcount, hfailed⟩
  rw [hevents.transcript_eq, htranscript, List.append_assoc]

/-- An event that writes nothing leaves the room as it is. -/
theorem Metered.cons {input : List Input} {transcript : List Event} {c : Console} {e : Event}
    (h : Metered n reason before c ⟨input, none, transcript⟩) (he : e.written? = none) (input' : List Input) :
    Metered n reason before { c with input := input', transcript := e :: c.transcript }
      ⟨input', none, e :: transcript⟩ := by
  obtain ⟨-, events, rfl, hle, rfl⟩ := h
  have hwrites : writes (e :: events) = writes events := by
    rw [writes_cons, he]
    exact List.append_nil _
  refine ⟨rfl, e :: events, rfl, hwrites ▸ hle, ?_⟩
  rw [hwrites]
  rfl

theorem Metered.readLine {c c' : Console} (h : Metered n reason before c c') :
    c.readLine.1 = c'.readLine.1 ∧ Metered n reason before c.readLine.2 c'.readLine.2 := by
  obtain ⟨input, room?, transcript⟩ := c'
  obtain ⟨input', left?, transcript'⟩ := c
  obtain rfl : room? = none := h.room?_eq
  obtain rfl : input' = input := by
    obtain ⟨-, events, -, -, hc⟩ := h
    exact congrArg Console.input hc
  match input' with
  | [] => exact ⟨rfl, h.cons rfl []⟩
  | .line text :: rest => exact ⟨rfl, h.cons rfl rest⟩
  | .failure _ :: rest => exact ⟨rfl, h.cons rfl rest⟩

/-- A write is done on both consoles, or refused on the first. -/
theorem Metered.write {c c' : Console} (h : Metered n reason before c c') (text : String) :
    (c.write text).1 = .ok () ∧ (c'.write text).1 = .ok () ∧
        Metered n reason before (c.write text).2 (c'.write text).2 ∨
      (c.write text).1 = .error reason ∧ Refused n before (c.write text).2 (c'.write text).2 := by
  obtain ⟨input, room?, transcript⟩ := c'
  obtain ⟨hroom, events, rfl, hle, rfl⟩ := h
  obtain rfl : room? = none := hroom
  have hwrites : (writes (.wrote text :: events)).length = (writes events).length + 1 := by
    rw [writes_cons, List.length_append]
    rfl
  rw [Console.write, Console.write, withRoom]
  rcases hleft : n - (writes events).length with _ | left
  · exact Or.inr ⟨rfl, events, text, [], rfl, by omega, rfl⟩
  · refine Or.inl ⟨rfl, rfl, rfl, .wrote text :: events, rfl, by omega, ?_⟩
    rw [hwrites, show n - ((writes events).length + 1) = left by omega]
    rfl

/-- The write that is refused on the first console is one of those behind the first `n` on the second. -/
theorem Refused.take {c c' : Console} (h : Refused n before c c') {events : List Event}
    (hevents : c'.transcript = events ++ before) :
    n < (writes events).length ∧ ∃ later text earlier, events = later ++ .wrote text :: earlier ∧
      writes earlier = (writes events).take n ∧ c.transcript = .writeFailed :: (earlier ++ before) := by
  obtain ⟨earlier, text, later, htranscript, hcount, hfailed⟩ := h
  obtain rfl : later ++ .wrote text :: earlier = events :=
    List.append_cancel_right (by rw [← hevents, htranscript, List.append_assoc, List.cons_append])
  have hwrites : writes (later ++ .wrote text :: earlier) = writes earlier ++ text :: writes later := by
    rw [writes_append, writes_cons, List.append_assoc]
    rfl
  rw [hwrites]
  refine ⟨?_, later, text, earlier, rfl, (List.take_left' hcount).symm, hfailed⟩
  rw [List.length_append, List.length_cons, hcount]
  omega

end Console

namespace Evaluation

open Console (Metered Refused)

/-- Only a write that finds no room tells the two consoles apart, and there the first run gives up. -/
theorem outlast_withRoom (config : Config) :
    Outlast (Metered n reason before) (fun e : RuntimeError Place => e.fault = .console reason)
      (fun w w' => Refused n before w.console w'.console) config config where
  follows _ _ _ := Refused.follows
  write stack place text := by
    intro w w' hw
    rw [useConsole, useConsole]
    have hwrite := hw.console.write text
    rcases hdone : w.console.write text with ⟨result, console⟩
    rcases hdone' : w'.console.write text with ⟨result', console'⟩
    rw [hdone, hdone'] at hwrite
    rcases hwrite with ⟨rfl, rfl, hmetered⟩ | ⟨rfl, hrefused⟩
    · exact Or.inl (.done rfl ⟨hw.store_eq, hmetered⟩)
    · refine Or.inr ⟨_, _, rfl, rfl, fun k hk => ?_⟩
      cases result' <;> cases hk <;> exact hrefused
  readLine stack place := .of_relates (useConsole_beside stack place fun _ _ hc => hc.readLine)
  checkCall stack place f given := by
    refine .of_relates ?_
    unfold checkCall
    split
    · exact raise_beside stack place _
    · split
      · exact raise_beside stack place _
      · exact .pure rfl
  bindsAnonymous_eq := rfl

end Evaluation

/-- The world with a console that has room for so many writes. -/
def World.withRoom (n : Nat) (reason : String) (w : World Place) : World Place :=
  { w with console := w.console.withRoom n reason }

theorem World.Beside.eq_withRoom {w w' : World Place} {events : List Console.Event}
    (h : World.Beside (Console.Metered n reason before) w w') (hevents : w'.console.transcript = events ++ before) :
    (Console.writes events).length ≤ n ∧ w = w'.withRoom (n - (Console.writes events).length) reason := by
  obtain ⟨store, console⟩ := w
  obtain ⟨store', console'⟩ := w'
  obtain ⟨rfl, -, events', htranscript, hle, hconsole⟩ := h
  obtain rfl : events' = events := List.append_cancel_right (htranscript.symm.trans hevents)
  exact ⟨hle, congrArg (World.mk store) hconsole⟩

namespace Source

open Console (Metered Refused writes)

theorem execute_outlasts (source : Source) (config : Config) (bound : Nat) (scope : ScopeId) :
    Outlasts (World.Beside (Metered n reason before))
      (fun d => ∃ e, d = .runtime e ∧ e.fault = .console reason)
      (fun w w' => Refused n before w.console w'.console) (source.execute config bound scope)
      (source.execute config bound scope) := by
  intro w w' hw
  rw [execute, execute]
  cases Expr.ofSource? source with
  | error d => exact Or.inl (.failed rfl hw)
  | ok program =>
    have h := (Evaluation.outlast_withRoom config).evaluate bound program scope {} w w' hw
    dsimp only
    rcases h with hsame | ⟨e, k, hfailed, hfault, hrefused⟩
    · generalize evaluate config bound program scope {} w = o at hsame
      generalize evaluate config bound program scope {} w' = o' at hsame
      cases hsame with
      | done hv hw => exact Or.inl (.done hv hw)
      | failed he hw => exact Or.inl (.failed (congrArg Diagnostic.runtime he) hw)
      | unfinished => exact Or.inl .unfinished
    · refine Or.inr ⟨.runtime e, k, by rw [hfailed], ⟨e, rfl, hfault⟩, fun k' hk' => ?_⟩
      cases hrun : evaluate config bound program scope {} w' with
      | done | failed =>
        rw [hrun] at hk' hrefused
        exact hrefused k' hk'
      | unfinished =>
        rw [hrun] at hk'
        cases hk'

/-- Let a run end on a console that admits any number of writes.  On one with room for `n` of them the run
is the same if it writes no more often than that.  Otherwise it fails at the write behind these, for the
reason that the console gives, with what the first `n` writes have written, and nothing has been tried on
the console since. -/
theorem execute_withRoom (source : Source) (config : Config) (bound : Nat) (scope : ScopeId)
    {w w' : World Span} (hroom : w.console.room? = none)
    (hends : (source.execute config bound scope w).state? = some w') (n : Nat) (reason : String) :
    ∃ events, w'.console.transcript = events ++ w.console.transcript ∧
      ((writes events).length ≤ n →
        (source.execute config bound scope (w.withRoom n reason)).Relates
          (fun v v' => v = v'.withRoom (n - (writes events).length) reason) Eq Eq
          (source.execute config bound scope w)) ∧
      (n < (writes events).length → ∃ e v later text earlier,
        source.execute config bound scope (w.withRoom n reason) = .failed (.runtime e) v ∧
        e.fault = .console reason ∧
        v.console.output = w.console.output ++ String.join ((writes events).take n) ∧
        events = later ++ .wrote text :: earlier ∧ writes earlier = (writes events).take n ∧
        v.console.transcript = .writeFailed :: (earlier ++ w.console.transcript)) := by
  obtain ⟨events, hevents⟩ := execute_follows hends
  have htranscript := hevents.transcript_eq
  have hmetered : World.Beside (Metered n reason w.console.transcript) (w.withRoom n reason) w :=
    ⟨rfl, hroom, [], rfl, Nat.zero_le n, rfl⟩
  refine ⟨events, htranscript, ?_⟩
  rcases execute_outlasts source config bound scope (w.withRoom n reason) w hmetered with
    hsame | ⟨_, v, hfailed, ⟨e, rfl, hfault⟩, hrefused⟩
  · -- The two end in one kind of outcome, and `w'` is the world of the second.
    generalize source.execute config bound scope (w.withRoom n reason) = o at hsame ⊢
    generalize source.execute config bound scope w = o' at hends hsame ⊢
    cases hsame with
    | done hv hw =>
      cases hends
      obtain ⟨hle, heq⟩ := hw.eq_withRoom htranscript
      exact ⟨fun _ => .done hv heq, fun hlt => absurd hle (Nat.not_le.mpr hlt)⟩
    | failed he hw =>
      cases hends
      obtain ⟨hle, heq⟩ := hw.eq_withRoom htranscript
      exact ⟨fun _ => .failed he heq, fun hlt => absurd hle (Nat.not_le.mpr hlt)⟩
    | unfinished => cases hends
  · obtain ⟨hmore, later, text, earlier, hsplit, htake, hlast⟩ := (hrefused w' hends).take htranscript
    refine ⟨fun hle => absurd hmore (Nat.not_lt.mpr hle), fun _ => ?_⟩
    refine ⟨e, v, later, text, earlier, hfailed, hfault, ?_, hsplit, htake, hlast⟩
    show Console.written v.console.transcript = Console.written w.console.transcript ++ _
    rw [hlast, ← List.singleton_append, Console.written_append, Console.written_append,
      Console.written_eq_join earlier, htake]
    exact String.append_empty

set_option maxRecDepth 4000 in
/-- Two lines that are read are written as arguments of a call that writes as well.  With room for one
write the second argument fails, and the call is not made. -/
theorem execute_withRoom_arguments :
    let source : Source := ⟨"<test>", "out(out(inp()), out(inp()))"⟩
    let w : World Span :=
      { store := (Store.addGlobal {}).2, console := { input := [.line "x", .line "y"] } }
    let events : List Console.Event :=
      [.wrote "none none\n", .wrote "y\n", .read "y", .wrote "x\n", .read "x"]
    w.console.room? = none ∧
      (∃ w', (source.execute {} 9 0 w).state? = some w' ∧ w'.console.transcript = events) ∧
      (source.execute {} 9 0 (w.withRoom 3 "full")).Relates (fun v v' => v = v'.withRoom 0 "full") Eq Eq
        (source.execute {} 9 0 w) ∧
      ∃ e v later text earlier, source.execute {} 9 0 (w.withRoom 1 "full") = .failed (.runtime e) v ∧
        e.fault = .console "full" ∧ v.console.output = "x\n" ∧
        events = later ++ .wrote text :: earlier ∧ writes earlier = ["x\n"] ∧
        v.console.transcript = .writeFailed :: (earlier ++ []) := by
  intro source w events
  -- The text is scanned first, which is all that does not reduce by itself.
  have hscan : TokenStream.ofSource? source = .ok
      (let span (start stop : Nat) : Span := ⟨source, ⟨start, 0, start⟩, ⟨stop, 0, stop⟩⟩
      ⟨[⟨.identifier "out", span 0 3⟩, ⟨.mark .leftParen, span 3 4⟩, ⟨.identifier "out", span 4 7⟩,
        ⟨.mark .leftParen, span 7 8⟩, ⟨.identifier "inp", span 8 11⟩, ⟨.mark .leftParen, span 11 12⟩,
        ⟨.mark .rightParen, span 12 13⟩, ⟨.mark .rightParen, span 13 14⟩, ⟨.mark .comma, span 14 15⟩,
        ⟨.identifier "out", span 16 19⟩, ⟨.mark .leftParen, span 19 20⟩, ⟨.identifier "inp", span 20 23⟩,
        ⟨.mark .leftParen, span 23 24⟩, ⟨.mark .rightParen, span 24 25⟩, ⟨.mark .rightParen, span 25 26⟩,
        ⟨.mark .rightParen, span 26 27⟩], span 27 27⟩) := by cbv
  obtain ⟨w', hends, hevents⟩ :
      ∃ w', (source.execute {} 9 0 w).state? = some w' ∧ w'.console.transcript = events := by
    simp only [execute, Expr.ofSource?, hscan]
    exact ⟨_, rfl, rfl⟩
  obtain ⟨events₃, hevents₃, henough, -⟩ := execute_withRoom source {} 9 0 (w := w) rfl hends 3 "full"
  obtain rfl : events = events₃ := by
    rw [← hevents, hevents₃]
    exact List.append_nil _
  obtain ⟨events₁, hevents₁, -, hcut⟩ := execute_withRoom source {} 9 0 (w := w) rfl hends 1 "full"
  obtain rfl : events = events₁ := by
    rw [← hevents, hevents₁]
    exact List.append_nil _
  exact ⟨rfl, ⟨w', hends, hevents⟩, henough (by decide), hcut (by decide)⟩

end Source

end Cyan
