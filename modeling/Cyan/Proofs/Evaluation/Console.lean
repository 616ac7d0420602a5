/-
What evaluation does to the console.

Evaluation takes nothing back: what it does to the console comes behind what has happened there before.
`Console.Becomes events` says that a console has become another one by the events, and accounts for the
input: the pieces that are gone are those which the events have taken, in their order.
`evaluate_follows` says that evaluation, however it ends, does no more than that.
-/
import Cyan.Proofs.Evaluation.Keeps

namespace Cyan

variable {Place : Type}

namespace Console

/-- The piece of input that an event takes. -/
def Event.taken? : Event → Option Input
  | read line => some (.line line)
  | readFailed reason => some (.failure reason)
  | wrote _ | writeFailed | readEnd => none

/-- The pieces of input that the events take.  The events are listed from the latest on, the pieces from
the first. -/
def taken (events : List Event) : List Input := events.reverse.filterMap Event.taken?

/-- The text that the events leave on the console. -/
def written (events : List Event) : String := String.join (events.reverse.map Event.text)

theorem taken_append (events earlier : List Event) :
    taken (events ++ earlier) = taken earlier ++ taken events := by
  simp [taken]

theorem written_append (events earlier : List Event) :
    written (events ++ earlier) = written earlier ++ written events := by
  simp [written, String.join_append]

/-- The console has become the other by the events, of which the latest comes first.  If there was room
for any number of writes, there still is. -/
structure Becomes (events : List Event) (c c' : Console) : Prop where
  transcript_eq : c'.transcript = events ++ c.transcript
  input_eq : c.input = taken events ++ c'.input
  room?_eq : c.room? = none → c'.room? = none

namespace Becomes

variable {events later : List Event} {a b c : Console}

theorem refl (c : Console) : Becomes [] c c := ⟨rfl, rfl, fun h => h⟩

theorem trans (hab : Becomes events a b) (hbc : Becomes later b c) :
    Becomes (later ++ events) a c where
  transcript_eq := by rw [hbc.transcript_eq, hab.transcript_eq, List.append_assoc]
  input_eq := by rw [hab.input_eq, hbc.input_eq, taken_append, List.append_assoc]
  room?_eq h := hbc.room?_eq (hab.room?_eq h)

theorem output_eq (h : Becomes events a b) : b.output = a.output ++ written events := by
  show written b.transcript = written a.transcript ++ written events
  rw [h.transcript_eq, written_append]

end Becomes

/-- The console has become the other by some events. -/
def Follows (c c' : Console) : Prop := ∃ events, Becomes events c c'

theorem write_follows (text : String) (c : Console) : c.Follows (c.write text).2 := by
  obtain ⟨input, room?, transcript⟩ := c
  match room? with
  | none => exact ⟨[.wrote text], rfl, rfl, fun h => h⟩
  | some ⟨0, _⟩ => exact ⟨[.writeFailed], rfl, rfl, fun h => h⟩
  | some ⟨n + 1, _⟩ => exact ⟨[.wrote text], rfl, rfl, fun h => nomatch h⟩

theorem readLine_follows (c : Console) : c.Follows c.readLine.2 := by
  obtain ⟨input, room?, transcript⟩ := c
  match input with
  | [] => exact ⟨[.readEnd], rfl, rfl, fun h => h⟩
  | .line text :: rest => exact ⟨[.read text], rfl, rfl, fun h => h⟩
  | .failure reason :: rest => exact ⟨[.readFailed reason], rfl, rfl, fun h => h⟩

end Console

/-- From the first world to the second, something may have happened on the console. -/
def World.Follows (w w' : World Place) : Prop := w.console.Follows w'.console

instance : IsPreorder (World Place) World.Follows where
  refl w := ⟨[], .refl w.console⟩
  trans := by
    intro a b c ⟨events, hab⟩ ⟨later, hbc⟩
    exact ⟨later ++ events, hab.trans hbc⟩

namespace Evaluation

open Cyan.Action (Keeps)

/-- What only changes the store leaves the console alone. -/
theorem follows_of_console_eq {w w' : World Place} (h : w'.console = w.console) : w.Follows w' :=
  ⟨[], h ▸ .refl w.console⟩

theorem bindName_follows (scope : ScopeId) (name : String) (v : Value Place) :
    Keeps World.Follows (bindName scope name v) := .update fun _ => follows_of_console_eq rfl

theorem enter_follows (f : Function Place) (values : List (Value Place)) :
    Keeps World.Follows (enter f values) := by
  intro w w' h
  obtain rfl := Option.some.inj h
  exact follows_of_console_eq rfl

theorem callBuiltin_follows (stack : CallStack Place) (place : Place) (b : Builtin)
    (values : List (Value Place)) : Keeps World.Follows (callBuiltin stack place b values) :=
  callBuiltin_keeps (fun w text => w.console.write_follows text) (fun w => w.console.readLine_follows)
    stack place b values

end Evaluation

open Evaluation in
/-- Evaluation adds to what has happened on the console, and takes input only by reading it. -/
theorem evaluate_follows (config : Config) (n : Nat) (e : Expr Place) (scope : ScopeId)
    (stack : CallStack Place) : Action.Keeps World.Follows (evaluate config n e scope stack) :=
  evaluate_keeps (R := fun _ => World.Follows) bindName_follows
    (fun _ w text => w.console.write_follows text) (fun _ w => w.console.readLine_follows)
    (fun _ f values _ hbody => (enter_follows f values).bind hbody) config n e scope stack

end Cyan
