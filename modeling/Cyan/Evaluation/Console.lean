/-
The console a program talks to.

A console has a supply of input, of which each piece is a line or a read that fails, and may have room
for a limited number of writes only.  It says in its own words why a read or a write fails.  It keeps a
transcript of all that was attempted on it; what was written is the transcript's text.  A failed write
leaves no text, and a read behind the last piece of input finds the end and changes nothing else.
-/
import Cyan.Evaluation.Fault

namespace Cyan

/-- One piece of a console's input. -/
inductive Input where
  | line (text : String)
  | failure (reason : String)
deriving DecidableEq, Repr, Inhabited

namespace Console

inductive Event where
  | wrote (text : String)
  | writeFailed
  | read (line : String)
  | readFailed (reason : String)
  | readEnd
deriving DecidableEq, Repr, Inhabited

/-- The text an event puts on the console. -/
def Event.text : Event → String
  | wrote text => text
  | _ => ""

end Console

/-- How many writes will still succeed, and why the next one then fails. -/
structure Room where
  writes : Nat
  refusal : String
deriving DecidableEq, Repr, Inhabited

/-- A console: the input that is left, the room for writes, if that is limited, and what has happened so
far, the latest first. -/
structure Console where
  input : List Input := []
  room? : Option Room := none
  transcript : List Console.Event := []
deriving Repr, Inhabited

namespace Console

def output (c : Console) : String := String.join (c.transcript.reverse.map Event.text)

def rewound (c : Console) : Console := { c with transcript := [] }

def write (text : String) (c : Console) : Except String Unit × Console :=
  match c.room? with
  | none => (.ok (), { c with transcript := .wrote text :: c.transcript })
  | some ⟨0, refusal⟩ => (.error refusal, { c with transcript := .writeFailed :: c.transcript })
  | some ⟨n + 1, refusal⟩ =>
    (.ok (), { c with room? := some ⟨n, refusal⟩, transcript := .wrote text :: c.transcript })

/-- Read a line.  There is none at the end of the input. -/
def readLine (c : Console) : Except String (Option String) × Console :=
  match c.input with
  | [] => (.ok none, { c with transcript := .readEnd :: c.transcript })
  | .line text :: rest =>
    (.ok (some text), { c with input := rest, transcript := .read text :: c.transcript })
  | .failure reason :: rest =>
    (.error reason, { c with input := rest, transcript := .readFailed reason :: c.transcript })

/-- The lines of a text that is read from a file or a terminal.  Each loses the newline and the
carriage returns at its end, and text behind the last newline is a line if there is any. -/
def linesOfInput (text : List Char) : List Input :=
  let close (line : List Char) : Input :=
    .line (String.ofList (line.dropWhile fun c => c = '\r' ∨ c = '\n').reverse)
  let (line, done) := text.foldl (fun (line, done) c =>
    if c = '\n' then ([], close line :: done) else (c :: line, done)) ([], [])
  (if line.isEmpty then done else close line :: done).reverse

end Console
end Cyan
