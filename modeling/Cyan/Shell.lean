/-
The interactive shell.

The shell greets, and then prompts for lines until the input ends or fails.  A line that is not blank
is run as a program in the lasting scope of one session; a result other than `none` is echoed, and an
error is reported without ending the shell.  Programs read from the same input as the prompt.
-/
import Cyan.Session
import Cyan.Text.Blank

namespace Cyan
namespace Shell

def version : String := "0.1.0"

/-- The greeting.  It says so when the shell logs what it does. -/
def banner (logging : Bool) : String :=
  "Cyan " ++ version ++ " shell on linux" ++ (if logging then " [DEBUG MODE]" else "") ++ "\n"

/-- The target of the shell's own log messages. -/
def logTarget : String := "cyan::cyan"

def prompt : String := ">>> "

def farewell : String := "\nExiting...\n"

/-- The name lines of the shell go by. -/
def sourceName : String := "<stdin>"

/-- What the shell writes about the value of a line. -/
def echo : Value Span → Session → Session
  | .none, s => s
  | v, s => s.print (v.shown ++ "\n")

/-- What the shell does with one line: it runs the line, and echoes the result or reports the error.
A blank line does nothing. -/
def answer (bound : Nat) (line : String) (s : Session) : Option Session :=
  if line.toList.all Text.isBlank then some s
  else
    match s.run bound ⟨sourceName, line⟩ with
    | .done v s => some (echo v s)
    | .failed d s => some (s.print (d.report ++ "\n"))
    | .unfinished => none

/-- Prompt for lines and answer them, for at most `n` prompts. -/
def prompts (bound : Nat) : Nat → Session → Option Session
  | 0, s => some s
  | n + 1, s =>
    let s := s.print prompt
    match s.world.console.readLine with
    | (.ok (some line), console) => do
      let s ← answer bound line (s.withConsole console)
      prompts bound n s
    | (_, console) => some (s.withConsole console)

/-- Run the shell until its input ends.  Each prompt takes one piece of input, so there are no more
prompts than pieces and one more. -/
def run (bound : Nat) (logging : Bool) (s : Session) : Option Session := do
  let s := s.print (banner logging)
  let s ← prompts bound (s.world.console.input.length + 1) s
  return s.print farewell

end Shell
end Cyan
