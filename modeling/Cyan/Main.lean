/-
The program.

It does what its arguments ask for, on standard input and output.  The rules for logging are taken from
the environment variable `RUST_LOG`.

Answering a line of the shell and running a file are steps of a session, and depend on nothing but the
lines they read.  A step is tried on the lines that are known, and tried again with one line more
when it has read behind them; what it had written by then is shown first.  Every try does the same up to
that point, so that nothing is shown twice.
-/
import Cyan.Command

namespace Cyan
namespace Command

/-- The bound on evaluations, which is out of reach. -/
def evaluationBound : Nat := 0x4000000000000000

/-- Show a text at once. -/
def present (text : String) : IO Unit := do
  let stdout ← IO.getStdout
  stdout.putStr text
  stdout.flush

/-- Show what was written in a part of a transcript. -/
def presentAll (events : List Console.Event) : IO Unit :=
  present (String.join (events.map Console.Event.text))

/-- The next line of standard input, if there is one. -/
def nextLine : IO (Option Input) := do
  try
    let line ← (← IO.getStdin).getLine
    return (Console.linesOfInput line.toList).head?
  catch e => return some (.failure e.toString)

/-- Take a step of a session.  The lines `known` have been read for it, and the first `presented`
events of its transcript have been shown. -/
partial def take {α : Type} (step : Session → Option (α × Session)) (s : Session)
    (known : List Input) (presented : Nat) : IO (α × Session) := do
  let some (result, after) := step (s.withConsole { input := known })
    | throw (IO.userError "the evaluation was cut off")
  let events := after.world.console.transcript.reverse
  let settled := events.takeWhile (· ≠ .readEnd)
  presentAll (settled.drop presented)
  if settled.length = events.length then return (result, after)
  match ← nextLine with
  | some line => take step s (known ++ [line]) settled.length
  | none =>
    presentAll (events.drop settled.length)
    return (result, after)

/-- Prompt for lines and answer them. -/
partial def converse (s : Session) : IO Unit := do
  present Shell.prompt
  match ← nextLine with
  | some (.line line) =>
    let (_, s) ← take (fun s => (Shell.answer evaluationBound line s).map ((), ·)) s [] 0
    converse s
  | _ => present Shell.farewell

/-- The fault of a path that the system does not open.  What is not there does not resolve. -/
def notOpened (path reason : String) : IO FileFault := do
  try
    let _ ← IO.FS.realPath path
    return .notOpened reason
  catch _ => return .notFound

/-- What reading a file of the system gives. -/
def readFile (path : String) : IO (Except FileFault ByteArray) := do
  try
    return .ok (← IO.FS.readBinFile path)
  catch
    | .noFileOrDirectory .. => return .error .notFound
    | .inappropriateType _ 21 _ => return .error .isDirectory
    | .inappropriateType .. => return .error .notDirectory
    | .invalidArgument _ 36 _ => return .error .nameTooLong
    | .permissionDenied _ code details =>
      return .error (← notOpened path s!"{details} (os error {code})")
    | e => return .error (← notOpened path e.toString)

/-- Run files of the system in turn, for the exit code. -/
def runAll (paths : List String) : IO Nat := do
  let (code, _) ← paths.foldlM (fun (code, s) path => do
    let content ← readFile path
    take (fun s => runPath evaluationBound (fun _ => content) (code, s) path) s [] 0)
    (0, Session.start {} {})
  return code

end Command
end Cyan

open Cyan in
def main (arguments : List String) : IO UInt32 := do
  match Command.Request.ofArguments arguments with
  | .showVersion =>
    Command.present Command.versionLine
    return 0
  | .showHelp long =>
    Command.present (Command.helpText long)
    return 0
  | .refuse => return 2
  | .run debug [] =>
    let rules? ← IO.getEnv "RUST_LOG"
    Command.present (Shell.banner (Command.isLogging debug rules?))
    Command.converse (Session.start {} {})
    return 0
  | .run _ paths => return (← Command.runAll paths).toUInt32
