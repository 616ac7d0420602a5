/-
The command line.

The command takes three options and any number of files.  `-d` or `--debug`, which may be given once,
turns logging on unless a rule of the environment says otherwise, `-V` or `--version` asks for the
version, and `-h` or `--help` for help, which is shorter behind one dash.  Letters of options may share
one dash, `--` ends the options, and a dash alone is a file.  Arguments are looked at in order, so the
version is shown even if a later argument is wrong.  Without files the shell is run; with files each is
run in turn, on one input, and the exit code is 1 if one of them is missing or fails.
-/
import Cyan.LogFilter
import Cyan.Shell

namespace Cyan
namespace Command

/-- What a command line asks for. -/
inductive Request where
  | showVersion
  | showHelp (long : Bool)
  | run (debug : Bool) (paths : List String)
  | refuse
deriving DecidableEq, Repr, Inhabited

/-- What an argument or a letter of it does to the state of reading the command line. -/
inductive Reading where
  | decided (request : Request)
  | going (debug : Bool)
deriving DecidableEq, Repr, Inhabited

/-- The letters behind one dash. -/
def readLetters (debug : Bool) : List Char → Reading
  | [] => .going debug
  | 'd' :: rest => if debug then .decided .refuse else readLetters true rest
  | 'V' :: _ => .decided .showVersion
  | 'h' :: _ => .decided (.showHelp false)
  | _ => .decided .refuse

/-- An argument that begins with a dash and is more than that dash. -/
def readOption (debug : Bool) (argument : String) : Reading :=
  if argument = "--debug" then if debug then .decided .refuse else .going true
  else if argument = "--version" then .decided .showVersion
  else if argument = "--help" then .decided (.showHelp true)
  else if argument.startsWith "--" then .decided .refuse
  else readLetters debug (argument.toList.drop 1)

/-- The request of the remaining arguments, with the paths read so far in reverse order.  An empty
argument is no path. -/
def request (debug : Bool) (paths : List String) : List String → Request
  | [] => .run debug paths.reverse
  | argument :: rest =>
    if argument = "--" then
      if "" ∈ rest then .refuse else .run debug (paths.reverse ++ rest)
    else if argument = "" then .refuse
    else if argument.startsWith "-" ∧ argument ≠ "-" then
      match readOption debug argument with
      | .decided request => request
      | .going debug => request debug paths rest
    else request debug (argument :: paths) rest

/-- What a command line asks for. -/
def Request.ofArguments (arguments : List String) : Request := request false [] arguments

structure Result where
  exit : Nat
  output : String
  /-- The part of the input that was not read. -/
  unread : List Input
deriving DecidableEq, Repr, Inhabited

/-- The result of a session that ended with an exit code. -/
def Result.ofSession (code : Nat) (s : Session) : Result :=
  ⟨code, s.world.console.output, s.world.console.input⟩

/-- Run the file under a path.  The numbers are the exit code before and after. -/
def runPath (bound : Nat) (files : Files) : Nat × Session → String → Option (Nat × Session)
  | (code, s), path =>
    if files.has path then
      match s.runFile bound files path with
      | .done _ s => some (code, s)
      | .failed d s => some (1, s.print (d.report ++ "\n"))
      | .unfinished => none
    else some (1, s)

def runFiles (bound : Nat) (files : Files) (paths : List String) (s : Session) :
    Option (Nat × Session) :=
  paths.foldlM (runPath bound files) (0, s)

/-- Whether the details of what the shell does are logged.  `rules?` are the rules for logging in the
command's environment; the option for it, `debug`, stands in for the rule without a scope. -/
def isLogging (debug : Bool) (rules? : Option String) : Bool :=
  let f := LogFilter.ofText (rules?.getD "")
  let f := if debug then f.set ⟨none, .debug⟩ else f
  f.keeps Shell.logTarget .debug

def versionLine : String := "cyan " ++ Shell.version ++ "\n"

/-- One entry of the help: what may be written, and what it is for.  The long form has it on lines of
their own. -/
def helpEntry (long : Bool) (width : Nat) (form purpose : String) : String :=
  if long then "  " ++ form ++ "\n          " ++ purpose ++ "\n"
  else "  " ++ String.ofList (form.toList.rightpad width ' ') ++ "  " ++ purpose ++ "\n"

def helpText (long : Bool) : String :=
  let gap := if long then "\n" else ""
  let more := if long then "see a summary with '-h'" else "see more with '--help'"
  "A tree-walking interpreter for the Cyan scripting language\n\n" ++
    "Usage: cyan [OPTIONS] [FILES]...\n\nArguments:\n" ++
    helpEntry long 10 "[FILES]..." "Script files to run, each in its own global scope" ++
    "\nOptions:\n" ++
    helpEntry long 13 "-d, --debug" "Log pipeline stages and their timings" ++ gap ++
    helpEntry long 13 "-h, --help" ("Print help (" ++ more ++ ")") ++ gap ++
    helpEntry long 13 "-V, --version" "Print version" ++
    (if long then "\nWithout files, an interactive shell is started.\n" else "")

/-- Run what a command line asks for.  `rules?` are the rules for logging in the command's
environment. -/
def perform (bound : Nat) (files : Files) (input : List Input) (rules? : Option String) :
    Request → Option Result
  | .showVersion => some ⟨0, versionLine, input⟩
  | .showHelp long => some ⟨0, helpText long, input⟩
  | .refuse => some ⟨2, "", input⟩
  | .run debug [] => do
    let s ← Shell.run bound (isLogging debug rules?) (Session.start {} { input })
    return .ofSession 0 s
  | .run _ paths => do
    let (code, s) ← runFiles bound files paths (Session.start {} { input })
    return .ofSession code s

def run (bound : Nat) (files : Files) (input : List Input) (rules? : Option String)
    (arguments : List String) : Option Result :=
  perform bound files input rules? (Request.ofArguments arguments)

end Command
end Cyan
