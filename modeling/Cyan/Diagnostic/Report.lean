/-
Reports of errors.

A `Diagnostic` is any error a program can end with.  Its report has three parts: a traceback, which
for a failure at run time lists the active contexts from the innermost outwards; the lines of the
program the error is about, underlined where it is; and the message.  A file that cannot be read has
no place in a program, so its report is the message alone.
-/
import Cyan.Diagnostic.Message
import Cyan.Evaluation.Evaluate
import Cyan.Files
import Cyan.Source.Excerpt
import Cyan.Token.Stream

namespace Cyan

inductive Diagnostic where
  | unreadable (path : String) (fault : FileFault)
  | lexical (e : LexicalError)
  | syntactic (e : SyntaxError Span)
  | runtime (e : RuntimeError Span)
deriving Repr

namespace Diagnostic

/-- The kinds of errors that messages distinguish. -/
inductive Category where
  | internalError | invalidCharacter | invalidSyntax | runtimeError
deriving DecidableEq, Repr, Inhabited

def Category.name : Category → String
  | internalError => "InternalError"
  | invalidCharacter => "InvalidCharacter"
  | invalidSyntax => "InvalidSyntax"
  | runtimeError => "RuntimeError"

/-- The category of an error.  Of the lexical faults only a character without any use has a category
of its own. -/
def category : Diagnostic → Category
  | unreadable .. => .internalError
  | lexical e =>
    match e.fault with
    | .invalidCharacter _ => .invalidCharacter
    | .loneBang | .unterminatedString => .invalidSyntax
  | syntactic _ => .invalidSyntax
  | runtime _ => .runtimeError

/-- What went wrong, without the category. -/
def detail : Diagnostic → String
  | unreadable path fault => "Failed open source file " ++ path ++ ": " ++ fault.message
  | lexical e => e.fault.message
  | syntactic e => e.fault.message
  | runtime e => e.fault.message

def message (d : Diagnostic) : String := d.category.name ++ ": " ++ d.detail

def place? : Diagnostic → Option Span
  | unreadable .. => none
  | lexical e => some e.place
  | syntactic e => some e.place
  | runtime e => some e.place

def traceLine (context : Context) (place : Span) : String :=
  s!"  File {place.source.name}, line {place.line}, in {context.shown}.\n"

/-- The traceback above the excerpt. -/
def header (d : Diagnostic) (place : Span) : String :=
  match d with
  | runtime e =>
    "Traceback:\n" ++ String.join (e.trace.map fun (context, place) => traceLine context place)
  | _ => s!"Traceback: file \"{place.source.name}\", line {place.line}.\n"

def report (d : Diagnostic) : String :=
  match d.place? with
  | none => d.message
  | some place => d.header place ++ place.excerpt ++ "\n" ++ d.message

end Diagnostic
end Cyan
