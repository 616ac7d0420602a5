/-
Reading a row of tokens.

A `Cursor` stands in front of the tokens that are still to be read and knows how many have been read.
A `Rule` is an action on a cursor: it reads some tokens and gives a result or a syntax error.  The
cursor stays where the rule stopped in either case, so that a failed rule still tells how far it came.

Rules can be tried.  `Rule.attempt` runs a rule and, if that fails, puts the cursor back to where the
rule began.  The error is not lost: when at least one token had been read it is remembered together
with the place the cursor returned to, and `Rule.unexpected` reports it if reading stops at that very
place.  A rule that failed at its first token only says that nothing of its kind begins there.
-/
import Cyan.Action.Basic
import Cyan.Token.Basic

namespace Cyan

/-- What may be missing. -/
inductive Expectation where
  | equals | closeParen | commaOrCloseParen | thenWord | elseWord
  | openParen | nameOrOpenParen | openBrace | closeBrace
deriving DecidableEq, Repr, Inhabited

/-- Why a row of tokens is no program. -/
inductive SyntaxFault where
  | expectedExpression
  | expectedIdentifier
  | expected (what : Expectation)
  /-- Tokens are left over behind the last statement. -/
  | leftover
deriving DecidableEq, Repr, Inhabited

/-- A syntax error and the place of the token it was found at. -/
structure SyntaxError (Place : Type) where
  fault : SyntaxFault
  place : Place
deriving Repr

def SyntaxError.map {Place Place' : Type} (f : Place → Place') (e : SyntaxError Place) :
    SyntaxError Place' :=
  ⟨e.fault, f e.place⟩

/-- The state of reading: the tokens ahead, the number of tokens behind, and the last failed attempt
with the number of tokens behind the place it was made at. -/
structure Cursor (Place : Type) where
  ahead : List (Token Place)
  behind : Nat := 0
  failure? : Option (Nat × SyntaxError Place) := none

namespace Cursor

variable {Place : Type}

/-- The place of the next token, or `finish` behind the last one. -/
def place (finish : Place) (c : Cursor Place) : Place := (c.ahead.head?.map Token.place).getD finish

def next (c : Cursor Place) : Cursor Place :=
  match c.ahead with
  | [] => c
  | _ :: rest => { c with ahead := rest, behind := c.behind + 1 }

/-- The cursor behind the separators in front of it. -/
def pastSeparators (c : Cursor Place) : Cursor Place :=
  { c with
    ahead := c.ahead.dropWhile (·.kind.isSeparator)
    behind := c.behind + (c.ahead.takeWhile (·.kind.isSeparator)).length }

end Cursor

/-- A way to read something of type `α`. -/
abbrev Rule (Place α : Type) := Action (Cursor Place) (SyntaxError Place) α

namespace Rule

variable {Place α : Type}

def peek : Rule Place (Option Token.Kind) := fun c => .done (c.ahead.head?.map Token.kind) c

def sees (kind : Token.Kind) : Rule Place Bool := do
  return (← peek) = some kind

def fail (finish : Place) (fault : SyntaxFault) : Rule Place α := fun c =>
  .failed ⟨fault, c.place finish⟩ c

/-- Move behind the next token if `read?` makes something of its kind, and give the token's place and
what was made. -/
def take (read? : Token.Kind → Option α) : Rule Place (Option (Place × α)) := fun c =>
  match c.ahead with
  | [] => .done none c
  | t :: _ =>
    match read? t.kind with
    | some a => .done (some (t.place, a)) c.next
    | none => .done none c

/-- Move behind the next token if it is of the given kind, and give its place. -/
def accept (kind : Token.Kind) : Rule Place (Option Place) := do
  return (← take fun k => if k = kind then some () else none).map Prod.fst

/-- Move behind a token that has to be of the given kind, and give its place. -/
def expect (finish : Place) (kind : Token.Kind) (what : Expectation) : Rule Place Place := do
  match ← accept kind with
  | some place => return place
  | none => fail finish (.expected what)

/-- Move behind an identifier, if the next token is one, and give its name. -/
def acceptIdentifier : Rule Place (Option String) := do
  return (← take Token.Kind.name?).map Prod.snd

/-- Move behind the separators in front of the cursor, and say whether there were any. -/
def skipSeparators : Rule Place Bool := fun c =>
  .done (c.ahead.head?.any (·.kind.isSeparator)) c.pastSeparators

/-- Run a rule, going back to where it began if it fails.  The error is remembered if the rule had
read at least one token. -/
def attempt (rule : Rule Place α) : Rule Place (Option α) := fun c =>
  match rule c with
  | .done a c' => .done (some a) c'
  | .failed e c' =>
    let failure? := if c.behind < c'.behind then some (c.behind, e) else c'.failure?
    .done none { c with failure? }
  | .unfinished => .unfinished

/-- Fail at a token that cannot be read on.  An attempt that was made at this token says more than
`fault` does. -/
def unexpected (finish : Place) (fault : SyntaxFault) : Rule Place α := fun c =>
  match c.failure? with
  | some (behind, e) =>
    if behind = c.behind then .failed e { c with failure? := none }
    else fail finish fault { c with failure? := none }
  | none => fail finish fault c

end Rule
end Cyan
