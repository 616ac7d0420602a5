/-
Log filters: which messages a program keeps.

A filter is a row of rules.  A rule sets the level of the messages whose target begins with the rule's
scope, or of all messages if it has no scope.  Of the rules that apply to a target the one with the
longest scope decides, and among equally long ones the last.

Filters are written as rules with commas between them, each of the form `scope=level`, `scope` or
`level`.  A rule without a level keeps everything, and a rule that makes no sense is passed over.
Behind a slash a pattern may follow that the texts of messages have to match, which does not matter for
the levels.
-/
import Cyan.Text.Blank

namespace Cyan

/-- How detailed messages are.  A level keeps the messages of its own level and of the coarser ones. -/
inductive LogLevel where
  | off | error | warn | info | debug | trace
deriving DecidableEq, Repr, Inhabited

namespace LogLevel

/-- The levels from the coarsest to the most detailed. -/
def detail : LogLevel → Nat
  | off => 0
  | error => 1
  | warn => 2
  | info => 3
  | debug => 4
  | trace => 5

/-- Whether messages of level `message` are kept at level `l`. -/
def keeps (l message : LogLevel) : Bool := message.detail ≤ l.detail

/-- The level a word names, in upper or lower case. -/
def ofWord? (word : String) : Option LogLevel :=
  match word.toLower with
  | "off" => some off
  | "error" => some error
  | "warn" => some warn
  | "info" => some info
  | "debug" => some debug
  | "trace" => some trace
  | _ => none

end LogLevel

/-- The level of the messages with a target in some scope. -/
structure LogRule where
  scope? : Option String
  level : LogLevel
deriving DecidableEq, Repr, Inhabited

namespace LogRule

/-- Whether a rule is about the messages with some target. -/
def appliesTo (r : LogRule) (target : String) : Bool :=
  r.scope?.all fun scope => scope.toList.isPrefixOf target.toList

/-- How much of a target a rule names. -/
def reach (r : LogRule) : Nat := (r.scope?.map String.length).getD 0

/-- The rule a text stands for.  A word that is no level is a scope. -/
def ofText? (text : String) : Option LogRule :=
  match text.splitToList (· = '=') with
  | [word] =>
    match LogLevel.ofWord? word with
    | some level => some ⟨none, level⟩
    | none => some ⟨some word, .trace⟩
  | [scope, word] =>
    let word := Text.trimmed word
    if word = "" then some ⟨some scope, .trace⟩ else (LogLevel.ofWord? word).map (⟨some scope, ·⟩)
  | _ => none

end LogRule

/-- A row of rules, with no two of the same scope. -/
abbrev LogFilter := List LogRule

namespace LogFilter

/-- Add a rule.  It takes the place of the rule with the same scope, if there is one. -/
def set (rule : LogRule) : LogFilter → LogFilter
  | [] => [rule]
  | r :: rest => if r.scope? = rule.scope? then rule :: rest else r :: set rule rest

/-- The filter a text stands for.  A text with more than one slash stands for no rules. -/
def ofText (text : String) : LogFilter :=
  match text.splitToList (· = '/') with
  | [rules] | [rules, _] =>
    let parts := ((rules.splitToList (· = ',')).map Text.trimmed).filter (· ≠ "")
    (parts.filterMap LogRule.ofText?).foldl (fun f rule => f.set rule) []
  | _ => []

/-- The rule that decides about a target: the one of the longest reach that applies to it, and the
last of those. -/
def ruleFor? (f : LogFilter) (target : String) : Option LogRule :=
  (f.filter (·.appliesTo target)).foldl (fun best? r =>
    match best? with
    | some best => if r.reach < best.reach then some best else some r
    | none => some r) none

/-- Whether messages of some target and level are kept. -/
def keeps (f : LogFilter) (target : String) (level : LogLevel) : Bool :=
  (f.ruleFor? target).any (·.level.keeps level)

end LogFilter
end Cyan
