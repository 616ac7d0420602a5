/-
Expressions in prefix form.

Every compound expression is written in parentheses with what it does first, and a block in braces
with its statements separated by semicolons.  Strings are quoted, and an anonymous function is
written with the name `[lambda]`.
-/
import Cyan.Expr.Basic
import Cyan.Text.Quoted
import Cyan.Token.Spelling

namespace Cyan

/-- The name an anonymous function goes by. -/
def anonymousName : String := "[lambda]"

def shownName (name? : Option String) : String := name?.getD anonymousName

namespace Expr

variable {Place : Type}

/-- Words in parentheses, separated by blanks. -/
def group (words : List String) : String := "(" ++ " ".intercalate words ++ ")"

mutual

def printed : Expr Place → String
  | block _ statements => "\x7b" ++ "; ".intercalate (printedAll statements) ++ "\x7d"
  | pass _ => Keyword.pass.spelling
  | number _ value => value.written
  | literal _ value => value.spelling
  | string _ text => Text.quoted text
  | binary _ op left right => group [op.symbol, printed left, printed right]
  | unary _ op operand => group [op.symbol, printed operand]
  | reference _ name => name
  | assign _ name value => group ["let", name, printed value]
  | conditional _ condition thenBranch elseBranch =>
    group ["if", printed condition, printed thenBranch, printed elseBranch]
  | loop _ condition body => group ["while", printed condition, printed body]
  | function _ name? parameters body =>
    group ["fun", shownName name?, group parameters, printed body]
  | call _ callee arguments => group ["call", printed callee, group (printedAll arguments)]

def printedAll : List (Expr Place) → List String
  | [] => []
  | e :: rest => printed e :: printedAll rest

end

end Expr
end Cyan
