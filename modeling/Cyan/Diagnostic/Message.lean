/-
The texts of all errors.
-/
import Cyan.Evaluation.Fault
import Cyan.Grammar.Cursor
import Cyan.Text.Quoted
import Cyan.Token.Lexeme

namespace Cyan

def LexicalFault.message : LexicalFault → String
  | invalidCharacter c => "Character " ++ Text.quotedChar c ++ " is invalid."
  | loneBang => "Expected '=' after '!'"
  | unterminatedString => "Unterminated string literal"

/-- What is missing, as messages name it. -/
def Expectation.shown : Expectation → String
  | equals => "'='"
  | closeParen => "')'"
  | commaOrCloseParen => "',' or ')'"
  | thenWord => "'then'"
  | elseWord => "'else'"
  | openParen => "'('"
  | nameOrOpenParen => "identifier or '('"
  | openBrace => "'\x7b'"
  | closeBrace => "'\x7d'"

def SyntaxFault.message : SyntaxFault → String
  | expectedExpression =>
    "Expected expression: let, if, while, fun, number, string, identifier, '+', '-' or '('"
  | expectedIdentifier => "Expected identifier"
  | expected what => "Expected " ++ what.shown
  | leftover => "Invalid Syntax"

def Operation.shown : Operation → String
  | binary .and => "'and' logic"
  | binary .or => "'or' logic"
  | binary op => op.symbol ++ " operator"
  | negation => "'not' logic"

def RuntimeFault.message : RuntimeFault → String
  | undefined name => "'" ++ name ++ "' not defined"
  | unsupported left operation right =>
    left.name ++ " does not support " ++ operation.shown ++ " with " ++ right.name
  | divisionByZero => "Division by Zero"
  | argumentCount callee given takes =>
    let amount := if takes < given then "Too many" else "Not enough"
    s!"{amount} arguments, {given} given into '{callee}', takes {takes}"
  | notCallable kind => kind.name ++ " is not callable"
  | notNumeral text => "Cannot convert to Number: " ++ text
  | notNumeric kind => "Cannot convert " ++ kind.name ++ " to Number"
  | recursionLimit => "Maximum recursion depth exceeded"
  | console reason => "Console failure: " ++ reason

end Cyan
