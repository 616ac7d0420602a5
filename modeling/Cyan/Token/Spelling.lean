/-
How tokens are spelled in a program.

`Token.Kind.spelling` writes a token as source text.  A string is put between the marks that do not
occur in it, preferring double quotes; no string of a program holds both kinds of marks.
`TokenStream.spelling` writes a whole stream with single blanks between the tokens.
-/
import Cyan.Token.Basic

namespace Cyan

def Keyword.spelling : Keyword → String
  | .let_ => "let"
  | .and_ => "and"
  | .or_ => "or"
  | .not_ => "not"
  | .if_ => "if"
  | .then_ => "then"
  | .elif_ => "elif"
  | .else_ => "else"
  | .while_ => "while"
  | .fun_ => "fun"
  | .pass => "pass"

/-- The spelling of a literal, which is also how its value is shown. -/
def Literal.spelling : Literal → String
  | .bool true => "true"
  | .bool false => "false"
  | .none => "none"

def Mark.spelling : Mark → String
  | .plus => "+"
  | .minus => "-"
  | .star => "*"
  | .starStar => "**"
  | .slash => "/"
  | .equal => "="
  | .equalEqual => "=="
  | .bangEqual => "!="
  | .less => "<"
  | .lessEqual => "<="
  | .greater => ">"
  | .greaterEqual => ">="
  | .leftParen => "("
  | .rightParen => ")"
  | .leftBrace => "\x7b"
  | .rightBrace => "\x7d"
  | .colon => ":"
  | .semicolon => ";"
  | .comma => ","
  | .dot => "."
  | .newline => "\n"

/-- The mark a string is enclosed in: a single quote if the string holds a double quote. -/
def Token.stringQuote (text : String) : String := if '"' ∈ text.toList then "'" else "\""

def Token.Kind.spelling : Token.Kind → String
  | .int n => (Number.int n).written
  | .float x => (Number.float x).written
  | .string text => Token.stringQuote text ++ text ++ Token.stringQuote text
  | .identifier name => name
  | .keyword word => word.spelling
  | .literal value => value.spelling
  | .mark m => m.spelling

/-- All tokens of a stream, joined by single blanks.  The end of the text counts as an empty
spelling, so a blank stands before it. -/
def TokenStream.spelling {Place : Type} (s : TokenStream Place) : String :=
  " ".intercalate (s.kinds.map Token.Kind.spelling ++ [""])

theorem Keyword.ofWord_spelling (word : Keyword) :
    Token.Kind.ofWord word.spelling = .keyword word := by
  cases word <;> rfl

theorem Literal.ofWord_spelling (value : Literal) :
    Token.Kind.ofWord value.spelling = .literal value := by
  rcases value with (_ | _) | _ <;> rfl

end Cyan
