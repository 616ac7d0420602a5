/-
Tokens.

A token is a `Token.Kind` at a place.  What a place is stays open: programs that were read have spans
for places, and statements that hold up to positions take the one-point type.  `Token.map` changes the
places and nothing else.  A `TokenStream` is a row of tokens with the place where the text ends; the
end itself is not a token, so a stream has exactly one end by construction.
-/
import Cyan.Number.Basic

namespace Cyan

/-- Words with a meaning of their own.  `elif` is reserved and has no use yet. -/
inductive Keyword where
  | let_ | and_ | or_ | not_ | if_ | then_ | elif_ | else_ | while_ | fun_ | pass
deriving DecidableEq, Repr, Inhabited

/-- Words that stand for a value. -/
inductive Literal where
  | bool (value : Bool)
  | none
deriving DecidableEq, Repr, Inhabited

/-- Punctuation and operators, the newline among them. -/
inductive Mark where
  | plus | minus | star | starStar | slash
  | equal | equalEqual | bangEqual | less | lessEqual | greater | greaterEqual
  | leftParen | rightParen | leftBrace | rightBrace
  | colon | semicolon | comma | dot | newline
deriving DecidableEq, Repr, Inhabited

namespace Token

inductive Kind where
  | int (n : Int64)
  | float (x : Float)
  | string (text : String)
  | identifier (name : String)
  | keyword (word : Keyword)
  | literal (value : Literal)
  | mark (mark : Mark)
deriving DecidableEq, Repr, Inhabited

namespace Kind

/-- Newlines and semicolons separate statements. -/
def isSeparator : Kind → Bool
  | mark .newline | mark .semicolon => true
  | _ => false

def name? : Kind → Option String
  | identifier name => some name
  | _ => none

/-- The token a number is written as. -/
def ofNumber : Number → Kind
  | .int n => int n
  | .float x => float x

/-- The token of a whole word: a keyword, a literal, or else an identifier. -/
def ofWord : String → Kind
  | "let" => keyword .let_
  | "and" => keyword .and_
  | "or" => keyword .or_
  | "not" => keyword .not_
  | "if" => keyword .if_
  | "then" => keyword .then_
  | "elif" => keyword .elif_
  | "else" => keyword .else_
  | "while" => keyword .while_
  | "fun" => keyword .fun_
  | "pass" => keyword .pass
  | "true" => literal (.bool true)
  | "false" => literal (.bool false)
  | "none" => literal .none
  | word => identifier word

end Kind
end Token

structure Token (Place : Type) where
  kind : Token.Kind
  place : Place
deriving Repr

/-- The tokens of a text in order, and the place behind the last character. -/
structure TokenStream (Place : Type) where
  tokens : List (Token Place)
  finish : Place
deriving Repr

variable {Place Place' : Type}

def Token.map (f : Place → Place') (t : Token Place) : Token Place' := ⟨t.kind, f t.place⟩

def TokenStream.map (f : Place → Place') (s : TokenStream Place) : TokenStream Place' :=
  ⟨s.tokens.map (Token.map f), f s.finish⟩

def TokenStream.kinds (s : TokenStream Place) : List Token.Kind := s.tokens.map Token.kind

@[simp] theorem Token.kind_map (f : Place → Place') (t : Token Place) :
    (t.map f).kind = t.kind := rfl

@[simp] theorem TokenStream.kinds_map (f : Place → Place') (s : TokenStream Place) :
    (s.map f).kinds = s.kinds := by
  simp [TokenStream.kinds, TokenStream.map, Function.comp_def]

end Cyan
