/-
The grammar.

    statements  = separator* statement (separator+ statement)* separator*
    statement   = "pass" | expression
    expression  = "let" IDENTIFIER "=" expression | logic
    logic       = comparison (("and" | "or") comparison)*
    comparison  = "not" comparison
                | arithmetic (("==" | "!=" | "<" | ">" | "<=" | ">=") arithmetic)*
    arithmetic  = term (("+" | "-") term)*
    term        = factor (("*" | "/") factor)*
    factor      = ("+" | "-") factor | power
    power       = call ("**" factor)*
    call        = atom ("(" (expression ("," expression)*)? ")")*
    atom        = INT | FLOAT | STRING | IDENTIFIER | "true" | "false" | "none"
                | "(" expression ")" | if | while | fun
    if          = "if" comparison "then"
                  (block "else" block | expression "else" expression)
    while       = "while" comparison block
    fun         = "fun" IDENTIFIER? "(" (IDENTIFIER ("," IDENTIFIER)* ","?)? ")" block
    block       = "{" statements "}"

There is a rule of the same name for each line from `statements` to `expression` and from `call` on.
The lines between them, `logic` to `power`, differ only in the operators they admit, so one rule
`operation` reads them all: it is given the loosest level it may read, reads one operand, and goes on
as long as operators of that level or a tighter one follow.

Each rule is given a number `n` that bounds how deeply rules may call each other.  No rule calls
another more than eight deep without reading a token, so `Grammar.depth` is enough for a whole text
(`Grammar.program_ne_unfinished`).

A statement list goes on behind a separator if a statement follows.  Whether one does is decided by
the setting's `next`, which is given the rule for statements: `Grammar.rewinding` tries that rule.
-/
import Cyan.Grammar.Cursor
import Cyan.Expr.Basic
import Cyan.Source.Span

namespace Cyan
namespace Grammar

/-- What the rules depend on besides the tokens: the place behind the last token, the place that
reaches from one place to another, and how the next statement of a list is read. -/
structure Setting (Place : Type) where
  finish : Place
  join : Place → Place → Place
  next : Rule Place (Expr Place) → Rule Place (Option (Expr Place))

/-- The setting in which statements are tried. -/
def rewinding {Place : Type} (join : Place → Place → Place) (finish : Place) : Setting Place :=
  ⟨finish, join, Rule.attempt⟩

def prefixOp? : Token.Kind → Option UnaryOp
  | .mark .plus => some .plus
  | .mark .minus => some .minus
  | .keyword .not_ => some .not
  | _ => none

/-- The level a prefix operator makes an operand of, which is also the level its operand has. -/
def prefixLevel : UnaryOp → Level
  | .plus | .minus => .factor
  | .not => .comparison

/-- The prefix operator a token is in an operand of level `l`. -/
def prefixFor? (l : Level) (kind : Token.Kind) : Option UnaryOp :=
  (prefixOp? kind).filter fun op => l.strength ≤ (prefixLevel op).strength

/-- The binary operator a token is behind an expression of level `l`. -/
def infixFor? (l : Level) (kind : Token.Kind) : Option BinaryOp :=
  (BinaryOp.ofKind? kind).filter (·.fits l)

/-- How an atom begins: with a token that is an atom by itself, a parenthesis, or a word. -/
inductive Opening (Place : Type) where
  | leaf (node : Place → Expr Place)
  | parenthesis
  | conditional
  | loop
  | function

/-- The beginning of an atom a token is, if it is one. -/
def opening? {Place : Type} : Token.Kind → Option (Opening Place)
  | .int value => some (.leaf fun place => .number place (.int value))
  | .float value => some (.leaf fun place => .number place (.float value))
  | .string text => some (.leaf fun place => .string place text)
  | .identifier name => some (.leaf fun place => .reference place name)
  | .literal value => some (.leaf fun place => .literal place value)
  | .mark .leftParen => some .parenthesis
  | .keyword .if_ => some .conditional
  | .keyword .while_ => some .loop
  | .keyword .fun_ => some .function
  | _ => none

variable {Place : Type} (g : Setting Place)

/-- Behind the first parameter of a function: more parameters, each after a comma.  The names read so
far are in reverse order.  A comma may also be the last thing before the parenthesis. -/
def parameters (names : List String) : Nat → Rule Place (List String)
  | 0 => Action.cutOff
  | n + 1 => do
    match ← Rule.accept (.mark .comma) with
    | none => return names.reverse
    | some _ =>
      match ← Rule.acceptIdentifier with
      | some name => parameters (name :: names) n
      | none =>
        if ← Rule.sees (.mark .rightParen) then return names.reverse
        else Rule.fail g.finish (.expected .commaOrCloseParen)

def identifier : Rule Place String := do
  match ← Rule.acceptIdentifier with
  | some name => return name
  | none => Rule.fail g.finish .expectedIdentifier

/-- The name of a function, if it has one, and its parameters in parentheses. -/
def signature (n : Nat) : Rule Place (Option String × List String) := do
  let name? ← Rule.acceptIdentifier
  let what := if name?.isSome then .openParen else .nameOrOpenParen
  discard <| Rule.expect g.finish (.mark .leftParen) what
  let names ←
    if ← Rule.sees (.mark .rightParen) then pure []
    else do parameters g [← identifier g] n
  discard <| Rule.expect g.finish (.mark .rightParen) .commaOrCloseParen
  return (name?, names)

mutual

/-- At least one statement.  Separators may stand before, between and behind them. -/
def statements : Nat → Rule Place (List (Expr Place))
  | 0 => Action.cutOff
  | n + 1 => do
    discard Rule.skipSeparators
    let first ← statement n
    moreStatements [first] n

/-- The statements behind those read so far, which are in reverse order. -/
def moreStatements (done : List (Expr Place)) : Nat → Rule Place (List (Expr Place))
  | 0 => Action.cutOff
  | n + 1 => do
    if ← Rule.skipSeparators then
      match ← g.next (statement n) with
      | some e => moreStatements (e :: done) n
      | none => return done.reverse
    else return done.reverse

def statement : Nat → Rule Place (Expr Place)
  | 0 => Action.cutOff
  | n + 1 => do
    match ← Rule.accept (.keyword .pass) with
    | some place => return .pass place
    | none => expression n

/-- An assignment, or an operation of any level. -/
def expression : Nat → Rule Place (Expr Place)
  | 0 => Action.cutOff
  | n + 1 => do
    match ← Rule.accept (.keyword .let_) with
    | some place =>
      let name ← identifier g
      discard <| Rule.expect g.finish (.mark .equal) .equals
      let value ← expression n
      return .assign (g.join place value.place) name value
    | none => operation .logic n

/-- An operand, and the operators of level `l` and tighter behind it with their right operands. -/
def operation (l : Level) : Nat → Rule Place (Expr Place)
  | 0 => Action.cutOff
  | n + 1 => do
    let first ← operand l n
    operators l first n

/-- The operators behind `left`, which are of level `l` or tighter, with their right operands. -/
def operators (l : Level) (left : Expr Place) : Nat → Rule Place (Expr Place)
  | 0 => Action.cutOff
  | n + 1 => do
    match ← Rule.take (infixFor? l) with
    | some (_, op) =>
      let right ← operation op.operandLevel n
      operators l (.binary (g.join left.place right.place) op left right) n
    | none => return left

/-- A call, or an operand of level `l` with a prefix operator. -/
def operand (l : Level) : Nat → Rule Place (Expr Place)
  | 0 => Action.cutOff
  | n + 1 => do
    match ← Rule.take (prefixFor? l) with
    | some (place, op) =>
      let inner ← operation (prefixLevel op) n
      return .unary (g.join place inner.place) op inner
    | none => call n

/-- An atom with any number of argument lists. -/
def call : Nat → Rule Place (Expr Place)
  | 0 => Action.cutOff
  | n + 1 => do
    let callee ← atom n
    calls callee n

/-- The argument lists behind `callee`. -/
def calls (callee : Expr Place) : Nat → Rule Place (Expr Place)
  | 0 => Action.cutOff
  | n + 1 => do
    match ← Rule.accept (.mark .leftParen) with
    | none => return callee
    | some _ =>
      let list ← arguments n
      let close ← Rule.expect g.finish (.mark .rightParen) .commaOrCloseParen
      calls (.call (g.join callee.place close) callee list) n

def arguments : Nat → Rule Place (List (Expr Place))
  | 0 => Action.cutOff
  | n + 1 => do
    if ← Rule.sees (.mark .rightParen) then return []
    let first ← expression n
    moreArguments [first] n

/-- The arguments behind those read so far, which are in reverse order. -/
def moreArguments (done : List (Expr Place)) : Nat → Rule Place (List (Expr Place))
  | 0 => Action.cutOff
  | n + 1 => do
    match ← Rule.accept (.mark .comma) with
    | some _ =>
      let e ← expression n
      moreArguments (e :: done) n
    | none => return done.reverse

/-- An expression without operators around it. -/
def atom : Nat → Rule Place (Expr Place)
  | 0 => Action.cutOff
  | n + 1 => do
    match ← Rule.take opening? with
    | some (place, .leaf node) => return node place
    | some (place, .parenthesis) =>
      let e ← expression n
      let close ← Rule.expect g.finish (.mark .rightParen) .closeParen
      return e.withPlace (g.join place close)
    | some (place, .conditional) => conditional place n
    | some (place, .loop) => loop place n
    | some (place, .function) => function place n
    | none => Rule.fail g.finish .expectedExpression

/-- What follows the word `if` at `place`.  A brace behind `then` makes both branches blocks. -/
def conditional (place : Place) : Nat → Rule Place (Expr Place)
  | 0 => Action.cutOff
  | n + 1 => do
    let condition ← operation .comparison n
    discard <| Rule.expect g.finish (.keyword .then_) .thenWord
    let braces ← Rule.sees (.mark .leftBrace)
    let thenBranch ← branch braces n
    discard <| Rule.expect g.finish (.keyword .else_) .elseWord
    let elseBranch ← branch braces n
    return .conditional (g.join place elseBranch.place) condition thenBranch elseBranch

def branch (braces : Bool) : Nat → Rule Place (Expr Place)
  | 0 => Action.cutOff
  | n + 1 => if braces then block n else expression n

def loop (place : Place) : Nat → Rule Place (Expr Place)
  | 0 => Action.cutOff
  | n + 1 => do
    let condition ← operation .comparison n
    let body ← block n
    return .loop (g.join place body.place) condition body

def function (place : Place) : Nat → Rule Place (Expr Place)
  | 0 => Action.cutOff
  | n + 1 => do
    let (name?, names) ← signature g n
    let body ← block n
    return .function (g.join place body.place) name? names body

def block : Nat → Rule Place (Expr Place)
  | 0 => Action.cutOff
  | n + 1 => do
    let opening ← Rule.expect g.finish (.mark .leftBrace) .openBrace
    let list ← statements n
    match ← Rule.accept (.mark .rightBrace) with
    | some close => return .block (g.join opening close) list
    | none => Rule.unexpected g.finish (.expected .closeBrace)

end

/-- The place of a row of statements, which reaches from the first to the last. -/
def extent (list : List (Expr Place)) : Place :=
  match list.head?, list.getLast? with
  | some first, some last => g.join first.place last.place
  | _, _ => g.finish

/-- A whole program: statements, and nothing behind them.  That a newline may also stand there makes no
difference, since statements pass all separators behind them (`program_newline`). -/
def program (n : Nat) : Rule Place (Expr Place) := do
  let list ← statements g n
  match ← Rule.peek with
  | none => return .block (extent g list) list
  | some _ => Rule.unexpected g.finish .leftover

/-- How deeply rules may have to call each other to read `count` tokens. -/
def depth (count : Nat) : Nat := 8 * (count + 1) + 1

/-- The program that a row of tokens is under a given setting.  The rules are never cut off, since
they are given the depth that the tokens can call for. -/
def read? (tokens : List (Token Place)) : Except (SyntaxError Place) (Expr Place) :=
  match program g (depth tokens.length) { ahead := tokens } with
  | .done program _ => .ok program
  | .failed e _ => .error e
  | .unfinished => .error ⟨.leftover, g.finish⟩

end Grammar

/-- The program a stream of tokens is.  `join` gives the place that reaches from one place to
another. -/
def Expr.ofTokens? {Place : Type} (join : Place → Place → Place) (s : TokenStream Place) :
    Except (SyntaxError Place) (Expr Place) :=
  Grammar.read? (Grammar.rewinding join s.finish) s.tokens

def Expr.ofStream? (s : TokenStream Span) : Except (SyntaxError Span) (Expr Span) :=
  Expr.ofTokens? Span.through s

end Cyan
