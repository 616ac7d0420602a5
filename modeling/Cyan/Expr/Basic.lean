/-
Expressions.

Everything in the language is an expression: what is written as a statement is one too, and has a
value.  Each node of an expression stands at a place, whose type is left open as it is for tokens.
`Expr.map` changes the places and nothing else, so two expressions are equal up to positions when
their images in the one-point type are equal.
-/
import Cyan.Expr.Operator

namespace Cyan

/-- An expression whose nodes stand at places of type `Place`. -/
inductive Expr (Place : Type) where
  /-- Statements in order.  The whole program and the inside of every pair of braces are blocks. -/
  | block (place : Place) (statements : List (Expr Place))
  /-- The statement that does nothing. -/
  | pass (place : Place)
  | number (place : Place) (value : Number)
  | literal (place : Place) (value : Literal)
  | string (place : Place) (text : String)
  | binary (place : Place) (op : BinaryOp) (left right : Expr Place)
  | unary (place : Place) (op : UnaryOp) (operand : Expr Place)
  /-- A name that stands for the value bound to it. -/
  | reference (place : Place) (name : String)
  | assign (place : Place) (name : String) (value : Expr Place)
  | conditional (place : Place) (condition thenBranch elseBranch : Expr Place)
  | loop (place : Place) (condition body : Expr Place)
  /-- A function definition.  A function without a name is anonymous. -/
  | function (place : Place) (name? : Option String) (parameters : List String) (body : Expr Place)
  | call (place : Place) (callee : Expr Place) (arguments : List (Expr Place))
deriving Repr, Inhabited

namespace Expr

variable {Place Place' : Type}

def place : Expr Place → Place
  | block p _ | pass p | number p _ | literal p _ | string p _ | binary p _ _ _ | unary p _ _
  | reference p _ | assign p _ _ | conditional p _ _ _ | loop p _ _ | function p _ _ _
  | call p _ _ => p

/-- An expression with its outermost node at another place. -/
def withPlace (p : Place) : Expr Place → Expr Place
  | block _ statements => block p statements
  | pass _ => pass p
  | number _ value => number p value
  | literal _ value => literal p value
  | string _ text => string p text
  | binary _ op left right => binary p op left right
  | unary _ op operand => unary p op operand
  | reference _ name => reference p name
  | assign _ name value => assign p name value
  | conditional _ condition thenBranch elseBranch => conditional p condition thenBranch elseBranch
  | loop _ condition body => loop p condition body
  | function _ name? parameters body => function p name? parameters body
  | call _ callee arguments => call p callee arguments

mutual

/-- An expression with every place sent through `f`. -/
def map (f : Place → Place') : Expr Place → Expr Place'
  | block p statements => block (f p) (mapAll f statements)
  | pass p => pass (f p)
  | number p value => number (f p) value
  | literal p value => literal (f p) value
  | string p text => string (f p) text
  | binary p op left right => binary (f p) op (map f left) (map f right)
  | unary p op operand => unary (f p) op (map f operand)
  | reference p name => reference (f p) name
  | assign p name value => assign (f p) name (map f value)
  | conditional p condition thenBranch elseBranch =>
    conditional (f p) (map f condition) (map f thenBranch) (map f elseBranch)
  | loop p condition body => loop (f p) (map f condition) (map f body)
  | function p name? parameters body => function (f p) name? parameters (map f body)
  | call p callee arguments => call (f p) (map f callee) (mapAll f arguments)

def mapAll (f : Place → Place') : List (Expr Place) → List (Expr Place')
  | [] => []
  | e :: rest => map f e :: mapAll f rest

end

/-- The expressions directly inside an expression, in the order of the text. -/
def children : Expr Place → List (Expr Place)
  | block _ statements => statements
  | binary _ _ left right => [left, right]
  | unary _ _ operand => [operand]
  | assign _ _ value => [value]
  | conditional _ condition thenBranch elseBranch => [condition, thenBranch, elseBranch]
  | loop _ condition body => [condition, body]
  | function _ _ _ body => [body]
  | call _ callee arguments => callee :: arguments
  | pass _ | number _ _ | literal _ _ | string _ _ | reference _ _ => []

mutual

/-- An expression and all expressions inside it, each before those inside it and in the order of the
text, put in front of `rest`. -/
def nodesBefore (rest : List (Expr Place)) : Expr Place → List (Expr Place)
  | block p statements => block p statements :: allNodesBefore rest statements
  | pass p => pass p :: rest
  | number p value => number p value :: rest
  | literal p value => literal p value :: rest
  | string p text => string p text :: rest
  | binary p op left right => binary p op left right :: nodesBefore (nodesBefore rest right) left
  | unary p op operand => unary p op operand :: nodesBefore rest operand
  | reference p name => reference p name :: rest
  | assign p name value => assign p name value :: nodesBefore rest value
  | conditional p condition thenBranch elseBranch =>
    conditional p condition thenBranch elseBranch ::
      nodesBefore (nodesBefore (nodesBefore rest elseBranch) thenBranch) condition
  | loop p condition body => loop p condition body :: nodesBefore (nodesBefore rest body) condition
  | function p name? parameters body =>
    function p name? parameters body :: nodesBefore rest body
  | call p callee arguments =>
    call p callee arguments :: nodesBefore (allNodesBefore rest arguments) callee

/-- The nodes of several expressions, one expression after the other, put in front of `rest`. -/
def allNodesBefore (rest : List (Expr Place)) : List (Expr Place) → List (Expr Place)
  | [] => rest
  | e :: es => nodesBefore (allNodesBefore rest es) e

end

/-- An expression and all expressions inside it, outermost first. -/
def nodes (e : Expr Place) : List (Expr Place) := nodesBefore [] e

def statementCount : Expr Place → Nat
  | block _ statements => statements.length
  | _ => 1

@[simp] theorem place_withPlace (p : Place) (e : Expr Place) : (e.withPlace p).place = p := by
  cases e <;> rfl

theorem mapAll_eq_map (f : Place → Place') (es : List (Expr Place)) :
    mapAll f es = es.map (map f) := by
  induction es with
  | nil => rfl
  | cons e es ih => rw [mapAll, ih, List.map_cons]

@[simp] theorem place_map (f : Place → Place') (e : Expr Place) : (e.map f).place = f e.place := by
  cases e <;> rfl

@[simp] theorem map_withPlace (f : Place → Place') (p : Place) (e : Expr Place) :
    (e.withPlace p).map f = (e.map f).withPlace (f p) := by
  cases e <;> rfl

theorem children_withPlace (p : Place) (e : Expr Place) :
    (e.withPlace p).children = e.children := by
  cases e <;> rfl

end Expr
end Cyan
