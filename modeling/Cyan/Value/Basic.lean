/-
Values.

A function value is a function definition together with the scope it was defined in.  The scope is
given by its identity; what is bound there is kept in a store, so that all holders of a scope see the
same bindings and a value stays small.
-/
import Cyan.Expr.Printed

namespace Cyan

abbrev ScopeId := Nat

/-- The functions that are there from the start. -/
inductive Builtin where
  | out | inp | toBool | toNumber | toString
deriving DecidableEq, Repr, Inhabited

/-- How many arguments a function takes. -/
inductive Arity where
  | fixed (count : Nat)
  | variadic
deriving DecidableEq, Repr, Inhabited

namespace Builtin

def name : Builtin → String
  | out => "out"
  | inp => "inp"
  | toBool => "Bool"
  | toNumber => "Num"
  | toString => "Str"

def arity : Builtin → Arity
  | out => .variadic
  | inp => .fixed 0
  | toBool | toNumber | toString => .fixed 1

def all : List Builtin := [out, inp, toBool, toNumber, toString]

end Builtin

/-- A function and the scope it was defined in. -/
structure Function (Place : Type) where
  name? : Option String
  parameters : List String
  body : Expr Place
  scope : ScopeId
deriving Repr, Inhabited

inductive Value (Place : Type) where
  | none
  | bool (b : Bool)
  | number (n : Number)
  | string (text : String)
  | function (f : Function Place)
  | builtin (b : Builtin)
deriving Repr, Inhabited

namespace Value

variable {Place Place' : Type}

/-- The kinds of values the language distinguishes. -/
inductive Kind where
  | none | bool | number | string | function | builtin
deriving DecidableEq, Repr, Inhabited

def Kind.name : Kind → String
  | none => "None"
  | bool => "Bool"
  | number => "Number"
  | string => "String"
  | function => "Function"
  | builtin => "BuiltInFunction"

def kind : Value Place → Kind
  | none => .none
  | bool _ => .bool
  | number _ => .number
  | string _ => .string
  | function _ => .function
  | builtin _ => .builtin

/-- Whether a value counts as true: everything but `none`, `false`, zero and the empty string. -/
def isTruthy : Value Place → Bool
  | none => false
  | bool b => b
  | number n => !n.isZero
  | string text => !text.isEmpty
  | function _ | builtin _ => true

/-- The scope a value holds on to. -/
def captured : Value Place → List ScopeId
  | function f => [f.scope]
  | _ => []

def ofLiteral : Literal → Value Place
  | .bool b => bool b
  | .none => none

/-- A value as it is printed.  A string is printed as it is. -/
def shown : Value Place → String
  | none => Literal.none.spelling
  | bool b => (Literal.bool b).spelling
  | number n => n.written
  | string text => text
  | function f => "<Function " ++ shownName f.name? ++ ">"
  | builtin b => "<Built-in Function " ++ b.name ++ ">"

/-- A value with every place of its program text sent through `f`. -/
def map (f : Place → Place') : Value Place → Value Place'
  | none => none
  | bool b => bool b
  | number n => number n
  | string text => string text
  | function g => function ⟨g.name?, g.parameters, g.body.map f, g.scope⟩
  | builtin b => builtin b

end Value
end Cyan
