/-
Values in full form, as a programmer inspects them.

The full form names the kind of a value and writes strings quoted.  Of a function it shows the name
and the parameters and leaves out the rest, since the scope of a function usually holds the function.
-/
import Cyan.Value.Basic

namespace Cyan

def Arity.inspected : Arity → String
  | .fixed count => s!"Fixed({count})"
  | .variadic => "Variadic"

namespace Value

def bracketed (texts : List String) : String := "[" ++ ", ".intercalate texts ++ "]"

/-- A record that shows some of its fields. -/
def partialRecord (title : String) (fields : List (String × String)) : String :=
  title ++ " \x7b " ++ String.join (fields.map fun (name, text) => name ++ ": " ++ text ++ ", ") ++
    ".. \x7d"

def inspected {Place : Type} : Value Place → String
  | none => "None"
  | bool b => "Bool(" ++ (Literal.bool b).spelling ++ ")"
  | number (.int n) => "Number(Int(" ++ (Number.int n).written ++ "))"
  | number (.float x) => "Number(Float(" ++ (Number.float x).written ++ "))"
  | string text => "Str(" ++ Text.quoted text ++ ")"
  | function f =>
    "Function(" ++
      partialRecord "Function" [("name", Text.quoted (shownName f.name?)),
        ("parameters", bracketed (f.parameters.map Text.quoted))] ++ ")"
  | builtin b =>
    "BuiltIn(" ++
      partialRecord "BuiltInFunction" [("name", Text.quoted b.name),
        ("arity", b.arity.inspected)] ++ ")"

end Value
end Cyan
