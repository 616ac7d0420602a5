/-
What rules are made of.

A rule takes single steps one after the other (`Rule.Step`), and reads the next statement of a list in the
way the setting lays down.  `Grammar.Composed g reads rule` says that `rule` is put together from nothing
else, and that it is seen from its steps to have read a token when it succeeds with a result of which
`reads` holds.  This is so for every rule of the grammar.  What is true of the steps, and goes from the
parts of a rule to the whole, is therefore true of all rules, without looking at any of them again.
-/
import Cyan.Grammar.Rules

namespace Cyan

variable {Place : Type}

/-- The single steps of rules, and the results with which a step has read a token. -/
inductive Rule.Step : {α : Type} → (α → Bool) → Rule Place α → Prop
  | pure {α reads} {a : α} : reads a = false → Step reads (Pure.pure a)
  | cutOff {α reads} : Step reads (Action.cutOff : Rule Place α)
  | fail {α reads} (finish : Place) (fault : SyntaxFault) : Step reads (Rule.fail finish fault : Rule Place α)
  | unexpected {α reads} (finish : Place) (fault : SyntaxFault) :
    Step reads (Rule.unexpected finish fault : Rule Place α)
  | peek : Step (fun _ => false) Rule.peek
  | take {α} (read? : Token.Kind → Option α) : Step Option.isSome (Rule.take read?)
  | skipSeparators : Step (fun _ => false) Rule.skipSeparators

namespace Grammar

/-- Whether a rule is put together from single steps and from ways to read the next statement, so that it
reads a token in one of its parts when it succeeds with a result of which `reads` holds. -/
inductive Composed (g : Setting Place) : {α : Type} → (α → Bool) → Rule Place α → Prop
  | step {α reads} {rule : Rule Place α} : rule.Step reads → Composed g reads rule
  | bind {α β reads readsBoth} {rule : Rule Place α} {f : α → Rule Place β} : Composed g reads rule →
    (∀ a, Composed g (fun b => readsBoth b && !reads a) (f a)) → Composed g readsBoth (rule >>= f)
  | next {reads rule} : Composed g reads rule → Composed g (fun _ => false) (g.next rule)
  | weaken {α reads} {rule : Rule Place α} : Composed g reads rule → Composed g (fun _ => false) rule

variable {α : Type} {reads : α → Bool} {g : Setting Place}

namespace Composed

theorem pure {a : α} (h : reads a = false) : Composed g reads (Pure.pure a) := .step (.pure h)

theorem cutOff : Composed g reads Action.cutOff := .step .cutOff

theorem fail (finish : Place) (fault : SyntaxFault) : Composed g reads (Rule.fail finish fault) :=
  .step (.fail finish fault)

theorem unexpected (finish : Place) (fault : SyntaxFault) :
    Composed g reads (Rule.unexpected finish fault) := .step (.unexpected finish fault)

theorem peek : Composed g (fun _ => false) Rule.peek := .step .peek

theorem take (read? : Token.Kind → Option α) : Composed g Option.isSome (Rule.take read?) :=
  .step (.take read?)

theorem skipSeparators : Composed g (fun _ => false) Rule.skipSeparators := .step .skipSeparators

theorem discard {one : Bool} {rule : Rule Place α} (h : Composed g (fun _ => one) rule) :
    Composed g (fun _ => one) (Functor.discard rule) :=
  .bind h fun _ => .pure (Bool.and_not_self one)

theorem sees (kind : Token.Kind) : Composed g (fun _ => false) (Rule.sees kind) :=
  .bind .peek fun _ => .pure rfl

theorem accept (kind : Token.Kind) : Composed g Option.isSome (Rule.accept kind) :=
  .bind (.take _) fun
    | some _ => .pure rfl
    | none => .pure rfl

theorem acceptIdentifier : Composed g Option.isSome Rule.acceptIdentifier :=
  .bind (.take _) fun
    | some _ => .pure rfl
    | none => .pure rfl

theorem expect (finish : Place) (kind : Token.Kind) (what : Expectation) :
    Composed g (fun _ => true) (Rule.expect finish kind what) :=
  .bind (.accept kind) fun
    | some _ => .pure rfl
    | none => .fail _ _

end Composed

theorem parameters_composed : ∀ n names, Composed g (fun _ => false) (parameters g names n)
  | 0, _ => .cutOff
  | n + 1, names => by
    unfold parameters
    refine .bind (.accept _) fun
      | none => .pure rfl
      | some _ => .bind .acceptIdentifier fun
        | some name => parameters_composed n (name :: names)
        | none => .bind (.sees _) fun
          | true => .pure rfl
          | false => .fail _ _

theorem identifier_composed : Composed g (fun _ => true) (identifier g) :=
  .bind .acceptIdentifier fun
    | some _ => .pure rfl
    | none => .fail _ _

theorem signature_composed (n : Nat) : Composed g (fun _ => true) (signature g n) := by
  unfold signature
  refine .bind (.weaken .acceptIdentifier) fun name? => ?_
  refine .bind (.discard (.expect _ _ _)) fun _ => ?_
  have hclose (names : List String) : Composed g (fun _ => false) (do
      discard <| Rule.expect g.finish (.mark .rightParen) .commaOrCloseParen
      return (name?, names)) :=
    .bind (.discard (.expect _ _ _)) fun _ => .pure rfl
  refine .bind (.sees _) fun
    | true => hclose []
    | false => .bind identifier_composed fun name => ?_
  exact .bind (parameters_composed n [name]) hclose

mutual

theorem statements_composed : ∀ n, Composed g (fun _ => true) (statements g n)
  | 0 => .cutOff
  | n + 1 => by
    unfold statements
    refine .bind (.discard .skipSeparators) fun _ => ?_
    exact .bind (statement_composed n) fun first => moreStatements_composed n [first]
termination_by structural n => n

theorem moreStatements_composed : ∀ n done, Composed g (fun _ => false) (moreStatements g done n)
  | 0, _ => .cutOff
  | n + 1, done => by
    unfold moreStatements
    exact .bind .skipSeparators fun
      | false => .pure rfl
      | true => .bind (.next (statement_composed n)) fun
        | some e => moreStatements_composed n (e :: done)
        | none => .pure rfl
termination_by structural n => n

theorem statement_composed : ∀ n, Composed g (fun _ => true) (statement g n)
  | 0 => .cutOff
  | n + 1 => by
    unfold statement
    exact .bind (.accept _) fun
      | some place => .pure rfl
      | none => expression_composed n
termination_by structural n => n

theorem expression_composed : ∀ n, Composed g (fun _ => true) (expression g n)
  | 0 => .cutOff
  | n + 1 => by
    unfold expression
    refine .bind (.accept _) fun
      | some place => .bind identifier_composed fun name => ?_
      | none => operation_composed .logic n
    refine .bind (.discard (.expect _ _ _)) fun _ => ?_
    exact .bind (expression_composed n) fun _ => .pure rfl
termination_by structural n => n

theorem operation_composed (l : Level) : ∀ n, Composed g (fun _ => true) (operation g l n)
  | 0 => .cutOff
  | n + 1 => by
    unfold operation
    exact .bind (operand_composed l n) fun first => operators_composed l first n
termination_by structural n => n

theorem operators_composed (l : Level) (left : Expr Place) :
    ∀ n, Composed g (fun _ => false) (operators g l left n)
  | 0 => .cutOff
  | n + 1 => by
    unfold operators
    refine .bind (.take _) fun
      | some (_, op) => .bind (operation_composed _ n) fun right => ?_
      | none => .pure rfl
    exact operators_composed l _ n
termination_by structural n => n

theorem operand_composed (l : Level) : ∀ n, Composed g (fun _ => true) (operand g l n)
  | 0 => .cutOff
  | n + 1 => by
    unfold operand
    exact .bind (.take _) fun
      | some (place, op) => .bind (operation_composed _ n) fun _ => .pure rfl
      | none => call_composed n
termination_by structural n => n

theorem call_composed : ∀ n, Composed g (fun _ => true) (call g n)
  | 0 => .cutOff
  | n + 1 => by
    unfold call
    exact .bind (atom_composed n) fun callee => calls_composed callee n
termination_by structural n => n

theorem calls_composed (callee : Expr Place) : ∀ n, Composed g (fun _ => false) (calls g callee n)
  | 0 => .cutOff
  | n + 1 => by
    unfold calls
    refine .bind (.accept _) fun
      | none => .pure rfl
      | some _ => .bind (arguments_composed n) fun list => ?_
    exact .bind (.expect _ _ _) fun _ => calls_composed _ n
termination_by structural n => n

theorem arguments_composed : ∀ n, Composed g (fun _ => false) (arguments g n)
  | 0 => .cutOff
  | n + 1 => by
    unfold arguments
    refine .bind (.sees _) fun
      | true => .pure rfl
      | false => .bind (expression_composed n) fun first => ?_
    exact moreArguments_composed [first] n
termination_by structural n => n

theorem moreArguments_composed (done : List (Expr Place)) :
    ∀ n, Composed g (fun _ => false) (moreArguments g done n)
  | 0 => .cutOff
  | n + 1 => by
    unfold moreArguments
    exact .bind (.accept _) fun
      | some _ => .bind (expression_composed n) fun e => moreArguments_composed (e :: done) n
      | none => .pure rfl
termination_by structural n => n

theorem atom_composed : ∀ n, Composed g (fun _ => true) (atom g n)
  | 0 => .cutOff
  | n + 1 => by
    unfold atom
    refine .bind (.take _) fun
      | some (place, .leaf node) => .pure rfl
      | some (place, .parenthesis) => .bind (expression_composed n) fun e => ?_
      | some (place, .conditional) => .weaken (conditional_composed place n)
      | some (place, .loop) => .weaken (loop_composed place n)
      | some (place, .function) => .weaken (function_composed place n)
      | none => .fail _ _
    exact .bind (.expect _ _ _) fun _ => .pure rfl
termination_by structural n => n

theorem conditional_composed (place : Place) : ∀ n, Composed g (fun _ => true) (conditional g place n)
  | 0 => .cutOff
  | n + 1 => by
    unfold conditional
    refine .bind (operation_composed _ n) fun condition => ?_
    refine .bind (.discard (.expect _ _ _)) fun _ => ?_
    refine .bind (.sees _) fun braces => ?_
    refine .bind (branch_composed braces n) fun thenBranch => ?_
    refine .bind (.discard (.expect _ _ _)) fun _ => ?_
    exact .bind (branch_composed braces n) fun elseBranch => .pure rfl
termination_by structural n => n

theorem branch_composed (braces : Bool) : ∀ n, Composed g (fun _ => true) (branch g braces n)
  | 0 => .cutOff
  | n + 1 => by
    unfold branch
    cases braces with
    | true => exact block_composed n
    | false => exact expression_composed n
termination_by structural n => n

theorem loop_composed (place : Place) : ∀ n, Composed g (fun _ => true) (loop g place n)
  | 0 => .cutOff
  | n + 1 => by
    unfold loop
    refine .bind (operation_composed _ n) fun condition => ?_
    exact .bind (block_composed n) fun _ => .pure rfl
termination_by structural n => n

theorem function_composed (place : Place) : ∀ n, Composed g (fun _ => true) (function g place n)
  | 0 => .cutOff
  | n + 1 => by
    unfold function
    refine .bind (signature_composed n) fun _ => ?_
    exact .bind (block_composed n) fun _ => .pure rfl
termination_by structural n => n

theorem block_composed : ∀ n, Composed g (fun _ => true) (block g n)
  | 0 => .cutOff
  | n + 1 => by
    unfold block
    refine .bind (.expect _ _ _) fun _ => ?_
    refine .bind (statements_composed n) fun list => ?_
    exact .bind (.accept _) fun
      | some close => .pure rfl
      | none => .unexpected _ _
termination_by structural n => n

end

theorem program_composed (n : Nat) : Composed g (fun _ => true) (program g n) := by
  unfold program
  refine .bind (statements_composed n) fun list => ?_
  exact .bind .peek fun
    | none => .pure rfl
    | some _ => .unexpected _ _

end Grammar
end Cyan
