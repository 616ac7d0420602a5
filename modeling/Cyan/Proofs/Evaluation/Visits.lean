/-
The steps of an evaluation.

Evaluating an expression comes down to evaluating others.  A `Visit` is an expression that evaluation
has come to, with the scope, the active calls and the world it is evaluated in.  `Visit.Leads` says
which visits one visit leads to directly, and `Visit.Reaches` which ones it leads to at all: these are
all steps of a run, also of one that fails or never ends.  Everything inside an expression is visited
in the same scope and under the same calls, except the body of a function, which is visited when the
function is called.

Three relations say how far a visit has come when it leads to the next one.  `Visit.Passes` lists the
operands that have been evaluated, `Visit.Rounds` counts off the rounds of a loop, and `Visit.Enters`
holds when a call has made the scope in which the body of its function is evaluated.
-/
import Cyan.Evaluation.Evaluate
import Mathlib.Logic.Relation

namespace Cyan

variable {Place : Type}

namespace Expr

/-- Whether an expression is the definition of a function. -/
def isFunction : Expr Place → Bool
  | function _ _ _ _ => true
  | _ => false

/-- The expressions inside an expression that are evaluated from left to right in every case. -/
def operands : Expr Place → List (Expr Place)
  | block _ statements => statements
  | binary _ _ left right => [left, right]
  | unary _ _ operand => [operand]
  | assign _ _ value => [value]
  | conditional _ condition _ _ => [condition]
  | call _ callee arguments => callee :: arguments
  | pass _ | number _ _ | literal _ _ | string _ _ | reference _ _ | loop _ _ _
  | function _ _ _ _ => []

/-- Operands are evaluated in the scope of the whole, as no function definition has any. -/
theorem operand_inside {e part : Expr Place} {before after : List (Expr Place)}
    (h : e.operands = before ++ part :: after) : e.isFunction = false ∧ part ∈ e.children := by
  have hmem : part ∈ e.operands := by
    rw [h]
    exact List.mem_append_right before List.mem_cons_self
  cases e with
  | block | binary | unary | assign | call => exact ⟨rfl, hmem⟩
  | conditional place condition thenBranch elseBranch =>
    obtain rfl := List.mem_singleton.mp hmem
    exact ⟨rfl, List.mem_cons_self⟩
  | pass | number | literal | string | reference | loop | function => cases hmem

end Expr

/-- An expression that evaluation has come to, with all that its evaluation depends on. -/
structure Visit (Place : Type) where
  node : Expr Place
  scope : ScopeId
  stack : CallStack Place
  world : World Place

namespace Visit

/-- The visit of another expression in the same scope and under the same calls, in a later world. -/
def beside (t : Visit Place) (node : Expr Place) (world : World Place) : Visit Place :=
  { t with node, world }

/-- The visit of the body of `f`, in the scope `inner`, when the visit calls `f`. -/
def calling (t : Visit Place) (f : Function Place) (inner : ScopeId) (world : World Place) :
    Visit Place :=
  ⟨f.body, inner, t.stack.push f.name? t.node.place, world⟩

/-- How the evaluation ends under a bound. -/
def outcome (t : Visit Place) (config : Config) (bound : Nat) :
    Outcome (World Place) (RuntimeError Place) (Value Place) :=
  evaluate config bound t.node t.scope t.stack t.world

/-- The evaluation ends with the value `v` in the world `w`. -/
def Yields (config : Config) (t : Visit Place) (v : Value Place) (w : World Place) : Prop :=
  ∃ bound, t.outcome config bound = .done v w

/-- Evaluating the expressions one after another gives the values and ends in the world `w`. -/
inductive Passes (config : Config) (t : Visit Place) :
    List (Expr Place) → List (Value Place) → World Place → Prop where
  | nil : Passes config t [] [] t.world
  | snoc {before values e v w w'} : Passes config t before values w →
      (t.beside e w).Yields config v w' → Passes config t (before ++ [e]) (values ++ [v]) w'

theorem Passes.world_eq {config : Config} {t : Visit Place} {values : List (Value Place)}
    {w : World Place} (h : t.Passes config [] values w) : w = t.world := by
  generalize hlist : ([] : List (Expr Place)) = list at h
  cases h with
  | nil => rfl
  | snoc => exact absurd hlist (List.append_ne_nil_of_right_ne_nil _ (List.cons_ne_nil _ _)).symm

/-- Some rounds of a loop end in the world `w`. -/
inductive Rounds (config : Config) (t : Visit Place) (condition body : Expr Place) :
    World Place → Prop where
  | start : Rounds config t condition body t.world
  | round {w m w' v u} : Rounds config t condition body w →
      (t.beside condition w).Yields config v m → v.isTruthy = true →
      (t.beside body m).Yields config u w' → Rounds config t condition body w'

/-- The visit is a call of `f`, for which it makes the scope `inner` with the parameters bound. -/
def Enters (config : Config) (t : Visit Place) (f : Function Place) (inner : ScopeId)
    (w : World Place) : Prop :=
  ∃ place callee arguments values m, t.node = .call place callee arguments ∧
    t.Passes config (callee :: arguments) (.function f :: values) m ∧
    Evaluation.checkCall config t.stack place f values.length m = .done () m ∧
    Evaluation.enter f values m = .done inner w

/-- The visits that a visit leads to directly. -/
inductive Leads (config : Config) (t : Visit Place) : Visit Place → Prop where
  | operand {before e after values w} : t.node.operands = before ++ e :: after →
      t.Passes config before values w → Leads config t (t.beside e w)
  | branch {place condition thenBranch elseBranch v w} :
      t.node = .conditional place condition thenBranch elseBranch →
      t.Passes config [condition] [v] w →
      Leads config t (t.beside (if v.isTruthy then thenBranch else elseBranch) w)
  | condition {place condition body w} : t.node = .loop place condition body →
      t.Rounds config condition body w → Leads config t (t.beside condition w)
  | round {place condition body w v w'} : t.node = .loop place condition body →
      t.Rounds config condition body w → (t.beside condition w).Yields config v w' →
      v.isTruthy = true → Leads config t (t.beside body w')
  | body {f inner w} : t.Enters config f inner w → Leads config t (t.calling f inner w)

/-- The visits that a visit leads to, itself included. -/
def Reaches (config : Config) : Visit Place → Visit Place → Prop :=
  Relation.ReflTransGen (Leads config)

end Visit

/-- The evaluation of a program: the program, the root scope it is evaluated in, and the world it
begins in. -/
structure Run (Place : Type) where
  program : Expr Place
  root : ScopeId
  world : World Place

/-- The first visit of a run. -/
def Run.visit (r : Run Place) : Visit Place := ⟨r.program, r.root, ⟨[], _, rfl⟩, r.world⟩

/-- Some of the runs come to the visit. -/
def Visited (config : Config) (runs : List (Run Place)) (t : Visit Place) : Prop :=
  ∃ r ∈ runs, r.visit.Reaches config t

namespace Visited

variable {config : Config} {runs runs' : List (Run Place)} {t t' : Visit Place}

theorem mono (h : Visited config runs t) (hruns : runs ⊆ runs') : Visited config runs' t := by
  obtain ⟨r, hr, ht⟩ := h
  exact ⟨r, hruns hr, ht⟩

theorem leads (h : Visited config runs t) (hleads : t.Leads config t') :
    Visited config runs t' := by
  obtain ⟨r, hr, ht⟩ := h
  exact ⟨r, hr, ht.tail hleads⟩

end Visited
end Cyan
