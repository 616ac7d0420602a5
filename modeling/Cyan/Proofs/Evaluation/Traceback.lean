/-
The active calls.

A traceback has a line for each active call and one for the program.  `Run.Traceback` describes the lines
one by one: the first is for the visit that evaluation has come to, and each of the others for the call
that has entered the function body which the visit of the line before it is in.  `Run.traceback` says
that wherever a run has come to, its stack of calls has these lines.
-/
import Cyan.Proofs.Evaluation.Visits
import Cyan.Proofs.Scope.Lexical

namespace Cyan

variable {Place : Type} {config : Config} {t t' : Visit Place}

namespace Visit

/-- The visits that are come to without a further call. -/
def Inside (config : Config) : Visit Place → Visit Place → Prop :=
  Relation.ReflTransGen fun t t' => t.Leads config t' ∧ t'.stack = t.stack

/-- A visit leads to another under the same active calls, to a part of its expression that is no function
body, or to the body of a function that it calls. -/
theorem Leads.inside_or_body (h : t.Leads config t') :
    (t'.stack = t.stack ∧ t.node.isFunction = false ∧ t'.node ∈ t.node.children) ∨
      ∃ f inner w, t' = t.calling f inner w ∧ t.Enters config f inner w := by
  cases h with
  | operand hoperands => exact Or.inl ⟨rfl, Expr.operand_inside hoperands⟩
  | @branch place condition thenBranch elseBranch v w hnode =>
    refine Or.inl ⟨rfl, ?_⟩
    rw [hnode]
    refine ⟨rfl, ?_⟩
    by_cases htrue : v.isTruthy = true
    · simp [beside, Expr.children, htrue]
    · simp [beside, Expr.children, htrue]
  | condition hnode | round hnode =>
    refine Or.inl ⟨rfl, ?_⟩
    rw [hnode]
    exact ⟨rfl, by simp [beside, Expr.children]⟩
  | @body f inner w henters => exact Or.inr ⟨f, inner, w, rfl, henters⟩

end Visit

open Visit

/-- The lines of a traceback, of which the first is for the visit `t`.  It names the function whose body
the visit is in, outside of all functions defined there, and the next line is for the call that has
entered the body.  The last line is for the program. -/
inductive Run.Traceback (config : Config) (r : Run Place) :
    Visit Place → List (Context × Place) → Prop where
  | module {t : Visit Place} : r.visit.Inside config t → Within r.program [] t.node →
    Traceback config r t [(.module, t.node.place)]
  | call {c t : Visit Place} {f inner w lines} : Traceback config r c lines → c.Enters config f inner w →
    (c.calling f inner w).Inside config t → Within f.body [] t.node →
    Traceback config r t ((.function f.name?, t.node.place) :: lines)

namespace Run

variable {r : Run Place}

/-- A step inside of a function body only changes the place of the first line. -/
theorem Traceback.inside {context : Context} {place : Place} {lines : List (Context × Place)}
    (h : Traceback config r t ((context, place) :: lines)) (hleads : t.Leads config t')
    (hstack : t'.stack = t.stack) (hnode : t.node.isFunction = false)
    (hpart : t'.node ∈ t.node.children) :
    Traceback config r t' ((context, t'.node.place) :: lines) := by
  cases h with
  | module hinside hwithin =>
    exact .module (hinside.tail ⟨hleads, hstack⟩) (hwithin.inside hnode hpart)
  | call hcaller henters hinside hwithin =>
    exact .call hcaller henters (hinside.tail ⟨hleads, hstack⟩) (hwithin.inside hnode hpart)

theorem exists_trace (stack : CallStack Place) :
    ∃ context lines, ∀ place, stack.trace place = (context, place) :: lines := by
  obtain ⟨frames, depth, hdepth⟩ := stack
  cases frames with
  | nil => exact ⟨.module, [], fun _ => rfl⟩
  | cons frame rest => exact ⟨.function frame.name?, _, fun _ => rfl⟩

/-- Wherever a run has come to, the active calls are those that have led there. -/
theorem traceback (h : r.visit.Reaches config t) :
    Traceback config r t (t.stack.trace t.node.place) := by
  induction h with
  | refl => exact .module .refl .root
  | @tail t t' _ hleads ih =>
    rcases hleads.inside_or_body with ⟨hstack, hnode, hpart⟩ | ⟨f, inner, w, rfl, henters⟩
    · obtain ⟨context, lines, htrace⟩ := exists_trace t.stack
      rw [htrace] at ih
      rw [hstack, htrace]
      exact ih.inside hleads hstack hnode hpart
    · exact .call ih henters .refl .root

theorem Traceback.head? {lines : List (Context × Place)} (h : Traceback config r t lines) :
    lines.head?.map Prod.snd = some t.node.place := by
  cases h with
  | module | call => rfl

theorem Traceback.getLast? {lines : List (Context × Place)} (h : Traceback config r t lines) :
    lines.getLast?.map Prod.fst = some .module := by
  induction h with
  | module => rfl
  | call hcaller _ _ _ ih =>
    rw [List.getLast?_cons]
    generalize List.getLast? _ = last? at ih ⊢
    cases last? with
    | none => cases ih
    | some last => exact ih

end Run
end Cyan
