/-
Programs without loops end.

However its functions recurse, are passed around or call each other, a program without loops comes to an
end in a fresh global scope: with a value or with an error, whatever the session has done before and
whatever there is to read (`Session.runFresh_ends`).  How deep the evaluation goes is known beforehand,
from the height of the program and from how many calls may be active (`Source.depthBound`).

The example scans its text by `cbv`, with the equation of `≤` that stands in
`Mathlib.Algebra.Module.Submodule.Lattice`.
-/
import Cyan.Evaluation.Bound
import Cyan.Proofs.Evaluation.Loopless
import Cyan.Session
import Mathlib.Algebra.Module.Submodule.Lattice

namespace Cyan
namespace Source

/-- If the text is a program, there is no loop in it. -/
def Loopless (source : Source) : Prop :=
  ∀ program, Expr.ofSource? source = .ok program → program.Loopless

/-- How deep the evaluation of a text can go without loops: once through the program, and once more for
each call that may be active.  Of a text that is no program nothing is evaluated. -/
def depthBound (source : Source) (limit : Nat) : Nat :=
  match Expr.ofSource? source with
  | .ok program => program.height * (limit + 1)
  | .error _ => 0

end Source

/-- A program without loops is evaluated to its end in a new global scope. -/
theorem evaluate_addGlobal_ends {program : Expr Span} (hloopless : program.Loopless) (config : Config)
    (w : World Span) :
    evaluate config (program.height * (config.maxCallDepth + 1)) program w.store.addGlobal.1 {}
      { w with store := w.store.addGlobal.2 } ≠ .unfinished := by
  have hconfines : w.store.addGlobal.2.Confines w.store.size (Expr.Shallow program.height) :=
    .addGlobal w.store
  refine (evaluate_ends config _ ⟨hloopless, Nat.le_refl _⟩ (Nat.le_refl w.store.size) {} ?_).ne_unfinished
    hconfines
  show program.height + config.maxCallDepth * program.height ≤ program.height * (config.maxCallDepth + 1)
  rw [Nat.mul_succ, Nat.mul_comm, Nat.add_comm]

namespace Session

/-- A text without loops, run in a fresh global scope, ends with a value or with an error.  Under every
bound that is as large as the program and the limit of active calls ask for it ends in this same way. -/
theorem runFresh_ends (source : Source) (hloopless : source.Loopless) (s : Session) :
    (∃ v s', ∀ bound ≥ source.depthBound s.config.maxCallDepth, runFresh bound source s = .done v s') ∨
    ∃ d s', ∀ bound ≥ source.depthBound s.config.maxCallDepth, runFresh bound source s = .failed d s' := by
  obtain ⟨w, globals, config⟩ := s
  show (∃ v s', ∀ bound ≥ source.depthBound config.maxCallDepth, _) ∨
    ∃ d s', ∀ bound ≥ source.depthBound config.maxCallDepth, _
  cases hprogram : Expr.ofSource? source with
  | error d =>
    refine Or.inr ⟨d, ⟨{ w with store := w.store.addGlobal.2.release w.store.addGlobal.1 }, globals, config⟩,
      fun bound _ => ?_⟩
    simp only [runFresh, Source.execute, hprogram]
    rfl
  | ok program =>
    have hends := evaluate_addGlobal_ends (hloopless program hprogram) config w
    rw [Source.depthBound, hprogram]
    -- A larger bound does not change how the evaluation ends.
    have hsame (bound : Nat) (hbound : program.height * (config.maxCallDepth + 1) ≤ bound) :=
      evaluate_of_le hbound hends
    simp only [runFresh, Source.execute, hprogram]
    generalize evaluate config _ program _ {} _ = o at hends hsame
    cases o with
    | done v m => exact Or.inl ⟨v, _, fun bound hbound => by rw [hsame bound hbound]; rfl⟩
    | failed e m => exact Or.inr ⟨.runtime e, _, fun bound hbound => by rw [hsame bound hbound]; rfl⟩
    | unfinished => exact absurd rfl hends

/-- A function that does nothing but call itself ends with an error as soon as three calls are active. -/
theorem runFresh_ends_recursion :
    let source : Source := ⟨"endless", "fun f() { f() }; f()"⟩
    let s : Session := start { maxCallDepth := 3 } {}
    source.Loopless ∧ source.depthBound 3 = 20 ∧
      ∃ e s', e.fault = .recursionLimit ∧
        ∀ bound ≥ 20, runFresh bound source s = .failed (.runtime e) s' := by
  intro source s
  let span (start stop : Nat) : Span := ⟨source, ⟨start, 0, start⟩, ⟨stop, 0, stop⟩⟩
  -- The text is scanned and parsed first, which is all that does not reduce by itself.
  have htokens : TokenStream.ofSource? source = .ok
      ⟨[⟨.keyword .fun_, span 0 3⟩, ⟨.identifier "f", span 4 5⟩, ⟨.mark .leftParen, span 5 6⟩,
        ⟨.mark .rightParen, span 6 7⟩, ⟨.mark .leftBrace, span 8 9⟩, ⟨.identifier "f", span 10 11⟩,
        ⟨.mark .leftParen, span 11 12⟩, ⟨.mark .rightParen, span 12 13⟩,
        ⟨.mark .rightBrace, span 14 15⟩, ⟨.mark .semicolon, span 15 16⟩, ⟨.identifier "f", span 17 18⟩,
        ⟨.mark .leftParen, span 18 19⟩, ⟨.mark .rightParen, span 19 20⟩], span 20 20⟩ := by cbv
  let body : Expr Span := .block (span 8 15) [.call (span 10 13) (.reference (span 10 11) "f") []]
  let program : Expr Span := .block (span 0 20) [.function (span 0 15) (some "f") [] body,
    .call (span 17 20) (.reference (span 17 18) "f") []]
  have hprogram : Expr.ofSource? source = .ok program := by
    rw [Expr.ofSource?, htokens]
    rfl
  have hloopless : source.Loopless := by
    intro p hp
    rw [hprogram] at hp
    cases hp
    decide
  have hdepth : source.depthBound 3 = 20 := by
    rw [Source.depthBound, hprogram]
    rfl
  have hfailed : ∃ e s', e.fault = .recursionLimit ∧ runFresh 20 source s = .failed (.runtime e) s' := by
    simp only [runFresh, Source.execute, hprogram, s]
    exact ⟨_, _, rfl, rfl⟩
  obtain ⟨e, s', he, hfailed⟩ := hfailed
  refine ⟨hloopless, hdepth, e, s', he, ?_⟩
  rcases runFresh_ends source hloopless s with ⟨v, t, hends⟩ | ⟨d, t, hends⟩
  · have hdone := hends 20 (Nat.le_of_eq hdepth)
    rw [hfailed] at hdone
    cases hdone
  · have hsame := hends 20 (Nat.le_of_eq hdepth)
    rw [hfailed] at hsame
    cases hsame
    intro bound hbound
    exact hends bound (hdepth.trans_le hbound)

end Session
end Cyan
