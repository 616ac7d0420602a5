/-
What every rule does to the cursor.

A rule takes few kinds of steps, and a preorder that these keep (`Cursor.Steps`) is kept by every rule,
on success and on failure, in every setting whose `next` keeps it (`Setting.Passes`, `Composed.keeps`).

One such preorder is that reading moves forward: `Cursor.Reaches c c'` says that `c'` stands behind some
of the tokens ahead of `c`.  Trying a rule may go back, but never behind the place the rule was started
at.  A rule that finds a token its line can begin with reads it, however the rule ends, and on any other
token it fails on the spot.  For statements this is `statement_begins`.
-/
import Cyan.Proofs.Action.Keeps
import Cyan.Proofs.Grammar.Composed
import Cyan.Proofs.Grammar.Language

namespace Cyan

variable {Place α β : Type}

/-- The second cursor stands behind some of the tokens ahead of the first. -/
def Cursor.Reaches (c c' : Cursor Place) : Prop :=
  ∃ u, c.ahead = u ++ c'.ahead ∧ c'.behind = c.behind + u.length

namespace Cursor

instance : IsPreorder (Cursor Place) Cursor.Reaches where
  refl _ := ⟨[], rfl, rfl⟩
  trans := by
    intro c c' c'' ⟨u, hahead, hbehind⟩ ⟨v, hahead', hbehind'⟩
    refine ⟨u ++ v, by rw [hahead, hahead', List.append_assoc], ?_⟩
    rw [hbehind', hbehind, List.length_append, Nat.add_assoc]

theorem Reaches.behind_le {c c' : Cursor Place} (h : c.Reaches c') : c.behind ≤ c'.behind := by
  obtain ⟨u, -, h⟩ := h
  omega

theorem next_of_ahead {c : Cursor Place} {t : Token Place} {rest : List (Token Place)}
    (h : c.ahead = t :: rest) : c.next = ⟨rest, c.behind + 1, c.failure?⟩ := by
  rw [next, h]

/-- Every step of a rule keeps the relation: reading a token, passing separators, and forgetting a failed
attempt. -/
structure Steps (R : Cursor Place → Cursor Place → Prop) : Prop where
  next : ∀ c t rest, c.ahead = t :: rest → R c ⟨rest, c.behind + 1, c.failure?⟩
  pastSeparators : ∀ c, R c c.pastSeparators
  forget : ∀ c, R c { c with failure? := none }

theorem reaches_steps : Steps (Reaches : Cursor Place → Cursor Place → Prop) where
  next _ t _ h := ⟨[t], h, rfl⟩
  pastSeparators c :=
    ⟨c.ahead.takeWhile (·.kind.isSeparator), List.takeWhile_append_dropWhile.symm, rfl⟩
  forget _ := ⟨[], rfl, rfl⟩

end Cursor

namespace Rule

open Cyan.Action (Keeps)
open Grammar (Starts starts_cons not_starts_nil)

/-- What `take` does: it reads a token that it makes something of, or there is none. -/
theorem take_cases (read? : Token.Kind → Option α) (c : Cursor Place) :
    (∃ t rest a, c.ahead = t :: rest ∧ read? t.kind = some a ∧
      take read? c = .done (some (t.place, a)) c.next) ∨
    (¬ Starts (fun kind => (read? kind).isSome) c.ahead ∧ take read? c = .done none c) := by
  rw [take]
  cases hc : c.ahead with
  | nil => exact Or.inr ⟨not_starts_nil, rfl⟩
  | cons t rest =>
    cases ha : read? t.kind with
    | none =>
      refine Or.inr ⟨?_, by simp only [ha]⟩
      rw [starts_cons, ha]
      exact Bool.false_ne_true
    | some a => exact Or.inl ⟨t, rest, a, rfl, ha, by simp only [ha]⟩

theorem accept_cases (kind : Token.Kind) (c : Cursor Place) :
    (∃ t rest, c.ahead = t :: rest ∧ t.kind = kind ∧
      accept kind c = .done (some t.place) c.next) ∨
    (¬ Starts (· = kind) c.ahead ∧ accept kind c = .done none c) := by
  rw [accept, Action.bind_apply, Action.andThen]
  rcases take_cases (fun k => if k = kind then some () else none) c with
    ⟨t, rest, a, hc, ha, h⟩ | ⟨hc, h⟩
  · rw [Option.ite_none_right_eq_some] at ha
    exact Or.inl ⟨t, rest, hc, ha.1, by rw [h]; rfl⟩
  · refine Or.inr ⟨fun hkind => hc ?_, by rw [h]; rfl⟩
    refine hkind.mono fun k hk => ?_
    rw [if_pos (of_decide_eq_true hk)]
    rfl

theorem accept_eq_none {kind : Token.Kind} {c : Cursor Place} (h : ¬ Starts (· = kind) c.ahead) :
    accept kind c = .done none c := by
  rcases accept_cases kind c with ⟨t, rest, hc, ht, -⟩ | ⟨-, haccept⟩
  · exact absurd ⟨t, rest, hc, decide_eq_true ht⟩ h
  · exact haccept

section

variable {R : Cursor Place → Cursor Place → Prop} [IsPreorder (Cursor Place) R]

theorem peek_keeps : (peek : Rule Place _).Keeps R :=
  Keeps.of_same fun _ _ h => (Option.some.inj h).symm

theorem fail_keeps (finish : Place) (fault : SyntaxFault) : (fail finish fault : Rule Place α).Keeps R :=
  Keeps.of_same fun _ _ h => (Option.some.inj h).symm

variable (hR : Cursor.Steps R)
include hR

theorem take_keeps (read? : Token.Kind → Option α) : (take read? : Rule Place _).Keeps R := by
  intro c c' h
  rcases take_cases read? c with ⟨t, rest, a, hc, -, htake⟩ | ⟨-, htake⟩
  · rw [htake] at h
    obtain rfl := Option.some.inj h
    rw [Cursor.next_of_ahead hc]
    exact hR.next c t rest hc
  · rw [htake] at h
    obtain rfl := Option.some.inj h
    exact refl_of _ c

theorem accept_keeps (kind : Token.Kind) : (accept kind : Rule Place _).Keeps R :=
  (take_keeps hR _).bind fun _ => Keeps.pure _

theorem expect_keeps (finish : Place) (kind : Token.Kind) (what : Expectation) :
    (expect finish kind what).Keeps R := by
  refine (accept_keeps hR kind).bind fun place? => ?_
  cases place? with
  | some place => exact Keeps.pure place
  | none => exact fail_keeps finish _

omit [IsPreorder (Cursor Place) R] in
theorem skipSeparators_keeps : (skipSeparators : Rule Place _).Keeps R := by
  intro c c' h
  obtain rfl := Option.some.inj h
  exact hR.pastSeparators c

theorem unexpected_keeps (finish : Place) (fault : SyntaxFault) :
    (unexpected finish fault : Rule Place α).Keeps R := by
  intro c c' h
  rw [unexpected] at h
  cases hf : c.failure? with
  | none =>
    rw [hf] at h
    obtain rfl := Option.some.inj h
    exact refl_of _ c
  | some failure =>
    rw [hf] at h
    simp only at h
    split at h <;> obtain rfl := Option.some.inj h <;> exact hR.forget c

theorem Step.keeps {reads : α → Bool} {rule : Rule Place α} (h : rule.Step reads) : rule.Keeps R := by
  cases h with
  | pure => exact Keeps.pure _
  | cutOff => exact Keeps.cutOff
  | fail finish fault => exact fail_keeps finish fault
  | unexpected finish fault => exact unexpected_keeps hR finish fault
  | peek => exact peek_keeps
  | take read? => exact take_keeps hR read?
  | skipSeparators => exact skipSeparators_keeps hR

end

/-- An attempt ends where the rule ends or where it began. -/
theorem attempt_forward {rule : Rule Place α} (h : rule.Keeps Cursor.Reaches) :
    (attempt rule).Keeps Cursor.Reaches := by
  intro c c' hc
  rw [attempt] at hc
  cases hr : rule c with
  | done a d =>
    rw [hr] at hc
    obtain rfl := Option.some.inj hc
    exact h.done hr
  | failed e d =>
    rw [hr] at hc
    obtain rfl := Option.some.inj hc
    exact ⟨[], rfl, rfl⟩
  | unfinished =>
    rw [hr] at hc
    cases hc

end Rule

namespace Grammar

open Cyan.Action (Keeps)
open Rule

/-- Every step keeps the relation, and reading the next statement of a list keeps it if the rule for
statements does. -/
structure Setting.Passes (g : Setting Place) (R : Cursor Place → Cursor Place → Prop) : Prop where
  steps : Cursor.Steps R
  next : ∀ rule, rule.Keeps R → (g.next rule).Keeps R

theorem rewinding_forward (join : Place → Place → Place) (finish : Place) :
    (rewinding join finish).Passes Cursor.Reaches :=
  ⟨Cursor.reaches_steps, fun _ h => attempt_forward h⟩

variable {g : Setting Place} {R : Cursor Place → Cursor Place → Prop} [IsPreorder (Cursor Place) R]

/-- What the steps keep is kept by every rule that is made of them. -/
theorem Composed.keeps (hg : g.Passes R) {reads : α → Bool} {rule : Rule Place α}
    (h : Composed g reads rule) : rule.Keeps R := by
  induction h with
  | step h => exact h.keeps hg.steps
  | bind _ _ ih ihf => exact ih.bind ihf
  | next _ ih => exact hg.next _ ih
  | weaken _ ih => exact ih

theorem statements_keeps (hg : g.Passes R) (n : Nat) : (statements g n).Keeps R :=
  (statements_composed n).keeps hg

/-! ## The first token of a rule -/

/-- A token of which `p` holds is one the rule can begin with: started there it ends behind it, and
started elsewhere it fails on the spot. -/
structure BeginsWith (p : Token.Kind → Bool) (rule : Rule Place α) : Prop where
  advances : ∀ c c', Starts p c.ahead → (rule c).state? = some c' → c.behind < c'.behind
  stays : ∀ c, ¬ Starts p c.ahead → rule c = .unfinished ∨ ∃ e, rule c = .failed e c

namespace BeginsWith

variable {p q : Token.Kind → Bool}

theorem cutOff : BeginsWith p (Action.cutOff : Rule Place α) where
  advances := fun _ _ _ h => nomatch h
  stays := fun _ _ => Or.inl rfl

theorem fail (finish : Place) (fault : SyntaxFault) :
    BeginsWith (fun _ => false) (Rule.fail finish fault : Rule Place α) where
  advances := fun _ _ ⟨_, _, _, h⟩ => nomatch h
  stays := fun _ _ => Or.inr ⟨_, rfl⟩

theorem bind {rule : Rule Place α} {f : α → Rule Place β} (h : BeginsWith p rule)
    (hf : ∀ a, (f a).Keeps Cursor.Reaches) : BeginsWith p (rule >>= f) where
  advances := by
    intro c c' hc hs
    rcases Action.state?_bind hs with ⟨e, hr⟩ | ⟨a, d, hr, hs⟩
    · exact h.advances c c' hc (by rw [hr]; rfl)
    · have hlt := h.advances c d hc (by rw [hr]; rfl)
      have hle := (hf a d c' hs).behind_le
      omega
  stays := by
    intro c hc
    rw [Action.bind_apply, Action.andThen]
    rcases h.stays c hc with hr | ⟨e, hr⟩
    · exact Or.inl (by rw [hr])
    · exact Or.inr ⟨e, by rw [hr]⟩

/-- What begins with a token that is read at once, or with what another rule begins with. -/
theorem take {read? : Token.Kind → Option α} {f : Option (Place × α) → Rule Place β}
    (hp : ∀ kind, p kind = ((read? kind).isSome || q kind))
    (hsome : ∀ a, (f (some a)).Keeps Cursor.Reaches) (hnone : BeginsWith q (f none)) :
    BeginsWith p (Rule.take read? >>= f) where
  advances := by
    intro c c' ⟨t, rest, hc, ht⟩ hs
    rw [Action.bind_apply, Action.andThen] at hs
    rcases take_cases read? c with ⟨_, _, a, hc', -, h⟩ | ⟨hread, h⟩
    · rw [h] at hs
      have hle := (hsome _ _ _ hs).behind_le
      rw [Cursor.next_of_ahead hc'] at hle
      exact hle
    · rw [h] at hs
      rw [hp, Bool.or_eq_true] at ht
      rcases ht with ht | ht
      · exact absurd ⟨t, rest, hc, ht⟩ hread
      · exact hnone.advances c c' ⟨t, rest, hc, ht⟩ hs
  stays := by
    intro c hc
    rw [Action.bind_apply, Action.andThen]
    rcases take_cases read? c with ⟨t, rest, a, hahead, ha, -⟩ | ⟨-, h⟩
    · refine absurd ⟨t, rest, hahead, ?_⟩ hc
      rw [hp, ha]
      rfl
    · rw [h]
      refine hnone.stays c fun hq => hc (hq.mono fun kind hkind => ?_)
      rw [hp, hkind, Bool.or_true]

theorem accept {kind : Token.Kind} {f : Option Place → Rule Place β}
    (hp : ∀ k, p k = (k = kind || q k))
    (hsome : ∀ a, (f (some a)).Keeps Cursor.Reaches) (hnone : BeginsWith q (f none)) :
    BeginsWith p (Rule.accept kind >>= f) := by
  rw [Rule.accept, bind_assoc]
  simp only [pure_bind]
  refine .take (fun k => ?_) (fun a => hsome a.1) hnone
  rw [hp]
  by_cases h : k = kind
  · simp [h]
  · simp [h]

end BeginsWith

theorem atom_begins (hg : g.Passes Cursor.Reaches) (n : Nat) :
    BeginsWith beginsAtom (atom g n) := by
  cases n with
  | zero => exact .cutOff
  | succ n =>
    unfold atom
    refine .take (fun kind => ?_) (fun
      | (place, .leaf node) => Keeps.pure _
      | (place, .parenthesis) => ((expression_composed n).keeps hg).bind fun e => ?_
      | (place, .conditional) => (conditional_composed place n).keeps hg
      | (place, .loop) => (loop_composed place n).keeps hg
      | (place, .function) => (function_composed place n).keeps hg) (.fail _ _)
    · rw [isSome_opening?, Bool.or_false]
    · exact (expect_keeps hg.steps _ _ _).bind fun _ => Keeps.pure _

theorem call_begins (hg : g.Passes Cursor.Reaches) (n : Nat) :
    BeginsWith beginsAtom (call g n) := by
  cases n with
  | zero => exact .cutOff
  | succ n =>
    unfold call
    exact (atom_begins hg n).bind fun callee => (calls_composed callee n).keeps hg

/-- At the loosest level an operand begins with any prefix operator. -/
theorem operand_begins (hg : g.Passes Cursor.Reaches) (n : Nat) :
    BeginsWith beginsOperand (operand g .logic n) := by
  cases n with
  | zero => exact .cutOff
  | succ n =>
    unfold operand
    refine .take (fun kind => ?_) (fun (place, op) => ?_) (call_begins hg n)
    · rw [beginsOperand, prefixFor?]
      cases h : prefixOp? kind with
      | none => rfl
      | some op => rfl
    · exact ((operation_composed _ n).keeps hg).bind fun _ => Keeps.pure _

theorem operation_begins (hg : g.Passes Cursor.Reaches) (n : Nat) :
    BeginsWith beginsOperand (operation g .logic n) := by
  cases n with
  | zero => exact .cutOff
  | succ n =>
    unfold operation
    exact (operand_begins hg n).bind fun first => (operators_composed .logic first n).keeps hg

theorem expression_begins (hg : g.Passes Cursor.Reaches) (n : Nat) :
    BeginsWith beginsExpression (expression g n) := by
  cases n with
  | zero => exact .cutOff
  | succ n =>
    unfold expression
    refine .accept (fun _ => rfl) (fun place => ?_) (operation_begins hg n)
    refine (identifier_composed.keeps hg).bind fun name => ?_
    refine ((Composed.discard (.expect _ _ _)).keeps hg).bind fun _ => ?_
    exact ((expression_composed n).keeps hg).bind fun _ => Keeps.pure _

/-- A statement reads the token it starts at exactly if that token can begin a statement. -/
theorem statement_begins (hg : g.Passes Cursor.Reaches) (n : Nat) :
    BeginsWith beginsStatement (statement g n) := by
  cases n with
  | zero => exact .cutOff
  | succ n =>
    unfold statement
    exact .accept (fun _ => rfl) (fun place => Keeps.pure _) (expression_begins hg n)

end Grammar
end Cyan
