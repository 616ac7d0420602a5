/-
The programs that are read, and where reading stops at the others.

`Accepted join ts` says that all of `ts` derives from the line `statements` of the grammar.  A row of
tokens is read exactly if it is accepted, and what it is read as is a derivation tree of it
(`ofTokens?_accepts`).  Where it is not, the error is placed at the first token that no accepted row has
behind the tokens in front of it, or at the end if all of the tokens begin an accepted row
(`ofTokens?_error`).

Both come from reading in the predictive setting, which gives the same result (`read?_rewinding`).
-/
import Cyan.Proofs.Grammar.Tree

namespace Cyan
namespace Grammar

variable {Place : Type} (join : Place → Place → Place)

/-- All of the tokens derive from `statements`. -/
def Accepted (ts : List (Token Place)) : Prop :=
  ∃ list, DerivesRow join anyhow .statements ts [] list

variable {join} {finish : Place} {ts : List (Token Place)}

theorem followsRow_nil : FollowsRow join .statements (· = []) ts ↔ Accepted join ts := by
  constructor
  · intro ⟨rest, list, h, hrest⟩
    subst hrest
    exact ⟨list, h⟩
  · exact fun ⟨list, h⟩ => ⟨[], list, h, rfl⟩

theorem accepted_of_derives
    {ok : Symbol Place → List (Token Place) → List (Token Place) → Prop} {list : List (Expr Place)}
    (h : DerivesRow join ok .statements ts [] list) : Accepted join ts := by
  obtain ⟨ts', ⟨u, hts, hts'⟩, h⟩ := h.relocate []
  rw [hts, ← hts']
  exact ⟨list, h⟩

/-- The error is placed at the first token, or at the end, where no accepted row goes on. -/
def StuckAt (join : Place → Place → Place) (finish : Place) (tokens : List (Token Place))
    (e : SyntaxError Place) : Prop :=
  ∃ u rest, tokens = u ++ rest ∧ e.place = (rest.head?.map Token.place).getD finish ∧
    (∃ v, Accepted join (u ++ v)) ∧ ∀ v, v.head? = rest.head? → ¬ Accepted join (u ++ v)

/-- Reading stops at the first token that no accepted row has behind those in front of it, and at the
end exactly if an accepted row begins with all of the tokens. -/
theorem StuckAt.exists_index {tokens : List (Token Place)} {e : SyntaxError Place}
    (h : StuckAt join finish tokens e) :
    ∃ k, k ≤ tokens.length ∧ e.place = ((tokens[k]?).map Token.place).getD finish ∧
      (∃ more, Accepted join (tokens.take k ++ more)) ∧
      (k < tokens.length → ∀ more, ¬ Accepted join (tokens.take (k + 1) ++ more)) ∧
      (k = tokens.length ↔ ∃ more, Accepted join (tokens ++ more)) := by
  obtain ⟨u, rest, rfl, hplace, hviable, hstuck⟩ := h
  refine ⟨u.length, ?_, ?_, ?_, ?_⟩
  · rw [List.length_append]
    exact Nat.le_add_right _ _
  · rw [hplace, List.getElem?_append_right (Nat.le_refl _), Nat.sub_self, List.head?_eq_getElem?]
  · rw [List.take_left]
    exact hviable
  · cases rest with
    | nil =>
      rw [List.append_nil]
      exact ⟨fun hlt => absurd hlt (Nat.lt_irrefl _), fun _ => hviable, fun _ => rfl⟩
    | cons t rest =>
      have hnone : ∀ more, ¬ Accepted join (u ++ t :: more) := fun more => hstuck (t :: more) rfl
      refine ⟨fun _ more h => ?_, fun hlen => ?_, fun ⟨more, h⟩ => ?_⟩
      · rw [List.take_length_add_append, List.append_assoc] at h
        exact hnone more h
      · rw [List.length_append, List.length_cons] at hlen
        omega
      · rw [List.append_assoc] at h
        exact absurd h (hnone (rest ++ more))

theorem program_predictive (join : Place → Place → Place) (finish : Place) (n : Nat) (tokens : List (Token Place)) :
    match program (predictive join finish) n ⟨tokens, 0, none⟩ with
    | .done e _ => ∃ list, e = .block (extent (predictive join finish) list) list ∧
        DerivesRow join (Farthest join) .statements tokens [] list
    | .failed e _ => StuckAt join finish tokens e
    | .unfinished => True := by
  have hfits := statements_recognizes join finish n ⟨tokens, 0, none⟩ rfl
  have hbuilt := statements_builds join finish n ⟨tokens, 0, none⟩ rfl
  rw [program, Action.bind_apply, Action.andThen]
  cases hr : statements (predictive join finish) n ⟨tokens, 0, none⟩ with
  | done list c =>
    rw [hr] at hfits
    obtain ⟨hc, more, hlist, hmore⟩ := hbuilt list c hr
    obtain rfl : list = more := hlist
    obtain ⟨-, u, htokens, hu⟩ := hfits
    dsimp only
    rw [Action.bind_apply, Action.andThen, Rule.peek]
    cases hahead : c.ahead with
    | nil =>
      rw [hahead] at hmore
      exact ⟨list, rfl, hmore⟩
    | cons t rest =>
      -- What was read is accepted, and no statement goes on with the token behind it.
      simp only [List.head?_cons, Option.map_some]
      rw [Rule.unexpected, hc]
      refine ⟨u, c.ahead, htokens, rfl, ⟨[], ?_⟩, fun v hv h => ?_⟩
      · exact followsRow_nil.mp (hu.sound (· = []) [] rfl)
      · have hnil := hu.complete _ closing_nil v hv (followsRow_nil.mpr h)
        rw [hnil, hahead] at hv
        cases hv
  | failed e c =>
    rw [hr] at hfits
    obtain ⟨hplace, u, htokens, hu⟩ := hfits
    obtain ⟨v, hv⟩ := hu.viable
    refine ⟨u, c.ahead, htokens, hplace, ⟨v, ?_⟩, fun v hv h => ?_⟩
    · have haccepted := followsRow_nil.mp (hv (· = []) [] rfl)
      rwa [List.append_nil] at haccepted
    · exact hu.stuck _ closing_nil v hv (followsRow_nil.mpr h)
  | unfinished => trivial

end Grammar

open Grammar

variable {Place : Type} (join : Place → Place → Place) (s : TokenStream Place)

/-- A row of tokens is read as a derivation tree of it, or reading is stuck at one of them. -/
theorem Expr.ofTokens?_cases :
    (∃ list, Expr.ofTokens? join s = .ok (.block (extent (rewinding join s.finish) list) list) ∧
        DerivesRow join (Farthest join) .statements s.tokens [] list) ∨
      ∃ e, Expr.ofTokens? join s = .error e ∧ StuckAt join s.finish s.tokens e := by
  rw [Expr.ofTokens?, read?_rewinding, read?]
  have hends := program_ne_unfinished (predictive_keeps join s.finish) s.tokens
  have hprogram := program_predictive join s.finish (depth s.tokens.length) s.tokens
  cases hp : program (predictive join s.finish) (depth s.tokens.length) ⟨s.tokens, 0, none⟩ with
  | done e c =>
    rw [hp] at hprogram
    obtain ⟨list, rfl, h⟩ := hprogram
    exact Or.inl ⟨list, rfl, h⟩
  | failed e c =>
    rw [hp] at hprogram
    exact Or.inr ⟨e, rfl, hprogram⟩
  | unfinished => exact absurd hp hends

variable {join s}

theorem Expr.ofTokens?_isOk : (∃ e, Expr.ofTokens? join s = .ok e) ↔ Accepted join s.tokens := by
  rcases Expr.ofTokens?_cases join s with ⟨list, hread, h⟩ | ⟨e, hread, h⟩
  · exact ⟨fun _ => accepted_of_derives h, fun _ => ⟨_, hread⟩⟩
  · obtain ⟨u, rest, htokens, -, -, hstuck⟩ := h
    constructor
    · intro ⟨e', h'⟩
      rw [hread] at h'
      cases h'
    · intro haccepted
      rw [htokens] at haccepted
      exact absurd haccepted (hstuck rest rfl)

variable (join s)

/-- A row of tokens is a program exactly if all of it derives from `statements`, and what it is read as
is a derivation tree of it.  In that tree the operators of one level group to the left, and the right
operand of each operator, each value of an assignment and each expression behind `else` ends as far to
the right as the grammar allows. -/
theorem Expr.ofTokens?_accepts :
    ((∃ e, Expr.ofTokens? join s = .ok e) ↔
      ∃ list, DerivesRow join anyhow .statements s.tokens [] list) ∧
    ∀ e, Expr.ofTokens? join s = .ok e →
      ∃ list, e = .block (extent (rewinding join s.finish) list) list ∧
        DerivesRow join (Farthest join) .statements s.tokens [] list := by
  refine ⟨Expr.ofTokens?_isOk, fun e he => ?_⟩
  rcases Expr.ofTokens?_cases join s with ⟨list, hread, h⟩ | ⟨e', hread, -⟩
  · rw [hread] at he
    cases he
    exact ⟨list, rfl, h⟩
  · rw [hread] at he
    cases he

/-- Two differences in a row, the first of which is the left operand of the second. -/
theorem Expr.ofTokens?_accepts_differences :
    ∃ list : List (Expr Nat),
      Expr.block 0 [.binary 0 .subtract (.binary 0 .subtract (.number 0 (.int 7)) (.number 2 (.int 2)))
        (.number 4 (.int 1))] = .block (extent (rewinding (fun p _ => p) 5) list) list ∧
      DerivesRow (fun p _ => p) (Farthest fun p _ => p) .statements
        [⟨.int 7, 0⟩, ⟨.mark .minus, 1⟩, ⟨.int 2, 2⟩, ⟨.mark .minus, 3⟩, ⟨.int 1, 4⟩] [] list :=
  (Expr.ofTokens?_accepts (fun p _ => p)
    ⟨[⟨.int 7, 0⟩, ⟨.mark .minus, 1⟩, ⟨.int 2, 2⟩, ⟨.mark .minus, 3⟩, ⟨.int 1, 4⟩], 5⟩).2 _ rfl

/-- The tokens are a program, wherever they end. -/
def Parses (ts : List (Token Place)) : Prop := ∃ finish e, Expr.ofTokens? join ⟨ts, finish⟩ = .ok e

theorem parses_iff {ts : List (Token Place)} (finish : Place) :
    Parses join ts ↔ Accepted join ts :=
  ⟨fun ⟨_, h⟩ => Expr.ofTokens?_isOk.mp h, fun h => ⟨finish, Expr.ofTokens?_isOk.mpr h⟩⟩

/-- Where tokens are no program, the error is placed at the first of them that no program has behind
those in front of it.  It is placed at the end exactly if some program begins with all of them. -/
theorem Expr.ofTokens?_error {e : SyntaxError Place} (h : Expr.ofTokens? join s = .error e) :
    ∃ k, k ≤ s.tokens.length ∧ e.place = ((s.tokens[k]?).map Token.place).getD s.finish ∧
      (∃ more, Parses join (s.tokens.take k ++ more)) ∧
      (k < s.tokens.length → ∀ more, ¬ Parses join (s.tokens.take (k + 1) ++ more)) ∧
      (k = s.tokens.length ↔ ∃ more, Parses join (s.tokens ++ more)) := by
  simp only [parses_iff join s.finish]
  rcases Expr.ofTokens?_cases join s with ⟨list, hread, -⟩ | ⟨e', hread, hstuck⟩
  · rw [hread] at h
    cases h
  · rw [hread] at h
    cases h
    exact hstuck.exists_index

/-- Nothing may stand in the parentheses of an expression that is empty, so the closing one is where
reading stops. -/
theorem Expr.ofTokens?_error_parentheses :
    ∃ k, k ≤ 2 ∧ 1 = (([⟨.mark .leftParen, 0⟩, ⟨.mark .rightParen, 1⟩] : List (Token Nat))[k]?.map
        Token.place).getD 2 ∧
      (∃ more, Parses (fun p _ => p) (([⟨.mark .leftParen, 0⟩, ⟨.mark .rightParen, 1⟩] :
        List (Token Nat)).take k ++ more)) ∧
      (k < 2 → ∀ more, ¬ Parses (fun p _ => p) (([⟨.mark .leftParen, 0⟩, ⟨.mark .rightParen, 1⟩] :
        List (Token Nat)).take (k + 1) ++ more)) ∧
      (k = 2 ↔ ∃ more, Parses (fun p _ => p) (([⟨.mark .leftParen, 0⟩, ⟨.mark .rightParen, 1⟩] :
        List (Token Nat)) ++ more)) :=
  Expr.ofTokens?_error (fun p _ => p) ⟨[⟨.mark .leftParen, 0⟩, ⟨.mark .rightParen, 1⟩], 2⟩
    (e := ⟨.expectedExpression, 1⟩) rfl

end Cyan
