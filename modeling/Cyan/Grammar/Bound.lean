/-
The depth of the rules suffices.

`Rule.Ends m d rule` says that `rule` is not cut off when at most `m` tokens are ahead, and that it
has read at least `d a` tokens if it succeeds with `a`.  It passes from the parts of a rule to the
rule.

The rules that call each other before they read a token are ordered by how many of them can follow
before that token: `atom` is followed by none, `statements` by six others.  Eight levels for each
token ahead, and a rule's own rank in this order on top, are therefore enough.  The main statement is
`program_ne_unfinished`: at `Grammar.depth` no text is cut off.
-/
import Cyan.Grammar.Rules

namespace Cyan
namespace Rule

variable {Place α β : Type}

/-- With at most `m` tokens ahead, the rule is not cut off, and if it succeeds with `a` it has read
at least `d a` tokens. -/
def Ends (m : Nat) (d : α → Nat) (rule : Rule Place α) : Prop :=
  ∀ c, c.ahead.length ≤ m →
    match rule c with
    | .done a c' => c'.ahead.length + d a ≤ c.ahead.length
    | .failed .. => True
    | .unfinished => False

namespace Ends

variable {m : Nat} {d : α → Nat} {e : β → Nat}

theorem pure {a : α} (h : d a = 0) : Ends m d (Pure.pure a : Rule Place α) := fun c _ =>
  show c.ahead.length + d a ≤ c.ahead.length by rw [h]; exact Nat.le_refl _

/-- What is left to a rule behind another is what that one has not read. -/
theorem bind {rule : Rule Place α} {f : α → Rule Place β} (hrule : Ends m d rule)
    (hf : ∀ a, d a ≤ m → Ends (m - d a) (fun b => e b - d a) (f a)) : Ends m e (rule >>= f) := by
  intro c hc
  have h := hrule c hc
  rw [Action.bind_apply, Action.andThen]
  cases hr : rule c with
  | done a c' =>
    rw [hr] at h
    simp only at h ⊢
    have hnext := hf a (by omega) c' (by omega)
    cases hr' : f a c' with
    | done b c'' =>
      rw [hr'] at hnext
      simp only at hnext ⊢
      omega
    | failed => trivial
    | unfinished => rw [hr'] at hnext; exact hnext
  | failed => trivial
  | unfinished => rw [hr] at h; exact h

/-- A rule reads at least as much as it reads at least. -/
theorem weaken {rule : Rule Place α} {d' : α → Nat} (h : Ends m d rule) (hd : ∀ a, d' a ≤ d a) :
    Ends m d' rule := by
  intro c hc
  have := h c hc
  cases hr : rule c with
  | done a c' =>
    rw [hr] at this
    exact Nat.le_trans (Nat.add_le_add_left (hd a) _) this
  | failed => trivial
  | unfinished => rw [hr] at this; exact this

theorem discard {rule : Rule Place α} {n : Nat} (h : Ends m (fun _ => n) rule) :
    Ends m (fun _ => n) (Functor.discard rule) :=
  bind h fun _ _ => pure (Nat.sub_self n)

theorem fail (finish : Place) (fault : SyntaxFault) : Ends m d (Rule.fail finish fault) :=
  fun _ _ => trivial

theorem unexpected (finish : Place) (fault : SyntaxFault) :
    Ends m d (Rule.unexpected finish fault) := by
  intro c _
  unfold Rule.unexpected
  cases c.failure? with
  | none => trivial
  | some failure =>
    by_cases h : failure.1 = c.behind
    · simp only [h, if_true]
    · simp only [h, if_false, Rule.fail]

theorem peek : Ends m (fun _ => 0) (Rule.peek : Rule Place _) := fun c _ =>
  Nat.le_refl c.ahead.length

theorem sees (kind : Token.Kind) : Ends m (fun _ => 0) (Rule.sees kind : Rule Place _) :=
  bind peek fun _ _ => pure rfl

/-- A token is read exactly if there is a result. -/
def tokens : Option α → Nat
  | some _ => 1
  | none => 0

theorem take (read? : Token.Kind → Option α) : Ends m tokens (Rule.take read? : Rule Place _) := by
  intro c _
  unfold Rule.take
  cases hahead : c.ahead with
  | nil => simp [hahead, tokens]
  | cons t rest => cases h : read? t.kind <;> simp [h, hahead, tokens, Cursor.next]

/-- Behind an optional token. -/
theorem bind_optional {rule : Rule Place (Option α)} {f : Option α → Rule Place β}
    (hrule : Ends m tokens rule)
    (hsome : ∀ a, 1 ≤ m → Ends (m - 1) (fun b => e b - 1) (f (some a)))
    (hnone : Ends m e (f none)) : Ends m e (rule >>= f) :=
  bind hrule fun
    | some a => hsome a
    | none => fun _ => hnone

theorem accept (kind : Token.Kind) : Ends m tokens (Rule.accept kind : Rule Place _) :=
  bind (take _) fun a? _ => pure (by cases a? <;> rfl)

theorem acceptIdentifier : Ends m tokens (Rule.acceptIdentifier : Rule Place _) :=
  bind (take _) fun a? _ => pure (by cases a? <;> rfl)

theorem expect (finish : Place) (kind : Token.Kind) (what : Expectation) :
    Ends m (fun _ => 1) (Rule.expect finish kind what) :=
  bind_optional (accept kind) (fun _ _ => pure rfl) (fail finish _)

theorem skipSeparators :
    Ends m Bool.toNat (Rule.skipSeparators : Rule Place _) := by
  intro c _
  simp only [Rule.skipSeparators, Cursor.pastSeparators]
  cases c.ahead with
  | nil => simp
  | cons t rest =>
    have := (rest.dropWhile_sublist (·.kind.isSeparator)).length_le
    cases h : t.kind.isSeparator <;> simp [h]
    omega

/-- An attempt reads nothing or what the rule has read. -/
theorem attempt {rule : Rule Place α} (h : Ends m d rule) :
    Ends m (fun _ => 0) (Rule.attempt rule) := by
  intro c hc
  have := h c hc
  unfold Rule.attempt
  cases hr : rule c with
  | done a c' =>
    rw [hr] at this
    simp only at this ⊢
    omega
  | failed => exact Nat.le_refl _
  | unfinished => rw [hr] at this; exact this

end Ends
end Rule

namespace Grammar

open Rule (Ends)

variable {Place : Type} (g : Setting Place)

/-- Reading the next statement of a list does not cut off what the rule for statements reads. -/
def Setting.Keeps : Prop :=
  ∀ m rule, Ends m (fun _ => 1) rule → Ends m (fun _ => 0) (g.next rule)

theorem rewinding_keeps (join : Place → Place → Place) (finish : Place) :
    (rewinding join finish).Keeps := fun _ _ h => h.attempt

theorem parameters_ends : ∀ n m names, 8 * m + 1 ≤ n → Ends m (fun _ => 0) (parameters g names n)
  | 0, _, _, h => absurd h (by omega)
  | n + 1, m, names, h => by
    unfold parameters
    refine .bind_optional (.accept _) (fun _ hm => ?_) (.pure rfl)
    refine .bind_optional .acceptIdentifier (fun name hm' => ?_) (.bind (.sees _) fun
        | true, _ => .pure rfl
        | false, _ => .fail _ _)
    exact parameters_ends n _ (name :: names) (by omega)

theorem identifier_ends (m : Nat) : Ends m (fun _ => 1) (identifier g) :=
  .bind_optional .acceptIdentifier (fun _ _ => .pure rfl) (.fail _ _)

theorem signature_ends (n m : Nat) (h : 8 * m ≤ n) : Ends m (fun _ => 1) (signature g n) := by
  unfold signature
  refine .bind (.weaken .acceptIdentifier fun _ => Nat.zero_le _) fun name? _ => ?_
  refine .bind (.discard (.expect _ _ _)) fun _ hm => ?_
  refine .bind (.sees _) fun more _ => ?_
  have hclose (m : Nat) (names : List String) : Ends m (fun _ => 0) (do
      discard <| Rule.expect g.finish (.mark .rightParen) .commaOrCloseParen
      return (name?, names)) :=
    .bind (.discard (.expect _ _ _)) fun _ _ => .pure rfl
  cases more with
  | true => exact hclose _ []
  | false =>
    refine .bind (identifier_ends g _) fun name _ => ?_
    exact .bind (parameters_ends g n _ [name] (by omega)) fun names _ => hclose _ names

variable {g}

mutual

theorem statements_ends (hg : g.Keeps) : ∀ n m, 8 * m + 7 ≤ n →
    Ends m (fun _ => 1) (statements g n)
  | 0, _, h => absurd h (by omega)
  | n + 1, m, h => by
    unfold statements
    refine .bind (.discard (Ends.skipSeparators.weaken fun _ => Nat.zero_le _)) fun _ _ => ?_
    refine .bind (statement_ends hg n m (by omega)) fun first hm => ?_
    exact moreStatements_ends hg n _ [first] (by omega)
termination_by structural n => n

theorem moreStatements_ends (hg : g.Keeps) : ∀ n m done, 8 * m + 1 ≤ n →
    Ends m (fun _ => 0) (moreStatements g done n)
  | 0, _, _, h => absurd h (by omega)
  | n + 1, m, done, h => by
    unfold moreStatements
    refine .bind .skipSeparators fun
      | true, (hm : 1 ≤ m) => ?_
      | false, _ => .pure rfl
    refine .bind (m := m - 1) (hg _ _ (statement_ends hg n (m - 1) (by omega))) fun
      | some e, _ => moreStatements_ends hg n _ (e :: done) (by omega)
      | none, _ => .pure rfl
termination_by structural n => n

theorem statement_ends (hg : g.Keeps) : ∀ n m, 8 * m + 6 ≤ n → Ends m (fun _ => 1) (statement g n)
  | 0, _, h => absurd h (by omega)
  | n + 1, m, h => by
    unfold statement
    exact .bind_optional (.accept _) (fun _ _ => .pure rfl) (expression_ends hg n m (by omega))
termination_by structural n => n

theorem expression_ends (hg : g.Keeps) : ∀ n m, 8 * m + 5 ≤ n →
    Ends m (fun _ => 1) (expression g n)
  | 0, _, h => absurd h (by omega)
  | n + 1, m, h => by
    unfold expression
    refine .bind_optional (.accept _) (fun _ hm => ?_) (operation_ends hg _ n m (by omega))
    refine .bind (identifier_ends g _) fun _ _ => ?_
    refine .bind (.discard (.expect _ _ _)) fun _ _ => ?_
    exact .bind (expression_ends hg n _ (by omega)) fun _ _ => .pure rfl
termination_by structural n => n

theorem operation_ends (hg : g.Keeps) (l : Level) : ∀ n m, 8 * m + 4 ≤ n →
    Ends m (fun _ => 1) (operation g l n)
  | 0, _, h => absurd h (by omega)
  | n + 1, m, h => by
    unfold operation
    exact .bind (operand_ends hg l n m (by omega)) fun _ _ => operators_ends hg l _ n _ (by omega)
termination_by structural n => n

theorem operators_ends (hg : g.Keeps) (l : Level) (left : Expr Place) : ∀ n m, 8 * m + 1 ≤ n →
    Ends m (fun _ => 0) (operators g l left n)
  | 0, _, h => absurd h (by omega)
  | n + 1, m, h => by
    unfold operators
    refine .bind_optional (.take _) (fun _ hm => ?_) (.pure rfl)
    exact .bind (operation_ends hg _ n _ (by omega)) fun _ _ => operators_ends hg l _ n _ (by omega)
termination_by structural n => n

theorem operand_ends (hg : g.Keeps) (l : Level) : ∀ n m, 8 * m + 3 ≤ n →
    Ends m (fun _ => 1) (operand g l n)
  | 0, _, h => absurd h (by omega)
  | n + 1, m, h => by
    unfold operand
    refine .bind_optional (.take _) (fun _ hm => ?_) (call_ends hg n m (by omega))
    exact .bind (operation_ends hg _ n _ (by omega)) fun _ _ => .pure rfl
termination_by structural n => n

theorem call_ends (hg : g.Keeps) : ∀ n m, 8 * m + 2 ≤ n → Ends m (fun _ => 1) (call g n)
  | 0, _, h => absurd h (by omega)
  | n + 1, m, h => by
    unfold call
    exact .bind (atom_ends hg n m (by omega)) fun _ _ => calls_ends hg _ n _ (by omega)
termination_by structural n => n

theorem calls_ends (hg : g.Keeps) (callee : Expr Place) : ∀ n m, 8 * m + 1 ≤ n →
    Ends m (fun _ => 0) (calls g callee n)
  | 0, _, h => absurd h (by omega)
  | n + 1, m, h => by
    unfold calls
    refine .bind_optional (.accept _) (fun _ hm => ?_) (.pure rfl)
    refine .bind (arguments_ends hg n _ (by omega)) fun _ _ => ?_
    exact .bind (.expect _ _ _) fun _ _ => calls_ends hg _ n _ (by omega)
termination_by structural n => n

theorem arguments_ends (hg : g.Keeps) : ∀ n m, 8 * m + 6 ≤ n → Ends m (fun _ => 0) (arguments g n)
  | 0, _, h => absurd h (by omega)
  | n + 1, m, h => by
    unfold arguments
    refine .bind (.sees _) fun
      | true, _ => .pure rfl
      | false, _ => ?_
    exact .bind (expression_ends hg n m (by omega)) fun first hm =>
      moreArguments_ends hg [first] n _ (by omega)
termination_by structural n => n

theorem moreArguments_ends (hg : g.Keeps) (done : List (Expr Place)) : ∀ n m, 8 * m + 1 ≤ n →
    Ends m (fun _ => 0) (moreArguments g done n)
  | 0, _, h => absurd h (by omega)
  | n + 1, m, h => by
    unfold moreArguments
    refine .bind_optional (.accept _) (fun _ hm => ?_) (.pure rfl)
    exact .bind (expression_ends hg n _ (by omega)) fun e _ =>
      moreArguments_ends hg (e :: done) n _ (by omega)
termination_by structural n => n

theorem atom_ends (hg : g.Keeps) : ∀ n m, 8 * m + 1 ≤ n → Ends m (fun _ => 1) (atom g n)
  | 0, _, h => absurd h (by omega)
  | n + 1, m, h => by
    unfold atom
    refine .bind_optional (.take _) (fun begun hm => ?_) (.fail _ _)
    obtain ⟨place, opening⟩ := begun
    cases opening with
    | leaf => exact .pure rfl
    | parenthesis =>
      refine .bind (expression_ends hg n _ (by omega)) fun _ _ => ?_
      exact .bind (.expect _ _ _) fun _ _ => .pure rfl
    | conditional => exact (conditional_ends hg place n _ (by omega)).weaken fun _ => Nat.zero_le _
    | loop => exact (loop_ends hg place n _ (by omega)).weaken fun _ => Nat.zero_le _
    | function => exact (function_ends hg place n _ (by omega)).weaken fun _ => Nat.zero_le _
termination_by structural n => n

theorem conditional_ends (hg : g.Keeps) (place : Place) : ∀ n m, 8 * m + 5 ≤ n →
    Ends m (fun _ => 1) (conditional g place n)
  | 0, _, h => absurd h (by omega)
  | n + 1, m, h => by
    unfold conditional
    refine .bind (operation_ends hg _ n m (by omega)) fun _ _ => ?_
    refine .bind (.discard (.expect _ _ _)) fun _ _ => ?_
    refine .bind (.sees _) fun braces _ => ?_
    refine .bind (branch_ends hg braces n _ (by omega)) fun _ _ => ?_
    refine .bind (.discard (.expect _ _ _)) fun _ _ => ?_
    exact .bind (branch_ends hg braces n _ (by omega)) fun _ _ => .pure rfl
termination_by structural n => n

theorem branch_ends (hg : g.Keeps) (braces : Bool) : ∀ n m, 8 * m + 6 ≤ n →
    Ends m (fun _ => 1) (branch g braces n)
  | 0, _, h => absurd h (by omega)
  | n + 1, m, h => by
    unfold branch
    cases braces with
    | true => exact block_ends hg n m (by omega)
    | false => exact expression_ends hg n m (by omega)
termination_by structural n => n

theorem loop_ends (hg : g.Keeps) (place : Place) : ∀ n m, 8 * m + 5 ≤ n →
    Ends m (fun _ => 1) (loop g place n)
  | 0, _, h => absurd h (by omega)
  | n + 1, m, h => by
    unfold loop
    refine .bind (operation_ends hg _ n m (by omega)) fun _ _ => ?_
    exact .bind (block_ends hg n _ (by omega)) fun _ _ => .pure rfl
termination_by structural n => n

theorem function_ends (hg : g.Keeps) (place : Place) : ∀ n m, 8 * m + 1 ≤ n →
    Ends m (fun _ => 1) (function g place n)
  | 0, _, h => absurd h (by omega)
  | n + 1, m, h => by
    unfold function
    refine .bind (signature_ends g n m (by omega)) fun _ _ => ?_
    exact .bind (block_ends hg n _ (by omega)) fun _ _ => .pure rfl
termination_by structural n => n

theorem block_ends (hg : g.Keeps) : ∀ n m, 8 * m + 1 ≤ n → Ends m (fun _ => 1) (block g n)
  | 0, _, h => absurd h (by omega)
  | n + 1, m, h => by
    unfold block
    refine .bind (.expect _ _ _) fun _ _ => ?_
    refine .bind (statements_ends hg n _ (by omega)) fun _ _ => ?_
    exact .bind_optional (.accept _) (fun _ _ => .pure rfl) (.unexpected _ _)
termination_by structural n => n

end

theorem program_ends (hg : g.Keeps) (n m : Nat) (h : 8 * m + 7 ≤ n) :
    Ends m (fun _ => 1) (program g n) := by
  refine .bind (statements_ends hg n m h) fun _ _ => ?_
  refine .bind .peek fun next? _ => ?_
  cases next? with
  | none => exact .pure rfl
  | some => exact .unexpected _ _

/-- A whole text is read without being cut off. -/
theorem program_ne_unfinished (hg : g.Keeps) (tokens : List (Token Place)) :
    program g (depth tokens.length) ⟨tokens, 0, none⟩ ≠ .unfinished := by
  intro h
  have hends := program_ends hg (depth tokens.length) tokens.length (by unfold depth; omega)
    ⟨tokens, 0, none⟩ (Nat.le_refl _)
  rw [h] at hends
  exact hends

end Grammar
end Cyan
