/-
Reading without going back.

`predictive` is the setting in which a list of statements goes on behind a separator exactly if the
next token can begin a statement.  The statement is then read for good: where it fails, reading fails.
Nothing is tried, and no failure is remembered.

`read?_rewinding` says that trying the next statement comes to the same.  A try that fails behind its
first token ends the list in front of a token that begins a statement.  Neither a block nor a program
ends there, and what either reports is the failure remembered for this very place (`Postpones`).
-/
import Cyan.Grammar.Bound
import Cyan.Proofs.Grammar.Forward

namespace Cyan

variable {Place α β : Type}

/-- Run a rule for statements if the next token can begin a statement. -/
def Rule.foresee (rule : Rule Place α) : Rule Place (Option α) := do
  if (← Rule.peek).any Grammar.beginsStatement then return some (← rule) else return none

namespace Grammar

open Rule (Ends accept_eq_none)

/-- The setting in which statements are foreseen. -/
def predictive (join : Place → Place → Place) (finish : Place) : Setting Place :=
  ⟨finish, join, Rule.foresee⟩

theorem foresee_of_starts {rule : Rule Place α} {c : Cursor Place}
    (h : Starts beginsStatement c.ahead) :
    Rule.foresee rule c = (rule >>= fun a => pure (some a)) c := by
  obtain ⟨t, rest, hc, ht⟩ := h
  rw [Rule.foresee, Action.bind_apply, Action.andThen, Rule.peek, hc]
  simp only [List.head?_cons, Option.map_some, Option.any_some, ht, if_true]

theorem foresee_of_not_starts {rule : Rule Place α} {c : Cursor Place}
    (h : ¬ Starts beginsStatement c.ahead) : Rule.foresee rule c = .done none c := by
  rw [Rule.foresee, Action.bind_apply, Action.andThen, Rule.peek]
  cases hc : c.ahead with
  | nil => rfl
  | cons t rest =>
    rw [hc, starts_cons, Bool.not_eq_true] at h
    simp only [List.head?_cons, Option.map_some, Option.any_some, h]
    rfl

theorem foresee_bind_of_starts {rule : Rule Place α} {f : Option α → Rule Place β}
    {c : Cursor Place} (h : Starts beginsStatement c.ahead) :
    (Rule.foresee rule >>= f) c = (rule >>= fun a => f (some a)) c := by
  rw [Action.bind_apply, Action.andThen, foresee_of_starts h]
  simp only [Action.bind_apply, Action.andThen]
  cases rule c <;> rfl

theorem foresee_bind_of_not_starts {rule : Rule Place α} {f : Option α → Rule Place β}
    {c : Cursor Place} (h : ¬ Starts beginsStatement c.ahead) :
    (Rule.foresee rule >>= f) c = f none c := by
  rw [Action.bind_apply, Action.andThen, foresee_of_not_starts h]

theorem predictive_keeps (join : Place → Place → Place) (finish : Place) :
    (predictive join finish).Keeps := by
  intro m rule h
  refine .bind .peek fun next? _ => ?_
  cases next?.any beginsStatement with
  | true => exact .bind h fun _ _ => .pure rfl
  | false => exact .pure rfl

/-- Two things that hold of the first token hold of one kind. -/
theorem starts_and {p : Token.Kind → Bool} {kind : Token.Kind} {ts : List (Token Place)}
    (hp : Starts p ts) (hkind : Starts (· = kind) ts) : p kind := by
  obtain ⟨t, rest, rfl, ht⟩ := hp
  rw [starts_cons, decide_eq_true_eq] at hkind
  rw [← hkind]
  exact ht

/-! ## Rules that go on in the same way -/

/-- How an outcome of the first kind of reading fits one of the second.  Only the first may be cut off
where the second is not, since it tries statements that the second does not look at. -/
def Agree (r p : Outcome (Cursor Place) (SyntaxError Place) α) : Prop :=
  r = .unfinished ∨
    match p with
    | .done a c => r = .done a c ∧ c.failure? = none
    | .failed e _ => ∃ c, r = .failed e c
    | .unfinished => False

/-- Started with no failure remembered, the two rules end in the same way and remember none. -/
def Agrees (r p : Rule Place α) : Prop := ∀ c, c.failure? = none → Agree (r c) (p c)

namespace Agrees

theorem cutOff (p : Rule Place α) : Agrees Action.cutOff p := fun _ _ => Or.inl rfl

/-- A rule that remembers no failure agrees with itself. -/
theorem of_eq {r p : Rule Place α} (heq : ∀ c, r c = p c)
    (h : ∀ c a c', p c = .done a c' → c'.failure? = c.failure?) : Agrees r p := by
  intro c hc
  rw [heq]
  cases hp : p c with
  | done a c' => exact Or.inr ⟨rfl, by rw [h c a c' hp, hc]⟩
  | failed e c' => exact Or.inr ⟨c', rfl⟩
  | unfinished => exact Or.inl rfl

theorem pure (a : α) : Agrees (Pure.pure a : Rule Place α) (Pure.pure a) :=
  of_eq (fun _ => rfl) fun _ _ _ h => by cases h; rfl

theorem fail (finish : Place) (fault : SyntaxFault) :
    Agrees (Rule.fail finish fault : Rule Place α) (Rule.fail finish fault) :=
  of_eq (fun _ => rfl) fun _ _ _ h => nomatch h

theorem peek : Agrees (Rule.peek : Rule Place _) Rule.peek :=
  of_eq (fun _ => rfl) fun _ _ _ h => by cases h; rfl

theorem skipSeparators : Agrees (Rule.skipSeparators : Rule Place _) Rule.skipSeparators :=
  of_eq (fun _ => rfl) fun _ _ _ h => by cases h; rfl

theorem take (read? : Token.Kind → Option α) :
    Agrees (Rule.take read? : Rule Place _) (Rule.take read?) := by
  refine of_eq (fun _ => rfl) fun c a c' h => ?_
  rw [Rule.take] at h
  split at h
  · cases h
    rfl
  · next hc =>
    split at h
    · cases h
      rw [Cursor.next, hc]
    · cases h
      rfl

theorem bind {r p : Rule Place α} {f f' : α → Rule Place β} (h : Agrees r p)
    (hf : ∀ a, Agrees (f a) (f' a)) : Agrees (r >>= f) (p >>= f') := by
  intro c hc
  rw [Action.bind_apply, Action.andThen, Action.bind_apply, Action.andThen]
  rcases h c hc with hr | hp
  · exact Or.inl (by rw [hr])
  · cases hpc : p c with
    | done a d =>
      rw [hpc] at hp
      rw [hp.1]
      exact hf a d hp.2
    | failed e d =>
      rw [hpc] at hp
      obtain ⟨d', hr⟩ := hp
      exact Or.inr ⟨d', by rw [hr]⟩
    | unfinished =>
      rw [hpc] at hp
      exact hp.elim

theorem sees (kind : Token.Kind) : Agrees (Rule.sees kind : Rule Place _) (Rule.sees kind) :=
  peek.bind fun _ => pure _

theorem accept (kind : Token.Kind) : Agrees (Rule.accept kind : Rule Place _) (Rule.accept kind) :=
  (take _).bind fun _ => pure _

theorem acceptIdentifier : Agrees (Rule.acceptIdentifier : Rule Place _) Rule.acceptIdentifier :=
  (take _).bind fun _ => pure _

theorem expect (finish : Place) (kind : Token.Kind) (what : Expectation) :
    Agrees (Rule.expect finish kind what) (Rule.expect finish kind what) := by
  refine (accept kind).bind fun place? => ?_
  cases place? with
  | some place => exact pure place
  | none => exact fail finish _

theorem discard {r p : Rule Place α} (h : Agrees r p) :
    Agrees (Functor.discard r) (Functor.discard p) :=
  h.bind fun _ => pure _

end Agrees

/-- As `Agree`, but for a row of statements: where the second kind of reading fails, the first may end
the row in front of a statement and remember the failure for this place. -/
def Postpone (r p : Outcome (Cursor Place) (SyntaxError Place) α) : Prop :=
  Agree r p ∨ ∃ e c a d, p = .failed e c ∧ r = .done a d ∧ d.failure? = some (d.behind, e) ∧
    Starts beginsStatement d.ahead

/-- Started with no failure remembered, the two rules end in the same way, or the first one postpones
the failure of the second. -/
def Postpones (r p : Rule Place α) : Prop := ∀ c, c.failure? = none → Postpone (r c) (p c)

theorem Agrees.postpones {r p : Rule Place α} (h : Agrees r p) : Postpones r p :=
  fun c hc => Or.inl (h c hc)

theorem Agrees.bind_postpones {r p : Rule Place α} {f f' : α → Rule Place β} (h : Agrees r p)
    (hf : ∀ a, Postpones (f a) (f' a)) : Postpones (r >>= f) (p >>= f') := by
  intro c hc
  rw [Action.bind_apply, Action.andThen, Action.bind_apply, Action.andThen]
  rcases h c hc with hr | hp
  · exact Or.inl (Or.inl (by rw [hr]))
  · cases hpc : p c with
    | done a d =>
      rw [hpc] at hp
      rw [hp.1]
      exact hf a d hp.2
    | failed e d =>
      rw [hpc] at hp
      obtain ⟨d', hr⟩ := hp
      exact Or.inl (Or.inr ⟨d', by rw [hr]⟩)
    | unfinished =>
      rw [hpc] at hp
      exact hp.elim

/-- What comes behind a row reports a failure that was postponed. -/
theorem Postpones.bind {r p : Rule Place α} {f f' : α → Rule Place β} (h : Postpones r p)
    (hf : ∀ a, Agrees (f a) (f' a))
    (hreport : ∀ a d e, d.failure? = some (d.behind, e) → Starts beginsStatement d.ahead →
      ∃ c, f a d = .failed e c) : Agrees (r >>= f) (p >>= f') := by
  intro c hc
  rw [Action.bind_apply, Action.andThen, Action.bind_apply, Action.andThen]
  rcases h c hc with (hr | hp) | ⟨e, d', a, d, hp, hr, hfailure, hd⟩
  · exact Or.inl (by rw [hr])
  · cases hpc : p c with
    | done a d =>
      rw [hpc] at hp
      rw [hp.1]
      exact hf a d hp.2
    | failed e d =>
      rw [hpc] at hp
      obtain ⟨d', hr⟩ := hp
      exact Or.inr ⟨d', by rw [hr]⟩
    | unfinished =>
      rw [hpc] at hp
      exact hp.elim
  · obtain ⟨c', hf⟩ := hreport a d e hfailure hd
    rw [hr, hp]
    exact Or.inr ⟨c', hf⟩

/-- Trying the next statement of a row postpones what reading it would report at once. -/
theorem Postpones.next {r p : Rule Place α} {f f' : Option α → Rule Place β} (h : Agrees r p)
    (hbegins : BeginsWith beginsStatement r) (hf : ∀ a?, Postpones (f a?) (f' a?))
    (hnone : ∀ c, ∃ b, f none c = .done b c) :
    Postpones (Rule.attempt r >>= f) (Rule.foresee p >>= f') := by
  intro c hc
  rw [Action.bind_apply, Action.andThen, Action.bind_apply, Action.andThen]
  by_cases hstarts : Starts beginsStatement c.ahead
  · rw [foresee_of_starts hstarts, Action.bind_apply, Action.andThen, Rule.attempt]
    rcases h c hc with hr | hp
    · exact Or.inl (Or.inl (by rw [hr]))
    · cases hpc : p c with
      | done a d =>
        rw [hpc] at hp
        rw [hp.1]
        exact hf (some a) d hp.2
      | failed e d =>
        rw [hpc] at hp
        obtain ⟨d', hr⟩ := hp
        have hlt := hbegins.advances c d' hstarts (by rw [hr]; rfl)
        obtain ⟨b, hb⟩ := hnone { c with failure? := some (c.behind, e) }
        rw [hr]
        simp only [hlt, if_true, hb]
        exact Or.inr ⟨e, d, b, _, rfl, rfl, rfl, hstarts⟩
      | unfinished =>
        rw [hpc] at hp
        exact hp.elim
  · rw [foresee_of_not_starts hstarts, Rule.attempt]
    rcases hbegins.stays c hstarts with hr | ⟨e, hr⟩
    · exact Or.inl (Or.inl (by rw [hr]))
    · rw [hr]
      simp only [Nat.lt_irrefl, if_false]
      exact hf none c hc

/-- A failure remembered for this place is what is reported here. -/
theorem unexpected_of_failure {finish : Place} {fault : SyntaxFault} {c : Cursor Place}
    {e : SyntaxError Place} (h : c.failure? = some (c.behind, e)) :
    ∃ c', (Rule.unexpected finish fault : Rule Place α) c = .failed e c' := by
  rw [Rule.unexpected, h]
  exact ⟨_, if_pos rfl⟩

theorem Agrees.unexpected (finish : Place) (fault : SyntaxFault) :
    Agrees (Rule.unexpected finish fault : Rule Place α) (Rule.unexpected finish fault) := by
  intro c hc
  rw [Rule.unexpected, hc]
  exact Or.inr ⟨c, rfl⟩

/-! ## The rules -/

variable (join : Place → Place → Place) (finish : Place)

theorem parameters_agrees : ∀ n names,
    Agrees (parameters (rewinding join finish) names n) (parameters (predictive join finish) names n)
  | 0, _ => .cutOff _
  | n + 1, names => by
    unfold parameters
    refine (Agrees.accept _).bind fun comma? => ?_
    cases comma? with
    | none => exact .pure _
    | some _ =>
      refine Agrees.acceptIdentifier.bind fun name? => ?_
      cases name? with
      | some name => exact parameters_agrees n (name :: names)
      | none =>
        refine (Agrees.sees _).bind fun closes => ?_
        cases closes with
        | true => exact .pure _
        | false => exact .fail _ _

theorem identifier_agrees :
    Agrees (identifier (rewinding join finish)) (identifier (predictive join finish)) := by
  refine Agrees.acceptIdentifier.bind fun name? => ?_
  cases name? with
  | some name => exact .pure name
  | none => exact .fail _ _

theorem signature_agrees (n : Nat) :
    Agrees (signature (rewinding join finish) n) (signature (predictive join finish) n) := by
  unfold signature
  refine Agrees.acceptIdentifier.bind fun name? => ?_
  refine (Agrees.expect _ _ _).discard.bind fun _ => ?_
  let close (names : List String) : Rule Place (Option String × List String) := do
    discard <| Rule.expect finish (.mark .rightParen) .commaOrCloseParen
    return (name?, names)
  have hclose (names : List String) : Agrees (close names) (close names) :=
    (Agrees.expect _ _ _).discard.bind fun _ => .pure _
  refine (Agrees.sees _).bind fun closes => ?_
  cases closes with
  | true => exact hclose []
  | false =>
    refine (identifier_agrees join finish).bind fun name => ?_
    exact (parameters_agrees join finish n [name]).bind hclose

mutual

theorem statements_postpones : ∀ n,
    Postpones (statements (rewinding join finish) n) (statements (predictive join finish) n)
  | 0 => (Agrees.cutOff _).postpones
  | n + 1 => by
    unfold statements
    refine Agrees.skipSeparators.discard.bind_postpones fun _ => ?_
    refine (statement_agrees n).bind_postpones fun first => ?_
    exact moreStatements_postpones n [first]
termination_by structural n => n

theorem moreStatements_postpones : ∀ n done,
    Postpones (moreStatements (rewinding join finish) done n)
      (moreStatements (predictive join finish) done n)
  | 0, _ => (Agrees.cutOff _).postpones
  | n + 1, done => by
    unfold moreStatements
    refine Agrees.skipSeparators.bind_postpones fun
      | false => (Agrees.pure _).postpones
      | true => ?_
    have hbegins := statement_begins (rewinding_forward join finish) n
    refine .next (statement_agrees n) hbegins (fun
      | some e => moreStatements_postpones n (e :: done)
      | none => (Agrees.pure _).postpones) fun c => ⟨_, rfl⟩
termination_by structural n => n

theorem statement_agrees : ∀ n,
    Agrees (statement (rewinding join finish) n) (statement (predictive join finish) n)
  | 0 => .cutOff _
  | n + 1 => by
    unfold statement
    exact (Agrees.accept _).bind fun
      | some place => .pure _
      | none => expression_agrees n
termination_by structural n => n

theorem expression_agrees : ∀ n,
    Agrees (expression (rewinding join finish) n) (expression (predictive join finish) n)
  | 0 => .cutOff _
  | n + 1 => by
    unfold expression
    refine (Agrees.accept _).bind fun
      | some place => (identifier_agrees join finish).bind fun name => ?_
      | none => operation_agrees .logic n
    refine (Agrees.expect _ _ _).discard.bind fun _ => ?_
    exact (expression_agrees n).bind fun _ => .pure _
termination_by structural n => n

theorem operation_agrees (l : Level) : ∀ n,
    Agrees (operation (rewinding join finish) l n) (operation (predictive join finish) l n)
  | 0 => .cutOff _
  | n + 1 => by
    unfold operation
    exact (operand_agrees l n).bind fun first => operators_agrees l first n
termination_by structural n => n

theorem operators_agrees (l : Level) (left : Expr Place) : ∀ n,
    Agrees (operators (rewinding join finish) l left n) (operators (predictive join finish) l left n)
  | 0 => .cutOff _
  | n + 1 => by
    unfold operators
    refine (Agrees.take _).bind fun
      | some (_, op) => (operation_agrees _ n).bind fun right => ?_
      | none => .pure _
    exact operators_agrees l _ n
termination_by structural n => n

theorem operand_agrees (l : Level) : ∀ n,
    Agrees (operand (rewinding join finish) l n) (operand (predictive join finish) l n)
  | 0 => .cutOff _
  | n + 1 => by
    unfold operand
    exact (Agrees.take _).bind fun
      | some (place, op) => (operation_agrees _ n).bind fun _ => .pure _
      | none => call_agrees n
termination_by structural n => n

theorem call_agrees : ∀ n,
    Agrees (call (rewinding join finish) n) (call (predictive join finish) n)
  | 0 => .cutOff _
  | n + 1 => by
    unfold call
    exact (atom_agrees n).bind fun callee => calls_agrees callee n
termination_by structural n => n

theorem calls_agrees (callee : Expr Place) : ∀ n,
    Agrees (calls (rewinding join finish) callee n) (calls (predictive join finish) callee n)
  | 0 => .cutOff _
  | n + 1 => by
    unfold calls
    refine (Agrees.accept _).bind fun
      | none => .pure _
      | some _ => (arguments_agrees n).bind fun list => ?_
    exact (Agrees.expect _ _ _).bind fun _ => calls_agrees _ n
termination_by structural n => n

theorem arguments_agrees : ∀ n,
    Agrees (arguments (rewinding join finish) n) (arguments (predictive join finish) n)
  | 0 => .cutOff _
  | n + 1 => by
    unfold arguments
    refine (Agrees.sees _).bind fun
      | true => .pure _
      | false => (expression_agrees n).bind fun first => ?_
    exact moreArguments_agrees [first] n
termination_by structural n => n

theorem moreArguments_agrees (done : List (Expr Place)) : ∀ n,
    Agrees (moreArguments (rewinding join finish) done n)
      (moreArguments (predictive join finish) done n)
  | 0 => .cutOff _
  | n + 1 => by
    unfold moreArguments
    exact (Agrees.accept _).bind fun
      | some _ => (expression_agrees n).bind fun e => moreArguments_agrees (e :: done) n
      | none => .pure _
termination_by structural n => n

theorem atom_agrees : ∀ n,
    Agrees (atom (rewinding join finish) n) (atom (predictive join finish) n)
  | 0 => .cutOff _
  | n + 1 => by
    unfold atom
    refine (Agrees.take _).bind fun
      | some (place, .leaf node) => .pure _
      | some (place, .parenthesis) => (expression_agrees n).bind fun e => ?_
      | some (place, .conditional) => conditional_agrees place n
      | some (place, .loop) => loop_agrees place n
      | some (place, .function) => function_agrees place n
      | none => .fail _ _
    exact (Agrees.expect _ _ _).bind fun _ => .pure _
termination_by structural n => n

theorem conditional_agrees (place : Place) : ∀ n,
    Agrees (conditional (rewinding join finish) place n)
      (conditional (predictive join finish) place n)
  | 0 => .cutOff _
  | n + 1 => by
    unfold conditional
    refine (operation_agrees _ n).bind fun condition => ?_
    refine (Agrees.expect _ _ _).discard.bind fun _ => ?_
    refine (Agrees.sees _).bind fun braces => ?_
    refine (branch_agrees braces n).bind fun thenBranch => ?_
    refine (Agrees.expect _ _ _).discard.bind fun _ => ?_
    exact (branch_agrees braces n).bind fun elseBranch => .pure _
termination_by structural n => n

theorem branch_agrees (braces : Bool) : ∀ n,
    Agrees (branch (rewinding join finish) braces n) (branch (predictive join finish) braces n)
  | 0 => .cutOff _
  | n + 1 => by
    unfold branch
    cases braces with
    | true => exact block_agrees n
    | false => exact expression_agrees n
termination_by structural n => n

theorem loop_agrees (place : Place) : ∀ n,
    Agrees (loop (rewinding join finish) place n) (loop (predictive join finish) place n)
  | 0 => .cutOff _
  | n + 1 => by
    unfold loop
    refine (operation_agrees _ n).bind fun condition => ?_
    exact (block_agrees n).bind fun _ => .pure _
termination_by structural n => n

theorem function_agrees (place : Place) : ∀ n,
    Agrees (function (rewinding join finish) place n) (function (predictive join finish) place n)
  | 0 => .cutOff _
  | n + 1 => by
    unfold function
    refine (signature_agrees join finish n).bind fun _ => ?_
    exact (block_agrees n).bind fun _ => .pure _
termination_by structural n => n

theorem block_agrees : ∀ n,
    Agrees (block (rewinding join finish) n) (block (predictive join finish) n)
  | 0 => .cutOff _
  | n + 1 => by
    unfold block
    refine (Agrees.expect _ _ _).bind fun opening => ?_
    refine (statements_postpones n).bind (fun list => (Agrees.accept _).bind fun
      | some close => .pure _
      | none => .unexpected _ _) fun list d e hfailure hd => ?_
    -- No brace begins a statement, so the block is not closed here.
    have hbrace : ¬ Starts (· = .mark .rightBrace) d.ahead := by
      intro h
      exact Bool.false_ne_true (starts_and hd h)
    rw [Action.bind_apply, Action.andThen, accept_eq_none hbrace]
    exact unexpected_of_failure hfailure
termination_by structural n => n

end

theorem program_agrees (n : Nat) :
    Agrees (program (rewinding join finish) n) (program (predictive join finish) n) := by
  refine (statements_postpones join finish n).bind (fun list => Agrees.peek.bind fun
    | none => .pure _
    | some _ => .unexpected _ _) fun list d e hfailure hd => ?_
  obtain ⟨t, rest, hahead, -⟩ := hd
  rw [Action.bind_apply, Action.andThen, Rule.peek, hahead]
  exact unexpected_of_failure hfailure

/-- Trying each next statement gives the same program or the same error as looking at the token it
would begin with. -/
theorem read?_rewinding (tokens : List (Token Place)) :
    read? (rewinding join finish) tokens = read? (predictive join finish) tokens := by
  have hends := program_ne_unfinished (rewinding_keeps join finish) tokens
  rw [read?, read?]
  rcases program_agrees join finish (depth tokens.length) ⟨tokens, 0, none⟩ rfl with hr | hp
  · exact absurd hr hends
  · cases hpc : program (predictive join finish) (depth tokens.length) ⟨tokens, 0, none⟩ with
    | done e c =>
      rw [hpc] at hp
      rw [hp.1]
    | failed e c =>
      rw [hpc] at hp
      obtain ⟨c', hr⟩ := hp
      rw [hr]
    | unfinished =>
      rw [hpc] at hp
      exact hp.elim

end Grammar
end Cyan
