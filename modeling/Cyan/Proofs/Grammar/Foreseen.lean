/-
The predictive reader.

In the setting `predictive` no failure is ever remembered (`predictive_passes`).  What a block and a
program say where their statements end therefore does not look for one: a block demands its brace, and a
program the end of the tokens.  With the row of statements, which goes on exactly if the token behind the
separators can begin a statement, this is a reader that goes from token to token and gives up at the first
error.  `Expr.ofTokens?_foreseen` says that it is as good as the one that tries its statements.

Which tokens can begin a statement is a matter of the grammar alone (`beginsStatement_iff`).
-/
import Cyan.Proofs.Grammar.Levels
import Cyan.Proofs.Grammar.Predictive

namespace Cyan

variable {Place α β : Type}

/-- If no failure is remembered at the first cursor, none is at the second. -/
def Cursor.StaysClear (c c' : Cursor Place) : Prop := c.failure? = none → c'.failure? = none

namespace Cursor

instance : IsPreorder (Cursor Place) StaysClear where
  refl _ := fun h => h
  trans := fun _ _ _ h h' hc => h' (h hc)

theorem staysClear_steps : Steps (StaysClear : Cursor Place → Cursor Place → Prop) where
  next _ _ _ _ := fun h => h
  pastSeparators _ := fun h => h
  forget _ := fun _ => rfl

end Cursor

namespace Grammar

open Cyan.Action (Keeps)

variable (join : Place → Place → Place) (finish : Place)

theorem predictive_passes : (predictive join finish).Passes Cursor.StaysClear where
  steps := Cursor.staysClear_steps
  next rule h := Rule.peek_keeps.bind fun kind? => by
    cases kind?.any beginsStatement with
    | true => exact h.bind fun _ => Keeps.pure _
    | false => exact Keeps.pure none

/-! ## What can begin a statement -/

section

variable {join} {ok : Symbol Place → List (Token Place) → List (Token Place) → Prop}
  {ts rest : List (Token Place)} {e : Expr Place}

/-- An atom is an expression of any level. -/
theorem Derives.atLevel (h : Derives join ok .atom ts rest e) (l : Level) :
    Derives join ok (.level l) ts rest e := by
  have hpower : Derives join ok (.level .power) ts rest e := .chain (.call h .noArguments) .noOperator
  exact hpower.loosen (by cases l <;> decide)

theorem Derives.atStatement (h : Derives join ok .atom ts rest e) : Derives join ok .statement ts rest e :=
  .statement (.expression (h.atLevel .logic))

/-- Every token that begins an atom begins one that derives from the grammar. -/
theorem exists_atom {t : Token Place} (h : beginsAtom t.kind) :
    ∃ ts rest e, Derives join anyhow .atom (t :: ts) rest e := by
  obtain ⟨kind, p⟩ := t
  have hone (rest : List (Token Place)) (l : Level) :
      Derives join anyhow (.level l) (⟨.int 1, p⟩ :: rest) rest (.number p (.int 1)) := .atLevel .int l
  have hblock (rest : List (Token Place)) : Derives join anyhow .block
      (⟨.mark .leftBrace, p⟩ :: ⟨.keyword .pass, p⟩ :: ⟨.mark .rightBrace, p⟩ :: rest) rest
      (.block (join p p) [.pass p]) := .block (.statements .none .pass (.noStatement .none))
  cases kind with
  | int n => exact ⟨[], [], _, .int⟩
  | float x => exact ⟨[], [], _, .float⟩
  | string text => exact ⟨[], [], _, .string⟩
  | identifier name => exact ⟨[], [], _, .reference⟩
  | literal value => exact ⟨[], [], _, .literal⟩
  | mark m =>
    cases m with
    | leftParen => exact ⟨_, [], _, .parenthesis (q := p) (.expression (hone _ .logic))⟩
    | _ => cases h
  | keyword word =>
    cases word with
    | if_ =>
      exact ⟨_, [], _, .branches (q := p) (r := p) (hone _ _) (.expression (hone _ _))
        (.expression (hone _ _)) trivial⟩
    | while_ => exact ⟨_, [], _, .loop (hone _ _) (hblock _)⟩
    | fun_ => exact ⟨_, [], _, .function (.anonymous (.none (p := p) (q := p))) (hblock _)⟩
    | _ => cases h

/-- The tokens that can begin a statement are those with which tokens begin that derive from one. -/
theorem beginsStatement_iff {t : Token Place} : beginsStatement t.kind ↔
    ∃ ts rest e, Derives join anyhow .statement (t :: ts) rest e := by
  constructor
  · intro h
    obtain ⟨kind, p⟩ := t
    rw [beginsStatement, beginsExpression, beginsOperand, Bool.or_eq_true, Bool.or_eq_true,
      Bool.or_eq_true, decide_eq_true_eq, decide_eq_true_eq] at h
    have hone (l : Level) : Derives join anyhow (.level l) [⟨.int 1, p⟩] [] (.number p (.int 1)) :=
      .atLevel .int l
    rcases h with rfl | rfl | h | h
    · exact ⟨[], [], _, .pass⟩
    · exact ⟨[⟨.identifier "x", p⟩, ⟨.mark .equal, p⟩, ⟨.int 1, p⟩], [], _,
        .statement (.assign (.expression (hone _)) trivial)⟩
    · obtain ⟨op, hop⟩ := Option.isSome_iff_exists.mp h
      have hsigned := Derives.signed hop rfl (hone (prefixLevel op))
      exact ⟨_, [], _, .statement (.expression (hsigned.loosen (by cases op <;> decide)))⟩
    · obtain ⟨ts, rest, e, hatom⟩ : ∃ ts rest e, Derives join anyhow .atom (⟨kind, p⟩ :: ts) rest e :=
        exists_atom h
      exact ⟨ts, rest, e, hatom.atStatement⟩
  · rintro ⟨ts, rest, e, h⟩
    exact starts_cons.mp h.begins

end

/-! ## Reading on, and where it ends -/

/-- Behind a rule after which no failure is remembered, rules that do the same without one do the
same. -/
theorem bind_clear {rule : Rule Place α} (h : rule.Keeps Cursor.StaysClear) {f f' : α → Rule Place β}
    (hf : ∀ a c, c.failure? = none → f a c = f' a c) {c : Cursor Place} (hc : c.failure? = none) :
    (rule >>= f) c = (rule >>= f') c := by
  rw [Action.bind_apply, Action.andThen, Action.bind_apply, Action.andThen]
  cases hrule : rule c with
  | done a c' => exact hf a c' (h.done hrule hc)
  | failed | unfinished => rfl

theorem unexpected_clear (fault : SyntaxFault) {c : Cursor Place} (hc : c.failure? = none) :
    (Rule.unexpected finish fault : Rule Place α) c = Rule.fail finish fault c := by
  rw [Rule.unexpected, hc]

section

variable (n : Nat)

/-- Behind separators the next token decides whether there is one more statement.  If so, it is read for
good. -/
theorem moreStatements_foreseen (done : List (Expr Place)) :
    moreStatements (predictive join finish) done (n + 1) = do
      if ← Rule.skipSeparators then
        if (← Rule.peek).any beginsStatement then
          let e ← statement (predictive join finish) n
          moreStatements (predictive join finish) (e :: done) n
        else return done.reverse
      else return done.reverse := by
  rw [moreStatements]
  refine congrArg (Rule.skipSeparators >>= ·) (funext fun separated => ?_)
  cases separated with
  | false => rfl
  | true =>
    show Rule.foresee (statement (predictive join finish) n) >>= _ = _
    rw [Rule.foresee, bind_assoc]
    refine congrArg (Rule.peek >>= ·) (funext fun kind? => ?_)
    cases kind?.any beginsStatement with
    | false => rfl
    | true =>
      show (statement (predictive join finish) n >>= fun e => pure (some e)) >>= _ = _
      rw [bind_assoc]
      rfl

variable {c : Cursor Place} (hc : c.failure? = none)
include hc

/-- A block demands its brace where its statements end. -/
theorem block_foreseen : block (predictive join finish) (n + 1) c = (do
    let opening ← Rule.expect finish (.mark .leftBrace) .openBrace
    let list ← statements (predictive join finish) n
    let close ← Rule.expect finish (.mark .rightBrace) .closeBrace
    return .block (join opening close) list : Rule Place (Expr Place)) c := by
  unfold block
  have hsteps : Cursor.Steps (Cursor.StaysClear : Cursor Place → _) := Cursor.staysClear_steps
  refine bind_clear (Rule.expect_keeps hsteps _ _ _) (fun opening c hc => ?_) hc
  refine bind_clear (statements_keeps (predictive_passes join finish) n) (fun list c hc => ?_) hc
  rw [Rule.expect, bind_assoc]
  refine bind_clear (Rule.accept_keeps hsteps _) (fun place? c hc => ?_) hc
  cases place? with
  | some close => rfl
  | none => exact unexpected_clear finish _ hc

/-- A program demands the end of the tokens where its statements end. -/
theorem program_foreseen : program (predictive join finish) n c = (do
    let list ← statements (predictive join finish) n
    match ← Rule.peek with
    | none => return .block (extent (predictive join finish) list) list
    | some _ => Rule.fail finish .leftover : Rule Place (Expr Place)) c := by
  refine bind_clear (statements_keeps (predictive_passes join finish) n) (fun list c hc => ?_) hc
  refine bind_clear Rule.peek_keeps (fun kind? c hc => ?_) hc
  cases kind? with
  | none => rfl
  | some kind => exact unexpected_clear finish _ hc

end

section

variable {g : Setting Place} {tokens : List (Token Place)}
  (h : program g (depth tokens.length) { ahead := tokens } ≠ .unfinished)
include h

theorem read?_eq_ok {e : Expr Place} : read? g tokens = .ok e ↔
    ∃ c, program g (depth tokens.length) { ahead := tokens } = .done e c := by
  rw [read?]
  cases hprogram : program g (depth tokens.length) { ahead := tokens } with
  | done e' c => simp
  | failed e' c => simp
  | unfinished => exact absurd hprogram h

theorem read?_eq_error {e : SyntaxError Place} : read? g tokens = .error e ↔
    ∃ c, program g (depth tokens.length) { ahead := tokens } = .failed e c := by
  rw [read?]
  cases hprogram : program g (depth tokens.length) { ahead := tokens } with
  | done e' c => simp
  | failed e' c => simp
  | unfinished => exact absurd hprogram h

end

end Grammar

open Grammar in
/-- Reading a program is reading it with the predictive reader: the rule for programs ends with the program
that is read, or with the error that is reported.  Its row of statements goes on behind separators exactly if
the next token can begin a statement, which is then read for good.  Nothing is remembered, so a block that
does not end with its brace and a program that does not end with the tokens have but one error each. -/
theorem Expr.ofTokens?_foreseen (join : Place → Place → Place) (s : TokenStream Place) :
    let g := predictive join s.finish
    Expr.ofTokens? join s = read? g s.tokens ∧
    (∀ e, Expr.ofTokens? join s = .ok e ↔
      ∃ c, program g (depth s.tokens.length) { ahead := s.tokens } = .done e c) ∧
    (∀ e, Expr.ofTokens? join s = .error e ↔
      ∃ c, program g (depth s.tokens.length) { ahead := s.tokens } = .failed e c) ∧
    program g (depth s.tokens.length) { ahead := s.tokens } ≠ .unfinished ∧
    (∀ t, beginsStatement t.kind ↔ ∃ ts rest e, Derives join anyhow .statement (t :: ts) rest e) ∧
    (∀ n done, moreStatements g done (n + 1) = do
      if ← Rule.skipSeparators then
        if (← Rule.peek).any beginsStatement then
          let e ← statement g n
          moreStatements g (e :: done) n
        else return done.reverse
      else return done.reverse) ∧
    ∀ n, (statements g n).Keeps Cursor.StaysClear ∧ ∀ c : Cursor Place, c.failure? = none →
      Grammar.block g (n + 1) c = (do
        let opening ← Rule.expect s.finish (.mark .leftBrace) .openBrace
        let list ← statements g n
        let close ← Rule.expect s.finish (.mark .rightBrace) .closeBrace
        return .block (join opening close) list : Rule Place (Expr Place)) c ∧
      program g n c = (do
        let list ← statements g n
        match ← Rule.peek with
        | none => return .block (extent g list) list
        | some _ => Rule.fail s.finish .leftover : Rule Place (Expr Place)) c := by
  intro g
  have hread : Expr.ofTokens? join s = read? g s.tokens := read?_rewinding join s.finish s.tokens
  have hends : program g (depth s.tokens.length) { ahead := s.tokens } ≠ .unfinished :=
    program_ne_unfinished (predictive_keeps join s.finish) s.tokens
  refine ⟨hread, fun e => ?_, fun e => ?_, hends, fun t => beginsStatement_iff,
    moreStatements_foreseen join s.finish, fun n => ⟨?_, fun c hc => ⟨?_, ?_⟩⟩⟩
  · rw [hread, read?_eq_ok hends]
  · rw [hread, read?_eq_error hends]
  · exact statements_keeps (predictive_passes join s.finish) n
  · exact block_foreseen join s.finish n hc
  · exact program_foreseen join s.finish n hc

/-- Behind a newline an assignment is begun that has no name: this is what is reported, and not that
there is more behind the first statement. -/
theorem Expr.ofTokens?_foreseen_assignment :
    let s : TokenStream Nat :=
      ⟨[⟨.identifier "x", 0⟩, ⟨.mark .newline, 1⟩, ⟨.keyword .let_, 2⟩, ⟨.int 1, 3⟩], 4⟩
    let join (p _ : Nat) := p
    let g := Grammar.predictive join s.finish
    let c : Cursor Nat := ⟨s.tokens, 0, none⟩
    Expr.ofTokens? join s = .error ⟨.expectedIdentifier, 3⟩ ∧
      (∃ d, Grammar.program g (Grammar.depth 4) c = .failed ⟨.expectedIdentifier, 3⟩ d) ∧
      c.failure? = none ∧
      Grammar.program g 9 c = (do
        let list ← Grammar.statements g 9
        match ← Rule.peek with
        | none => return .block (Grammar.extent g list) list
        | some _ => Rule.fail s.finish .leftover : Rule Nat (Expr Nat)) c := by
  intro s join g c
  have hfailed : ∃ d, Grammar.program g (Grammar.depth 4) c = .failed ⟨.expectedIdentifier, 3⟩ d :=
    ⟨_, by rfl⟩
  obtain ⟨-, -, herror, -, -, -, hrules⟩ := Expr.ofTokens?_foreseen join s
  exact ⟨(herror _).mpr hfailed, hfailed, rfl, ((hrules 9).2 c rfl).2⟩

end Cyan
