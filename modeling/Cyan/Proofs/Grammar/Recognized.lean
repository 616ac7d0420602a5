/-
What the rules recognize.

In the predictive setting every rule recognizes the line of the grammar it is named after, with one
token to look at: the equations of the lines, read from left to right, are the steps of the rules.  A
rule for an expression asks that what follows is `Open`, since it keeps for itself every operator and
argument list it meets.  A row asks that what follows ends it.

The main statement is `statements_recognizes`.
-/
import Cyan.Proofs.Grammar.Recognition
import Mathlib.Data.List.TakeWhile

namespace Cyan
namespace Grammar

variable {Place : Type} {join : Place → Place → Place} {K : Ahead Place} {t : Token Place}
  {ts : List (Token Place)}

/-! ## What follows -/

/-- What follows begins with no separator. -/
def Solid (K : Ahead Place) : Prop := ∀ ts, K ts → ¬ Starts (·.isSeparator) ts

/-- What follows a row of statements: a closing brace, or nothing. -/
def Closing (K : Ahead Place) : Prop := ∀ ts, K ts → ts = [] ∨ Starts (· = .mark .rightBrace) ts

/-- What follows a row of arguments or parameters: a closing parenthesis. -/
def Fenced (K : Ahead Place) : Prop := ∀ ts, K ts → Starts (· = .mark .rightParen) ts

theorem closing_nil : Closing ((· = []) : Ahead Place) := fun _ h => Or.inl h

theorem closing_next : Closing (Next (.mark .rightBrace) K) :=
  fun _ ⟨p, rest, h, _⟩ => Or.inr ⟨_, rest, h, by simp⟩

theorem fenced_next : Fenced (Next (.mark .rightParen) K) :=
  fun _ ⟨p, rest, h, _⟩ => ⟨_, rest, h, by simp⟩

theorem Closing.not_starts (hK : Closing K) {p : Token.Kind → Bool} (hp : p (.mark .rightBrace) = false)
    (h : K ts) : ¬ Starts p ts := by
  rcases hK ts h with rfl | ⟨t, rest, rfl, ht⟩
  · exact not_starts_nil
  · rw [starts_cons, of_decide_eq_true ht, hp]
    exact Bool.false_ne_true

theorem Fenced.not_starts (hK : Fenced K) {p : Token.Kind → Bool} (hp : p (.mark .rightParen) = false)
    (h : K ts) : ¬ Starts p ts := by
  obtain ⟨t, rest, rfl, ht⟩ := hK ts h
  rw [starts_cons, of_decide_eq_true ht, hp]
  exact Bool.false_ne_true

/-- The tokens that an expression may go on with. -/
def continues (kind : Token.Kind) : Bool :=
  (BinaryOp.ofKind? kind).isSome || kind = .mark .leftParen

theorem open_of_not_starts (h : ∀ ts, K ts → ¬ Starts continues ts) : Open join K := by
  refine open_of_head fun t ts hK => ?_
  have := h _ hK
  rw [starts_cons, continues, Bool.or_eq_true, not_or, decide_eq_true_eq] at this
  exact ⟨Option.not_isSome_iff_eq_none.mp this.1, this.2⟩

theorem open_next {kind : Token.Kind} (h : continues kind = false) : Open join (Next kind K) := by
  refine open_of_not_starts fun ts ⟨p, rest, hts, _⟩ => ?_
  rw [hts, starts_cons, h]
  exact Bool.false_ne_true

theorem open_block : Open join (Follows join .block K) := by
  refine open_of_not_starts fun ts h => ?_
  obtain ⟨t, rest, rfl, ht⟩ := h.begins
  rw [starts_cons, of_decide_eq_true ht]
  exact Bool.false_ne_true

theorem open_moreStatements (hK : Closing K) : Open join (FollowsRow join .moreStatements K) := by
  refine open_of_not_starts fun ts h => ?_
  by_cases hts : Starts (·.isSeparator) ts
  · obtain ⟨t, rest, rfl, ht⟩ := hts
    rw [starts_cons]
    obtain ⟨kind, p⟩ := t
    cases kind with
    | mark m => cases m <;> first | exact Bool.false_ne_true | cases ht
    | int | float | string | identifier | keyword | literal => cases ht
  · rw [followsRow_moreStatements_of_not hts] at h
    exact hK.not_starts rfl h

theorem open_moreArguments (hK : Fenced K) : Open join (FollowsRow join .moreArguments K) := by
  refine open_of_not_starts fun ts h => ?_
  rw [followsRow_moreArguments] at h
  rcases h with h | ⟨p, rest, rfl, _⟩
  · exact hK.not_starts rfl h
  · rw [starts_cons]
    exact Bool.false_ne_true

/-! ## There is something of every line -/

namespace Productive

theorem of_derives {N : Symbol Place} (w : List (Token Place))
    (h : ∀ x, ∃ e, Derives join anyhow N (w ++ x) x e) : Productive (Follows join N) := by
  refine ⟨w, fun K x hK => ?_⟩
  obtain ⟨e, h⟩ := h x
  exact ⟨x, e, h, hK⟩

theorem of_stop (h : ∀ K ts, K ts → X K ts) : Productive (X : Piece Place) := ⟨[], h⟩

theorem level (finish : Place) (l : Level) : Productive (Follows join (.level l)) :=
  of_derives [⟨.literal .none, finish⟩] fun _ =>
    ⟨_, Derives.level_of_call (.call .literal .noArguments) l⟩

theorem expression (finish : Place) : Productive (Follows join .expression) :=
  of_derives [⟨.literal .none, finish⟩] fun _ =>
    ⟨_, .expression (Derives.level_of_call (.call .literal .noArguments) .logic)⟩

theorem statement (finish : Place) : Productive (Follows join .statement) :=
  of_derives [⟨.keyword .pass, finish⟩] fun _ => ⟨_, .pass⟩

theorem block (finish : Place) : Productive (Follows join .block) :=
  of_derives [⟨.mark .leftBrace, finish⟩, ⟨.keyword .pass, finish⟩, ⟨.mark .rightBrace, finish⟩]
    fun _ => ⟨_, Derives.block (.statements .none .pass (.noStatement .none))⟩

theorem atom (finish : Place) : Productive (Follows join .atom) :=
  of_derives [⟨.literal .none, finish⟩] fun _ => ⟨_, .literal⟩

theorem row {N : Row} (h : ∀ x, ∃ list, DerivesRow join anyhow N x x list) :
    Productive (FollowsRow join N) := by
  refine ⟨[], fun K x hK => ?_⟩
  obtain ⟨list, h⟩ := h x
  exact ⟨x, list, h, hK⟩

theorem statements (finish : Place) : Productive (FollowsRow join .statements) :=
  ⟨[⟨.keyword .pass, finish⟩], fun _ x hK =>
    ⟨x, _, .statements .none .pass (.noStatement .none), hK⟩⟩

theorem moreStatements : Productive (FollowsRow join .moreStatements) :=
  row fun _ => ⟨_, .noStatement .none⟩

theorem arguments : Productive (FollowsRow join .arguments) := row fun _ => ⟨_, .empty⟩

theorem moreArguments : Productive (FollowsRow join .moreArguments) := row fun _ => ⟨_, .noArgument⟩

theorem moreParameters : Productive (FollowsMoreParameters : Piece Place) :=
  ⟨[], fun _ x hK => ⟨x, [], .none, hK⟩⟩

end Productive

/-! ## Signatures -/

variable (join) (finish : Place)

theorem starts_name {v : List (Token Place)} (h : NextName K v) :
    Starts (fun kind => kind.name?.isSome) v := by
  obtain ⟨name, p, rest, rfl, -⟩ := h
  exact ⟨_, _, rfl, rfl⟩

theorem parameters_recognizes : ∀ n names,
    Recognizes finish Fenced FollowsMoreParameters (parameters (predictive join finish) names n)
  | 0, _ => .cutOff
  | n + 1, names => by
    unfold parameters
    refine .accept (fun t ht => ⟨fun K ts => K ts ∨ NextName (FollowsMoreParameters K) ts,
      ⟨fun K ts h => ?_, fun K hK ts h => ?_⟩, ?_⟩) fun c hc h => ?_
    · rw [followsMoreParameters, next_cons, next_cons]
      exact Or.inr (h.imp (⟨ht, ·⟩) (⟨ht, ·⟩))
    · rw [followsMoreParameters, next_cons, next_cons] at h
      rcases h with h | h
      · have hcomma : ¬ Starts (· = .mark .comma) (t :: ts) := hK.not_starts rfl h
        exact absurd (starts_cons.mpr (decide_eq_true ht)) hcomma
      · exact h.imp And.right And.right
    · refine .acceptIdentifier (fun t name ht => ⟨_, ⟨fun K ts h => ?_, fun K hK ts h => ?_⟩,
        parameters_recognizes n (name :: names)⟩) fun c hc hname => .sees (fun hparen => ?_)
          fun hparen => ?_
      · exact Or.inr (nextName_cons.mpr ⟨⟨name, ht⟩, h⟩)
      · rcases h with h | h
        · have hname : ¬ Starts (fun kind => kind.name?.isSome) (t :: ts) := hK.not_starts rfl h
          exact absurd (starts_cons.mpr (by rw [ht]; rfl)) hname
        · exact (nextName_cons.mp h).2
      · refine (Fits.done hc).congr ⟨fun K v => Or.inl, fun K _ v hv h => ?_⟩
        rcases h with h | h
        · exact h
        · exact absurd ((starts_congr hv).mp (starts_name h)) hname
      · refine .fail (.of_stop fun K ts => Or.inl) fun K hK v hv h => ?_
        rcases h with h | h
        · exact hparen ((starts_congr hv).mp (hK v h))
        · exact hname ((starts_congr hv).mp (starts_name h))
    · refine (Fits.done hc).congr ⟨fun K v hv => ?_, fun K _ v hv h' => ?_⟩
      · exact followsMoreParameters.mpr (Or.inl hv)
      · rw [followsMoreParameters] at h'
        have hcomma : ¬ Starts (· = .mark .comma) v := fun hs => h ((starts_congr hv).mp hs)
        rcases h' with h' | h' | h'
        · exact h'
        · exact absurd h' (not_next_of_not_starts hcomma)
        · exact absurd h' (not_next_of_not_starts hcomma)

theorem identifier_recognizes (Q : Ahead Place → Prop) :
    Recognizes finish Q NextName (identifier (predictive join finish)) := by
  refine .acceptIdentifier (fun t name ht => ⟨_, .of_iff fun K ts => ?_, .pure name⟩)
    fun c hc h => ?_
  · rw [nextName_cons]
    exact and_iff_right ⟨name, ht⟩
  · refine .fail ⟨[⟨.identifier "", finish⟩], fun K x hK => nextName_cons.mpr ⟨⟨_, rfl⟩, hK⟩⟩ ?_
    exact fun K _ v hv hK => h ((starts_congr hv).mp (starts_name hK))

theorem signature_recognizes (Q : Ahead Place → Prop) (n : Nat) :
    Recognizes finish Q FollowsSignature (signature (predictive join finish) n) := by
  have hrest (name? : Option String) (what : Expectation) :
      Recognizes finish Q FollowsParameters (do
        discard <| Rule.expect finish (.mark .leftParen) what
        let names ←
          if ← Rule.sees (.mark .rightParen) then pure []
          else do parameters (predictive join finish) [← identifier (predictive join finish)] n
        discard <| Rule.expect finish (.mark .rightParen) .commaOrCloseParen
        return (name?, names)) := by
    have hclose (names : List String) : Recognizes finish Q (Next (.mark .rightParen)) (do
        discard <| Rule.expect finish (.mark .rightParen) .commaOrCloseParen
        return (name?, names)) := (Recognizes.expect _ _).discard.bind_pure _
    have hnames := (identifier_recognizes join finish fun _ => True).bind (fun name =>
      (parameters_recognizes join finish n [name]).bind hclose (.next finish _)
        fun _ _ => fenced_next) (.comp .moreParameters (.next finish _)) fun _ _ => trivial
    have hlist : Productive (ClosesParameters : Piece Place) :=
      .mono (.next finish (.mark .rightParen)) fun _ _ => Or.inl
    refine .of_iff (.discard_expect_bind (fun c hc => ?_) hlist) fun _ _ => followsParameters
    refine .sees (fun hparen => ?_) fun hparen => ?_
    · refine (hclose [] c hc).congr ⟨fun K v => Or.inl, fun K _ v hv h => ?_⟩
      rcases h with h | h
      · exact h
      · have hname := starts_and (starts_name h) ((starts_congr hv).mpr hparen)
        cases hname
    · refine (hnames c hc).congr ⟨fun K v => Or.inr, fun K _ v hv h => ?_⟩
      rcases h with h | h
      · exact absurd h (not_next_of_not_starts fun hs => hparen ((starts_congr hv).mp hs))
      · exact h
  unfold signature
  refine .acceptIdentifier (fun t name ht => ⟨_, ⟨fun K ts h => ?_, fun K _ ts h => ?_⟩,
    hrest (some name) _⟩) fun c hc h => (hrest none _ c hc).congr ⟨fun K v hv => ?_,
      fun K _ v hv h' => ?_⟩
  · exact followsSignature.mpr (Or.inr (nextName_cons.mpr ⟨⟨name, ht⟩, h⟩))
  · rw [followsSignature, nextName_cons] at h
    rcases h with h | h
    · rw [followsParameters, next_cons, ht] at h
      cases h.1
    · exact h.2
  · exact followsSignature.mpr (Or.inl hv)
  · rw [followsSignature] at h'
    rcases h' with h' | h'
    · exact h'
    · exact absurd ((starts_congr hv).mp (starts_name h')) h

/-! ## Separators -/

theorem separators_append {u v : List (Token Place)} (hu : ∀ t ∈ u, t.kind.isSeparator) :
    Separators (u ++ v) v := by
  induction u with
  | nil => exact .none
  | cons t u ih =>
    exact .more (hu t List.mem_cons_self) (ih fun t' ht' => hu t' (List.mem_cons_of_mem t ht'))

/-- All separators are passed, if what comes behind them begins with none. -/
theorem Separators.rest_unique {u v rest : List (Token Place)} (h : Separators (u ++ v) rest)
    (hu : ∀ t ∈ u, t.kind.isSeparator) (hv : ¬ Starts (·.isSeparator) v)
    (hrest : ¬ Starts (·.isSeparator) rest) : rest = v := by
  induction u with
  | nil =>
    cases h with
    | none => rfl
    | more ht => exact absurd ⟨_, _, rfl, ht⟩ hv
  | cons t u ih =>
    cases h with
    | none => exact absurd ⟨t, _, rfl, hu t List.mem_cons_self⟩ hrest
    | more _ h => exact ih h fun t' ht' => hu t' (List.mem_cons_of_mem t ht')

theorem fits_gaps {α : Type} {c : Cursor Place} (hc : c.failure? = none)
    (hahead : c.ahead = ts.dropWhile (·.kind.isSeparator)) (a : α) :
    Fits finish Solid Gaps ts (.done a c) := by
  have hsep : ∀ t ∈ ts.takeWhile (·.kind.isSeparator), t.kind.isSeparator := fun t ht =>
    List.mem_takeWhile_imp (p := fun t : Token Place => t.kind.isSeparator) ht
  refine ⟨hc, ts.takeWhile (·.kind.isSeparator), ?_, fun K v hv => ?_, fun K hK v hv h => ?_⟩
  · rw [hahead]
    exact List.takeWhile_append_dropWhile.symm
  · exact ⟨v, separators_append hsep, hv⟩
  · obtain ⟨rest, hrest, h⟩ := h
    have hv' : ¬ Starts (·.isSeparator) v := by
      rw [starts_congr hv, hahead]
      exact not_starts_dropWhile ts
    rw [← hrest.rest_unique hsep hv' (hK rest h)]
    exact h

theorem skipSeparators_recognizes : Recognizes finish Solid Gaps (Rule.skipSeparators) := fun c hc =>
  fits_gaps (c := c.pastSeparators) finish hc rfl _

/-- What `skipSeparators` does: it passes a first separator and those behind it, or there is none. -/
theorem skipSeparators_cases (c : Cursor Place) :
    (∃ t rest, c.ahead = t :: rest ∧ t.kind.isSeparator ∧
      c.pastSeparators.ahead = rest.dropWhile (·.kind.isSeparator) ∧
      Rule.skipSeparators c = .done true c.pastSeparators) ∨
    (¬ Starts (·.isSeparator) c.ahead ∧ Rule.skipSeparators c = .done false c) := by
  obtain ⟨ahead, behind, failure?⟩ := c
  cases ahead with
  | nil => exact Or.inr ⟨not_starts_nil, rfl⟩
  | cons t rest =>
    cases ht : t.kind.isSeparator with
    | true =>
      refine Or.inl ⟨t, rest, rfl, ht, ?_, ?_⟩
      · simp [Cursor.pastSeparators, ht]
      · simp [Rule.skipSeparators, ht]
    | false =>
      refine Or.inr ⟨?_, ?_⟩
      · rw [starts_cons, ht]
        exact Bool.false_ne_true
      · simp [Rule.skipSeparators, Cursor.pastSeparators, ht]

/-! ## The rules -/

/-- Behind a separator in a row of statements: the end of the row, or another statement. -/
def Onward (join : Place → Place → Place) (K : Ahead Place) : Ahead Place := fun ts =>
  K ts ∨ Follows join .statement (FollowsRow join .moreStatements K) ts

theorem not_isSeparator_of_beginsStatement {kind : Token.Kind} (h : beginsStatement kind) :
    ¬ kind.isSeparator := by
  cases kind with
  | mark m => cases m <;> first | exact Bool.false_ne_true | cases h
  | int | float | string | identifier | keyword | literal => exact Bool.false_ne_true

theorem Closing.solid_onward (hK : Closing K) : Solid (Onward join K) := by
  intro ts h
  rcases h with h | h
  · exact hK.not_starts rfl h
  · obtain ⟨t, rest, rfl, ht⟩ := h.begins
    rw [starts_cons]
    exact not_isSeparator_of_beginsStatement ht

/-- Reading the next statement of a row is reading a statement, or there is none. -/
theorem Recognizes.foresee {α β : Type} {Q : Ahead Place → Prop} {X : Piece Place}
    {rule : Rule Place α} {f : Option α → Rule Place β}
    (hstarts : ∀ c, c.failure? = none → Starts beginsStatement c.ahead →
      Fits finish Q X c.ahead ((rule >>= fun a => f (some a)) c))
    (hnone : ∀ c, c.failure? = none → ¬ Starts beginsStatement c.ahead →
      Fits finish Q X c.ahead (f none c)) :
    Recognizes finish Q X (Rule.foresee rule >>= f) := by
  intro c hc
  by_cases h : Starts beginsStatement c.ahead
  · rw [foresee_bind_of_starts h]
    exact hstarts c hc h
  · rw [foresee_bind_of_not_starts h]
    exact hnone c hc h

theorem not_beginsAtom_of_sign {l : Level} {kind : Token.Kind} {op : UnaryOp}
    (h : prefixFor? l kind = some op) : beginsAtom kind = false := by
  rw [prefixFor?_eq_some] at h
  cases kind with
  | mark m => cases m <;> first | rfl | cases h.1
  | keyword word => cases word <;> first | rfl | cases h.1
  | int | float | string | identifier | literal => cases h.1

mutual

theorem statements_recognizes : ∀ n, Recognizes finish Closing (FollowsRow join .statements)
    (statements (predictive join finish) n)
  | 0 => .cutOff
  | n + 1 => by
    unfold statements
    have hrow := (statement_recognizes n).bind (fun first => moreStatements_recognizes n [first])
      .moreStatements fun K hK => open_moreStatements hK
    refine .of_iff ((skipSeparators_recognizes finish).discard.bind (fun _ => hrow)
      ((Productive.statement finish).comp .moreStatements) fun K hK => ?_)
      fun _ _ => followsRow_statements
    exact fun ts h => hK.solid_onward join ts (Or.inr h)
termination_by structural n => n

theorem moreStatements_recognizes : ∀ n done, Recognizes finish Closing
    (FollowsRow join .moreStatements) (moreStatements (predictive join finish) done n)
  | 0, _ => .cutOff
  | n + 1, done => by
    unfold moreStatements
    have hnext := (statement_recognizes n).bind (fun e => moreStatements_recognizes n (e :: done))
      .moreStatements fun K hK => open_moreStatements hK
    have honward : Recognizes finish Closing (Onward join) (do
        match ← Rule.foresee (statement (predictive join finish) n) with
        | some e => moreStatements (predictive join finish) (e :: done) n
        | none => return done.reverse) := by
      refine .foresee finish (fun c hc h => ?_) fun c hc h => ?_
      · refine (hnext c hc).congr ⟨fun K v => Or.inr, fun K hK v hv h' => ?_⟩
        rcases h' with h' | h'
        · exact absurd ((starts_congr hv).mpr h) (hK.not_starts rfl h')
        · exact h'
      · refine (Fits.done hc).congr ⟨fun K v => Or.inl, fun K _ v hv h' => ?_⟩
        rcases h' with h' | h'
        · exact h'
        · exact absurd ((starts_congr hv).mp h'.begins) h
    intro c hc
    rw [Action.bind_apply, Action.andThen]
    rcases skipSeparators_cases c with ⟨t, rest, hahead, ht, hpast, h⟩ | ⟨hsep, h⟩
    · rw [h, hahead]
      have hgaps := fits_gaps finish (c := c.pastSeparators) hc hpast true
      refine (hgaps.bind (honward c.pastSeparators hc) fun K hK => hK.solid_onward join).cons
        ⟨fun K v hv => ?_, fun K hK v hv => ?_⟩
      · exact (followsRow_moreStatements_cons ht).mpr (Or.inr hv)
      · rcases (followsRow_moreStatements_cons ht).mp hv with hv | hv
        · exact absurd (starts_cons.mpr ht) (hK.not_starts rfl hv)
        · exact hv
    · rw [h]
      refine (Fits.done hc).congr ⟨fun K v hv => ⟨v, [], .noStatement .none, hv⟩, ?_⟩
      intro K _ v hv h'
      rw [← starts_congr hv] at hsep
      exact (followsRow_moreStatements_of_not hsep).mp h'
termination_by structural n => n

theorem statement_recognizes : ∀ n, Recognizes finish (Open join) (Follows join .statement)
    (statement (predictive join finish) n)
  | 0 => .cutOff
  | n + 1 => by
    unfold statement
    refine .accept (fun t ht => ⟨_, .of_iff fun K ts => follows_pass ht, .pure _⟩) fun c hc h => ?_
    refine (expression_recognizes n c hc).congr ⟨fun K v hv => ?_, fun K _ v hv h' => ?_⟩
    · obtain ⟨rest, e, hv, hK⟩ := hv
      exact ⟨rest, e, .statement hv, hK⟩
    · rw [← starts_congr hv] at h
      exact (follows_statement h).mp h'
termination_by structural n => n

theorem expression_recognizes : ∀ n, Recognizes finish (Open join) (Follows join .expression)
    (expression (predictive join finish) n)
  | 0 => .cutOff
  | n + 1 => by
    unfold expression
    refine .accept (fun t ht => ⟨_, .of_iff fun K ts => follows_let ht, ?_⟩) fun c hc h => ?_
    · have hname := identifier_recognizes join finish fun _ => True
      exact hname.bind (fun name => .discard_expect_bind ((expression_recognizes n).bind_pure _)
        (.expression finish)) ((Productive.next finish _).comp (.expression finish)) fun _ _ =>
          trivial
    · refine (operation_recognizes .logic n c hc).congr ⟨fun K v hv => ?_, fun K _ v hv h' => ?_⟩
      · obtain ⟨rest, e, hv, hK⟩ := hv
        exact ⟨rest, e, .expression hv, hK⟩
      · rw [← starts_congr hv] at h
        exact (follows_expression h).mp h'
termination_by structural n => n

theorem operation_recognizes (l : Level) : ∀ n, Recognizes finish (Open join)
    (Follows join (.level l)) (operation (predictive join finish) l n)
  | 0 => .cutOff
  | n + 1 => by
    unfold operation
    refine .of_iff ((operand_recognizes l n).bind (fun first => operators_recognizes l first n)
      (.of_stop fun _ _ => .stop) fun K hK => hK.tails l) fun _ _ => follows_level
termination_by structural n => n

theorem operators_recognizes (l : Level) (left : Expr Place) : ∀ n, Recognizes finish (Open join)
    (Tails join l) (operators (predictive join finish) l left n)
  | 0 => .cutOff
  | n + 1 => by
    unfold operators
    refine .take (fun t op hop => ⟨fun K => Follows join (.level op.operandLevel) (Tails join l K),
      ⟨fun K ts h => ?_, fun K hK ts h => ?_⟩, ?_⟩) fun c hc h => ?_
    · obtain ⟨rest, e, hright, hK⟩ := h
      exact .operator hop hright hK
    · have hop' := (infixFor?_eq_some.mp hop).1
      exact (hK.tails l).operator hop' h
    · exact (operation_recognizes _ n).bind (fun right => operators_recognizes l _ n)
        (.of_stop fun _ _ => .stop) fun K hK => hK.tails l
    · refine (Fits.done hc).congr ⟨fun K v => .stop, fun K _ v hv h' => ?_⟩
      cases h' with
      | stop h' => exact h'
      | operator hop => exact absurd (starts_of_some hop) (mt (starts_congr hv).mp h)
termination_by structural n => n

theorem operand_recognizes (l : Level) : ∀ n, Recognizes finish (Open join)
    (Operand join l) (operand (predictive join finish) l n)
  | 0 => .cutOff
  | n + 1 => by
    unfold operand
    refine .take (fun t op hop => ⟨Follows join (.level (prefixLevel op)),
      ⟨fun K ts h => Or.inl ⟨t, op, ts, rfl, hop, h⟩, fun K _ ts h => ?_⟩,
      (operation_recognizes _ n).bind_pure _⟩) fun c hc h => ?_
    · rcases h with ⟨_, _, _, hts, hop', h⟩ | h
      · cases hts
        rw [hop] at hop'
        cases hop'
        exact h
      · have hbegins := starts_cons.mp h.begins
        rw [not_beginsAtom_of_sign hop] at hbegins
        cases hbegins
    · refine (call_recognizes n c hc).congr ⟨fun K v => Or.inr, fun K _ v hv h' => ?_⟩
      rcases h' with ⟨_, _, _, rfl, hop, _⟩ | h'
      · exact absurd (starts_of_some hop) (mt (starts_congr hv).mp h)
      · exact h'
termination_by structural n => n

theorem call_recognizes : ∀ n, Recognizes finish (Open join) (Follows join .call)
    (call (predictive join finish) n)
  | 0 => .cutOff
  | n + 1 => by
    unfold call
    refine .of_iff ((atom_recognizes n).bind (fun callee => calls_recognizes callee n)
      (.of_stop fun _ _ => .stop) fun K hK => hK.calls) fun _ _ => follows_call
termination_by structural n => n

theorem calls_recognizes (callee : Expr Place) : ∀ n, Recognizes finish (Open join) (Calls join)
    (calls (predictive join finish) callee n)
  | 0 => .cutOff
  | n + 1 => by
    unfold calls
    refine .accept (fun t ht => ⟨fun K => FollowsRow join .arguments
      (Next (.mark .rightParen) (Calls join K)), ⟨fun K ts h => ?_, fun K hK ts h => ?_⟩, ?_⟩)
      fun c hc h => ?_
    · obtain ⟨kind, p⟩ := t
      obtain rfl : kind = _ := ht
      obtain ⟨_, list, hlist, q, rest, rfl, hK⟩ := h
      exact .applied hlist hK
    · obtain ⟨kind, p⟩ := t
      obtain rfl : kind = _ := ht
      exact hK.calls.call h
    · refine (arguments_recognizes n).bind (fun list => .expect_bind (fun close =>
        calls_recognizes _ n) (.of_stop fun _ _ => .stop)) ?_ fun _ _ => fenced_next
      exact (Productive.next finish _).comp (.of_stop fun _ _ => .stop)
    · refine (Fits.done hc).congr ⟨fun K v => .stop, fun K _ v hv h' => ?_⟩
      cases h' with
      | stop h' => exact h'
      | applied => exact absurd ⟨_, _, rfl, by simp⟩ (mt (starts_congr hv).mp h)
termination_by structural n => n

theorem arguments_recognizes : ∀ n, Recognizes finish Fenced (FollowsRow join .arguments)
    (arguments (predictive join finish) n)
  | 0 => .cutOff
  | n + 1 => by
    unfold arguments
    have hlist := (expression_recognizes n).bind (fun first => moreArguments_recognizes [first] n)
      .moreArguments fun K hK => open_moreArguments hK
    refine fun c hc => .sees (fun h => ?_) fun h => ?_
    · refine (Fits.done hc).congr ⟨fun K v hv => followsRow_arguments.mpr (Or.inl hv), ?_⟩
      intro K _ v hv h'
      rcases followsRow_arguments.mp h' with h' | h'
      · exact h'
      · have hbegins := starts_and h'.begins ((starts_congr hv).mpr h)
        cases hbegins
    · refine (hlist c hc).congr ⟨fun K v hv => followsRow_arguments.mpr (Or.inr hv), ?_⟩
      intro K hK v hv h'
      rcases followsRow_arguments.mp h' with h' | h'
      · exact absurd ((starts_congr hv).mp (hK v h')) h
      · exact h'
termination_by structural n => n

theorem moreArguments_recognizes (done : List (Expr Place)) : ∀ n, Recognizes finish Fenced
    (FollowsRow join .moreArguments) (moreArguments (predictive join finish) done n)
  | 0 => .cutOff
  | n + 1 => by
    unfold moreArguments
    have hlist := (expression_recognizes n).bind (fun e => moreArguments_recognizes (e :: done) n)
      .moreArguments fun K hK => open_moreArguments hK
    refine .accept (fun t ht => ⟨_, ⟨fun K ts h => ?_, fun K hK ts h => ?_⟩, hlist⟩) fun c hc h => ?_
    · rw [followsRow_moreArguments, next_cons]
      exact Or.inr ⟨ht, h⟩
    · rw [followsRow_moreArguments, next_cons] at h
      rcases h with h | h
      · have hcomma : ¬ Starts (· = .mark .comma) (t :: ts) := hK.not_starts rfl h
        exact absurd (starts_cons.mpr (decide_eq_true ht)) hcomma
      · exact h.2
    · refine (Fits.done hc).congr ⟨fun K v hv => followsRow_moreArguments.mpr (Or.inl hv), ?_⟩
      intro K _ v hv h'
      rcases followsRow_moreArguments.mp h' with h' | h'
      · exact h'
      · exact absurd h' (not_next_of_not_starts (mt (starts_congr hv).mp h))
termination_by structural n => n

theorem atom_recognizes : ∀ n, Recognizes finish (Open join) (Follows join .atom)
    (atom (predictive join finish) n)
  | 0 => .cutOff
  | n + 1 => by
    unfold atom
    refine .take (fun t opening ht => ⟨fun K => opening.Rest join K,
      .of_iff fun K ts => follows_atom ht, ?_⟩) fun c hc h => ?_
    · cases opening with
      | leaf node => exact .pure _
      | parenthesis =>
        exact (expression_recognizes n).bind (fun e => (Recognizes.expect _ _).bind_pure _)
          (.next finish _) fun _ _ => open_next rfl
      | conditional => exact conditional_recognizes t.place n
      | loop => exact loop_recognizes t.place n
      | function => exact function_recognizes t.place n
    · refine .fail (.atom finish) fun K _ v hv h' => h ((starts_congr hv).mp ?_)
      exact h'.begins.mono fun kind hk => (isSome_opening? kind).trans hk
termination_by structural n => n

theorem conditional_recognizes (place : Place) : ∀ n, Recognizes finish (Open join)
    (Conditional join) (conditional (predictive join finish) place n)
  | 0 => .cutOff
  | n + 1 => by
    unfold conditional
    have hbranches (condition : Expr Place) (braces : Bool) (N : Symbol Place)
        (hN : N = if braces then .block else .expression) :
        Recognizes finish (Open join)
          (fun K => Follows join N (Next (.keyword .else_) (Follows join N K))) (do
            let thenBranch ← branch (predictive join finish) braces n
            discard <| Rule.expect finish (.keyword .else_) .elseWord
            let elseBranch ← branch (predictive join finish) braces n
            return Expr.conditional (join place elseBranch.place) condition thenBranch
              elseBranch) := by
      subst hN
      have hline : Productive (Follows join (if braces then .block else .expression)) := by
        cases braces with
        | true => exact .block finish
        | false => exact .expression finish
      have hbranch := branch_recognizes braces n
      exact hbranch.bind (fun thenBranch => .discard_expect_bind (hbranch.bind_pure _) hline)
        ((Productive.next finish _).comp hline) fun _ _ => open_next rfl
    have hproductive : Productive (Branches join) := by
      refine .mono ?_ fun K ts => Or.inr
      exact (Productive.expression finish).comp
        ((Productive.next finish _).comp (.expression finish))
    refine (operation_recognizes _ n).bind (fun condition => .discard_expect_bind (fun c hc =>
      .sees (fun h => ?_) fun h => ?_) hproductive) ((Productive.next finish _).comp hproductive)
        fun _ _ => open_next rfl
    · refine (hbranches condition true _ rfl c hc).congr ⟨fun K v => Or.inl, fun K _ v hv h' => ?_⟩
      rcases h' with h' | h'
      · exact h'
      · have hbegins := starts_and h'.begins ((starts_congr hv).mpr h)
        cases hbegins
    · refine (hbranches condition false _ rfl c hc).congr ⟨fun K v => Or.inr, fun K _ v hv h' => ?_⟩
      rcases h' with h' | h'
      · have hbegins : Starts (· = .mark .leftBrace) v := h'.begins
        exact absurd ((starts_congr hv).mp hbegins) h
      · exact h'
termination_by structural n => n

theorem branch_recognizes (braces : Bool) : ∀ n, Recognizes finish (Open join)
    (Follows join (if braces then .block else .expression))
    (branch (predictive join finish) braces n)
  | 0 => .cutOff
  | n + 1 => by
    unfold branch
    cases braces with
    | true => exact block_recognizes n
    | false => exact expression_recognizes n
termination_by structural n => n

theorem loop_recognizes (place : Place) : ∀ n, Recognizes finish (Open join)
    (fun K => Follows join (.level .comparison) (Follows join .block K))
    (loop (predictive join finish) place n)
  | 0 => .cutOff
  | n + 1 => by
    unfold loop
    exact (operation_recognizes _ n).bind (fun condition => (block_recognizes n).bind_pure _)
      (.block finish) fun _ _ => open_block
termination_by structural n => n

theorem function_recognizes (place : Place) : ∀ n, Recognizes finish (Open join)
    (fun K => FollowsSignature (Follows join .block K))
    (function (predictive join finish) place n)
  | 0 => .cutOff
  | n + 1 => by
    unfold function
    have hsignature := signature_recognizes join finish (fun _ => True) n
    exact hsignature.bind (fun _ => (block_recognizes n).bind_pure _) (.block finish) fun _ _ =>
      trivial
termination_by structural n => n

theorem block_recognizes : ∀ n, Recognizes finish (Open join) (Follows join .block)
    (block (predictive join finish) n)
  | 0 => .cutOff
  | n + 1 => by
    unfold block
    have hclose (opening : Place) (list : List (Expr Place)) :
        Recognizes finish (Open join) (Next (.mark .rightBrace)) (do
          match ← Rule.accept (.mark .rightBrace) with
          | some close => return Expr.block (join opening close) list
          | none => Rule.unexpected finish (.expected .closeBrace)) := by
      refine .accept (fun t ht => ⟨_, .of_iff fun K ts => ?_, .pure _⟩) fun c hc h => ?_
      · rw [next_cons]
        exact and_iff_right ht
      · refine .unexpected hc (.next finish _) fun K _ v hv => not_next_of_not_starts ?_
        rw [starts_congr hv]
        exact h
    have hrow := statements_recognizes n
    exact .of_iff (.expect_bind (fun opening => hrow.bind (hclose opening) (.next finish _)
      fun _ _ => closing_next) ((Productive.statements finish).comp (.next finish _)))
      fun _ _ => follows_block
termination_by structural n => n

end

end Grammar
end Cyan
