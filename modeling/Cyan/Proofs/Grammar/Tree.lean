/-
The tree a rule builds.

`Ensures rule c post` says that `post` holds of the result and the last cursor if the rule succeeds from
`c`.  A rule that succeeds has built a derivation tree of the tokens it read (`Built`), in which the
right operands, the values of assignments and the branches behind `else` reach as far as the grammar
lets them: `Recognizes` says so, since no longer part of the tokens derives from the same line.

The rule for operators meets operators of several levels in one loop.  Its invariant is `Ready`: the
expression read so far is of the level asked for, and it may be the left operand of the operator that
comes next (`Chains`).

The main statement is `statements_builds`.
-/
import Cyan.Proofs.Grammar.Recognized

namespace Cyan
namespace Grammar

open Rule (take_cases accept_cases)

variable {Place α β : Type}

/-- If the rule succeeds from `c`, then `post` holds of its result and the cursor it ends at. -/
def Ensures (rule : Rule Place α) (c : Cursor Place) (post : α → Cursor Place → Prop) : Prop :=
  ∀ a c', rule c = .done a c' → post a c'

namespace Ensures

variable {rule : Rule Place α} {c : Cursor Place} {post : β → Cursor Place → Prop}

theorem cutOff {post : α → Cursor Place → Prop} : Ensures Action.cutOff c post := fun _ _ h => nomatch h

theorem fail {finish : Place} {fault : SyntaxFault} {post : α → Cursor Place → Prop} :
    Ensures (Rule.fail finish fault) c post := fun _ _ h => nomatch h

theorem pure {a : α} {post : α → Cursor Place → Prop} (h : post a c) :
    Ensures (Pure.pure a) c post := by
  intro b c' hb
  cases hb
  exact h

theorem bind {mid : α → Cursor Place → Prop} {f : α → Rule Place β} (h : Ensures rule c mid)
    (hf : ∀ a c', mid a c' → Ensures (f a) c' post) : Ensures (rule >>= f) c post := by
  intro b c' hb
  rw [Action.bind_apply, Action.andThen] at hb
  cases hr : rule c with
  | done a d =>
    rw [hr] at hb
    exact hf a d (h a d hr) b c' hb
  | failed e d =>
    rw [hr] at hb
    cases hb
  | unfinished =>
    rw [hr] at hb
    cases hb

theorem take {read? : Token.Kind → Option α} {f : Option (Place × α) → Rule Place β}
    (hc : c.failure? = none)
    (hsome : ∀ t a d, d.failure? = none → read? t.kind = some a → c.ahead = t :: d.ahead →
      Ensures (f (some (t.place, a))) d post)
    (hnone : ¬ Starts (fun kind => (read? kind).isSome) c.ahead → Ensures (f none) c post) :
    Ensures (Rule.take read? >>= f) c post := by
  intro b c' hb
  rw [Action.bind_apply, Action.andThen] at hb
  rcases take_cases read? c with ⟨t, rest, a, hahead, ha, h⟩ | ⟨hread, h⟩
  · rw [h, Cursor.next_of_ahead hahead] at hb
    exact hsome t a ⟨rest, c.behind + 1, c.failure?⟩ hc ha hahead b c' hb
  · rw [h] at hb
    exact hnone hread b c' hb

theorem accept {kind : Token.Kind} {f : Option Place → Rule Place β} (hc : c.failure? = none)
    (hsome : ∀ p d, d.failure? = none → c.ahead = ⟨kind, p⟩ :: d.ahead →
      Ensures (f (some p)) d post)
    (hnone : Ensures (f none) c post) : Ensures (Rule.accept kind >>= f) c post := by
  intro b c' hb
  rw [Action.bind_apply, Action.andThen] at hb
  rcases accept_cases kind c with ⟨t, rest, hahead, rfl, h⟩ | ⟨-, h⟩
  · rw [h, Cursor.next_of_ahead hahead] at hb
    exact hsome t.place ⟨rest, c.behind + 1, c.failure?⟩ hc hahead b c' hb
  · rw [h] at hb
    exact hnone b c' hb

theorem acceptIdentifier {f : Option String → Rule Place β} (hc : c.failure? = none)
    (hsome : ∀ name p d, d.failure? = none → c.ahead = ⟨.identifier name, p⟩ :: d.ahead →
      Ensures (f (some name)) d post)
    (hnone : Ensures (f none) c post) : Ensures (Rule.acceptIdentifier >>= f) c post := by
  rw [Rule.acceptIdentifier, bind_assoc]
  simp only [pure_bind]
  refine take hc (fun t name d hd ht hahead => ?_) fun _ => hnone
  obtain ⟨kind, p⟩ := t
  cases kind <;> cases ht
  exact hsome name p d hd hahead

theorem expect {finish : Place} {kind : Token.Kind} {what : Expectation} {f : Place → Rule Place β}
    (hc : c.failure? = none)
    (hf : ∀ p d, d.failure? = none → c.ahead = ⟨kind, p⟩ :: d.ahead → Ensures (f p) d post) :
    Ensures (Rule.expect finish kind what >>= f) c post := by
  rw [Rule.expect, bind_assoc]
  refine accept hc (fun p d hd hahead => ?_) fun b c' hb => nomatch hb
  rw [pure_bind]
  exact hf p d hd hahead

theorem discard_expect {finish : Place} {kind : Token.Kind} {what : Expectation}
    {f : PUnit → Rule Place β} (hc : c.failure? = none)
    (hf : ∀ p d, d.failure? = none → c.ahead = ⟨kind, p⟩ :: d.ahead → Ensures (f ⟨⟩) d post) :
    Ensures (Functor.discard (Rule.expect finish kind what) >>= f) c post := by
  have heq : Functor.discard (Rule.expect finish kind what) >>= f =
      Rule.expect finish kind what >>= fun _ => f ⟨⟩ := by
    show (Rule.expect finish kind what >>= fun _ => Pure.pure ⟨⟩) >>= f = _
    rw [bind_assoc]
    simp only [pure_bind]
  rw [heq]
  exact expect hc hf

theorem identifier {g : Setting Place} {f : String → Rule Place β} (hc : c.failure? = none)
    (hf : ∀ name p d, d.failure? = none → c.ahead = ⟨.identifier name, p⟩ :: d.ahead →
      Ensures (f name) d post) : Ensures (identifier g >>= f) c post := by
  rw [Grammar.identifier, bind_assoc]
  refine acceptIdentifier hc (fun name p d hd hahead => ?_) fun b c' hb => nomatch hb
  rw [pure_bind]
  exact hf name p d hd hahead

theorem foresee {rule : Rule Place α} {f : Option α → Rule Place β}
    (hsome : Ensures (rule >>= fun a => f (some a)) c post) (hnone : Ensures (f none) c post) :
    Ensures (Rule.foresee rule >>= f) c post := by
  intro b c' hb
  by_cases h : Starts beginsStatement c.ahead
  · rw [foresee_bind_of_starts h] at hb
    exact hsome b c' hb
  · rw [foresee_bind_of_not_starts h] at hb
    exact hnone b c' hb

theorem sees {kind : Token.Kind} {f : Bool → Rule Place β}
    (hf : ∀ more, Ensures (f more) c post) : Ensures (Rule.sees kind >>= f) c post := by
  intro b c' hb
  exact hf _ b c' hb

theorem unexpected {finish : Place} {fault : SyntaxFault} {post : α → Cursor Place → Prop} :
    Ensures (Rule.unexpected finish fault) c post := by
  intro a c' h
  rw [Rule.unexpected] at h
  split at h
  · split at h <;> cases h
  · cases h

end Ensures

/-! ## The farthest end -/

variable {join : Place → Place → Place} {finish : Place} {ts rest : List (Token Place)}

theorem Fits.farthest {N : Symbol Place} {a : α} {c : Cursor Place}
    (h : Fits finish (Open join) (Follows join N) ts (.done a c)) :
    Farthest join N ts c.ahead := by
  intro e rest' hrest'
  obtain ⟨-, u, rfl, hu⟩ := h
  obtain ⟨ts', ⟨u', hts, rfl⟩, hnil⟩ := hrest'.relocate []
  rcases List.append_eq_append_iff.mp hts with ⟨v, rfl, hv⟩ | ⟨w, rfl, rfl⟩
  · -- The longer part goes on with the tokens of `v`, of which nothing can be left over.
    cases v with
    | nil =>
      rw [hv]
      exact Nat.le_refl _
    | cons t v =>
      have hends : Follows join N (· = []) (u ++ t :: v) := ⟨[], e, by simpa using hnil, rfl⟩
      have hhead : (t :: v).head? = c.ahead.head? := by
        rw [hv]
        rfl
      have hopen : Open join ((· = []) : Ahead Place) := open_of_head fun t ts h => nomatch h
      cases hu.complete _ hopen _ hhead hends
  · rw [List.length_append]
    omega

/-- What a rule for the line `N` leaves behind: a derivation tree of the tokens it read, which end as
far to the right as the grammar lets them. -/
structure Built (join : Place → Place → Place) (N : Symbol Place) (ts : List (Token Place))
    (e : Expr Place) (c : Cursor Place) : Prop where
  clear : c.failure? = none
  derives : Derives join (Farthest join) N ts c.ahead e
  farthest : Farthest join N ts c.ahead

theorem Recognizes.built {N : Symbol Place} {rule : Rule Place (Expr Place)} {c : Cursor Place}
    (hrule : Recognizes finish (Open join) (Follows join N) rule) (hc : c.failure? = none)
    (h : Ensures rule c fun e d => Derives join (Farthest join) N c.ahead d.ahead e) :
    Ensures rule c (Built join N c.ahead) := by
  intro e d hd
  have hfits := hrule c hc
  rw [hd] at hfits
  exact ⟨hfits.1, h e d hd, hfits.farthest⟩

/-! ## Operators of several levels -/

/-- Behind `left`, operators of level `m` may be read, and the whole is of that level. -/
def Chains (join : Place → Place → Place) (m : Level) (left : Expr Place)
    (ts rest : List (Token Place)) : Prop :=
  ∀ rest' e, Derives join (Farthest join) (.operators m left) rest rest' e →
    Derives join (Farthest join) (.level m) ts rest' e

/-- What has been read of an expression of level `l` is one, and may be the left operand of the operator
that comes next. -/
structure Ready (join : Place → Place → Place) (l : Level) (left : Expr Place)
    (ts rest : List (Token Place)) : Prop where
  level : Derives join (Farthest join) (.level l) ts rest left
  chains : ∀ t mid op, rest = t :: mid → infixFor? l t.kind = some op →
    Chains join op.level left ts rest

/-- The next token is no operator that may stand in an expression of level `l`. -/
def Ended (l : Level) (rest : List (Token Place)) : Prop :=
  ¬ Starts (fun kind => (infixFor? l kind).isSome) rest

/-- What is of a tighter level may be a left operand. -/
theorem Derives.chains {m m' : Level} {left : Expr Place} (hm : m.strength < m'.strength)
    (h : Derives join (Farthest join) (.level m') ts rest left) : Chains join m left ts rest := by
  intro rest' e hoperators
  have hpower : m ≠ .power := by
    intro hm'
    subst hm'
    cases m' <;> simp only [Level.strength] at hm <;> omega
  obtain ⟨l, hl, hstrength⟩ := exists_nextLine Place hpower
  refine .chain ?_ hoperators
  rw [hl]
  exact h.loosen (by omega)

theorem Derives.chains_of_call {m : Level} {left : Expr Place}
    (h : Derives join (Farthest join) .call ts rest left) : Chains join m left ts rest := by
  intro rest' e hoperators
  refine .chain ?_ hoperators
  cases m with
  | power => exact h
  | logic | comparison | arithmetic | term | factor => exact h.level_of_call _

theorem Ended.strength_lt {l : Level} {t : Token Place} {mid : List (Token Place)} {op : BinaryOp}
    (h : Ended l (t :: mid)) (hop : BinaryOp.ofKind? t.kind = some op) :
    op.level.strength < l.strength := by
  by_contra hlt
  refine h (starts_of_some (infixFor?_eq_some.mpr ⟨hop, fits_iff.mpr ?_⟩))
  omega

/-- An operator and its right operand have been read behind `left`. -/
theorem Ready.operator {l : Level} {left right : Expr Place} {t : Token Place} {op : BinaryOp}
    {mid : List (Token Place)} (h : Ready join l left ts (t :: mid))
    (hop : infixFor? l t.kind = some op)
    (hright : Derives join (Farthest join) (.level op.operandLevel) mid rest right)
    (hfarthest : Farthest join (.level op.operandLevel) mid rest)
    (hended : Ended op.operandLevel rest) :
    Ready join l (.binary (join left.place right.place) op left right) ts rest := by
  have hkind := (infixFor?_eq_some.mp hop).1
  have hfits := fits_iff.mp (infixFor?_eq_some.mp hop).2
  have hchains : Chains join op.level (.binary (join left.place right.place) op left right) ts rest :=
    fun rest' e hoperators => h.chains t mid op rfl hop rest' e
      (.operator hkind rfl hright hfarthest hoperators)
  have hlevel := hchains rest _ .noOperator
  refine ⟨hlevel.loosen hfits, fun t' mid' op' hrest hop' => ?_⟩
  subst hrest
  have hlt := hended.strength_lt (infixFor?_eq_some.mp hop').1
  have hle := strength_operandLevel_le (rfl : op.level = op.level)
  by_cases heq : op'.level = op.level
  · rw [heq]
    exact hchains
  · have hne : op'.level.strength ≠ op.level.strength := fun h =>
      heq (Level.strength_injective h)
    exact hlevel.chains (by omega)

/-! ## The rules -/

theorem derives_leaf {ok : Symbol Place → List (Token Place) → List (Token Place) → Prop}
    {t : Token Place} {node : Place → Expr Place} (h : opening? t.kind = some (.leaf node)) :
    Derives join ok .atom (t :: rest) rest (node t.place) := by
  obtain ⟨kind, p⟩ := t
  cases kind with
  | int => cases h; exact .int
  | float => cases h; exact .float
  | string => cases h; exact .string
  | identifier => cases h; exact .reference
  | literal => cases h; exact .literal
  | mark m => cases m <;> cases h
  | keyword word => cases word <;> cases h

/-- The token of an opening that is no atom by itself. -/
theorem kind_of_opening {kind : Token.Kind} {opening : Opening Place}
    (h : opening? kind = some opening) :
    match opening with
    | .leaf _ => True
    | .parenthesis => kind = .mark .leftParen
    | .conditional => kind = .keyword .if_
    | .loop => kind = .keyword .while_
    | .function => kind = .keyword .fun_ := by
  cases kind with
  | int | float | string | identifier | literal => cases h; trivial
  | mark m => cases m <;> cases h; rfl
  | keyword word => cases word <;> cases h <;> rfl

theorem separators_dropWhile (ts : List (Token Place)) :
    Separators ts (ts.dropWhile (·.kind.isSeparator)) := by
  induction ts with
  | nil => exact .none
  | cons t ts ih =>
    rw [List.dropWhile_cons]
    by_cases ht : t.kind.isSeparator
    · rw [if_pos ht]
      exact .more ht ih
    · rw [if_neg ht]
      exact .none

variable (join finish)

theorem parameters_builds : ∀ n names c, c.failure? = none →
    Ensures (parameters (predictive join finish) names n) c fun list d =>
      d.failure? = none ∧ ∃ more, list = names.reverse ++ more ∧ MoreParameters c.ahead d.ahead more
  | 0, _, _, _ => .cutOff
  | n + 1, names, c, hc => by
    unfold parameters
    refine .accept hc (fun p d hd hahead => ?_) (.pure ⟨hc, [], by simp, .none⟩)
    refine .acceptIdentifier hd (fun name q d' hd' hahead' => ?_) (.sees fun more => ?_)
    · intro list e hlist
      obtain ⟨he, more, hmore, h⟩ := parameters_builds n (name :: names) d' hd' list e hlist
      refine ⟨he, name :: more, by simpa using hmore, ?_⟩
      rw [hahead, hahead']
      exact .more h
    · cases more with
      | true => exact .pure ⟨hd, [], by simp, hahead ▸ .comma⟩
      | false => exact .fail

theorem signature_builds (n : Nat) (c : Cursor Place) (hc : c.failure? = none) :
    Ensures (signature (predictive join finish) n) c fun head d =>
      d.failure? = none ∧ Signature c.ahead d.ahead head := by
  have hlist (name? : Option String) (what : Expectation) (c : Cursor Place)
      (hc : c.failure? = none) : Ensures (do
        discard <| Rule.expect finish (.mark .leftParen) what
        let names ←
          if ← Rule.sees (.mark .rightParen) then pure []
          else do parameters (predictive join finish) [← identifier (predictive join finish)] n
        discard <| Rule.expect finish (.mark .rightParen) .commaOrCloseParen
        return (name?, names)) c fun head d =>
          d.failure? = none ∧ head.1 = name? ∧ Parameters c.ahead d.ahead head.2 := by
    refine .discard_expect hc fun p d hd hahead => .sees fun more => ?_
    cases more with
    | true =>
      refine .discard_expect hd fun q d₁ hd₁ hahead₁ => .pure ⟨hd₁, rfl, ?_⟩
      rw [hahead, hahead₁]
      exact .none
    | false =>
      refine .identifier hd fun name q d₁ hd₁ hahead₁ => ?_
      refine .bind (parameters_builds join finish n [name] d₁ hd₁) fun names d₂ h => ?_
      obtain ⟨hd₂, more, rfl, hmore⟩ := h
      refine .discard_expect hd₂ fun r d₃ hd₃ hahead₃ => .pure ⟨hd₃, rfl, ?_⟩
      rw [hahead, hahead₁]
      rw [hahead₃] at hmore
      exact .some hmore
  unfold signature
  refine .acceptIdentifier hc (fun name p d hd hahead => ?_) ?_
  · intro head e h
    obtain ⟨he, hname, hparameters⟩ := hlist (some name) _ d hd head e h
    obtain ⟨name?, names⟩ := head
    obtain rfl : name? = some name := hname
    refine ⟨he, ?_⟩
    rw [hahead]
    exact .named hparameters
  · intro head e h
    obtain ⟨he, hname, hparameters⟩ := hlist none _ c hc head e h
    obtain ⟨name?, names⟩ := head
    obtain rfl : name? = none := hname
    exact ⟨he, .anonymous hparameters⟩

/-- What a rule for a row leaves behind: a derivation of the tokens it read, to what it has put behind
the expressions it was given in reverse order. -/
structure BuiltRow (join : Place → Place → Place) (N : Row) (done : List (Expr Place))
    (ts : List (Token Place)) (list : List (Expr Place)) (c : Cursor Place) : Prop where
  clear : c.failure? = none
  derives : ∃ more, list = done.reverse ++ more ∧ DerivesRow join (Farthest join) N ts c.ahead more

mutual

theorem statements_builds : ∀ n c, c.failure? = none →
    Ensures (statements (predictive join finish) n) c (BuiltRow join .statements [] c.ahead)
  | 0, _, _ => .cutOff
  | n + 1, c, hc => by
    unfold statements
    have hskip : Ensures (discard Rule.skipSeparators) c fun _ d =>
        d.failure? = none ∧ Separators c.ahead d.ahead := by
      intro a d h
      cases h
      exact ⟨hc, separators_dropWhile c.ahead⟩
    refine .bind hskip fun _ d ⟨hd, hsep⟩ => ?_
    refine .bind (statement_builds n d hd) fun first d' hfirst => ?_
    intro list e h
    obtain ⟨he, more, rfl, hmore⟩ := moreStatements_builds n [first] d' hfirst.clear list e h
    exact ⟨he, first :: more, rfl, .statements hsep hfirst.derives hmore⟩
termination_by structural n => n

theorem moreStatements_builds : ∀ n done c, c.failure? = none →
    Ensures (moreStatements (predictive join finish) done n) c
      (BuiltRow join .moreStatements done c.ahead)
  | 0, _, _, _ => .cutOff
  | n + 1, done, c, hc => by
    unfold moreStatements
    intro list e h
    rw [Action.bind_apply, Action.andThen] at h
    rcases skipSeparators_cases c with ⟨t, rest, hahead, ht, hpast, hskip⟩ | ⟨-, hskip⟩
    · rw [hskip] at h
      have hsep : Separators rest c.pastSeparators.ahead := by
        rw [hpast]
        exact separators_dropWhile rest
      have honward : Ensures (do
          match ← Rule.foresee (statement (predictive join finish) n) with
          | some e => moreStatements (predictive join finish) (e :: done) n
          | none => return done.reverse) c.pastSeparators
          (BuiltRow join .moreStatements done (t :: rest)) := by
        refine .foresee (.bind (statement_builds n c.pastSeparators hc) fun next d hnext => ?_)
          (.pure ⟨hc, [], by simp, .noStatement (.more ht hsep)⟩)
        intro list e h
        obtain ⟨he, more, rfl, hmore⟩ := moreStatements_builds n (next :: done) d hnext.clear list e h
        exact ⟨he, next :: more, by simp, .nextStatement ht hsep hnext.derives hmore⟩
      rw [hahead]
      exact honward list e h
    · rw [hskip] at h
      cases h
      exact ⟨hc, [], by simp, .noStatement .none⟩
termination_by structural n => n

theorem statement_builds : ∀ n c, c.failure? = none →
    Ensures (statement (predictive join finish) n) c (Built join .statement c.ahead)
  | 0, _, _ => .cutOff
  | n + 1, c, hc => by
    refine (statement_recognizes join finish (n + 1)).built hc ?_
    unfold statement
    refine .accept hc (fun p d _ hahead => .pure ?_) ?_
    · rw [hahead]
      exact .pass
    · intro e d h
      exact .statement (expression_builds n c hc e d h).derives
termination_by structural n => n

theorem expression_builds : ∀ n c, c.failure? = none →
    Ensures (expression (predictive join finish) n) c (Built join .expression c.ahead)
  | 0, _, _ => .cutOff
  | n + 1, c, hc => by
    refine (expression_recognizes join finish (n + 1)).built hc ?_
    unfold expression
    refine .accept hc (fun p d hd hahead => ?_) ?_
    · refine .identifier hd fun name q d₁ hd₁ hahead₁ => ?_
      refine .discard_expect hd₁ fun r d₂ hd₂ hahead₂ => ?_
      refine .bind (expression_builds n d₂ hd₂) fun value d₃ hvalue => .pure ?_
      rw [hahead, hahead₁, hahead₂]
      exact .assign hvalue.derives hvalue.farthest
    · intro e d h
      exact .expression (operation_builds .logic n c hc e d h).1.derives
termination_by structural n => n

theorem operation_builds (l : Level) : ∀ n c, c.failure? = none →
    Ensures (operation (predictive join finish) l n) c fun e d =>
      Built join (.level l) c.ahead e d ∧ Ended l d.ahead
  | 0, _, _ => .cutOff
  | n + 1, c, hc => by
    have hread : Ensures (operation (predictive join finish) l (n + 1)) c fun e d =>
        Derives join (Farthest join) (.level l) c.ahead d.ahead e ∧ Ended l d.ahead := by
      unfold operation
      refine .bind (operand_builds l n c hc) fun first d ⟨hd, hready⟩ => ?_
      intro e d' h
      exact (operators_builds l n first c.ahead d hd hready e d' h).2
    intro e d h
    exact ⟨(operation_recognizes join finish l (n + 1)).built hc
      (fun e d h => (hread e d h).1) e d h, (hread e d h).2⟩
termination_by structural n => n

theorem operators_builds (l : Level) : ∀ n left ts c, c.failure? = none →
    Ready join l left ts c.ahead →
    Ensures (operators (predictive join finish) l left n) c fun e d =>
      d.failure? = none ∧ Derives join (Farthest join) (.level l) ts d.ahead e ∧ Ended l d.ahead
  | 0, _, _, _, _, _ => .cutOff
  | n + 1, left, ts, c, hc, hready => by
    unfold operators
    refine .take hc (fun t op d hd hop hahead => ?_) fun h => .pure ⟨hc, hready.level, h⟩
    refine .bind (operation_builds _ n d hd) fun right d' ⟨hright, hended⟩ => ?_
    rw [hahead] at hready
    exact operators_builds l n _ ts d' hright.clear
      (hready.operator hop hright.derives hright.farthest hended)
termination_by structural n => n

theorem operand_builds (l : Level) : ∀ n c, c.failure? = none →
    Ensures (operand (predictive join finish) l n) c fun e d =>
      d.failure? = none ∧ Ready join l e c.ahead d.ahead
  | 0, _, _ => .cutOff
  | n + 1, c, hc => by
    unfold operand
    refine .take hc (fun t op d hd hop hahead => ?_) fun _ => ?_
    · refine .bind (operation_builds _ n d hd) fun inner d' ⟨hinner, hended⟩ => .pure ?_
      have hop' := prefixFor?_eq_some.mp hop
      have hsigned := Derives.signed hop'.1 rfl hinner.derives
      rw [hahead]
      refine ⟨hinner.clear, hsigned.loosen hop'.2, fun t' mid op' hrest h => ?_⟩
      rw [hrest] at hended
      exact hsigned.chains (hended.strength_lt (infixFor?_eq_some.mp h).1)
    · intro e d h
      have hcall := call_builds n c hc e d h
      exact ⟨hcall.clear, hcall.derives.level_of_call l, fun _ _ _ _ _ => hcall.derives.chains_of_call⟩
termination_by structural n => n

theorem call_builds : ∀ n c, c.failure? = none →
    Ensures (call (predictive join finish) n) c (Built join .call c.ahead)
  | 0, _, _ => .cutOff
  | n + 1, c, hc => by
    refine (call_recognizes join finish (n + 1)).built hc ?_
    unfold call
    refine .bind (atom_builds n c hc) fun callee d hcallee => ?_
    intro e d' h
    exact .call hcallee.derives (calls_builds n callee d hcallee.clear e d' h).2
termination_by structural n => n

theorem calls_builds : ∀ n callee c, c.failure? = none →
    Ensures (calls (predictive join finish) callee n) c fun e d =>
      d.failure? = none ∧ Derives join (Farthest join) (.calls callee) c.ahead d.ahead e
  | 0, _, _, _ => .cutOff
  | n + 1, callee, c, hc => by
    unfold calls
    refine .accept hc (fun p d hd hahead => ?_) (.pure ⟨hc, .noArguments⟩)
    refine .bind (arguments_builds n d hd) fun list d₁ hlist => ?_
    obtain ⟨hd₁, more, rfl, hmore⟩ := hlist
    refine .expect hd₁ fun q d₂ hd₂ hahead₂ => ?_
    intro e d₃ h
    obtain ⟨hd₃, hcalls⟩ := calls_builds n _ d₂ hd₂ e d₃ h
    rw [hahead]
    rw [hahead₂] at hmore
    exact ⟨hd₃, .applied hmore hcalls⟩
termination_by structural n => n

theorem arguments_builds : ∀ n c, c.failure? = none →
    Ensures (arguments (predictive join finish) n) c (BuiltRow join .arguments [] c.ahead)
  | 0, _, _ => .cutOff
  | n + 1, c, hc => by
    unfold arguments
    refine .sees fun more => ?_
    cases more with
    | true => exact .pure ⟨hc, [], rfl, .empty⟩
    | false =>
      refine .bind (expression_builds n c hc) fun first d hfirst => ?_
      intro list e h
      obtain ⟨he, more, rfl, hmore⟩ := moreArguments_builds n [first] d hfirst.clear list e h
      exact ⟨he, first :: more, rfl, .arguments hfirst.derives hmore⟩
termination_by structural n => n

theorem moreArguments_builds : ∀ n done c, c.failure? = none →
    Ensures (moreArguments (predictive join finish) done n) c
      (BuiltRow join .moreArguments done c.ahead)
  | 0, _, _, _ => .cutOff
  | n + 1, done, c, hc => by
    unfold moreArguments
    refine .accept hc (fun p d hd hahead => ?_) (.pure ⟨hc, [], by simp, .noArgument⟩)
    refine .bind (expression_builds n d hd) fun next d' hnext => ?_
    intro list e h
    obtain ⟨he, more, rfl, hmore⟩ := moreArguments_builds n (next :: done) d' hnext.clear list e h
    refine ⟨he, next :: more, by simp, ?_⟩
    rw [hahead]
    exact .nextArgument hnext.derives hmore
termination_by structural n => n

theorem atom_builds : ∀ n c, c.failure? = none →
    Ensures (atom (predictive join finish) n) c (Built join .atom c.ahead)
  | 0, _, _ => .cutOff
  | n + 1, c, hc => by
    refine (atom_recognizes join finish (n + 1)).built hc ?_
    unfold atom
    refine .take hc (fun t opening d hd ht hahead => ?_) fun _ => .fail
    rw [hahead]
    cases opening with
    | leaf node => exact .pure (derives_leaf ht)
    | parenthesis =>
      obtain ⟨kind, p⟩ := t
      obtain rfl : kind = _ := kind_of_opening ht
      refine .bind (expression_builds n d hd) fun e d₁ he => ?_
      refine .expect he.clear fun q d₂ _ hahead₂ => .pure ?_
      have he := he.derives
      rw [hahead₂] at he
      exact .parenthesis he
    | conditional =>
      obtain ⟨kind, p⟩ := t
      obtain rfl : kind = _ := kind_of_opening ht
      exact conditional_builds p n d hd
    | loop =>
      obtain ⟨kind, p⟩ := t
      obtain rfl : kind = _ := kind_of_opening ht
      exact loop_builds p n d hd
    | function =>
      obtain ⟨kind, p⟩ := t
      obtain rfl : kind = _ := kind_of_opening ht
      exact function_builds p n d hd
termination_by structural n => n

theorem conditional_builds (place : Place) : ∀ n c, c.failure? = none →
    Ensures (conditional (predictive join finish) place n) c fun e d =>
      Derives join (Farthest join) .atom (⟨.keyword .if_, place⟩ :: c.ahead) d.ahead e
  | 0, _, _ => .cutOff
  | n + 1, c, hc => by
    unfold conditional
    refine .bind (operation_builds .comparison n c hc) fun condition d ⟨hcondition, _⟩ => ?_
    refine .discard_expect hcondition.clear fun q d₁ hd₁ hahead₁ => .sees fun braces => ?_
    refine .bind (branch_builds braces n d₁ hd₁) fun thenBranch d₂ hthen => ?_
    refine .discard_expect hthen.clear fun r d₃ hd₃ hahead₃ => ?_
    refine .bind (branch_builds braces n d₃ hd₃) fun elseBranch d₄ helse => .pure ?_
    have hcondition := hcondition.derives
    have hthen := hthen.derives
    rw [hahead₁] at hcondition
    rw [hahead₃] at hthen
    cases braces with
    | true => exact .blocks hcondition hthen helse.derives
    | false => exact .branches hcondition hthen helse.derives helse.farthest
termination_by structural n => n

theorem branch_builds (braces : Bool) : ∀ n c, c.failure? = none →
    Ensures (branch (predictive join finish) braces n) c
      (Built join (if braces then .block else .expression) c.ahead)
  | 0, _, _ => .cutOff
  | n + 1, c, hc => by
    unfold branch
    cases braces with
    | true => exact block_builds n c hc
    | false => exact expression_builds n c hc
termination_by structural n => n

theorem loop_builds (place : Place) : ∀ n c, c.failure? = none →
    Ensures (loop (predictive join finish) place n) c fun e d =>
      Derives join (Farthest join) .atom (⟨.keyword .while_, place⟩ :: c.ahead) d.ahead e
  | 0, _, _ => .cutOff
  | n + 1, c, hc => by
    unfold loop
    refine .bind (operation_builds .comparison n c hc) fun condition d ⟨hcondition, _⟩ => ?_
    refine .bind (block_builds n d hcondition.clear) fun body d' hbody => .pure ?_
    exact .loop hcondition.derives hbody.derives
termination_by structural n => n

theorem function_builds (place : Place) : ∀ n c, c.failure? = none →
    Ensures (function (predictive join finish) place n) c fun e d =>
      Derives join (Farthest join) .atom (⟨.keyword .fun_, place⟩ :: c.ahead) d.ahead e
  | 0, _, _ => .cutOff
  | n + 1, c, hc => by
    unfold function
    refine .bind (signature_builds join finish n c hc) fun head d ⟨hd, hsignature⟩ => ?_
    refine .bind (block_builds n d hd) fun body d' hbody => .pure ?_
    exact .function hsignature hbody.derives
termination_by structural n => n

theorem block_builds : ∀ n c, c.failure? = none →
    Ensures (block (predictive join finish) n) c (Built join .block c.ahead)
  | 0, _, _ => .cutOff
  | n + 1, c, hc => by
    refine (block_recognizes join finish (n + 1)).built hc ?_
    unfold block
    refine .expect hc fun p d hd hahead => ?_
    refine .bind (statements_builds n d hd) fun list d₁ hlist => ?_
    obtain ⟨hd₁, more, rfl, hmore⟩ := hlist
    refine .accept hd₁ (fun q d₂ _ hahead₂ => .pure ?_) .unexpected
    rw [hahead]
    rw [hahead₂] at hmore
    exact .block hmore
termination_by structural n => n

end

end Grammar
end Cyan
