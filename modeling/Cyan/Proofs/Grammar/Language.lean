/-
The lines of the grammar as languages.

`Follows join N K` holds of the tokens that begin with some that derive from `N` and go on with tokens
of which `K` holds.  Read in this way a line of the grammar is an equation between such predicates, in
which no expression occurs.  The equations are given in the form in which the rules use them: what is
left of a line behind a first token of each kind.

Two of them ask something of what follows.  Behind a row of statements there has to be a closing brace
or nothing (`Closing`), and behind a row of arguments a closing parenthesis (`Fenced`): otherwise what
belongs to the row and what follows it could not be told apart.
-/
import Cyan.Proofs.Grammar.Derivation

namespace Cyan
namespace Grammar

variable {Place : Type}

/-- A condition on the tokens ahead. -/
abbrev Ahead (Place : Type) := List (Token Place) → Prop

/-- A token of a given kind, and then `K`. -/
def Next (kind : Token.Kind) (K : Ahead Place) : Ahead Place := fun ts =>
  ∃ p rest, ts = ⟨kind, p⟩ :: rest ∧ K rest

/-- A name, and then `K`. -/
def NextName (K : Ahead Place) : Ahead Place := fun ts =>
  ∃ name, Next (.identifier name) K ts

/-- Separators, and then `K`. -/
def Gaps (K : Ahead Place) : Ahead Place := fun ts => ∃ rest, Separators ts rest ∧ K rest

/-- What stands between the first of some parameters and the parenthesis behind them, and then `K`. -/
def FollowsMoreParameters (K : Ahead Place) : Ahead Place := fun ts =>
  ∃ rest names, MoreParameters ts rest names ∧ K rest

/-- Parameters in parentheses, and then `K`. -/
def FollowsParameters (K : Ahead Place) : Ahead Place := fun ts =>
  ∃ rest names, Parameters ts rest names ∧ K rest

/-- What stands behind the parenthesis that opens parameters, and then `K`. -/
def ClosesParameters (K : Ahead Place) : Ahead Place := fun ts =>
  Next (.mark .rightParen) K ts ∨ NextName (FollowsMoreParameters (Next (.mark .rightParen) K)) ts

/-- The signature of a function, and then `K`. -/
def FollowsSignature (K : Ahead Place) : Ahead Place := fun ts =>
  ∃ rest head, Signature ts rest head ∧ K rest

section

variable (join : Place → Place → Place)

/-- Tokens that derive from `N`, and then `K`. -/
def Follows (N : Symbol Place) (K : Ahead Place) : Ahead Place := fun ts =>
  ∃ rest e, Derives join anyhow N ts rest e ∧ K rest

/-- Tokens that derive from a line for a row, and then `K`. -/
def FollowsRow (N : Row) (K : Ahead Place) : Ahead Place := fun ts =>
  ∃ rest list, DerivesRow join anyhow N ts rest list ∧ K rest

end

variable {join : Place → Place → Place} {K K' : Ahead Place} {ts rest : List (Token Place)}
  {t : Token Place}

@[simp] theorem next_cons {kind : Token.Kind} : Next kind K (t :: ts) ↔ t.kind = kind ∧ K ts := by
  constructor
  · intro h
    obtain ⟨p, rest, ht, hK⟩ := h
    cases ht
    exact ⟨rfl, hK⟩
  · intro h
    obtain ⟨rfl, hK⟩ := h
    exact ⟨t.place, ts, rfl, hK⟩

@[simp] theorem not_next_nil {kind : Token.Kind} : ¬ Next kind K [] := by
  intro h
  obtain ⟨_, _, h, _⟩ := h
  cases h

@[simp] theorem nextName_cons : NextName K (t :: ts) ↔ (∃ name, t.kind = .identifier name) ∧ K ts := by
  simp [NextName]

theorem Follows.mono (h : ∀ ts, K ts → K' ts) {N : Symbol Place} (hN : Follows join N K ts) :
    Follows join N K' ts := by
  obtain ⟨rest, e, hN, hK⟩ := hN
  exact ⟨rest, e, hN, h rest hK⟩

theorem FollowsRow.mono (h : ∀ ts, K ts → K' ts) {N : Row} (hN : FollowsRow join N K ts) :
    FollowsRow join N K' ts := by
  obtain ⟨rest, list, hN, hK⟩ := hN
  exact ⟨rest, list, hN, h rest hK⟩

/-! ## How a line begins -/

/-- A token of which `p` holds, and then anything. -/
def Starts (p : Token.Kind → Bool) : Ahead Place := fun ts => ∃ t rest, ts = t :: rest ∧ p t.kind

theorem Starts.mono {p q : Token.Kind → Bool} (h : ∀ kind, p kind → q kind) (hts : Starts p ts) :
    Starts q ts := by
  obtain ⟨t, rest, rfl, ht⟩ := hts
  exact ⟨t, rest, rfl, h _ ht⟩

theorem starts_of_some {α : Type} {read? : Token.Kind → Option α} {t : Token Place} {a : α}
    (h : read? t.kind = some a) : Starts (fun kind => (read? kind).isSome) (t :: ts) :=
  ⟨t, ts, rfl, Option.isSome_iff_exists.mpr ⟨a, h⟩⟩

theorem starts_cons {p : Token.Kind → Bool} {t : Token Place} : Starts p (t :: ts) ↔ p t.kind := by
  constructor
  · intro h
    obtain ⟨_, _, ht, h⟩ := h
    cases ht
    exact h
  · exact fun h => ⟨t, ts, rfl, h⟩

theorem not_starts_nil {p : Token.Kind → Bool} : ¬ Starts p ([] : List (Token Place)) := by
  intro h
  obtain ⟨_, _, h, _⟩ := h
  cases h

theorem not_starts_dropWhile (ts : List (Token Place)) :
    ¬ Starts (·.isSeparator) (ts.dropWhile (·.kind.isSeparator)) := by
  intro ⟨t, rest, h, ht⟩
  have hhead := ts.head?_dropWhile_not (·.kind.isSeparator)
  rw [h, List.head?_cons] at hhead
  simp only [ht] at hhead
  cases hhead

/-- The tokens that begin an atom. -/
def beginsAtom : Token.Kind → Bool
  | .int _ | .float _ | .string _ | .identifier _ | .literal _ | .mark .leftParen
  | .keyword .if_ | .keyword .while_ | .keyword .fun_ => true
  | _ => false

/-- The tokens that begin an operand: prefix operators, and those that begin an atom. -/
def beginsOperand (kind : Token.Kind) : Bool := (prefixOp? kind).isSome || beginsAtom kind

/-- The tokens that begin an expression. -/
def beginsExpression (kind : Token.Kind) : Bool := kind = .keyword .let_ || beginsOperand kind

/-- The tokens that begin a statement. -/
def beginsStatement (kind : Token.Kind) : Bool := kind = .keyword .pass || beginsExpression kind

theorem isSome_opening? (kind : Token.Kind) :
    (opening? kind : Option (Opening Place)).isSome = beginsAtom kind := by
  cases kind with
  | mark m => cases m <;> rfl
  | keyword word => cases word <;> rfl
  | int | float | string | identifier | literal => rfl

/-- How tokens begin that derive from a line.  A repetition may be of nothing. -/
def Symbol.Begins : Symbol Place → Ahead Place
  | .statement => Starts beginsStatement
  | .expression => Starts beginsExpression
  | .level _ => Starts beginsOperand
  | .call | .atom => Starts beginsAtom
  | .block => Starts (· = .mark .leftBrace)
  | .operators _ _ | .calls _ => fun _ => True

theorem beginsOperand_of_beginsAtom {kind : Token.Kind} (h : beginsAtom kind) :
    beginsOperand kind := by
  rw [beginsOperand, h, Bool.or_true]

variable {ok : Symbol Place → List (Token Place) → List (Token Place) → Prop}

theorem Derives.begins {N : Symbol Place} {ts rest : List (Token Place)} {e : Expr Place} :
    Derives join ok N ts rest e → N.Begins ts
  | .pass | .assign _ _ => ⟨_, _, rfl, rfl⟩
  | .statement h => h.begins.mono fun _ hk => by simp [beginsStatement, hk]
  | .expression h => h.begins.mono fun _ hk => by simp [beginsExpression, hk]
  | .chain (l := l) hfirst _ => by
    have h := hfirst.begins
    cases l with
    | power => exact Starts.mono (fun _ => beginsOperand_of_beginsAtom) h
    | logic | comparison | arithmetic | term | factor => exact h
  | .signed hop _ _ => starts_cons.mpr (by rw [beginsOperand, hop]; rfl)
  | .call h _ => h.begins
  | .noOperator | .operator .. | .noArguments | .applied .. => trivial
  | .int | .float | .string | .reference | .literal | .parenthesis _ | .blocks .. | .branches ..
  | .loop .. | .function .. => ⟨_, _, rfl, rfl⟩
  | .block _ => ⟨_, _, rfl, by simp⟩

theorem Follows.begins {N : Symbol Place} (h : Follows join N K ts) : N.Begins ts := by
  obtain ⟨_, _, h, _⟩ := h
  exact h.begins

/-! ## Statements and expressions -/

theorem follows_pass (ht : t.kind = .keyword .pass) :
    Follows join .statement K (t :: ts) ↔ K ts := by
  obtain ⟨kind, p⟩ := t
  obtain rfl : kind = _ := ht
  constructor
  · intro h
    obtain ⟨rest, e, h, hK⟩ := h
    cases h with
    | pass => exact hK
    | statement h => exact absurd (starts_cons.mp h.begins) Bool.false_ne_true
  · exact fun hK => ⟨ts, _, .pass, hK⟩

/-- A statement that is not `pass` is an expression. -/
theorem follows_statement (hts : ¬ Starts (· = .keyword .pass) ts) :
    Follows join .statement K ts ↔ Follows join .expression K ts := by
  constructor
  · intro h
    obtain ⟨rest, e, h, hK⟩ := h
    cases h with
    | pass => exact absurd ⟨_, _, rfl, by simp⟩ hts
    | statement h => exact ⟨rest, e, h, hK⟩
  · intro h
    obtain ⟨rest, e, h, hK⟩ := h
    exact ⟨rest, e, .statement h, hK⟩

theorem follows_let (ht : t.kind = .keyword .let_) :
    Follows join .expression K (t :: ts) ↔
      NextName (Next (.mark .equal) (Follows join .expression K)) ts := by
  obtain ⟨kind, p⟩ := t
  obtain rfl : kind = _ := ht
  constructor
  · intro h
    obtain ⟨rest, e, h, hK⟩ := h
    cases h with
    | assign h _ => exact ⟨_, _, _, rfl, _, _, rfl, rest, _, h, hK⟩
    | expression h => exact absurd (starts_cons.mp h.begins) Bool.false_ne_true
  · intro h
    obtain ⟨name, q, _, rfl, r, _, rfl, rest, e, h, hK⟩ := h
    exact ⟨rest, _, .assign h trivial, hK⟩

/-- An expression that is no assignment is one of the loosest level. -/
theorem follows_expression (hts : ¬ Starts (· = .keyword .let_) ts) :
    Follows join .expression K ts ↔ Follows join (.level .logic) K ts := by
  constructor
  · intro h
    obtain ⟨rest, e, h, hK⟩ := h
    cases h with
    | assign => exact absurd ⟨_, _, rfl, by simp⟩ hts
    | expression h => exact ⟨rest, e, h, hK⟩
  · intro h
    obtain ⟨rest, e, h, hK⟩ := h
    exact ⟨rest, e, .expression h, hK⟩

/-! ## Atoms and blocks -/

/-- Behind the word `then`. -/
def Branches (join : Place → Place → Place) (K : Ahead Place) : Ahead Place := fun ts =>
  Follows join .block (Next (.keyword .else_) (Follows join .block K)) ts ∨
  Follows join .expression (Next (.keyword .else_) (Follows join .expression K)) ts

/-- Behind the word `if`. -/
def Conditional (join : Place → Place → Place) (K : Ahead Place) : Ahead Place :=
  Follows join (.level .comparison) (Next (.keyword .then_) (Branches join K))

/-- The rest of an atom behind a token that begins one. -/
def Opening.Rest (join : Place → Place → Place) (K : Ahead Place) : Opening Place → Ahead Place
  | .leaf _ => K
  | .parenthesis => Follows join .expression (Next (.mark .rightParen) K)
  | .conditional => Conditional join K
  | .loop => Follows join (.level .comparison) (Follows join .block K)
  | .function => FollowsSignature (Follows join .block K)

theorem follows_atom {opening : Opening Place} (ht : opening? t.kind = some opening) :
    Follows join .atom K (t :: ts) ↔ opening.Rest join K ts := by
  obtain ⟨kind, p⟩ := t
  constructor
  · intro h
    obtain ⟨rest, e, h, hK⟩ := h
    cases h with
    | int | float | string | reference | literal =>
      cases ht
      exact hK
    | parenthesis h =>
      cases ht
      exact ⟨_, _, h, _, _, rfl, hK⟩
    | blocks hcondition hthen helse =>
      cases ht
      exact ⟨_, _, hcondition, _, _, rfl, Or.inl ⟨_, _, hthen, _, _, rfl, _, _, helse, hK⟩⟩
    | branches hcondition hthen helse =>
      cases ht
      exact ⟨_, _, hcondition, _, _, rfl, Or.inr ⟨_, _, hthen, _, _, rfl, _, _, helse, hK⟩⟩
    | loop hcondition hbody =>
      cases ht
      exact ⟨_, _, hcondition, _, _, hbody, hK⟩
    | function hsignature hbody =>
      cases ht
      exact ⟨_, _, hsignature, _, _, hbody, hK⟩
  · intro h
    cases kind with
    | int | float | string | identifier | literal =>
      cases ht
      exact ⟨ts, _, by constructor, h⟩
    | mark m =>
      cases m <;> cases ht
      obtain ⟨_, e, h, q, rest, rfl, hK⟩ := h
      exact ⟨rest, _, .parenthesis h, hK⟩
    | keyword word =>
      cases word <;> cases ht
      · obtain ⟨_, _, hcondition, _, _, rfl, ⟨_, _, hthen, _, _, rfl, rest, _, helse, hK⟩ |
          ⟨_, _, hthen, _, _, rfl, rest, _, helse, hK⟩⟩ := h
        · exact ⟨rest, _, .blocks hcondition hthen helse, hK⟩
        · exact ⟨rest, _, .branches hcondition hthen helse trivial, hK⟩
      · obtain ⟨_, _, hcondition, rest, _, hbody, hK⟩ := h
        exact ⟨rest, _, .loop hcondition hbody, hK⟩
      · obtain ⟨_, _, hsignature, rest, _, hbody, hK⟩ := h
        exact ⟨rest, _, .function hsignature hbody, hK⟩

theorem follows_block : Follows join .block K ts ↔
    Next (.mark .leftBrace) (FollowsRow join .statements (Next (.mark .rightBrace) K)) ts := by
  constructor
  · intro h
    obtain ⟨rest, e, h, hK⟩ := h
    cases h with
    | block h => exact ⟨_, _, rfl, _, _, h, _, _, rfl, hK⟩
  · intro h
    obtain ⟨p, _, rfl, _, list, h, q, rest, rfl, hK⟩ := h
    exact ⟨rest, _, .block h, hK⟩

/-! ## Rows -/

theorem followsRow_statements : FollowsRow join .statements K ts ↔
    Gaps (Follows join .statement (FollowsRow join .moreStatements K)) ts := by
  constructor
  · intro h
    obtain ⟨rest, list, h, hK⟩ := h
    cases h with
    | statements hsep hfirst h => exact ⟨_, hsep, _, _, hfirst, rest, _, h, hK⟩
  · intro h
    obtain ⟨_, hsep, _, e, hfirst, rest, list, h, hK⟩ := h
    exact ⟨rest, _, .statements hsep hfirst h, hK⟩

/-- A row of statements ends in front of a token that is no separator. -/
theorem followsRow_moreStatements_of_not (hts : ¬ Starts (·.isSeparator) ts) :
    FollowsRow join .moreStatements K ts ↔ K ts := by
  constructor
  · intro h
    obtain ⟨rest, list, h, hK⟩ := h
    cases h with
    | noStatement hsep =>
      cases hsep with
      | none => exact hK
      | more ht => exact absurd ⟨_, _, rfl, ht⟩ hts
    | nextStatement ht => exact absurd ⟨_, _, rfl, ht⟩ hts
  · exact fun hK => ⟨ts, [], .noStatement .none, hK⟩

theorem followsRow_moreStatements_cons (ht : t.kind.isSeparator) :
    FollowsRow join .moreStatements K (t :: ts) ↔ K (t :: ts) ∨
      Gaps (fun ts => K ts ∨ Follows join .statement (FollowsRow join .moreStatements K) ts) ts := by
  constructor
  · intro h
    obtain ⟨rest, list, h, hK⟩ := h
    cases h with
    | noStatement hsep =>
      cases hsep with
      | none => exact Or.inl hK
      | more _ hsep => exact Or.inr ⟨rest, hsep, Or.inl hK⟩
    | nextStatement _ hsep hnext h =>
      exact Or.inr ⟨_, hsep, Or.inr ⟨_, _, hnext, rest, _, h, hK⟩⟩
  · intro h
    rcases h with hK | ⟨rest, hsep, hK | ⟨_, e, hnext, rest, list, h, hK⟩⟩
    · exact ⟨_, [], .noStatement .none, hK⟩
    · exact ⟨rest, [], .noStatement (.more ht hsep), hK⟩
    · exact ⟨rest, _, .nextStatement ht hsep hnext h, hK⟩

theorem followsRow_arguments : FollowsRow join .arguments K ts ↔
    K ts ∨ Follows join .expression (FollowsRow join .moreArguments K) ts := by
  constructor
  · intro h
    obtain ⟨rest, list, h, hK⟩ := h
    cases h with
    | empty => exact Or.inl hK
    | arguments hfirst h => exact Or.inr ⟨_, _, hfirst, rest, _, h, hK⟩
  · intro h
    rcases h with hK | ⟨_, e, hfirst, rest, list, h, hK⟩
    · exact ⟨ts, [], .empty, hK⟩
    · exact ⟨rest, _, .arguments hfirst h, hK⟩

theorem followsRow_moreArguments : FollowsRow join .moreArguments K ts ↔
    K ts ∨ Next (.mark .comma) (Follows join .expression (FollowsRow join .moreArguments K)) ts := by
  constructor
  · intro h
    obtain ⟨rest, list, h, hK⟩ := h
    cases h with
    | noArgument => exact Or.inl hK
    | nextArgument hnext h => exact Or.inr ⟨_, _, rfl, _, _, hnext, rest, _, h, hK⟩
  · intro h
    rcases h with hK | ⟨p, _, rfl, _, e, hnext, rest, list, h, hK⟩
    · exact ⟨ts, [], .noArgument, hK⟩
    · exact ⟨rest, _, .nextArgument hnext h, hK⟩

/-! ## Signatures -/

theorem followsMoreParameters : FollowsMoreParameters K ts ↔
    K ts ∨ Next (.mark .comma) K ts ∨
      Next (.mark .comma) (NextName (FollowsMoreParameters K)) ts := by
  constructor
  · intro h
    obtain ⟨rest, names, h, hK⟩ := h
    cases h with
    | none => exact Or.inl hK
    | comma => exact Or.inr (Or.inl ⟨_, _, rfl, hK⟩)
    | more h => exact Or.inr (Or.inr ⟨_, _, rfl, _, _, _, rfl, rest, _, h, hK⟩)
  · intro h
    rcases h with hK | ⟨p, rest, rfl, hK⟩ | ⟨p, _, rfl, name, q, _, rfl, rest, names, h, hK⟩
    · exact ⟨ts, [], .none, hK⟩
    · exact ⟨rest, [], .comma, hK⟩
    · exact ⟨rest, _, .more h, hK⟩

theorem followsParameters : FollowsParameters K ts ↔
    Next (.mark .leftParen) (ClosesParameters K) ts := by
  constructor
  · intro h
    obtain ⟨rest, names, h, hK⟩ := h
    cases h with
    | none => exact ⟨_, _, rfl, Or.inl ⟨_, rest, rfl, hK⟩⟩
    | some h => exact ⟨_, _, rfl, Or.inr ⟨_, _, _, rfl, _, _, h, _, rest, rfl, hK⟩⟩
  · intro h
    obtain ⟨p, _, rfl, ⟨q, rest, rfl, hK⟩ | ⟨name, q, _, rfl, _, names, h, r, rest, rfl, hK⟩⟩ := h
    · exact ⟨rest, [], .none, hK⟩
    · exact ⟨rest, _, .some h, hK⟩

theorem followsSignature : FollowsSignature K ts ↔
    FollowsParameters K ts ∨ NextName (FollowsParameters K) ts := by
  constructor
  · intro h
    obtain ⟨rest, head, h, hK⟩ := h
    cases h with
    | anonymous h => exact Or.inl ⟨rest, _, h, hK⟩
    | named h => exact Or.inr ⟨_, _, _, rfl, rest, _, h, hK⟩
  · intro h
    rcases h with ⟨rest, names, h, hK⟩ | ⟨name, p, _, rfl, rest, names, h, hK⟩
    · exact ⟨rest, _, .anonymous h, hK⟩
    · exact ⟨rest, _, .named h, hK⟩

end Grammar
end Cyan
