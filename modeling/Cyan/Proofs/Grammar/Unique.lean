/-
Tokens are read in one way.

Two derivations from the same line that begin at the same token and let each part reach as far as it
can need not end in the same place: an operand may be followed by an operator that one of them takes in
and the other leaves alone.  But this is all the freedom there is.  Where two derivations differ, the
shorter one stops in front of a token that could go on with it (`Derives.compare`), and since no such
token may stand where the line is used, a whole row of tokens has one derivation
(`DerivesRow.unique`).
-/
import Cyan.Proofs.Grammar.Accepted

namespace Cyan
namespace Grammar

variable {Place : Type} {join : Place → Place → Place} {ts rest : List (Token Place)}
  {ok : Symbol Place → List (Token Place) → List (Token Place) → Prop}

theorem Derives.exists_append {N : Symbol Place} {e : Expr Place} (h : Derives join ok N ts rest e) :
    ∃ u, ts = u ++ rest := by
  obtain ⟨_, ⟨u, hu, -⟩, -⟩ := h.relocate []
  exact ⟨u, hu⟩

theorem Derives.anyhow {N : Symbol Place} {e : Expr Place} (h : Derives join ok N ts rest e) :
    Derives join anyhow N ts rest e := by
  obtain ⟨ts', ⟨u, hu, hu'⟩, h'⟩ := h.relocate rest
  rw [hu, ← hu']
  exact h'

theorem Derives.length_le {N : Symbol Place} {e : Expr Place} (h : Derives join ok N ts rest e) :
    rest.length ≤ ts.length := by
  obtain ⟨u, rfl⟩ := h.exists_append
  rw [List.length_append]
  omega

theorem DerivesRow.length_le {N : Row} {list : List (Expr Place)}
    (h : DerivesRow join ok N ts rest list) : rest.length ≤ ts.length := by
  obtain ⟨_, ⟨u, rfl, -⟩, -⟩ := h.relocate []
  rw [List.length_append]
  omega

/-- Whether a token could go on with what derives from a line. -/
def Symbol.continues : Symbol Place → Token.Kind → Bool
  | .statement, kind | .expression, kind =>
    (BinaryOp.ofKind? kind).isSome || kind = .mark .leftParen
  | .level l, kind => (infixFor? l kind).isSome || kind = .mark .leftParen
  | .operators l _, kind => (BinaryOp.ofKind? kind).any (·.level = l)
  | .call, kind | .calls _, kind => kind = .mark .leftParen
  | .atom, _ | .block, _ => false

/-- Two ends of what derives from a line are the same, or the earlier one is in front of a token that
could go on with it. -/
inductive Meet (N : Symbol Place) :
    List (Token Place) → Expr Place → List (Token Place) → Expr Place → Prop
  | same {rest e} : Meet N rest e rest e
  | left {rest e rest' e'} : rest'.length < rest.length → Starts N.continues rest →
    Meet N rest e rest' e'
  | right {rest e rest' e'} : rest.length < rest'.length → Starts N.continues rest' →
    Meet N rest e rest' e'

namespace Meet

variable {N N' : Symbol Place} {rest' : List (Token Place)} {e e' : Expr Place}

theorem eq (h : Meet N rest e rest' e') (hrest : ¬ Starts N.continues rest)
    (hrest' : ¬ Starts N.continues rest') : rest = rest' ∧ e = e' := by
  cases h with
  | same => exact ⟨rfl, rfl⟩
  | left _ h => exact absurd h hrest
  | right _ h => exact absurd h hrest'

theorem eq_of_token {t t' : Token Place} {mid mid' : List (Token Place)}
    (h : Meet N (t :: mid) e (t' :: mid') e') (ht : N.continues t.kind = false)
    (ht' : N.continues t'.kind = false) : t = t' ∧ mid = mid' ∧ e = e' := by
  have hstop {t : Token Place} {mid : List (Token Place)} (ht : N.continues t.kind = false) :
      ¬ Starts N.continues (t :: mid) := by
    rw [starts_cons, ht]
    exact Bool.false_ne_true
  obtain ⟨hrest, rfl⟩ := h.eq (hstop ht) (hstop ht')
  cases hrest
  exact ⟨rfl, rfl, rfl⟩

theorem eq_of_never (h : Meet N rest e rest' e') (hN : ∀ kind, N.continues kind = false) :
    rest = rest' ∧ e = e' := by
  have hstop (ts : List (Token Place)) : ¬ Starts N.continues ts := by
    intro hts
    obtain ⟨t, _, rfl, ht⟩ := hts
    rw [hN] at ht
    cases ht
  exact h.eq (hstop rest) (hstop rest')

/-- Two ends that are as far as can be are the same. -/
theorem eq_of_farthest (h : Meet N rest e rest' e') (hfar : Farthest join N ts rest)
    (hfar' : Farthest join N ts rest') (hN : Derives join ok N ts rest e)
    (hN' : Derives join ok N ts rest' e') : rest = rest' ∧ e = e' := by
  have hle := hfar _ _ hN'.anyhow
  have hle' := hfar' _ _ hN.anyhow
  cases h with
  | same => exact ⟨rfl, rfl⟩
  | left hlt _ => omega
  | right hlt _ => omega

/-- What derives from the two lines ends alike, and one lets more tokens go on than the other. -/
theorem widen (h : Meet N rest e rest' e') (f : Expr Place → Expr Place)
    (hmore : ∀ kind, N.continues kind → N'.continues kind) : Meet N' rest (f e) rest' (f e') := by
  cases h with
  | same => exact .same
  | left hlt h => exact .left hlt (h.mono hmore)
  | right hlt h => exact .right hlt (h.mono hmore)

end Meet

/-- What a sign at the beginning says about a line. -/
def Symbol.AtLeast (N : Symbol Place) (op : UnaryOp) : Prop :=
  match N with
  | .level l => l.strength ≤ (prefixLevel op).strength
  | _ => True

/-- A sign does not begin an expression of a tighter level than its own. -/
theorem Derives.atLeast {t : Token Place} {op : UnaryOp} (hop : prefixOp? t.kind = some op)
    {N : Symbol Place} {ts rest : List (Token Place)} {e : Expr Place} :
    Derives join ok N ts rest e → Starts (· = t.kind) ts → N.AtLeast op
  | .chain (l := l) hfirst _ => by
    intro hts
    by_cases hpower : l = .power
    · subst hpower
      have hsign : prefixFor? .logic t.kind = some op :=
        prefixFor?_eq_some.mpr ⟨hop, Nat.zero_le _⟩
      obtain ⟨s, mid, rfl, hs⟩ := hts
      have hbegins := starts_cons.mp hfirst.begins
      rw [of_decide_eq_true hs, not_beginsAtom_of_sign hsign] at hbegins
      cases hbegins
    · obtain ⟨l', hl', hstrength⟩ := exists_nextLine Place hpower
      have hle : (nextLine l : Symbol Place).AtLeast op := hfirst.atLeast hop hts
      rw [hl'] at hle
      exact Nat.le_trans (by omega) hle
  | .signed (l := l) hop' hl _ => by
    intro hts
    rw [of_decide_eq_true (starts_cons.mp hts), hop] at hop'
    cases hop'
    exact Nat.le_of_eq (congrArg _ hl.symm)
  | .pass | .statement _ | .assign .. | .expression _ | .noOperator | .operator .. | .call ..
  | .noArguments | .applied .. | .int | .float | .string | .reference | .literal | .parenthesis _
  | .blocks .. | .branches .. | .loop .. | .function .. | .block _ => fun _ => trivial

/-! ## Signatures and separators -/

theorem MoreParameters.unique {rest' : List (Token Place)} {names names' : List String} {p p' : Place}
    {more more' : List (Token Place)} (h : MoreParameters ts rest names) :
    MoreParameters ts rest' names' → rest = ⟨.mark .rightParen, p⟩ :: more →
      rest' = ⟨.mark .rightParen, p'⟩ :: more' → rest = rest' ∧ names = names' := by
  induction h generalizing names' with
  | none =>
    intro h' hrest hrest'
    cases hrest
    cases h' with
    | none => exact ⟨rfl, rfl⟩
  | comma =>
    intro h' hrest hrest'
    cases hrest
    cases h' with
    | none => cases hrest'
    | comma => exact ⟨rfl, rfl⟩
  | more _ ih =>
    intro h' hrest hrest'
    cases h' with
    | none => cases hrest'
    | comma => cases hrest'
    | more h' =>
      obtain ⟨hrest, hnames⟩ := ih h' hrest hrest'
      exact ⟨hrest, congrArg _ hnames⟩

theorem Parameters.unique {rest' : List (Token Place)} {names names' : List String}
    (h : Parameters ts rest names) (h' : Parameters ts rest' names') :
    rest = rest' ∧ names = names' := by
  cases h with
  | none =>
    cases h' with
    | none => exact ⟨rfl, rfl⟩
  | some h =>
    cases h' with
    | some h' =>
      obtain ⟨hrest, hnames⟩ := h.unique h' rfl rfl
      cases hrest
      exact ⟨rfl, congrArg _ hnames⟩

theorem Signature.unique {rest' : List (Token Place)} {head head' : Option String × List String}
    (h : Signature ts rest head) (h' : Signature ts rest' head') :
    rest = rest' ∧ head = head' := by
  cases h with
  | anonymous h =>
    cases h' with
    | anonymous h' =>
      obtain ⟨hrest, hnames⟩ := h.unique h'
      exact ⟨hrest, congrArg _ hnames⟩
    | named => cases h
  | named h =>
    cases h' with
    | anonymous h' => cases h'
    | named h' =>
      obtain ⟨hrest, hnames⟩ := h.unique h'
      exact ⟨hrest, congrArg _ hnames⟩

/-- Separators in front of two statements are the same. -/
theorem Separators.unique {rest' : List (Token Place)} (h : Separators ts rest)
    (hrest : ¬ Starts (·.isSeparator) rest) :
    Separators ts rest' → ¬ Starts (·.isSeparator) rest' → rest = rest' := by
  induction h with
  | none =>
    intro h' hrest'
    cases h' with
    | none => rfl
    | more ht => exact absurd ⟨_, _, rfl, ht⟩ hrest
  | more ht _ ih =>
    intro h' hrest'
    cases h' with
    | none => exact absurd ⟨_, _, rfl, ht⟩ hrest'
    | more _ h' => exact ih hrest h' hrest'

/-! ## Chains of operators -/

variable {l : Level} {kind : Token.Kind}

theorem continues_of_nextLine (h : (nextLine l : Symbol Place).continues kind) :
    (Symbol.level l : Symbol Place).continues kind := by
  by_cases hpower : l = .power
  · subst hpower
    exact Bool.or_eq_true_iff.mpr (Or.inr h)
  · obtain ⟨l', hl', hstrength⟩ := exists_nextLine Place hpower
    rw [hl'] at h
    refine Bool.or_eq_true_iff.mpr ((Bool.or_eq_true_iff.mp h).imp_left fun h => ?_)
    obtain ⟨op, hop⟩ := Option.isSome_iff_exists.mp h
    obtain ⟨hkind, hfits⟩ := infixFor?_eq_some.mp hop
    rw [fits_iff] at hfits
    exact Option.isSome_iff_exists.mpr
      ⟨op, infixFor?_eq_some.mpr ⟨hkind, fits_iff.mpr (by omega)⟩⟩

/-- What could go on with an operand is no operator of the level of the operand's chain. -/
theorem level_ne_of_continues {op : BinaryOp} (h : (nextLine l : Symbol Place).continues kind)
    (hop : BinaryOp.ofKind? kind = some op) : op.level ≠ l := by
  rintro rfl
  by_cases hpower : op.level = .power
  · rw [hpower] at h
    rw [of_decide_eq_true h] at hop
    cases hop
  · obtain ⟨l', hl', hstrength⟩ := exists_nextLine Place hpower
    rw [hl'] at h
    rcases Bool.or_eq_true_iff.mp h with h | h
    · obtain ⟨op', hop'⟩ := Option.isSome_iff_exists.mp h
      obtain ⟨hkind, hfits⟩ := infixFor?_eq_some.mp hop'
      rw [hop] at hkind
      cases hkind
      rw [fits_iff] at hfits
      omega
    · rw [of_decide_eq_true h] at hop
      cases hop

theorem Derives.eq_of_continues {left e : Expr Place}
    (h : Derives join ok (.operators l left) ts rest e)
    (hts : Starts (nextLine l : Symbol Place).continues ts) : rest = ts ∧ e = left := by
  cases h with
  | noOperator => exact ⟨rfl, rfl⟩
  | operator hop hl => exact absurd hl (level_ne_of_continues (starts_cons.mp hts) hop)

theorem Derives.not_sign {t : Token Place} {op : UnaryOp} {e : Expr Place}
    (h : Derives join ok (nextLine l) (t :: ts) rest e) (hop : prefixOp? t.kind = some op) :
    prefixLevel op ≠ l := by
  rintro rfl
  have hpower : prefixLevel op ≠ .power := by cases op <;> decide
  obtain ⟨l', hl', hstrength⟩ := exists_nextLine Place hpower
  have hle : (nextLine (prefixLevel op) : Symbol Place).AtLeast op :=
    h.atLeast hop (starts_cons.mpr (decide_eq_true rfl))
  rw [hl'] at hle
  have hle : l'.strength ≤ (prefixLevel op).strength := hle
  omega

/-- Two chains of one level with the ends of their first operands. -/
theorem Meet.chain {mid mid' rest' : List (Token Place)} {first first' e e' : Expr Place}
    (hfirst : Meet (nextLine l) mid first mid' first')
    (h : Derives join ok (.operators l first) mid rest e)
    (h' : Derives join ok (.operators l first') mid' rest' e')
    (hsame : mid = mid' → first = first' → Meet (.operators l first) rest e rest' e') :
    Meet (.level l) rest e rest' e' := by
  have hle := h.length_le
  have hle' := h'.length_le
  cases hfirst with
  | same =>
    refine (hsame rfl rfl).widen id fun kind hkind => ?_
    obtain ⟨op, hop, hl⟩ := (Option.any_eq_true _ _).mp hkind
    have hfits := fits_iff.mpr (Nat.le_of_eq (congrArg _ (of_decide_eq_true hl).symm))
    exact Bool.or_eq_true_iff.mpr (Or.inl (Option.isSome_iff_exists.mpr
      ⟨op, infixFor?_eq_some.mpr ⟨hop, hfits⟩⟩))
  | left hlt hmid =>
    obtain ⟨rfl, rfl⟩ := h.eq_of_continues hmid
    exact .left (by omega) (hmid.mono fun _ => continues_of_nextLine)
  | right hlt hmid' =>
    obtain ⟨rfl, rfl⟩ := h'.eq_of_continues hmid'
    exact .right (by omega) (hmid'.mono fun _ => continues_of_nextLine)

/-! ## Derivations -/

/-- What stands behind a row. -/
def Row.Closes : Row → Ahead Place
  | .statements, ts | .moreStatements, ts => ts = [] ∨ Starts (· = .mark .rightBrace) ts
  | .arguments, ts | .moreArguments, ts => Starts (· = .mark .rightParen) ts

theorem not_starts_of_starts {p : Token.Kind → Bool} (h : Starts (· = kind) ts) (hp : p kind = false) :
    ¬ Starts p ts := by
  intro hstarts
  rw [starts_and hstarts h] at hp
  cases hp

theorem not_starts_of_closes {N : Row} {p : Token.Kind → Bool} (h : N.Closes ts)
    (hbrace : p (.mark .rightBrace) = false) (hparen : p (.mark .rightParen) = false) :
    ¬ Starts p ts := by
  cases N with
  | statements | moreStatements =>
    rcases h with rfl | h
    · exact not_starts_nil
    · exact not_starts_of_starts h hbrace
  | arguments | moreArguments => exact not_starts_of_starts h hparen

theorem Derives.not_separator {e : Expr Place} (h : Derives join ok .statement ts rest e) :
    ¬ Starts (·.isSeparator) ts := by
  intro hts
  obtain ⟨t, mid, rfl, ht⟩ := hts
  exact not_isSeparator_of_beginsStatement (starts_cons.mp h.begins) ht

/-- Behind a statement of a list nothing stands that could go on with the statement. -/
theorem DerivesRow.not_continues {list : List (Expr Place)}
    (h : DerivesRow join ok .moreStatements ts rest list) (hrest : Row.moreStatements.Closes rest) :
    ¬ Starts (Symbol.statement : Symbol Place).continues ts := by
  have hseparator {t : Token Place} {mid : List (Token Place)} (ht : t.kind.isSeparator) :
      ¬ Starts (Symbol.statement : Symbol Place).continues (t :: mid) := by
    rw [starts_cons]
    obtain ⟨kind, p⟩ := t
    cases kind with
    | mark m => cases m <;> first | exact Bool.false_ne_true | cases ht
    | int | float | string | identifier | keyword | literal => cases ht
  cases h with
  | noStatement hsep =>
    cases hsep with
    | none => exact not_starts_of_closes hrest rfl rfl
    | more ht => exact hseparator ht
  | nextStatement ht => exact hseparator ht

theorem DerivesRow.not_continues_argument {list : List (Expr Place)}
    (h : DerivesRow join ok .moreArguments ts rest list) (hrest : Row.moreArguments.Closes rest) :
    ¬ Starts (Symbol.expression : Symbol Place).continues ts := by
  cases h with
  | noArgument => exact not_starts_of_closes hrest rfl rfl
  | nextArgument => exact fun hts => Bool.false_ne_true (starts_cons.mp hts)

mutual

/-- Two derivations from a line that begin at the same token differ in where they end, if at all. -/
theorem Derives.compare {N : Symbol Place} {ts rest rest' : List (Token Place)} {e e' : Expr Place} :
    Derives join (Farthest join) N ts rest e → Derives join (Farthest join) N ts rest' e' →
      Meet N rest e rest' e'
  | .pass, h' => by
    cases h' with
    | pass => exact .same
    | statement h' => exact absurd (starts_cons.mp h'.begins) Bool.false_ne_true
  | .statement h, h' => by
    cases h' with
    | pass => exact absurd (starts_cons.mp h.begins) Bool.false_ne_true
    | statement h' => exact (h.compare h').widen id fun _ hk => hk
  | .assign h hend, h' => by
    cases h' with
    | assign h' hend' =>
      obtain ⟨rfl, rfl⟩ := (h.compare h').eq_of_farthest hend hend' h h'
      exact .same
    | expression h' => exact absurd (starts_cons.mp h'.begins) Bool.false_ne_true
  | .expression h, h' => by
    cases h' with
    | assign => exact absurd (starts_cons.mp h.begins) Bool.false_ne_true
    | expression h' =>
      refine (h.compare h').widen id fun kind hk => ?_
      refine Bool.or_eq_true_iff.mpr ((Bool.or_eq_true_iff.mp hk).imp_left fun hk => ?_)
      obtain ⟨op, hop⟩ := Option.isSome_iff_exists.mp hk
      exact Option.isSome_iff_exists.mpr ⟨op, (infixFor?_eq_some.mp hop).1⟩
  | .chain hfirst h, h' => by
    cases h' with
    | chain hfirst' h' =>
      refine (hfirst.compare hfirst').chain h h' fun hmid hfirst => ?_
      subst hmid hfirst
      exact h.compare h'
    | signed hop hl => exact absurd hl (hfirst.not_sign hop)
  | .signed hop hl h, h' => by
    cases h' with
    | chain hfirst' => exact absurd hl (hfirst'.not_sign hop)
    | signed hop' _ h' =>
      rw [hop] at hop'
      cases hop'
      have hmeet := h.compare h'
      cases hmeet with
      | same => exact .same
      | left hlt hk => exact .left hlt hk
      | right hlt hk => exact .right hlt hk
  | .noOperator, h' => by
    cases h' with
    | noOperator => exact .same
    | operator hop hl hright _ h' =>
      have hlt := Nat.lt_succ_of_le (Nat.le_trans h'.length_le hright.length_le)
      exact .left hlt (starts_cons.mpr (by simp [Symbol.continues, hop, hl]))
  | .operator hop hl hright hend h, h' => by
    cases h' with
    | noOperator =>
      have hlt := Nat.lt_succ_of_le (Nat.le_trans h.length_le hright.length_le)
      exact .right hlt (starts_cons.mpr (by simp [Symbol.continues, hop, hl]))
    | operator hop' _ hright' hend' h' =>
      rw [hop] at hop'
      cases hop'
      obtain ⟨rfl, rfl⟩ := (hright.compare hright').eq_of_farthest hend hend' hright hright'
      exact (h.compare h').widen id fun _ hk => hk
  | .call hcallee h, h' => by
    cases h' with
    | call hcallee' h' =>
      obtain ⟨rfl, rfl⟩ := (hcallee.compare hcallee').eq_of_never fun _ => rfl
      exact (h.compare h').widen id fun _ hk => hk
  | .noArguments, h' => by
    cases h' with
    | noArguments => exact .same
    | applied hlist h' =>
      have hle := hlist.length_le
      have hle' := h'.length_le
      rw [List.length_cons] at hle
      exact .left (Nat.lt_succ_of_le (by omega)) (starts_cons.mpr rfl)
  | .applied hlist h, h' => by
    cases h' with
    | noArguments =>
      have hle := hlist.length_le
      have hle' := h.length_le
      rw [List.length_cons] at hle
      exact .right (Nat.lt_succ_of_le (by omega)) (starts_cons.mpr rfl)
    | applied hlist' h' =>
      obtain ⟨hmid, rfl⟩ := hlist.unique ⟨_, _, rfl, rfl⟩ hlist' ⟨_, _, rfl, rfl⟩
      cases hmid
      exact (h.compare h').widen id fun _ hk => hk
  | .int, h' => by
    cases h' with
    | int => exact .same
  | .float, h' => by
    cases h' with
    | float => exact .same
  | .string, h' => by
    cases h' with
    | string => exact .same
  | .reference, h' => by
    cases h' with
    | reference => exact .same
  | .literal, h' => by
    cases h' with
    | literal => exact .same
  | .parenthesis h, h' => by
    cases h' with
    | parenthesis h' =>
      obtain ⟨ht, rfl, rfl⟩ := (h.compare h').eq_of_token rfl rfl
      cases ht
      exact .same
  | .blocks hcondition hthen helse, h' => by
    cases h' with
    | blocks hcondition' hthen' helse' =>
      obtain ⟨-, rfl, rfl⟩ := (hcondition.compare hcondition').eq_of_token rfl rfl
      obtain ⟨hmid, rfl⟩ := (hthen.compare hthen').eq_of_never fun _ => rfl
      cases hmid
      obtain ⟨rfl, rfl⟩ := (helse.compare helse').eq_of_never fun _ => rfl
      exact .same
    | branches hcondition' hthen' =>
      obtain ⟨-, rfl, rfl⟩ := (hcondition.compare hcondition').eq_of_token rfl rfl
      exact absurd hthen'.begins (not_starts_of_starts hthen.begins rfl)
  | .branches hcondition hthen helse hend, h' => by
    cases h' with
    | blocks hcondition' hthen' =>
      obtain ⟨-, rfl, rfl⟩ := (hcondition.compare hcondition').eq_of_token rfl rfl
      exact absurd hthen.begins (not_starts_of_starts hthen'.begins rfl)
    | branches hcondition' hthen' helse' hend' =>
      obtain ⟨-, rfl, rfl⟩ := (hcondition.compare hcondition').eq_of_token rfl rfl
      obtain ⟨-, rfl, rfl⟩ := (hthen.compare hthen').eq_of_token rfl rfl
      obtain ⟨rfl, rfl⟩ := (helse.compare helse').eq_of_farthest hend hend' helse helse'
      exact .same
  | .loop hcondition hbody, h' => by
    cases h' with
    | loop hcondition' hbody' =>
      obtain ⟨rfl, rfl⟩ := (hcondition.compare hcondition').eq
        (not_starts_of_starts hbody.begins rfl) (not_starts_of_starts hbody'.begins rfl)
      obtain ⟨rfl, rfl⟩ := (hbody.compare hbody').eq_of_never fun _ => rfl
      exact .same
  | .function hsignature hbody, h' => by
    cases h' with
    | function hsignature' hbody' =>
      obtain ⟨rfl, hhead⟩ := hsignature.unique hsignature'
      cases hhead
      obtain ⟨rfl, rfl⟩ := (hbody.compare hbody').eq_of_never fun _ => rfl
      exact .same
  | .block h, h' => by
    cases h' with
    | block h' =>
      obtain ⟨hrest, rfl⟩ := h.unique (Or.inr ⟨_, _, rfl, rfl⟩) h' (Or.inr ⟨_, _, rfl, rfl⟩)
      cases hrest
      exact .same

theorem DerivesRow.unique {N : Row} {ts rest rest' : List (Token Place)}
    {list list' : List (Expr Place)} :
    DerivesRow join (Farthest join) N ts rest list → N.Closes rest →
      DerivesRow join (Farthest join) N ts rest' list' → N.Closes rest' → rest = rest' ∧ list = list'
  | .statements hsep hfirst h, hrest, h', hrest' => by
    cases h' with
    | statements hsep' hfirst' h' =>
      obtain rfl := hsep.unique hfirst.not_separator hsep' hfirst'.not_separator
      obtain ⟨rfl, rfl⟩ := (hfirst.compare hfirst').eq (h.not_continues hrest)
        (h'.not_continues hrest')
      obtain ⟨rfl, rfl⟩ := h.unique hrest h' hrest'
      exact ⟨rfl, rfl⟩
  | .noStatement hsep, hrest, h', hrest' => by
    cases h' with
    | noStatement hsep' =>
      exact ⟨hsep.unique (not_starts_of_closes hrest rfl rfl) hsep'
        (not_starts_of_closes hrest' rfl rfl), rfl⟩
    | nextStatement ht hsep' hnext' =>
      obtain rfl := hsep.unique (not_starts_of_closes hrest rfl rfl) (.more ht hsep')
        hnext'.not_separator
      exact absurd hnext'.begins (not_starts_of_closes hrest rfl rfl)
  | .nextStatement ht hsep hnext h, hrest, h', hrest' => by
    cases h' with
    | noStatement hsep' =>
      obtain rfl := hsep'.unique (not_starts_of_closes hrest' rfl rfl) (.more ht hsep)
        hnext.not_separator
      exact absurd hnext.begins (not_starts_of_closes hrest' rfl rfl)
    | nextStatement _ hsep' hnext' h' =>
      obtain rfl := hsep.unique hnext.not_separator hsep' hnext'.not_separator
      obtain ⟨rfl, rfl⟩ := (hnext.compare hnext').eq (h.not_continues hrest)
        (h'.not_continues hrest')
      obtain ⟨rfl, rfl⟩ := h.unique hrest h' hrest'
      exact ⟨rfl, rfl⟩
  | .empty, hrest, h', hrest' => by
    cases h' with
    | empty => exact ⟨rfl, rfl⟩
    | arguments hfirst' => exact absurd hfirst'.begins (not_starts_of_closes hrest rfl rfl)
  | .arguments hfirst h, hrest, h', hrest' => by
    cases h' with
    | empty => exact absurd hfirst.begins (not_starts_of_closes hrest' rfl rfl)
    | arguments hfirst' h' =>
      obtain ⟨rfl, rfl⟩ := (hfirst.compare hfirst').eq (h.not_continues_argument hrest)
        (h'.not_continues_argument hrest')
      obtain ⟨rfl, rfl⟩ := h.unique hrest h' hrest'
      exact ⟨rfl, rfl⟩
  | .noArgument, hrest, h', hrest' => by
    cases h' with
    | noArgument => exact ⟨rfl, rfl⟩
    | nextArgument =>
      have hparen : Starts (· = .mark .rightParen) (_ :: _) := hrest
      exact absurd (starts_cons.mp hparen) Bool.false_ne_true
  | .nextArgument hnext h, hrest, h', hrest' => by
    cases h' with
    | noArgument =>
      have hparen : Starts (· = .mark .rightParen) (_ :: _) := hrest'
      exact absurd (starts_cons.mp hparen) Bool.false_ne_true
    | nextArgument hnext' h' =>
      obtain ⟨rfl, rfl⟩ := (hnext.compare hnext').eq (h.not_continues_argument hrest)
        (h'.not_continues_argument hrest')
      obtain ⟨rfl, rfl⟩ := h.unique hrest h' hrest'
      exact ⟨rfl, rfl⟩

end

/-! ## Parts read by themselves -/

/-- What reaches as far as it can in front of a tail does so without the tail. -/
theorem carries_farthest (tail : List (Token Place)) :
    Carries (Farthest join) (Farthest join) tail [] := by
  intro N ts rest ts' rest' hsame htail hfar e more h
  obtain ⟨u, rfl, rfl⟩ := hsame
  obtain ⟨w, rfl, rfl⟩ := htail
  obtain ⟨ts'', ⟨v, hv, rfl⟩, h'⟩ := h.relocate (more ++ tail)
  rw [List.append_nil] at hv
  rw [← List.append_assoc, ← hv, List.append_assoc] at h'
  have hle := hfar e (more ++ tail) h'
  simp only [List.length_append, List.length_nil] at hle ⊢
  omega

/-- Tokens read in front of others are read in the same way by themselves. -/
theorem Derives.alone {N : Symbol Place} {e : Expr Place}
    (h : Derives join (Farthest join) N ts rest e) :
    ∃ u, ts = u ++ rest ∧ Derives join (Farthest join) N u [] e := by
  obtain ⟨ts', ⟨u, hu, rfl⟩, h'⟩ := h.retail (carries_farthest rest) (.refl rest [])
  rw [List.append_nil] at h'
  exact ⟨u, hu, h'⟩

theorem DerivesRow.alone {N : Row} {list : List (Expr Place)}
    (h : DerivesRow join (Farthest join) N ts rest list) :
    ∃ u, ts = u ++ rest ∧ DerivesRow join (Farthest join) N u [] list := by
  obtain ⟨ts', ⟨u, hu, rfl⟩, h'⟩ := h.retail (carries_farthest rest) (.refl rest [])
  rw [List.append_nil] at h'
  exact ⟨u, hu, h'⟩

end Grammar

/-- A row of tokens is read as what its statements derive to. -/
theorem Expr.ofTokens?_eq_ok {Place : Type} {join : Place → Place → Place} {s : TokenStream Place}
    {e : Expr Place} :
    Expr.ofTokens? join s = .ok e ↔
      ∃ list, e = .block (Grammar.extent (Grammar.rewinding join s.finish) list) list ∧
        Grammar.DerivesRow join (Grammar.Farthest join) .statements s.tokens [] list := by
  constructor
  · intro he
    rcases Expr.ofTokens?_cases join s with ⟨list, hread, h⟩ | ⟨e', hread, -⟩
    · rw [hread] at he
      cases he
      exact ⟨list, rfl, h⟩
    · rw [hread] at he
      cases he
  · intro h
    obtain ⟨list, rfl, h⟩ := h
    rcases Expr.ofTokens?_cases join s with ⟨list', hread, h'⟩ | ⟨e', hread, -⟩
    · obtain ⟨-, rfl⟩ := h.unique (Or.inl rfl) h' (Or.inl rfl)
      exact hread
    · obtain ⟨e, he⟩ := Expr.ofTokens?_isOk.mpr (Grammar.accepted_of_derives h)
      rw [hread] at he
      cases he

end Cyan
