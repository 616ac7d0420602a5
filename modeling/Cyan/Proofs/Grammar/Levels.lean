/-
The levels of operators as languages.

The lines of the grammar nest one level of operators in the next.  Read as languages they are flat:
`follows_level` says that an expression of level `l` is an operand and any number of operators of
level `l` or tighter, each with an operand of its own level, which is how the rules read it.

Such a repetition may give tokens to what follows or keep them for itself.  `Open K` says that this
makes no difference to `K`: what `K` takes as an operator with what stands behind it, or as an argument
list, may as well be read before `K` begins.
-/
import Cyan.Proofs.Grammar.Language

namespace Cyan
namespace Grammar

variable {Place : Type}

section

variable (join : Place → Place → Place)

/-- Operators of level `l` and tighter with their right operands, and then `K`. -/
inductive Tails (l : Level) (K : Ahead Place) : Ahead Place
  | stop {ts} : K ts → Tails l K ts
  | operator {t op ts rest e} : infixFor? l t.kind = some op →
    Derives join anyhow (.level op.operandLevel) ts rest e → Tails l K rest → Tails l K (t :: ts)

/-- Argument lists in parentheses, and then `K`. -/
inductive Calls (K : Ahead Place) : Ahead Place
  | stop {ts} : K ts → Calls K ts
  | applied {p q ts rest list} :
    DerivesRow join anyhow .arguments ts (⟨.mark .rightParen, q⟩ :: rest) list → Calls K rest →
    Calls K (⟨.mark .leftParen, p⟩ :: ts)

/-- A call, or an operand of level `l` with a prefix operator, and then `K`. -/
def Operand (l : Level) (K : Ahead Place) : Ahead Place := fun ts =>
  (∃ t op rest, ts = t :: rest ∧ prefixFor? l t.kind = some op ∧
    Follows join (.level (prefixLevel op)) K rest) ∨ Follows join .call K ts

/-- What stands after an expression and may be read as part of it. -/
structure Open (K : Ahead Place) : Prop where
  operator : ∀ {t ts op}, BinaryOp.ofKind? t.kind = some op → K (t :: ts) →
    Follows join (.level op.operandLevel) K ts
  call : ∀ {p ts}, K (⟨.mark .leftParen, p⟩ :: ts) →
    FollowsRow join .arguments (Next (.mark .rightParen) K) ts

end

variable {join : Place → Place → Place} {K K' : Ahead Place} {ts rest : List (Token Place)}
  {ok : Symbol Place → List (Token Place) → List (Token Place) → Prop}

/-! ## Binding strength -/

theorem Level.strength_injective {l l' : Level} (h : l.strength = l'.strength) : l = l' := by
  cases l <;> cases l' <;> first | rfl | cases h

theorem Level.strength_lt_of_ne {l l' : Level} (hle : l.strength ≤ l'.strength) (h : l' ≠ l) :
    l.strength < l'.strength := by
  have hne : l.strength ≠ l'.strength := fun heq => h (strength_injective heq).symm
  omega

theorem strength_operandLevel_le {op : BinaryOp} {l : Level} (h : op.level = l) :
    op.operandLevel.strength ≤ l.strength + 1 := by
  subst h
  cases op <;> decide

theorem fits_iff {op : BinaryOp} {l : Level} : op.fits l ↔ l.strength ≤ op.level.strength := by
  simp [BinaryOp.fits]

theorem infixFor?_eq_some {l : Level} {kind : Token.Kind} {op : BinaryOp} :
    infixFor? l kind = some op ↔ BinaryOp.ofKind? kind = some op ∧ op.fits l := by
  simp [infixFor?, Option.filter_eq_some_iff]

theorem prefixFor?_eq_some {l : Level} {kind : Token.Kind} {op : UnaryOp} :
    prefixFor? l kind = some op ↔
      prefixOp? kind = some op ∧ l.strength ≤ (prefixLevel op).strength := by
  simp [prefixFor?, Option.filter_eq_some_iff]

/-- Below every level but the tightest there is the next level. -/
theorem exists_nextLine (Place : Type) {l : Level} (h : l ≠ .power) :
    ∃ l', nextLine l = (.level l' : Symbol Place) ∧ l'.strength = l.strength + 1 := by
  cases l with
  | power => exact absurd rfl h
  | logic => exact ⟨.comparison, rfl, rfl⟩
  | comparison => exact ⟨.arithmetic, rfl, rfl⟩
  | arithmetic => exact ⟨.term, rfl, rfl⟩
  | term => exact ⟨.factor, rfl, rfl⟩
  | factor => exact ⟨.power, rfl, rfl⟩

/-- An expression of a tighter level is one of a looser level. -/
theorem Derives.loosen {l l' : Level} {e : Expr Place} (h : Derives join ok (.level l') ts rest e)
    (hl : l.strength ≤ l'.strength) : Derives join ok (.level l) ts rest e := by
  obtain ⟨d, hd⟩ := Nat.exists_eq_add_of_le hl
  clear hl
  induction d generalizing l with
  | zero =>
    obtain rfl := Level.strength_injective hd
    exact h
  | succ d ih =>
    have hpower : l ≠ .power := by
      intro h
      subst h
      cases l' <;> simp only [Level.strength] at hd <;> omega
    obtain ⟨m, hm, hstrength⟩ := exists_nextLine Place hpower
    have hbelow : Derives join ok (nextLine l) ts rest e := by
      rw [hm]
      exact ih (by omega)
    exact .chain hbelow .noOperator

theorem Derives.level_of_call {e : Expr Place} (h : Derives join ok .call ts rest e) (l : Level) :
    Derives join ok (.level l) ts rest e := by
  have hpower : Derives join ok (.level .power) ts rest e := .chain h .noOperator
  exact hpower.loosen (by cases l <;> decide)

/-! ## Operators and their operands -/

/-- Whether tokens that derive from `N` can take in an operator of which `more` is the right operand
and what follows, so that `rest` is left. -/
def Symbol.Absorbs (join : Place → Place → Place) (N : Symbol Place) (op : BinaryOp)
    (ts behind rest : List (Token Place)) : Prop :=
  match N with
  | .level l => op.fits l → ∃ e, Derives join anyhow (.level l) ts rest e
  | .operators l left => op.fits l →
    (op.level ≠ l ∧ ts = behind) ∨ ∃ e, Derives join anyhow (.operators l left) ts rest e
  | _ => True

theorem Derives.absorb {t : Token Place} {op : BinaryOp} {mid behind : List (Token Place)}
    (hop : BinaryOp.ofKind? t.kind = some op) (hbehind : behind = t :: mid)
    (hright : ∃ right, Derives join anyhow (.level op.operandLevel) mid rest right)
    {N : Symbol Place} {ts : List (Token Place)} {e : Expr Place} :
    Derives join anyhow N ts behind e → N.Absorbs join op ts behind rest
  | .chain (l := l) hfirst h => by
    intro hfits
    have ih : Symbol.Absorbs join (.operators l _) op _ behind rest := absorb hop hbehind hright h
    rcases ih hfits with ⟨hne, rfl⟩ | ⟨e', h'⟩
    · -- No operator of this level was read, so the operand before it takes the operator in.
      have hlt := Level.strength_lt_of_ne (fits_iff.mp hfits) hne
      have hpower : l ≠ .power := by
        intro h
        subst h
        cases op <;> simp only [BinaryOp.level, Level.strength] at hlt <;> omega
      obtain ⟨l', hl', hstrength⟩ := exists_nextLine Place hpower
      have ih : (nextLine l).Absorbs join op _ _ rest := absorb hop hbehind hright hfirst
      rw [hl'] at ih
      obtain ⟨e', h'⟩ := ih (fits_iff.mpr (by omega))
      exact ⟨e', .chain (hl' ▸ h') .noOperator⟩
    · exact ⟨e', .chain hfirst h'⟩
  | .signed hprefix hl h => by
    intro hfits
    have ih : Symbol.Absorbs join (.level _) op _ behind rest := absorb hop hbehind hright h
    obtain ⟨e', h'⟩ := ih hfits
    exact ⟨_, .signed hprefix hl h'⟩
  | .noOperator (l := l) => by
    intro _
    by_cases hl : op.level = l
    · subst hbehind
      obtain ⟨_, hright⟩ := hright
      exact Or.inr ⟨_, .operator hop hl hright trivial .noOperator⟩
    · exact Or.inl ⟨hl, rfl⟩
  | .operator hop' hl' hright' _ h => by
    intro hfits
    right
    have ih : Symbol.Absorbs join (.operators _ _) op _ behind rest := absorb hop hbehind hright h
    rcases ih hfits with ⟨hne, rfl⟩ | ⟨e', h'⟩
    · have hlt := Level.strength_lt_of_ne (fits_iff.mp hfits) hne
      have hle := strength_operandLevel_le hl'
      have ih : Symbol.Absorbs join (.level _) op _ _ rest := absorb hop hbehind hright hright'
      obtain ⟨_, h'⟩ := ih (fits_iff.mpr (by omega))
      exact ⟨_, .operator hop' hl' h' trivial .noOperator⟩
    · exact ⟨e', .operator hop' hl' hright' trivial h'⟩
  | .pass | .statement _ | .assign .. | .expression _ | .call .. | .noArguments | .applied ..
  | .int | .float | .string | .reference | .literal | .parenthesis _ | .blocks .. | .branches ..
  | .loop .. | .function .. | .block _ => trivial

/-- A derivation from a level is an operand and operators, whatever follows it. -/
def Symbol.Flattens (join : Place → Place → Place) (N : Symbol Place) (ts rest : List (Token Place)) :
    Prop :=
  match N with
  | .level l => ∀ K, Tails join l K rest → Operand join l (Tails join l K) ts
  | .operators l _ => ∀ K, Tails join l K rest → Tails join l K ts
  | .calls _ => ∀ K, Calls join K rest → Calls join K ts
  | _ => True

theorem Tails.flatten {l l' : Level} (hl : l.strength ≤ l'.strength)
    (h : Tails join l' (Tails join l K) ts) : Tails join l K ts := by
  induction h with
  | stop h => exact h
  | operator hop hright _ ih =>
    rw [infixFor?_eq_some, fits_iff] at hop
    refine .operator (infixFor?_eq_some.mpr ⟨hop.1, fits_iff.mpr ?_⟩) hright ih
    omega

theorem Operand.mono {l : Level} (h : ∀ ts, K ts → K' ts) (hK : Operand join l K ts) :
    Operand join l K' ts :=
  hK.imp (fun ⟨t, op, rest, hts, hop, hrest⟩ => ⟨t, op, rest, hts, hop, hrest.mono h⟩)
    (Follows.mono h)

theorem Operand.loosen {l l' : Level} (hl : l.strength ≤ l'.strength) (h : Operand join l' K ts) :
    Operand join l K ts := by
  refine h.imp_left ?_
  intro h
  obtain ⟨t, op, rest, hts, hop, hrest⟩ := h
  rw [prefixFor?_eq_some] at hop
  exact ⟨t, op, rest, hts, prefixFor?_eq_some.mpr ⟨hop.1, by omega⟩, hrest⟩

theorem Derives.flatten {N : Symbol Place} {ts rest : List (Token Place)} {e : Expr Place} :
    Derives join anyhow N ts rest e → N.Flattens join ts rest
  | .chain (l := l) hfirst h => by
    intro K hK
    have ih : Symbol.Flattens join (.operators l _) _ _ := h.flatten
    have ihfirst : (nextLine l).Flattens join _ _ := hfirst.flatten
    have htails : Tails join l K _ := ih K hK
    by_cases hpower : l = .power
    · subst hpower
      exact Or.inr ⟨_, _, hfirst, htails⟩
    · obtain ⟨l', hl', hstrength⟩ := exists_nextLine Place hpower
      rw [hl'] at ihfirst
      have hle : l.strength ≤ l'.strength := by omega
      exact ((ihfirst _ (.stop htails)).mono fun _ => Tails.flatten hle).loosen hle
  | .signed hop hl h => by
    intro K hK
    subst hl
    exact Or.inl ⟨_, _, _, rfl, prefixFor?_eq_some.mpr ⟨hop, Nat.le_refl _⟩, _, _, h, hK⟩
  | .noOperator => fun _ hK => hK
  | .operator hop hl hright _ h => by
    intro K hK
    have ih : Symbol.Flattens join (.operators _ _) _ _ := h.flatten
    have hfits := infixFor?_eq_some.mpr ⟨hop, fits_iff.mpr (Nat.le_of_eq (congrArg _ hl.symm))⟩
    exact .operator hfits hright (ih K hK)
  | .noArguments => fun _ hK => hK
  | .applied hlist h => by
    intro K hK
    have ih : Symbol.Flattens join (.calls _) _ _ := h.flatten
    exact .applied hlist (ih K hK)
  | .pass | .statement _ | .assign .. | .expression _ | .call ..
  | .int | .float | .string | .reference | .literal | .parenthesis _ | .blocks .. | .branches ..
  | .loop .. | .function .. | .block _ => trivial

theorem Derives.level_tails {l : Level} {mid : List (Token Place)} {e : Expr Place}
    (h : Derives join anyhow (.level l) ts mid e) (hK : Tails join l K mid) :
    Follows join (.level l) K ts := by
  induction hK generalizing e with
  | stop hK => exact ⟨_, e, h, hK⟩
  | operator hop hright _ ih =>
    rw [infixFor?_eq_some] at hop
    obtain ⟨e', h'⟩ := h.absorb hop.1 rfl ⟨_, hright⟩ hop.2
    exact ih h'

/-- An expression of a level is an operand of it and operators of this level or tighter ones. -/
theorem follows_level {l : Level} :
    Follows join (.level l) K ts ↔ Operand join l (Tails join l K) ts := by
  constructor
  · intro h
    obtain ⟨rest, e, h, hK⟩ := h
    exact h.flatten K (.stop hK)
  · intro h
    rcases h with ⟨t, op, rest, rfl, hop, mid, e, h, hK⟩ | ⟨mid, e, h, hK⟩
    · rw [prefixFor?_eq_some] at hop
      exact ((Derives.signed hop.1 rfl h).loosen hop.2).level_tails hK
    · exact (h.level_of_call l).level_tails hK

/-- A call is an atom and argument lists. -/
theorem follows_call :
    Follows join .call K ts ↔ Follows join .atom (Calls join K) ts := by
  constructor
  · intro h
    obtain ⟨rest, e, h, hK⟩ := h
    cases h with
    | call hcallee h => exact ⟨_, _, hcallee, h.flatten K (.stop hK)⟩
  · intro h
    obtain ⟨mid, callee, hcallee, hK⟩ := h
    have hcalls : ∀ callee, Follows join (.calls callee) K mid := by
      clear hcallee
      induction hK with
      | stop hK => exact fun callee => ⟨_, callee, .noArguments, hK⟩
      | applied hlist _ ih =>
        intro callee
        obtain ⟨rest, e, h, hK⟩ := ih _
        exact ⟨rest, e, .applied hlist h, hK⟩
    obtain ⟨rest, e, h, hK⟩ := hcalls callee
    exact ⟨rest, e, .call hcallee h, hK⟩

/-! ## What may be read as part of an expression -/

/-- What begins with neither an operator nor a parenthesis takes nothing an expression could take. -/
theorem open_of_head (h : ∀ t ts, K (t :: ts) →
    BinaryOp.ofKind? t.kind = none ∧ t.kind ≠ .mark .leftParen) : Open join K where
  operator := by
    intro t ts op hop hK
    rw [(h t ts hK).1] at hop
    cases hop
  call := fun hK => absurd rfl (h _ _ hK).2

theorem Open.tails (h : Open join K) (l : Level) : Open join (Tails join l K) where
  operator := by
    intro t ts op hop hK
    cases hK with
    | stop hK => exact (h.operator hop hK).mono fun _ => .stop
    | operator hop' hright hK =>
      rw [infixFor?_eq_some, hop] at hop'
      cases hop'.1
      exact ⟨_, _, hright, hK⟩
  call := by
    intro p ts hK
    cases hK with
    | stop hK =>
      exact (h.call hK).mono fun _ ⟨q, rest, hts, hK⟩ => ⟨q, rest, hts, .stop hK⟩
    | operator hop =>
      rw [infixFor?_eq_some] at hop
      cases hop.1

theorem Open.calls (h : Open join K) : Open join (Calls join K) where
  operator := by
    intro t ts op hop hK
    cases hK with
    | stop hK => exact (h.operator hop hK).mono fun _ => .stop
    | applied => cases hop
  call := by
    intro p ts hK
    cases hK with
    | stop hK =>
      exact (h.call hK).mono fun _ ⟨q, rest, hts, hK⟩ => ⟨q, rest, hts, .stop hK⟩
    | applied hlist hK => exact ⟨_, _, hlist, _, _, rfl, hK⟩

end Grammar
end Cyan
