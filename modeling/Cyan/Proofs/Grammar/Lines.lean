/-
Rows of statements one behind the other.

Two rows of tokens that are programs are a program when a separator is put between them, and its
statements are those of the first followed by those of the second (`DerivesRow.lines`).

That the statements of the second row come behind those of the first is plain.  That nothing else is
read is not, for a part of the first row might reach into the second.  It cannot, because of the braces:
`height` counts how many are open, and inside of what derives from any line but that of a row of
statements a separator only stands where at least one is open (`Derives.above`).  The separator between
the two rows stands where none is.
-/
import Cyan.Proofs.Grammar.Unique

namespace Cyan
namespace Grammar

variable {Place : Type} {join : Place → Place → Place} {ts rest u v : List (Token Place)}
  {ok : Symbol Place → List (Token Place) → List (Token Place) → Prop}

/-! ## Open braces -/

/-- By how much a token changes the number of open braces. -/
def lift : Token.Kind → Int
  | .mark .leftBrace => 1
  | .mark .rightBrace => -1
  | _ => 0

theorem lift_separator {kind : Token.Kind} (h : kind.isSeparator) : lift kind = 0 := by
  cases kind with
  | mark m => cases m <;> first | rfl | cases h
  | int | float | string | identifier | keyword | literal => rfl

/-- How many more braces are opened than closed. -/
def height : List (Token Place) → Int
  | [] => 0
  | t :: ts => lift t.kind + height ts

theorem height_append (u v : List (Token Place)) : height (u ++ v) = height u + height v := by
  induction u with
  | nil => simp [height]
  | cons t u ih =>
    rw [List.cons_append, height, height, ih]
    omega

/-- All braces are closed again, and none is closed before it is opened. -/
structure Balanced (v : List (Token Place)) : Prop where
  height_eq : height v = 0
  height_nonneg : ∀ v₁ v₂, v = v₁ ++ v₂ → 0 ≤ height v₁

namespace Balanced

theorem nil : Balanced ([] : List (Token Place)) where
  height_eq := rfl
  height_nonneg v₁ v₂ h := by
    obtain ⟨rfl, -⟩ := List.append_eq_nil_iff.mp h.symm
    exact Int.le_refl 0

theorem append (hu : Balanced u) (hv : Balanced v) : Balanced (u ++ v) where
  height_eq := by rw [height_append, hu.height_eq, hv.height_eq, Int.add_zero]
  height_nonneg v₁ v₂ h := by
    rcases List.append_eq_append_iff.mp h with ⟨w, rfl, hw⟩ | ⟨w, hw, -⟩
    · rw [height_append, hu.height_eq, Int.zero_add]
      exact hv.height_nonneg w v₂ hw
    · exact hu.height_nonneg v₁ w hw

theorem cons {t : Token Place} (hlift : lift t.kind = 0) (h : Balanced v) : Balanced (t :: v) where
  height_eq := by rw [height, hlift, h.height_eq, Int.add_zero]
  height_nonneg v₁ v₂ heq := by
    cases v₁ with
    | nil => exact Int.le_refl 0
    | cons r v₁ =>
      obtain ⟨rfl, hv⟩ := List.cons.inj heq
      rw [height, hlift, Int.zero_add]
      exact h.height_nonneg v₁ v₂ hv

/-- A row in braces. -/
theorem braces (h : Balanced v) (p q : Place) :
    Balanced (⟨.mark .leftBrace, p⟩ :: (v ++ [⟨.mark .rightBrace, q⟩])) where
  height_eq := by
    rw [height, height_append, h.height_eq]
    rfl
  height_nonneg v₁ v₂ heq := by
    cases v₁ with
    | nil => exact Int.le_refl 0
    | cons s v₁ =>
      obtain ⟨rfl, hv⟩ := List.cons.inj heq
      show 0 ≤ 1 + height v₁
      rcases List.append_eq_append_iff.mp hv with ⟨w, rfl, hw⟩ | ⟨w, hw, -⟩
      · rw [height_append, h.height_eq]
        -- What is left is the closing brace or nothing.
        cases w with
        | nil => simp [height]
        | cons r w =>
          obtain ⟨rfl, hnil⟩ := List.cons.inj hw
          obtain ⟨rfl, -⟩ := List.append_eq_nil_iff.mp hnil.symm
          simp [height, lift]
      · have hle := h.height_nonneg v₁ w hw
        omega

end Balanced

/-- Braces are balanced, and separators only stand where at least `k` of them are open. -/
structure Above (k : Int) (v : List (Token Place)) : Prop extends Balanced v where
  le_height : ∀ v₁ t v₂, v = v₁ ++ t :: v₂ → t.kind.isSeparator → k ≤ height v₁

namespace Above

variable {k : Int}

theorem nil : Above k ([] : List (Token Place)) where
  toBalanced := .nil
  le_height v₁ t v₂ h _ := by simp at h

theorem append (hu : Above k u) (hv : Above k v) : Above k (u ++ v) where
  toBalanced := hu.toBalanced.append hv.toBalanced
  le_height v₁ t v₂ h ht := by
    rcases List.append_eq_append_iff.mp h with ⟨w, rfl, hw⟩ | ⟨w, hw, hv'⟩
    · rw [height_append, hu.height_eq, Int.zero_add]
      exact hv.le_height w t v₂ hw ht
    · cases w with
      | nil =>
        rw [List.append_nil] at hw
        subst hw
        rw [hu.height_eq]
        exact hv.le_height [] t v₂ hv'.symm ht
      | cons s w =>
        obtain ⟨rfl, -⟩ := List.cons.inj hv'
        exact hu.le_height v₁ t w hw ht

theorem mono {m : Int} (h : Above k v) (hm : m ≤ k) : Above m v where
  toBalanced := h.toBalanced
  le_height v₁ t v₂ heq ht := Int.le_trans hm (h.le_height v₁ t v₂ heq ht)

/-- A token that is no brace, and a separator only where it may stand. -/
theorem cons {t : Token Place} (hlift : lift t.kind = 0) (hsep : t.kind.isSeparator → k ≤ 0)
    (h : Above k v) : Above k (t :: v) where
  toBalanced := h.toBalanced.cons hlift
  le_height v₁ s v₂ heq hs := by
    cases v₁ with
    | nil =>
      obtain ⟨rfl, -⟩ := List.cons.inj heq
      exact hsep hs
    | cons r v₁ =>
      obtain ⟨rfl, hv⟩ := List.cons.inj heq
      rw [height, hlift, Int.zero_add]
      exact h.le_height v₁ s v₂ hv hs

/-- Inside of braces one more of them is open. -/
theorem braces (h : Balanced v) (p q : Place) :
    Above 1 (⟨.mark .leftBrace, p⟩ :: (v ++ [⟨.mark .rightBrace, q⟩])) where
  toBalanced := h.braces p q
  le_height v₁ t v₂ heq ht := by
    cases v₁ with
    | nil =>
      obtain ⟨rfl, -⟩ := List.cons.inj heq
      cases ht
    | cons s v₁ =>
      obtain ⟨rfl, hv⟩ := List.cons.inj heq
      have hle : 0 ≤ height v₁ := by
        rcases List.append_eq_append_iff.mp hv with ⟨w, rfl, hw⟩ | ⟨w, hw, -⟩
        · cases w with
          | nil =>
            rw [List.append_nil]
            exact Int.le_of_eq h.height_eq.symm
          | cons r w => simp at hw
        · exact h.height_nonneg v₁ w hw
      show 1 ≤ 1 + height v₁
      omega

end Above

/-- The tokens in front of `rest` are `Above k`. -/
def Climbs (k : Int) (ts rest : List (Token Place)) : Prop := ∃ u, ts = u ++ rest ∧ Above k u

namespace Climbs

variable {k : Int} {mid : List (Token Place)}

theorem refl : Climbs k ts ts := ⟨[], rfl, .nil⟩

theorem trans (h : Climbs k ts mid) (h' : Climbs k mid rest) : Climbs k ts rest := by
  obtain ⟨u, rfl, hu⟩ := h
  obtain ⟨v, rfl, hv⟩ := h'
  exact ⟨u ++ v, (List.append_assoc ..).symm, hu.append hv⟩

theorem mono {m : Int} (h : Climbs k ts rest) (hm : m ≤ k) : Climbs m ts rest := by
  obtain ⟨u, hts, hu⟩ := h
  exact ⟨u, hts, hu.mono hm⟩

theorem separator {t : Token Place} (ht : t.kind.isSeparator) (h : Climbs 0 ts rest) :
    Climbs 0 (t :: ts) rest := by
  obtain ⟨u, rfl, hu⟩ := h
  exact ⟨t :: u, rfl, hu.cons (lift_separator ht) fun _ => Int.le_refl 0⟩

/-- A token that is neither a brace nor a separator. -/
theorem cons {t : Token Place} (hlift : lift t.kind = 0) (hsep : t.kind.isSeparator = false)
    (h : Climbs k ts rest) : Climbs k (t :: ts) rest := by
  obtain ⟨u, rfl, hu⟩ := h
  refine ⟨t :: u, rfl, hu.cons hlift fun ht => ?_⟩
  rw [hsep] at ht
  cases ht

theorem uncons {t : Token Place} (hlift : lift t.kind = 0) (hsep : t.kind.isSeparator = false)
    (h : Climbs k ts (t :: rest)) : Climbs k ts rest :=
  h.trans (refl.cons hlift hsep)

theorem braces {p q : Place} (h : Climbs 0 ts (⟨.mark .rightBrace, q⟩ :: rest)) :
    Climbs 1 (⟨.mark .leftBrace, p⟩ :: ts) rest := by
  obtain ⟨u, rfl, hu⟩ := h
  exact ⟨_, by simp, .braces hu.toBalanced p q⟩

/-- An operator is neither a brace nor a separator. -/
theorem operator {t : Token Place} {op : BinaryOp} (hop : BinaryOp.ofKind? t.kind = some op)
    (h : Climbs k ts rest) : Climbs k (t :: ts) rest := by
  obtain ⟨kind, p⟩ := t
  cases kind with
  | mark m => cases m <;> first | exact h.cons rfl rfl | cases hop
  | keyword word => exact h.cons rfl rfl
  | int | float | string | identifier | literal => cases hop

theorem sign {t : Token Place} {op : UnaryOp} (hop : prefixOp? t.kind = some op)
    (h : Climbs k ts rest) : Climbs k (t :: ts) rest := by
  obtain ⟨kind, p⟩ := t
  cases kind with
  | mark m => cases m <;> first | exact h.cons rfl rfl | cases hop
  | keyword word => exact h.cons rfl rfl
  | int | float | string | identifier | literal => cases hop

end Climbs

theorem Separators.climbs (h : Separators ts rest) : Climbs 0 ts rest := by
  induction h with
  | none => exact .refl
  | more ht _ ih => exact ih.separator ht

theorem MoreParameters.climbs {k : Int} {names : List String} (h : MoreParameters ts rest names) :
    Climbs k ts rest := by
  induction h with
  | none => exact .refl
  | comma => exact Climbs.refl.cons rfl rfl
  | more _ ih => exact (ih.cons rfl rfl).cons rfl rfl

theorem Signature.climbs {k : Int} {head : Option String × List String}
    (h : Signature ts rest head) : Climbs k ts rest := by
  have hparameters {ts : List (Token Place)} {names : List String} (h : Parameters ts rest names) :
      Climbs k ts rest := by
    cases h with
    | none => exact (Climbs.refl.cons rfl rfl).cons rfl rfl
    | some h => exact ((h.climbs.uncons rfl rfl).cons rfl rfl).cons rfl rfl
  cases h with
  | anonymous h => exact hparameters h
  | named h => exact (hparameters h).cons rfl rfl

/-- How many braces are open at least where a separator stands in a row. -/
def Row.floor : Row → Int
  | .statements | .moreStatements => 0
  | .arguments | .moreArguments => 1

mutual

/-- Braces are closed again in what derives from a line, and separators stand inside of them. -/
theorem Derives.climbs {N : Symbol Place} {ts rest : List (Token Place)} {e : Expr Place} :
    Derives join ok N ts rest e → Climbs 1 ts rest
  | .pass => Climbs.refl.cons rfl rfl
  | .statement h => h.climbs
  | .assign h _ => ((h.climbs.cons rfl rfl).cons rfl rfl).cons rfl rfl
  | .expression h => h.climbs
  | .chain hfirst h => hfirst.climbs.trans h.climbs
  | .signed hop _ h => h.climbs.sign hop
  | .noOperator => .refl
  | .operator hop _ hright _ h => (hright.climbs.trans h.climbs).operator hop
  | .call hcallee h => hcallee.climbs.trans h.climbs
  | .noArguments => .refl
  | .applied hlist h => ((hlist.climbs.uncons rfl rfl).trans h.climbs).cons rfl rfl
  | .int | .float | .string | .reference | .literal => Climbs.refl.cons rfl rfl
  | .parenthesis h => (h.climbs.uncons rfl rfl).cons rfl rfl
  | .blocks hcondition hthen helse | .branches hcondition hthen helse _ =>
    ((hcondition.climbs.uncons rfl rfl).trans
      ((hthen.climbs.uncons rfl rfl).trans helse.climbs)).cons rfl rfl
  | .loop hcondition hbody => (hcondition.climbs.trans hbody.climbs).cons rfl rfl
  | .function hsignature hbody => (hsignature.climbs.trans hbody.climbs).cons rfl rfl
  | .block h => Climbs.braces h.climbs

theorem DerivesRow.climbs {N : Row} {ts rest : List (Token Place)} {list : List (Expr Place)} :
    DerivesRow join ok N ts rest list → Climbs N.floor ts rest
  | .statements hsep hfirst h =>
    hsep.climbs.trans ((hfirst.climbs.mono (by decide)).trans h.climbs)
  | .noStatement hsep => hsep.climbs
  | .nextStatement ht hsep hnext h =>
    (hsep.climbs.trans ((hnext.climbs.mono (by decide)).trans h.climbs)).separator ht
  | .empty | .noArgument => .refl
  | .arguments hfirst h => hfirst.climbs.trans h.climbs
  | .nextArgument hnext h => (hnext.climbs.trans h.climbs).cons rfl rfl

end

/-! ## Rows one behind the other -/

variable {t : Token Place} {list : List (Expr Place)}

theorem Separators.trans {mid : List (Token Place)} (h : Separators ts mid)
    (h' : Separators mid rest) : Separators ts rest := by
  induction h with
  | none => exact h'
  | more ht _ ih => exact .more ht (ih h')

/-- A separator inside of a row of tokens is among the separators in front of it, or behind them. -/
theorem Separators.split (h : Separators (u ++ t :: v) rest) :
    (Separators (u ++ t :: v) (t :: v) ∧ Separators v rest) ∨
      ∃ w, rest = w ++ t :: v ∧ height w = height u := by
  induction u with
  | nil =>
    cases h with
    | none => exact Or.inr ⟨[], rfl, rfl⟩
    | more _ h => exact Or.inl ⟨.none, h⟩
  | cons s u ih =>
    cases h with
    | none => exact Or.inr ⟨s :: u, rfl, rfl⟩
    | more hs h =>
      rcases ih h with ⟨hu, hv⟩ | ⟨w, hw, hheight⟩
      · exact Or.inl ⟨.more hs hu, hv⟩
      · refine Or.inr ⟨w, hw, ?_⟩
        obtain ⟨z, hz, habove⟩ := (Separators.more hs Separators.none : Separators (s :: u) u).climbs
        rw [hz, height_append, habove.height_eq, Int.zero_add, hheight]

/-- A separator that stands outside of all braces is behind what derives from a line. -/
theorem Derives.behind {N : Symbol Place} {e : Expr Place} (h : Derives join ok N (u ++ t :: v) rest e)
    (hu : height u = 0) (ht : t.kind.isSeparator) : ∃ w, rest = w ++ t :: v ∧ height w = 0 := by
  obtain ⟨read, hread, habove⟩ := h.climbs
  rcases List.append_eq_append_iff.mp hread with ⟨w, rfl, hw⟩ | ⟨w, hw, hrest⟩
  · cases w with
    | nil => exact ⟨[], hw.symm, rfl⟩
    | cons s w =>
      obtain ⟨rfl, -⟩ := List.cons.inj hw
      have hle := habove.le_height u t w rfl ht
      omega
  · refine ⟨w, hrest, ?_⟩
    rw [hw, height_append, habove.height_eq, Int.zero_add] at hu
    exact hu

/-- A list of statements is cut in two at a separator outside of all braces. -/
theorem DerivesRow.split (ht : t.kind.isSeparator)
    (h : DerivesRow join ok .moreStatements (u ++ t :: v) [] list) (hu : height u = 0) :
    ∃ front back, list = front ++ back ∧
      DerivesRow join ok .moreStatements (u ++ t :: v) (t :: v) front ∧
      DerivesRow join ok .moreStatements (t :: v) [] back := by
  induction list generalizing u with
  | nil =>
    generalize hts : u ++ t :: v = ts at h
    cases h with
    | noStatement hsep =>
      subst hts
      rcases hsep.split with ⟨hu, hv⟩ | ⟨w, hw, -⟩
      · exact ⟨[], [], rfl, .noStatement hu, .noStatement (.more ht hv)⟩
      · simp at hw
  | cons e list ih =>
    generalize hts : u ++ t :: v = ts at h
    cases h with
    | nextStatement hs hsep hnext h =>
      cases u with
      | nil =>
        cases hts
        exact ⟨[], e :: list, rfl, .noStatement .none, .nextStatement hs hsep hnext h⟩
      | cons s u =>
        obtain ⟨rfl, rfl⟩ := List.cons.inj hts
        obtain ⟨z, hz, habove⟩ := (Separators.more hs Separators.none : Separators (s :: u) u).climbs
        rw [hz, height_append, habove.height_eq, Int.zero_add] at hu
        rcases hsep.split with ⟨hsepu, hsepv⟩ | ⟨w, rfl, hw⟩
        · exact ⟨[], e :: list, rfl, .noStatement (.more hs hsepu), .nextStatement ht hsepv hnext h⟩
        · obtain ⟨w', rfl, hw'⟩ := hnext.behind (hw.trans hu) ht
          obtain ⟨front, back, rfl, hfront, hback⟩ := ih h hw'
          exact ⟨e :: front, back, rfl, .nextStatement hs hsep hnext hfront, hback⟩

theorem DerivesRow.append {mid : List (Token Place)} {more : List (Expr Place)}
    (h : DerivesRow join ok .moreStatements ts mid list)
    (h' : DerivesRow join ok .moreStatements mid rest more) :
    DerivesRow join ok .moreStatements ts rest (list ++ more) := by
  induction list generalizing ts with
  | nil =>
    cases h with
    | noStatement hsep =>
      cases h' with
      | noStatement hsep' => exact .noStatement (hsep.trans hsep')
      | nextStatement ht' hsep' hnext h' =>
        cases hsep with
        | none => exact .nextStatement ht' hsep' hnext h'
        | more ht hsep => exact .nextStatement ht (hsep.trans (.more ht' hsep')) hnext h'
  | cons e list ih =>
    cases h with
    | nextStatement ht hsep hnext h => exact .nextStatement ht hsep hnext (ih h)

/-- A whole row of statements behind a separator. -/
theorem DerivesRow.behind (ht : t.kind.isSeparator) (h : DerivesRow join ok .statements ts rest list) :
    DerivesRow join ok .moreStatements (t :: ts) rest list := by
  cases h with
  | statements hsep hfirst h => exact .nextStatement ht hsep hfirst h

/-- Statements behind a separator are a row where the tokens are known to be one. -/
theorem DerivesRow.without {ok' : Symbol Place → List (Token Place) → List (Token Place) → Prop}
    {list' : List (Expr Place)} (h : DerivesRow join ok .moreStatements (t :: ts) [] list)
    (h' : DerivesRow join ok' .statements ts [] list') : DerivesRow join ok .statements ts [] list := by
  cases h with
  | nextStatement _ hsep hnext h => exact .statements hsep hnext h
  | noStatement hsep =>
    cases h' with
    | statements hsep' hfirst' =>
      cases hsep with
      | more _ hsep =>
        have hnil := hsep'.unique hfirst'.not_separator hsep not_starts_nil
        rw [hnil] at hfirst'
        exact absurd hfirst'.begins not_starts_nil

/-- Two programs with a separator between them are a program. -/
theorem DerivesRow.lines {list' : List (Expr Place)} (ht : t.kind.isSeparator)
    (hu : DerivesRow join (Farthest join) .statements u [] list)
    (hv : DerivesRow join (Farthest join) .statements v [] list') :
    DerivesRow join (Farthest join) .statements (u ++ t :: v) [] (list ++ list') := by
  have haccepted : Accepted join (u ++ t :: v) := by
    obtain ⟨_, ⟨w, hw, rfl⟩, hu⟩ := hu.relocate (t :: v)
    obtain ⟨_, ⟨x, hx, rfl⟩, hv⟩ := hv.relocate []
    rw [List.append_nil] at hw hx hv
    subst hw hx
    cases hu with
    | statements hsep hfirst h =>
      exact accepted_of_derives (.statements hsep hfirst (h.append (hv.behind ht)))
  obtain ⟨e, he⟩ := (Expr.ofTokens?_isOk (s := ⟨_, t.place⟩)).mpr haccepted
  obtain ⟨all, -, hall⟩ := Expr.ofTokens?_eq_ok.mp he
  have hheight : height (t :: u) = 0 := by
    obtain ⟨w, hw, habove⟩ := hu.climbs
    rw [hw, List.append_nil, height, lift_separator ht, habove.height_eq, Int.zero_add]
  obtain ⟨front, back, rfl, hfront, hback⟩ := DerivesRow.split (u := t :: u) ht (hall.behind ht) hheight
  obtain ⟨w, hw, hfront⟩ := hfront.alone
  obtain rfl : t :: u = w := List.append_cancel_right hw
  obtain ⟨-, rfl⟩ := (hfront.without hu).unique (Or.inl rfl) hu (Or.inl rfl)
  obtain ⟨-, rfl⟩ := (hback.without hv).unique (Or.inl rfl) hv (Or.inl rfl)
  exact hall

end Grammar
end Cyan
