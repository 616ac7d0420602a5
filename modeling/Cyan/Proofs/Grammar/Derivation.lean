/-
The grammar as a relation.

`Derives join ok N ts rest e` says that the tokens of `ts` in front of `rest` derive from the line `N`
of the grammar and that `e` is what they derive to, with `join` for the places that reach from one
token to another.  `DerivesRow` does the same for the lines that describe a row of expressions.  Each
constructor is one alternative of a line.  A repetition behind an expression is a line of its own that
carries the expression read so far, so a chain of operators of one level groups to the left.

The lines as they stand are ambiguous: the right operand of an operator, the value of an assignment
and the expression behind `else` may often end in more than one place.  `ok` is asked wherever one of
them ends.  With `anyhow` the relation is the bare grammar, and with `Farthest` each of them reaches as
far to the right as the bare grammar lets it.
-/
import Cyan.Grammar.Rules

namespace Cyan
namespace Grammar

variable {Place : Type}

/-- The lines that describe one expression.  `operators l left` is the repetition of operators of
level `l` behind `left`, and `calls callee` that of argument lists behind `callee`. -/
inductive Symbol (Place : Type) where
  | statement | expression
  | level (l : Level)
  | operators (l : Level) (left : Expr Place)
  | call
  | calls (callee : Expr Place)
  | atom | block

/-- The lines that describe a row of expressions.  `moreStatements` and `moreArguments` are what may
stand behind the first of a row. -/
inductive Row where
  | statements | moreStatements
  | arguments | moreArguments

/-- The line of the first operand in a chain of operators of level `l`. -/
def nextLine : Level → Symbol Place
  | .logic => .level .comparison
  | .comparison => .level .arithmetic
  | .arithmetic => .level .term
  | .term => .level .factor
  | .factor => .level .power
  | .power => .call

/-- `separator*` -/
inductive Separators : List (Token Place) → List (Token Place) → Prop
  | none {ts} : Separators ts ts
  | more {t ts rest} : t.kind.isSeparator → Separators ts rest → Separators (t :: ts) rest

/-- `("," IDENTIFIER)* ","?` -/
inductive MoreParameters : List (Token Place) → List (Token Place) → List String → Prop
  | none {ts} : MoreParameters ts ts []
  | comma {p ts} : MoreParameters (⟨.mark .comma, p⟩ :: ts) ts []
  | more {p q name ts rest names} : MoreParameters ts rest names →
    MoreParameters (⟨.mark .comma, p⟩ :: ⟨.identifier name, q⟩ :: ts) rest (name :: names)

/-- `"(" (IDENTIFIER ("," IDENTIFIER)* ","?)? ")"` -/
inductive Parameters : List (Token Place) → List (Token Place) → List String → Prop
  | none {p q rest} : Parameters (⟨.mark .leftParen, p⟩ :: ⟨.mark .rightParen, q⟩ :: rest) rest []
  | some {p q r name ts rest names} : MoreParameters ts (⟨.mark .rightParen, r⟩ :: rest) names →
    Parameters (⟨.mark .leftParen, p⟩ :: ⟨.identifier name, q⟩ :: ts) rest (name :: names)

/-- `IDENTIFIER? parameters` -/
inductive Signature : List (Token Place) → List (Token Place) → Option String × List String → Prop
  | anonymous {ts rest names} : Parameters ts rest names → Signature ts rest (none, names)
  | named {p name ts rest names} : Parameters ts rest names →
    Signature (⟨.identifier name, p⟩ :: ts) rest (some name, names)

section

variable (join : Place → Place → Place)
  (ok : Symbol Place → List (Token Place) → List (Token Place) → Prop)

mutual

/-- The tokens in front of `rest` derive from a line, to the expression given last. -/
inductive Derives : Symbol Place → List (Token Place) → List (Token Place) → Expr Place → Prop
  /- statement = "pass" | expression -/
  | pass {p rest} : Derives .statement (⟨.keyword .pass, p⟩ :: rest) rest (.pass p)
  | statement {ts rest e} : Derives .expression ts rest e → Derives .statement ts rest e
  /- expression = "let" IDENTIFIER "=" expression | logic -/
  | assign {p q r name ts rest value} :
    Derives .expression ts rest value → ok .expression ts rest →
    Derives .expression (⟨.keyword .let_, p⟩ :: ⟨.identifier name, q⟩ :: ⟨.mark .equal, r⟩ :: ts) rest
      (.assign (join p value.place) name value)
  | expression {ts rest e} : Derives (.level .logic) ts rest e → Derives .expression ts rest e
  /- logic to power: an operand of the next line, and operators of this one with their operands -/
  | chain {l ts mid rest first e} :
    Derives (nextLine l) ts mid first → Derives (.operators l first) mid rest e →
    Derives (.level l) ts rest e
  /- comparison = "not" comparison, factor = ("+" | "-") factor -/
  | signed {l t op ts rest operand} : prefixOp? t.kind = some op → prefixLevel op = l →
    Derives (.level l) ts rest operand →
    Derives (.level l) (t :: ts) rest (.unary (join t.place operand.place) op operand)
  | noOperator {l left ts} : Derives (.operators l left) ts ts left
  | operator {l left t op ts mid rest right e} : BinaryOp.ofKind? t.kind = some op → op.level = l →
    Derives (.level op.operandLevel) ts mid right → ok (.level op.operandLevel) ts mid →
    Derives (.operators l (.binary (join left.place right.place) op left right)) mid rest e →
    Derives (.operators l left) (t :: ts) rest e
  /- call = atom ("(" arguments ")")* -/
  | call {ts mid rest callee e} :
    Derives .atom ts mid callee → Derives (.calls callee) mid rest e → Derives .call ts rest e
  | noArguments {callee ts} : Derives (.calls callee) ts ts callee
  | applied {p q callee ts mid rest list e} :
    DerivesRow .arguments ts (⟨.mark .rightParen, q⟩ :: mid) list →
    Derives (.calls (.call (join callee.place q) callee list)) mid rest e →
    Derives (.calls callee) (⟨.mark .leftParen, p⟩ :: ts) rest e
  /- atom = INT | FLOAT | STRING | IDENTIFIER | "true" | "false" | "none" -/
  | int {n p rest} : Derives .atom (⟨.int n, p⟩ :: rest) rest (.number p (.int n))
  | float {x p rest} : Derives .atom (⟨.float x, p⟩ :: rest) rest (.number p (.float x))
  | string {text p rest} : Derives .atom (⟨.string text, p⟩ :: rest) rest (.string p text)
  | reference {name p rest} : Derives .atom (⟨.identifier name, p⟩ :: rest) rest (.reference p name)
  | literal {value p rest} : Derives .atom (⟨.literal value, p⟩ :: rest) rest (.literal p value)
  /- atom = "(" expression ")" -/
  | parenthesis {p q ts rest e} :
    Derives .expression ts (⟨.mark .rightParen, q⟩ :: rest) e →
    Derives .atom (⟨.mark .leftParen, p⟩ :: ts) rest (e.withPlace (join p q))
  /- if = "if" comparison "then" (block "else" block | expression "else" expression) -/
  | blocks {p q r ts ts₁ ts₂ rest condition thenBranch elseBranch} :
    Derives (.level .comparison) ts (⟨.keyword .then_, q⟩ :: ts₁) condition →
    Derives .block ts₁ (⟨.keyword .else_, r⟩ :: ts₂) thenBranch →
    Derives .block ts₂ rest elseBranch →
    Derives .atom (⟨.keyword .if_, p⟩ :: ts) rest
      (.conditional (join p elseBranch.place) condition thenBranch elseBranch)
  | branches {p q r ts ts₁ ts₂ rest condition thenBranch elseBranch} :
    Derives (.level .comparison) ts (⟨.keyword .then_, q⟩ :: ts₁) condition →
    Derives .expression ts₁ (⟨.keyword .else_, r⟩ :: ts₂) thenBranch →
    Derives .expression ts₂ rest elseBranch → ok .expression ts₂ rest →
    Derives .atom (⟨.keyword .if_, p⟩ :: ts) rest
      (.conditional (join p elseBranch.place) condition thenBranch elseBranch)
  /- while = "while" comparison block -/
  | loop {p ts mid rest condition body} :
    Derives (.level .comparison) ts mid condition → Derives .block mid rest body →
    Derives .atom (⟨.keyword .while_, p⟩ :: ts) rest (.loop (join p body.place) condition body)
  /- fun = "fun" signature block -/
  | function {p ts mid rest name? names body} :
    Signature ts mid (name?, names) → Derives .block mid rest body →
    Derives .atom (⟨.keyword .fun_, p⟩ :: ts) rest
      (.function (join p body.place) name? names body)
  /- block = "{" statements "}" -/
  | block {p q ts rest list} :
    DerivesRow .statements ts (⟨.mark .rightBrace, q⟩ :: rest) list →
    Derives .block (⟨.mark .leftBrace, p⟩ :: ts) rest (.block (join p q) list)

/-- The tokens in front of `rest` derive from a line, to the row of expressions given last. -/
inductive DerivesRow : Row → List (Token Place) → List (Token Place) → List (Expr Place) → Prop
  /- statements = separator* statement (separator+ statement)* separator* -/
  | statements {ts ts₁ mid rest e list} : Separators ts ts₁ → Derives .statement ts₁ mid e →
    DerivesRow .moreStatements mid rest list → DerivesRow .statements ts rest (e :: list)
  | noStatement {ts rest} : Separators ts rest → DerivesRow .moreStatements ts rest []
  | nextStatement {t ts ts₁ mid rest e list} : t.kind.isSeparator → Separators ts ts₁ →
    Derives .statement ts₁ mid e → DerivesRow .moreStatements mid rest list →
    DerivesRow .moreStatements (t :: ts) rest (e :: list)
  /- arguments = (expression ("," expression)*)? -/
  | empty {ts} : DerivesRow .arguments ts ts []
  | arguments {ts mid rest e list} : Derives .expression ts mid e →
    DerivesRow .moreArguments mid rest list → DerivesRow .arguments ts rest (e :: list)
  | noArgument {ts} : DerivesRow .moreArguments ts ts []
  | nextArgument {p ts mid rest e list} : Derives .expression ts mid e →
    DerivesRow .moreArguments mid rest list →
    DerivesRow .moreArguments (⟨.mark .comma, p⟩ :: ts) rest (e :: list)

end

end

/-- The choice that lets everything end where it can. -/
def anyhow (_ : Symbol Place) (_ _ : List (Token Place)) : Prop := True

/-- The choice that lets a part end only where it can reach no farther. -/
def Farthest (join : Place → Place → Place) (N : Symbol Place) (ts rest : List (Token Place)) : Prop :=
  ∀ e rest', Derives join anyhow N ts rest' e → rest.length ≤ rest'.length

/-! ## A derivation does not depend on what follows -/

/-- The first row of tokens in front of its rest is the second one in front of its own rest. -/
def Same (ts rest ts' rest' : List (Token Place)) : Prop := ∃ u, ts = u ++ rest ∧ ts' = u ++ rest'

namespace Same

theorem refl (ts ts' : List (Token Place)) : Same ts ts ts' ts' := ⟨[], rfl, rfl⟩

theorem cons {ts rest ts' rest' : List (Token Place)} (t : Token Place)
    (h : Same ts rest ts' rest') : Same (t :: ts) rest (t :: ts') rest' := by
  obtain ⟨u, rfl, rfl⟩ := h
  exact ⟨t :: u, rfl, rfl⟩

theorem trans {ts mid rest ts' mid' rest' : List (Token Place)} (h : Same ts mid ts' mid')
    (h' : Same mid rest mid' rest') : Same ts rest ts' rest' := by
  obtain ⟨u, rfl, rfl⟩ := h
  obtain ⟨v, rfl, rfl⟩ := h'
  exact ⟨u ++ v, by rw [List.append_assoc], by rw [List.append_assoc]⟩

/-- The two rests may both lose a first token. -/
theorem uncons {ts rest ts' rest' : List (Token Place)} {t : Token Place}
    (h : Same ts (t :: rest) ts' (t :: rest')) : Same ts rest ts' rest' :=
  h.trans ((refl rest rest').cons t)

end Same

theorem Separators.relocate {ts rest : List (Token Place)} (h : Separators ts rest)
    (rest' : List (Token Place)) : ∃ ts', Same ts rest ts' rest' ∧ Separators ts' rest' := by
  induction h with
  | none => exact ⟨_, .refl _ _, .none⟩
  | more hsep _ ih =>
    obtain ⟨ts', hsame, h⟩ := ih
    exact ⟨_, hsame.cons _, .more hsep h⟩

theorem MoreParameters.relocate {ts rest : List (Token Place)} {names : List String}
    (h : MoreParameters ts rest names) (rest' : List (Token Place)) :
    ∃ ts', Same ts rest ts' rest' ∧ MoreParameters ts' rest' names := by
  induction h with
  | none => exact ⟨_, .refl _ _, .none⟩
  | comma => exact ⟨_, .cons _ (.refl _ _), .comma⟩
  | more _ ih =>
    obtain ⟨ts', hsame, h⟩ := ih
    exact ⟨_, .cons _ (.cons _ hsame), .more h⟩

theorem Parameters.relocate {ts rest : List (Token Place)} {names : List String}
    (h : Parameters ts rest names) (rest' : List (Token Place)) :
    ∃ ts', Same ts rest ts' rest' ∧ Parameters ts' rest' names := by
  cases h with
  | none => exact ⟨_, .cons _ (.cons _ (.refl _ _)), .none⟩
  | some h =>
    obtain ⟨ts', hsame, h⟩ := h.relocate (_ :: rest')
    exact ⟨_, .cons _ (.cons _ hsame.uncons), .some h⟩

theorem Signature.relocate {ts rest : List (Token Place)} {head : Option String × List String}
    (h : Signature ts rest head) (rest' : List (Token Place)) :
    ∃ ts', Same ts rest ts' rest' ∧ Signature ts' rest' head := by
  cases h with
  | anonymous h =>
    obtain ⟨ts', hsame, h⟩ := h.relocate rest'
    exact ⟨_, hsame, .anonymous h⟩
  | named h =>
    obtain ⟨ts', hsame, h⟩ := h.relocate rest'
    exact ⟨_, hsame.cons _, .named h⟩

variable {join : Place → Place → Place}
  {ok ok' : Symbol Place → List (Token Place) → List (Token Place) → Prop}

/-- What `ok` allows in front of `tail`, `ok'` allows in front of `tail'`. -/
def Carries (ok ok' : Symbol Place → List (Token Place) → List (Token Place) → Prop)
    (tail tail' : List (Token Place)) : Prop :=
  ∀ N ts rest ts' rest', Same ts rest ts' rest' → Same rest tail rest' tail' → ok N ts rest →
    ok' N ts' rest'

mutual

/-- The tokens that derive from a line do so in front of another tail, as far as the choices made
there are allowed. -/
theorem Derives.retail {tail tail' : List (Token Place)} (hok : Carries ok ok' tail tail')
    {N : Symbol Place} {ts rest rest' : List (Token Place)} {e : Expr Place}
    (ht : Same rest tail rest' tail') : Derives join ok N ts rest e →
      ∃ ts', Same ts rest ts' rest' ∧ Derives join ok' N ts' rest' e
  | .pass => ⟨_, .cons _ (.refl _ _), .pass⟩
  | .statement h => by
    obtain ⟨ts', hsame, h⟩ := h.retail hok ht
    exact ⟨_, hsame, .statement h⟩
  | .assign h hend => by
    obtain ⟨ts', hsame, h⟩ := h.retail hok ht
    exact ⟨_, .cons _ (.cons _ (.cons _ hsame)), .assign h (hok _ _ _ _ _ hsame ht hend)⟩
  | .expression h => by
    obtain ⟨ts', hsame, h⟩ := h.retail hok ht
    exact ⟨_, hsame, .expression h⟩
  | .chain hfirst h => by
    obtain ⟨mid', hsame, h⟩ := h.retail hok ht
    obtain ⟨ts', hsame', hfirst⟩ := hfirst.retail hok (hsame.trans ht)
    exact ⟨_, hsame'.trans hsame, .chain hfirst h⟩
  | .signed hop hl h => by
    obtain ⟨ts', hsame, h⟩ := h.retail hok ht
    exact ⟨_, hsame.cons _, .signed hop hl h⟩
  | .noOperator => ⟨_, .refl _ _, .noOperator⟩
  | .operator hop hl hright hend h => by
    obtain ⟨mid', hsame, h⟩ := h.retail hok ht
    obtain ⟨ts', hsame', hright⟩ := hright.retail hok (hsame.trans ht)
    exact ⟨_, .cons _ (hsame'.trans hsame),
      .operator hop hl hright (hok _ _ _ _ _ hsame' (hsame.trans ht) hend) h⟩
  | .call hcallee h => by
    obtain ⟨mid', hsame, h⟩ := h.retail hok ht
    obtain ⟨ts', hsame', hcallee⟩ := hcallee.retail hok (hsame.trans ht)
    exact ⟨_, hsame'.trans hsame, .call hcallee h⟩
  | .noArguments => ⟨_, .refl _ _, .noArguments⟩
  | .applied hlist h => by
    obtain ⟨mid', hsame, h⟩ := h.retail hok ht
    obtain ⟨ts', hsame', hlist⟩ := hlist.retail hok ((hsame.trans ht).cons _)
    exact ⟨_, .cons _ (hsame'.uncons.trans hsame), .applied hlist h⟩
  | .int => ⟨_, .cons _ (.refl _ _), .int⟩
  | .float => ⟨_, .cons _ (.refl _ _), .float⟩
  | .string => ⟨_, .cons _ (.refl _ _), .string⟩
  | .reference => ⟨_, .cons _ (.refl _ _), .reference⟩
  | .literal => ⟨_, .cons _ (.refl _ _), .literal⟩
  | .parenthesis h => by
    obtain ⟨ts', hsame, h⟩ := h.retail hok (ht.cons _)
    exact ⟨_, hsame.uncons.cons _, .parenthesis h⟩
  | .blocks hcondition hthen helse => by
    obtain ⟨ts₂', hsame₂, helse⟩ := helse.retail hok ht
    obtain ⟨ts₁', hsame₁, hthen⟩ := hthen.retail hok ((hsame₂.trans ht).cons _)
    have hsame₁₂ := hsame₁.uncons.trans hsame₂
    obtain ⟨ts', hsame, hcondition⟩ := hcondition.retail hok ((hsame₁₂.trans ht).cons _)
    exact ⟨_, .cons _ (hsame.uncons.trans hsame₁₂), .blocks hcondition hthen helse⟩
  | .branches hcondition hthen helse hend => by
    obtain ⟨ts₂', hsame₂, helse⟩ := helse.retail hok ht
    obtain ⟨ts₁', hsame₁, hthen⟩ := hthen.retail hok ((hsame₂.trans ht).cons _)
    have hsame₁₂ := hsame₁.uncons.trans hsame₂
    obtain ⟨ts', hsame, hcondition⟩ := hcondition.retail hok ((hsame₁₂.trans ht).cons _)
    exact ⟨_, .cons _ (hsame.uncons.trans hsame₁₂),
      .branches hcondition hthen helse (hok _ _ _ _ _ hsame₂ ht hend)⟩
  | .loop hcondition hbody => by
    obtain ⟨mid', hsame, hbody⟩ := hbody.retail hok ht
    obtain ⟨ts', hsame', hcondition⟩ := hcondition.retail hok (hsame.trans ht)
    exact ⟨_, .cons _ (hsame'.trans hsame), .loop hcondition hbody⟩
  | .function hsignature hbody => by
    obtain ⟨mid', hsame, hbody⟩ := hbody.retail hok ht
    obtain ⟨ts', hsame', hsignature⟩ := hsignature.relocate mid'
    exact ⟨_, .cons _ (hsame'.trans hsame), .function hsignature hbody⟩
  | .block h => by
    obtain ⟨ts', hsame, h⟩ := h.retail hok (ht.cons _)
    exact ⟨_, hsame.uncons.cons _, .block h⟩

theorem DerivesRow.retail {tail tail' : List (Token Place)} (hok : Carries ok ok' tail tail')
    {N : Row} {ts rest rest' : List (Token Place)} {list : List (Expr Place)}
    (ht : Same rest tail rest' tail') : DerivesRow join ok N ts rest list →
      ∃ ts', Same ts rest ts' rest' ∧ DerivesRow join ok' N ts' rest' list
  | .statements hsep hfirst h => by
    obtain ⟨mid', hsame, h⟩ := h.retail hok ht
    obtain ⟨ts₁', hsame₁, hfirst⟩ := hfirst.retail hok (hsame.trans ht)
    obtain ⟨ts', hsame₀, hsep⟩ := hsep.relocate ts₁'
    exact ⟨_, hsame₀.trans (hsame₁.trans hsame), .statements hsep hfirst h⟩
  | .noStatement hsep => by
    obtain ⟨ts', hsame, hsep⟩ := hsep.relocate rest'
    exact ⟨_, hsame, .noStatement hsep⟩
  | .nextStatement hseparator hsep hnext h => by
    obtain ⟨mid', hsame, h⟩ := h.retail hok ht
    obtain ⟨ts₁', hsame₁, hnext⟩ := hnext.retail hok (hsame.trans ht)
    obtain ⟨ts', hsame₀, hsep⟩ := hsep.relocate ts₁'
    exact ⟨_, .cons _ (hsame₀.trans (hsame₁.trans hsame)), .nextStatement hseparator hsep hnext h⟩
  | .empty => ⟨_, .refl _ _, .empty⟩
  | .arguments hfirst h => by
    obtain ⟨mid', hsame, h⟩ := h.retail hok ht
    obtain ⟨ts', hsame', hfirst⟩ := hfirst.retail hok (hsame.trans ht)
    exact ⟨_, hsame'.trans hsame, .arguments hfirst h⟩
  | .noArgument => ⟨_, .refl _ _, .noArgument⟩
  | .nextArgument hnext h => by
    obtain ⟨mid', hsame, h⟩ := h.retail hok ht
    obtain ⟨ts', hsame', hnext⟩ := hnext.retail hok (hsame.trans ht)
    exact ⟨_, .cons _ (hsame'.trans hsame), .nextArgument hnext h⟩

end

theorem carries_anyhow (tail tail' : List (Token Place)) : Carries ok anyhow tail tail' :=
  fun _ _ _ _ _ _ _ _ => trivial

/-- The tokens that derive from a line do so in front of any rest. -/
theorem Derives.relocate {N : Symbol Place} {ts rest : List (Token Place)} {e : Expr Place}
    (rest' : List (Token Place)) (h : Derives join ok N ts rest e) :
    ∃ ts', Same ts rest ts' rest' ∧ Derives join anyhow N ts' rest' e :=
  h.retail (carries_anyhow rest rest') (.refl rest rest')

theorem DerivesRow.relocate {N : Row} {ts rest : List (Token Place)} {list : List (Expr Place)}
    (rest' : List (Token Place)) (h : DerivesRow join ok N ts rest list) :
    ∃ ts', Same ts rest ts' rest' ∧ DerivesRow join anyhow N ts' rest' list :=
  h.retail (carries_anyhow rest rest') (.refl rest rest')

end Grammar
end Cyan
