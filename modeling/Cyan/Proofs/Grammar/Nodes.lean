/-
The nodes of a tree and the tokens they are read from.

Every node of what derives from a line derives from a line itself, from a part of the same tokens
(`Derives.parts`): blocks from the line for blocks, all others from the line for statements.  Only the
left operands of operators and the callees of calls need an argument, since they are read before it is
known what they become part of.  What is behind them is a repetition, and a repetition may be of
nothing.

With spans for places, a node's place runs from the first of its tokens to the last
(`Derives.covers`).  `DerivesRow.trim` does the same for a row of statements without the separators
around it.
-/
import Cyan.Proofs.Grammar.Unique

namespace Cyan

variable {Place : Type} {join : Place → Place → Place} {ts rest all : List (Token Place)}

namespace Expr

mutual

theorem nodesBefore_eq (rest : List (Expr Place)) :
    (e : Expr Place) → nodesBefore rest e = e.nodes ++ rest
  | pass _ | number .. | literal .. | string .. | reference .. => rfl
  | block _ list => by
    rw [nodes, nodesBefore, nodesBefore, allNodesBefore_eq rest, allNodesBefore_eq []]
    simp
  | unary _ _ e | assign _ _ e | function _ _ _ e => by
    rw [nodes, nodesBefore, nodesBefore, nodesBefore_eq rest, nodesBefore_eq []]
    simp
  | binary _ _ a b | loop _ a b => by
    rw [nodes, nodesBefore, nodesBefore, nodesBefore_eq _ a, nodesBefore_eq rest b,
      nodesBefore_eq _ a, nodesBefore_eq [] b]
    simp
  | conditional _ a b c => by
    rw [nodes, nodesBefore, nodesBefore, nodesBefore_eq _ a, nodesBefore_eq _ b,
      nodesBefore_eq rest c, nodesBefore_eq _ a, nodesBefore_eq _ b, nodesBefore_eq [] c]
    simp
  | call _ e list => by
    rw [nodes, nodesBefore, nodesBefore, nodesBefore_eq _ e, allNodesBefore_eq rest,
      nodesBefore_eq _ e, allNodesBefore_eq []]
    simp

theorem allNodesBefore_eq (rest : List (Expr Place)) :
    (list : List (Expr Place)) → allNodesBefore rest list = list.flatMap nodes ++ rest
  | [] => rfl
  | e :: list => by
    rw [allNodesBefore, nodesBefore_eq, allNodesBefore_eq, List.flatMap_cons, List.append_assoc]

end

/-- The nodes of an expression are itself and the nodes of its children. -/
theorem nodes_eq (e : Expr Place) : e.nodes = e :: e.children.flatMap nodes := by
  have hbefore (rest : List (Expr Place)) : nodesBefore rest = fun e => e.nodes ++ rest :=
    funext (nodesBefore_eq rest)
  cases e <;> rw [nodes, nodesBefore] <;> simp [children, hbefore, allNodesBefore_eq]

theorem mem_nodes_self (e : Expr Place) : e ∈ e.nodes := by
  rw [nodes_eq]
  exact List.mem_cons_self

theorem mem_nodes_of_child {e c node : Expr Place} (hc : c ∈ e.children) (hnode : node ∈ c.nodes) :
    node ∈ e.nodes := by
  rw [nodes_eq]
  exact List.mem_cons_of_mem _ (List.mem_flatMap.mpr ⟨c, hc, hnode⟩)

/-- What holds of an expression and of the nodes of its children holds of all its nodes. -/
theorem forall_nodes {P : Expr Place → Prop} {e : Expr Place} (he : P e)
    (hchildren : ∀ c ∈ e.children, ∀ node ∈ c.nodes, P node) : ∀ node ∈ e.nodes, P node := by
  intro node hnode
  rw [nodes_eq, List.mem_cons, List.mem_flatMap] at hnode
  rcases hnode with rfl | ⟨c, hc, hnode⟩
  · exact he
  · exact hchildren c hc node hnode

def isBlock : Expr Place → Bool
  | block _ _ => true
  | _ => false

@[simp] theorem isBlock_withPlace (p : Place) (e : Expr Place) :
    (e.withPlace p).isBlock = e.isBlock := by
  cases e <;> rfl

end Expr

namespace Grammar

variable {ok : Symbol Place → List (Token Place) → List (Token Place) → Prop}

/-! ## Parts of a derivation -/

theorem Derives.isSuffix {N : Symbol Place} {e : Expr Place} (h : Derives join ok N ts rest e) :
    rest <:+ ts := by
  obtain ⟨u, rfl⟩ := h.exists_append
  exact List.suffix_append u rest

theorem DerivesRow.isSuffix {N : Row} {list : List (Expr Place)}
    (h : DerivesRow join ok N ts rest list) : rest <:+ ts := by
  obtain ⟨_, ⟨u, rfl, -⟩, -⟩ := h.relocate []
  exact List.suffix_append u rest

theorem Separators.isSuffix (h : Separators ts rest) : rest <:+ ts := by
  obtain ⟨_, ⟨u, rfl, -⟩, -⟩ := h.relocate []
  exact List.suffix_append u rest

theorem Signature.isSuffix {head : Option String × List String} (h : Signature ts rest head) :
    rest <:+ ts := by
  obtain ⟨_, ⟨u, rfl, -⟩, -⟩ := h.relocate []
  exact List.suffix_append u rest

theorem Derives.ofLevel {l : Level} {e : Expr Place} (h : Derives join ok (.level l) ts rest e) :
    Derives join ok .statement ts rest e := by
  have hfactor {ts rest : List (Token Place)} {e : Expr Place}
      (h : Derives join ok (.level .factor) ts rest e) : Derives join ok .statement ts rest e :=
    .statement (.expression (.chain (.chain (.chain (.chain h .noOperator) .noOperator) .noOperator)
      .noOperator))
  cases l with
  | logic => exact .statement (.expression h)
  | comparison => exact .statement (.expression (.chain h .noOperator))
  | arithmetic => exact .statement (.expression (.chain (.chain h .noOperator) .noOperator))
  | term =>
    exact .statement (.expression (.chain (.chain (.chain h .noOperator) .noOperator) .noOperator))
  | factor => exact hfactor h
  | power => exact hfactor (.chain h .noOperator)

theorem Derives.ofCall {e : Expr Place} (h : Derives join ok .call ts rest e) :
    Derives join ok .statement ts rest e :=
  (Derives.chain (l := .power) h .noOperator).ofLevel

theorem Derives.ofAtom {e : Expr Place} (h : Derives join ok .atom ts rest e) :
    Derives join ok .statement ts rest e :=
  (Derives.call h .noArguments).ofCall

section

variable (join : Place → Place → Place)
  (ok : Symbol Place → List (Token Place) → List (Token Place) → Prop) (all : List (Token Place))

/-- An expression that derives from a part of the tokens `all`. -/
inductive Part : Expr Place → Prop
  | statement {ts rest e} : ts <:+ all → Derives join ok .statement ts rest e → Part e
  | block {ts rest e} : ts <:+ all → Derives join ok .block ts rest e → Part e

/-- All nodes of an expression derive from parts of the tokens `all`. -/
def Parts (e : Expr Place) : Prop := ∀ node ∈ e.nodes, Part join ok all node

def Symbol.repeats : Symbol Place → Bool
  | .operators _ _ | .calls _ => true
  | _ => false

/-- A repetition is backed if the nodes of the expression it is behind are parts, and if this
expression and all that can derive from the repetition derive from a line together. -/
inductive Backed : Symbol Place → List (Token Place) → Prop
  | operators {l left start ts} : Parts join ok all left → start <:+ all →
    (∀ rest e, Derives join ok (.operators l left) ts rest e →
      Derives join ok (.level l) start rest e) → Backed (.operators l left) ts
  | calls {callee start ts} : Parts join ok all callee → start <:+ all →
    (∀ rest e, Derives join ok (.calls callee) ts rest e → Derives join ok .call start rest e) →
    Backed (.calls callee) ts
  | start {N ts} : N.repeats = false → Backed N ts

end

theorem Parts.of_children {e : Expr Place} (h : Part join ok all e)
    (hchildren : ∀ c ∈ e.children, Parts join ok all c) : Parts join ok all e :=
  Expr.forall_nodes h hchildren

theorem Parts.leaf {e : Expr Place} (he : e.children = []) (h : Part join ok all e) :
    Parts join ok all e := by
  refine .of_children h ?_
  simp [he]

theorem Parts.children {e : Expr Place} (h : Parts join ok all e) :
    ∀ c ∈ e.children, Parts join ok all c := by
  intro c hc node hnode
  exact h node (Expr.mem_nodes_of_child hc hnode)

theorem isSuffix_of_cons {t : Token Place} (h : t :: ts <:+ all) : ts <:+ all :=
  (List.suffix_cons t ts).trans h

mutual

/-- Every node of what derives from a line derives from a line. -/
theorem Derives.parts {N : Symbol Place} {ts rest : List (Token Place)} {e : Expr Place}
    (hts : ts <:+ all) (hN : Backed join ok all N ts) :
    Derives join ok N ts rest e → Parts join ok all e
  | .pass => .leaf rfl (.statement hts .pass)
  | .statement h => h.parts hts (.start rfl)
  | .expression h => h.parts hts (.start rfl)
  | .assign hvalue hend => by
    have hpart := Part.statement hts (.statement (.assign hvalue hend))
    have hts₁ := isSuffix_of_cons (isSuffix_of_cons (isSuffix_of_cons hts))
    have hchild := hvalue.parts hts₁ (.start rfl)
    exact .of_children hpart (by simpa [Expr.children] using hchild)
  | .chain (l := l) hfirst h => by
    have hleft := hfirst.parts hts (.start (by cases l <;> rfl))
    exact h.parts (hfirst.isSuffix.trans hts)
      (.operators hleft hts fun rest e h => .chain hfirst h)
  | .signed hop hlevel h => by
    have hpart := Part.statement hts (Derives.signed hop hlevel h).ofLevel
    have hchild := h.parts (isSuffix_of_cons hts) (.start rfl)
    exact .of_children hpart (by simpa [Expr.children] using hchild)
  | .noOperator => by
    cases hN with
    | operators hleft => exact hleft
    | start hN => cases hN
  | @Derives.operator _ _ _ l left t op ts mid _ right e hop hlevel hright hend h => by
    cases hN with
    | @operators _ _ start _ hleft hstart hhead =>
      have hnext (rest : List (Token Place)) (e : Expr Place)
          (h : Derives join ok (.operators l (.binary (join left.place right.place) op left right))
            mid rest e) : Derives join ok (.level l) start rest e :=
        hhead rest e (.operator hop hlevel hright hend h)
      have hpart := Part.statement hstart (hnext mid _ .noOperator).ofLevel
      have hchild := hright.parts (isSuffix_of_cons hts) (.start rfl)
      have hparts := Parts.of_children hpart (by simpa [Expr.children] using ⟨hleft, hchild⟩)
      exact h.parts (hright.isSuffix.trans (isSuffix_of_cons hts)) (.operators hparts hstart hnext)
    | start hN => cases hN
  | .call hcallee h => by
    have hparts := hcallee.parts hts (.start rfl)
    exact h.parts (hcallee.isSuffix.trans hts) (.calls hparts hts fun rest e h => .call hcallee h)
  | .noArguments => by
    cases hN with
    | calls hcallee => exact hcallee
    | start hN => cases hN
  | @Derives.applied _ _ _ p q callee ts mid _ list e hlist h => by
    cases hN with
    | @calls _ start _ hcallee hstart hhead =>
      have hnext (rest : List (Token Place)) (e : Expr Place)
          (h : Derives join ok (.calls (.call (join callee.place q) callee list)) mid rest e) :
          Derives join ok .call start rest e :=
        hhead rest e (.applied hlist h)
      have hpart := Part.statement hstart (hnext mid _ .noArguments).ofCall
      have hts₁ := isSuffix_of_cons hts
      have hchildren := hlist.parts hts₁
      have hparts := Parts.of_children hpart (by simpa [Expr.children] using ⟨hcallee, hchildren⟩)
      exact h.parts (isSuffix_of_cons (hlist.isSuffix.trans hts₁)) (.calls hparts hstart hnext)
    | start hN => cases hN
  | .int => .leaf rfl (.statement hts Derives.int.ofAtom)
  | .float => .leaf rfl (.statement hts Derives.float.ofAtom)
  | .string => .leaf rfl (.statement hts Derives.string.ofAtom)
  | .reference => .leaf rfl (.statement hts Derives.reference.ofAtom)
  | .literal => .leaf rfl (.statement hts Derives.literal.ofAtom)
  | .parenthesis h => by
    have hpart := Part.statement hts (Derives.parenthesis h).ofAtom
    have hchildren := (h.parts (isSuffix_of_cons hts) (.start rfl)).children
    exact .of_children hpart (by rwa [Expr.children_withPlace])
  | .blocks hcondition hthen helse => by
    have hpart := Part.statement hts (Derives.blocks hcondition hthen helse).ofAtom
    have hts₁ := isSuffix_of_cons (hcondition.isSuffix.trans (isSuffix_of_cons hts))
    have hts₂ := isSuffix_of_cons (hthen.isSuffix.trans hts₁)
    have h₁ := hcondition.parts (isSuffix_of_cons hts) (.start rfl)
    have h₂ := hthen.parts hts₁ (.start rfl)
    have h₃ := helse.parts hts₂ (.start rfl)
    exact .of_children hpart (by simpa [Expr.children] using ⟨h₁, h₂, h₃⟩)
  | .branches hcondition hthen helse hend => by
    have hpart := Part.statement hts (Derives.branches hcondition hthen helse hend).ofAtom
    have hts₁ := isSuffix_of_cons (hcondition.isSuffix.trans (isSuffix_of_cons hts))
    have hts₂ := isSuffix_of_cons (hthen.isSuffix.trans hts₁)
    have h₁ := hcondition.parts (isSuffix_of_cons hts) (.start rfl)
    have h₂ := hthen.parts hts₁ (.start rfl)
    have h₃ := helse.parts hts₂ (.start rfl)
    exact .of_children hpart (by simpa [Expr.children] using ⟨h₁, h₂, h₃⟩)
  | .loop hcondition hbody => by
    have hpart := Part.statement hts (Derives.loop hcondition hbody).ofAtom
    have h₁ := hcondition.parts (isSuffix_of_cons hts) (.start rfl)
    have h₂ := hbody.parts (hcondition.isSuffix.trans (isSuffix_of_cons hts)) (.start rfl)
    exact .of_children hpart (by simpa [Expr.children] using ⟨h₁, h₂⟩)
  | .function hsignature hbody => by
    have hpart := Part.statement hts (Derives.function hsignature hbody).ofAtom
    have h₁ := hbody.parts (hsignature.isSuffix.trans (isSuffix_of_cons hts)) (.start rfl)
    exact .of_children hpart (by simpa [Expr.children] using h₁)
  | .block h => .of_children (.block hts (.block h)) (h.parts (isSuffix_of_cons hts))

theorem DerivesRow.parts {N : Row} {ts rest : List (Token Place)} {list : List (Expr Place)}
    (hts : ts <:+ all) : DerivesRow join ok N ts rest list → ∀ e ∈ list, Parts join ok all e
  | .noStatement _ | .empty | .noArgument => by simp
  | .statements hsep hfirst h => by
    have hts₁ := hsep.isSuffix.trans hts
    exact List.forall_mem_cons.mpr
      ⟨hfirst.parts hts₁ (.start rfl), h.parts (hfirst.isSuffix.trans hts₁)⟩
  | .nextStatement ht hsep hnext h => by
    have hts₁ := hsep.isSuffix.trans (isSuffix_of_cons hts)
    exact List.forall_mem_cons.mpr
      ⟨hnext.parts hts₁ (.start rfl), h.parts (hnext.isSuffix.trans hts₁)⟩
  | .arguments hfirst h => by
    exact List.forall_mem_cons.mpr
      ⟨hfirst.parts hts (.start rfl), h.parts (hfirst.isSuffix.trans hts)⟩
  | .nextArgument hnext h => by
    have hts₁ := isSuffix_of_cons hts
    exact List.forall_mem_cons.mpr
      ⟨hnext.parts hts₁ (.start rfl), h.parts (hnext.isSuffix.trans hts₁)⟩

end

/-! ## Blocks -/

/-- Only the line for blocks gives blocks. -/
def Symbol.Plain : Symbol Place → Prop
  | .operators _ left | .calls left => left.isBlock = false
  | .block => False
  | _ => True

theorem Derives.isBlock {N : Symbol Place} {ts rest : List (Token Place)} {e : Expr Place} :
    Derives join ok N ts rest e → N.Plain → e.isBlock = false
  | .pass, _ | .assign _ _, _ | .signed .., _ | .int, _ | .float, _ | .string, _ | .reference, _
  | .literal, _ | .blocks .., _ | .branches .., _ | .loop .., _ | .function .., _ => rfl
  | .statement h, _ | .expression h, _ => h.isBlock trivial
  | .chain (l := l) hfirst h, _ => h.isBlock (hfirst.isBlock (by cases l <;> trivial))
  | .call hcallee h, _ => h.isBlock (hcallee.isBlock trivial)
  | .noOperator, hN | .noArguments, hN => hN
  | .operator _ _ _ _ h, _ | .applied _ h, _ => h.isBlock rfl
  | .parenthesis h, _ => by
    rw [Expr.isBlock_withPlace]
    exact h.isBlock trivial

/-! ## Places -/

section

variable {u v w : List (Token Span)} {p q : Span}

/-- A span runs from the first of some tokens to the last. -/
def Covers (u : List (Token Span)) (p : Span) : Prop :=
  ∃ first last, u.head? = some first ∧ u.getLast? = some last ∧ p = first.place.through last.place

theorem Covers.single (t : Token Span) : Covers [t] t.place := ⟨t, t, rfl, rfl, rfl⟩

theorem Covers.through (h : Covers u p) (w : List (Token Span)) (h' : Covers v q) :
    Covers (u ++ (w ++ v)) (p.through q) := by
  obtain ⟨first, _, hfirst, -, rfl⟩ := h
  obtain ⟨_, last, -, hlast, rfl⟩ := h'
  exact ⟨first, last, by simp [hfirst], by simp [List.getLast?_append, hlast], rfl⟩

/-- From a first token to what the last part of some tokens covers. -/
theorem Covers.upTo {ts mid rest : List (Token Span)} (t : Token Span) (hmid : mid <:+ ts)
    (h : ∃ v, mid = v ++ rest ∧ Covers v q) :
    ∃ u, t :: ts = u ++ rest ∧ ∀ w, w = [] → Covers (w ++ u) (t.place.through q) := by
  obtain ⟨u, rfl⟩ := hmid
  obtain ⟨v, rfl, hv⟩ := h
  refine ⟨t :: (u ++ v), by simp, fun w hw => ?_⟩
  subst hw
  exact (Covers.single t).through u hv

/-- The tokens in front of a repetition are those of the expression it is behind. -/
def Symbol.InFront : Symbol Span → List (Token Span) → Prop
  | .operators _ left, w | .calls left, w => Covers w left.place
  | _, w => w = []

variable {ok : Symbol Span → List (Token Span) → List (Token Span) → Prop}

/-- The place of what derives from a line runs from the first of its tokens to the last. -/
theorem Derives.covers {N : Symbol Span} {ts rest : List (Token Span)} {e : Expr Span} :
    Derives Span.through ok N ts rest e →
      ∃ u, ts = u ++ rest ∧ ∀ w, N.InFront w → Covers (w ++ u) e.place
  | .pass | .int | .float | .string | .reference | .literal => by
    refine ⟨[_], rfl, fun w hw => ?_⟩
    obtain rfl : w = [] := hw
    exact .single _
  | .statement h | .expression h => h.covers
  | .assign h _ => by
    obtain ⟨v, hv, hcovers⟩ := h.covers
    exact Covers.upTo ⟨_, _⟩ ⟨[_, _], rfl⟩ ⟨v, hv, hcovers [] rfl⟩
  | .chain (l := l) hfirst h => by
    obtain ⟨u, rfl, hu⟩ := hfirst.covers
    obtain ⟨v, rfl, hv⟩ := h.covers
    refine ⟨u ++ v, (List.append_assoc ..).symm, fun w hw => ?_⟩
    obtain rfl : w = [] := hw
    have hcovers := hu [] (by cases l <;> rfl)
    exact hv u hcovers
  | .signed _ _ h => by
    obtain ⟨v, hv, hcovers⟩ := h.covers
    exact Covers.upTo _ (List.suffix_refl _) ⟨v, hv, hcovers [] rfl⟩
  | .noOperator | .noArguments => ⟨[], rfl, fun w hw => by rwa [List.append_nil]⟩
  | .operator (t := t) _ _ hright _ h => by
    obtain ⟨u, rfl, hu⟩ := hright.covers
    obtain ⟨v, rfl, hv⟩ := h.covers
    refine ⟨t :: (u ++ v), by simp, fun w hw => ?_⟩
    have hcovers := Covers.through hw [t] (hu [] rfl)
    simpa using hv _ hcovers
  | .call hcallee h => by
    obtain ⟨u, rfl, hu⟩ := hcallee.covers
    obtain ⟨v, rfl, hv⟩ := h.covers
    refine ⟨u ++ v, (List.append_assoc ..).symm, fun w hw => ?_⟩
    obtain rfl : w = [] := hw
    exact hv u (hu [] rfl)
  | .applied (p := p) (q := q) hlist h => by
    obtain ⟨u, hu⟩ := hlist.isSuffix
    obtain ⟨v, rfl, hv⟩ := h.covers
    subst hu
    refine ⟨⟨.mark .leftParen, p⟩ :: (u ++ ⟨.mark .rightParen, q⟩ :: v), by simp, fun w hw => ?_⟩
    have hcovers := Covers.through hw (⟨.mark .leftParen, p⟩ :: u) (.single ⟨.mark .rightParen, q⟩)
    simpa using hv _ hcovers
  | .parenthesis h => by
    rw [Expr.place_withPlace]
    exact Covers.upTo ⟨_, _⟩ h.isSuffix ⟨[⟨_, _⟩], rfl, .single _⟩
  | .blocks hcondition hthen helse => by
    obtain ⟨v, hv, hcovers⟩ := helse.covers
    have hmid := isSuffix_of_cons (hthen.isSuffix.trans (isSuffix_of_cons hcondition.isSuffix))
    exact Covers.upTo ⟨_, _⟩ hmid ⟨v, hv, hcovers [] rfl⟩
  | .branches hcondition hthen helse _ => by
    obtain ⟨v, hv, hcovers⟩ := helse.covers
    have hmid := isSuffix_of_cons (hthen.isSuffix.trans (isSuffix_of_cons hcondition.isSuffix))
    exact Covers.upTo ⟨_, _⟩ hmid ⟨v, hv, hcovers [] rfl⟩
  | .loop hcondition hbody => by
    obtain ⟨v, hv, hcovers⟩ := hbody.covers
    exact Covers.upTo ⟨_, _⟩ hcondition.isSuffix ⟨v, hv, hcovers [] rfl⟩
  | .function hsignature hbody => by
    obtain ⟨v, hv, hcovers⟩ := hbody.covers
    exact Covers.upTo ⟨_, _⟩ hsignature.isSuffix ⟨v, hv, hcovers [] rfl⟩
  | .block h => Covers.upTo ⟨_, _⟩ h.isSuffix ⟨[⟨_, _⟩], rfl, .single _⟩

/-- A list of statements without the separators behind it, which runs to the last statement. -/
theorem DerivesRow.trim {ts rest : List (Token Span)} {list : List (Expr Span)}
    (h : DerivesRow Span.through ok .moreStatements ts rest list) :
    ∃ u sep, ts = u ++ sep ∧ DerivesRow Span.through ok .moreStatements ts sep list ∧
      ∀ w (e : Expr Span), Covers w e.place →
        Covers (w ++ u) (e.place.through (list.getLast?.getD e).place) := by
  induction list generalizing ts with
  | nil =>
    refine ⟨[], ts, rfl, .noStatement .none, fun w e h => ?_⟩
    obtain ⟨first, last, hfirst, hlast, he⟩ := h
    rw [List.append_nil]
    exact ⟨first, last, hfirst, hlast, by rw [List.getLast?_nil, Option.getD_none, he]; rfl⟩
  | cons e list ih =>
    cases h with
    | @nextStatement t ts ts₁ _ _ _ _ ht hsep hnext h =>
      obtain ⟨u, sep, rfl, hrow, hcovers⟩ := ih h
      obtain ⟨v, rfl, hv⟩ := hnext.covers
      obtain ⟨x, rfl⟩ := hsep.isSuffix
      refine ⟨t :: (x ++ (v ++ u)), sep, by simp, .nextStatement ht hsep hnext hrow, ?_⟩
      intro w first hw
      have hlast : ((e :: list).getLast?.getD first).place = (list.getLast?.getD e).place := by
        rw [List.getLast?_cons, Option.getD_some]
      rw [hlast]
      have hall := Covers.through hw (t :: x) (hcovers v e (hv [] rfl))
      exact hall

/-- A program without the separators around it, which has the place of the whole program. -/
theorem DerivesRow.core {g : Setting Span} (hg : g.join = Span.through) {ts : List (Token Span)}
    {list : List (Expr Span)} (h : DerivesRow Span.through ok .statements ts [] list) :
    ∃ pre u post, ts = pre ++ (u ++ post) ∧
      DerivesRow Span.through ok .statements (u ++ post) post list ∧ Covers u (extent g list) := by
  cases h with
  | @statements _ ts₁ _ _ e list hsep hfirst h =>
    obtain ⟨u, post, rfl, hrow, hcovers⟩ := h.trim
    obtain ⟨v, rfl, hv⟩ := hfirst.covers
    obtain ⟨pre, rfl⟩ := hsep.isSuffix
    refine ⟨pre, v ++ u, post, by simp, ?_, ?_⟩
    · rw [List.append_assoc]
      exact .statements .none hfirst hrow
    · rw [extent, hg, List.head?_cons, List.getLast?_cons]
      exact hcovers v e (hv [] rfl)

end

end Grammar
end Cyan
