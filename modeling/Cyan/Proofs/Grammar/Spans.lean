/-
The spans of a tree are nested and ordered.

The span of a node runs from the beginning of one token to the end of another, the spans of its
children lie within it, and they lie one behind the other.  A block in braces has the span from its
opening brace to the closing brace that matches it.  `Expr.ofSource?_nested` says this of every node of
every program.

What carries it is that the children of a node are read from separate stretches of its own tokens
(`Derives.laid`).  The left operand of an operator and the callee of a call are read before the node is
known that they become part of, so a repetition is behind tokens that are already laid out.  The tokens
of a text are not empty and do not overlap, and this turns stretches of them into spans.
-/
import Cyan.Proofs.Grammar.Nodes
import Cyan.Proofs.Grammar.Lines
import Cyan.Proofs.Grammar.Sources
import Cyan.Proofs.Token.Partition

namespace Cyan

open Grammar

/-! ## Tokens in the order of a text -/

/-- Tokens one behind the other, none of which is empty. -/
structure InOrder (ts : List (Token Span)) : Prop where
  start_lt_stop : ∀ t ∈ ts, t.place.start.index < t.place.stop.index
  pairwise : ts.Pairwise fun t u => t.place.stop.index ≤ u.place.start.index

theorem InOrder.sublist {ts u : List (Token Span)} (h : InOrder ts) (hu : u.Sublist ts) : InOrder u where
  start_lt_stop t ht := h.start_lt_stop t (hu.subset ht)
  pairwise := h.pairwise.sublist hu

theorem Cuts.inOrder {source : Source} {pieces : List Piece} {dot dot' : Bool} {rest : List Char}
    (h : Cuts dot source.text.toList pieces dot' rest) (start : Position) :
    InOrder (Piece.tokens source start pieces) where
  start_lt_stop t ht := by
    obtain ⟨front, p, back, rfl, -, hplace⟩ := Piece.exists_of_mem_tokens ht
    obtain ⟨_, _, -, hp⟩ := h.split
    have hpos := hp.byteCount_pos
    rw [hplace, Position.index_past, Position.index_past, byteCount_append]
    omega
  pairwise := Piece.tokens_pairwise source start pieces

namespace Grammar

variable {ts mid rest u v w : List (Token Span)} {list list' : List (Expr Span)} {e : Expr Span}
  {p : Span}

theorem Covers.start_le (h : Covers u p) (hu : InOrder u) {t : Token Span} (ht : t ∈ u) :
    p.start.index ≤ t.place.start.index := by
  obtain ⟨first, last, hfirst, -, rfl⟩ := h
  obtain ⟨u, rfl⟩ := List.head?_eq_some_iff.mp hfirst
  rcases List.mem_cons.mp ht with rfl | ht
  · exact Nat.le_refl _
  · have hlt := hu.start_lt_stop first List.mem_cons_self
    have hle := (List.pairwise_cons.mp hu.pairwise).1 t ht
    exact (Nat.le_of_lt hlt).trans hle

theorem Covers.le_stop (h : Covers u p) (hu : InOrder u) {t : Token Span} (ht : t ∈ u) :
    t.place.stop.index ≤ p.stop.index := by
  obtain ⟨first, last, -, hlast, rfl⟩ := h
  obtain ⟨u, rfl⟩ := List.getLast?_eq_some_iff.mp hlast
  rcases List.mem_append.mp ht with ht | ht
  · have hle := (List.pairwise_append.mp hu.pairwise).2.2 t ht last (List.mem_singleton_self last)
    have hlt := hu.start_lt_stop last (by simp)
    exact hle.trans (Nat.le_of_lt hlt)
  · obtain rfl := List.mem_singleton.mp ht
    exact Nat.le_refl _

/-- A span runs from a token to a token. -/
theorem Covers.exists_through (h : Covers u p) :
    ∃ first ∈ u, ∃ last ∈ u, p = first.place.through last.place := by
  obtain ⟨first, last, hfirst, hlast, rfl⟩ := h
  exact ⟨first, List.mem_of_head? hfirst, last, List.mem_of_getLast? hlast, rfl⟩

/-- What covers some of the tokens lies within what covers them all. -/
theorem Covers.within {q : Span} (h : Covers u p) (hu : InOrder u) (hq : Covers v q)
    (hv : v.Sublist u) : p.start.index ≤ q.start.index ∧ q.stop.index ≤ p.stop.index := by
  obtain ⟨first, hfirst, last, hlast, rfl⟩ := hq.exists_through
  exact ⟨h.start_le hu (hv.subset hfirst), h.le_stop hu (hv.subset hlast)⟩

theorem Covers.start_lt_stop (h : Covers u p) (hu : InOrder u) : p.start.index < p.stop.index := by
  obtain ⟨first, hfirst, _, _, hp⟩ := h.exists_through
  have hlt := hu.start_lt_stop first hfirst
  have hle := h.le_stop hu hfirst
  rw [hp] at hle ⊢
  exact Nat.lt_of_lt_of_le hlt hle

/-! ## Expressions laid out in tokens -/

/-- Expressions cover separate stretches of some tokens, one behind the other. -/
inductive Stretches : List (Token Span) → List (Expr Span) → Prop
  | nil {u : List (Token Span)} : Stretches u []
  | cons {gap v u : List (Token Span)} {e : Expr Span} {list : List (Expr Span)} :
    Covers v e.place → Stretches u list → Stretches (gap ++ (v ++ u)) (e :: list)

namespace Stretches

theorem single (h : Covers u e.place) : Stretches u [e] := by
  have hstretches : Stretches ([] ++ (u ++ [])) [e] := .cons h .nil
  rwa [List.append_nil, List.nil_append] at hstretches

theorem behind (h : Stretches v list) (u : List (Token Span)) : Stretches (u ++ v) list := by
  cases h with
  | nil => exact .nil
  | cons he h =>
    rw [← List.append_assoc]
    exact .cons he h

theorem append (h : Stretches u list) (h' : Stretches v list') :
    Stretches (u ++ v) (list ++ list') := by
  induction h with
  | nil => exact h'.behind _
  | cons he _ ih =>
    rw [List.append_assoc, List.append_assoc, List.cons_append]
    exact .cons he ih

theorem before (h : Stretches u list) (v : List (Token Span)) : Stretches (u ++ v) list := by
  have happend := h.append (.nil (u := v))
  rwa [List.append_nil] at happend

theorem exists_covers (h : Stretches u list) (he : e ∈ list) : ∃ v, v.Sublist u ∧ Covers v e.place := by
  induction h with
  | nil => cases he
  | @cons gap v u first list hfirst _ ih =>
    rcases List.mem_cons.mp he with rfl | he
    · exact ⟨v, (List.sublist_append_left v u).trans (List.sublist_append_right gap _), hfirst⟩
    · obtain ⟨x, hx, hcovers⟩ := ih he
      exact ⟨x, hx.trans ((List.sublist_append_right v u).trans (List.sublist_append_right gap _)),
        hcovers⟩

theorem pairwise (h : Stretches u list) (hu : InOrder u) :
    list.Pairwise fun a b => a.place.stop.index ≤ b.place.start.index := by
  induction h with
  | nil => exact .nil
  | @cons gap v u first list hfirst hlist ih =>
    have hvu := hu.sublist (List.sublist_append_right gap (v ++ u))
    refine .cons (fun e he => ?_) (ih (hvu.sublist (List.sublist_append_right v u)))
    obtain ⟨x, hx, hcovers⟩ := hlist.exists_covers he
    obtain ⟨_, _, last, hlast, hstop⟩ := hfirst.exists_through
    obtain ⟨start, hstart, _, _, hplace⟩ := hcovers.exists_through
    rw [hstop, hplace]
    exact (List.pairwise_append.mp hvu.pairwise).2.2 last hlast start (hx.subset hstart)

end Stretches

/-- Expressions are laid out in the tokens in front of `rest`. -/
def Laid (ts rest : List (Token Span)) (list : List (Expr Span)) : Prop :=
  ∃ u, ts = u ++ rest ∧ Stretches u list

namespace Laid

theorem ofSuffix (h : rest <:+ ts) : Laid ts rest [] := by
  obtain ⟨u, rfl⟩ := h
  exact ⟨u, rfl, .nil⟩

theorem trans (h : Laid ts mid list) (h' : Laid mid rest list') : Laid ts rest (list ++ list') := by
  obtain ⟨u, rfl, hu⟩ := h
  obtain ⟨v, rfl, hv⟩ := h'
  exact ⟨u ++ v, (List.append_assoc ..).symm, hu.append hv⟩

theorem cons (t : Token Span) (h : Laid ts rest list) : Laid (t :: ts) rest list :=
  (ofSuffix (List.suffix_cons t ts)).trans h

/-- Also the next token is read. -/
theorem next {t : Token Span} (h : Laid ts (t :: rest) list) : Laid ts rest list := by
  have hnext := h.trans (ofSuffix (List.suffix_cons t rest))
  rwa [List.append_nil] at hnext

end Laid

variable {ok : Symbol Span → List (Token Span) → List (Token Span) → Prop}

/-- What derives from a line that is no repetition is laid out in its tokens. -/
theorem Derives.laid_self {N : Symbol Span} (h : Derives Span.through ok N ts rest e)
    (hN : N.InFront []) : Laid ts rest [e] := by
  obtain ⟨u, hts, hu⟩ := h.covers
  exact ⟨u, hts, .single (hu [] hN)⟩

/-- What covers some tokens and has its children laid out in them has both for the same tokens. -/
theorem Derives.covers_laid {N : Symbol Span} (h : Derives Span.through ok N ts rest e)
    (hN : N.InFront []) (hlaid : Laid ts rest e.children) :
    ∃ u, ts = u ++ rest ∧ Covers u e.place ∧ Stretches u e.children := by
  obtain ⟨u, hts, hcovers⟩ := h.covers
  obtain ⟨v, hv, hchildren⟩ := hlaid
  obtain rfl : u = v := List.append_cancel_right (hts.symm.trans hv)
  exact ⟨u, hts, hcovers [] hN, hchildren⟩

/-- The tokens in front of a repetition are those of the expression it is behind, and the children of
this expression are laid out in them. -/
def Symbol.Held : Symbol Span → List (Token Span) → Prop
  | .operators _ left, w | .calls left, w => Covers w left.place ∧ Stretches w left.children
  | _, w => w = []

mutual

/-- The children of what derives from a line are laid out in its tokens. -/
theorem Derives.laid {N : Symbol Span} {ts rest w : List (Token Span)} {e : Expr Span} :
    Derives Span.through ok N ts rest e → N.Held w → Laid (w ++ ts) rest e.children
  | .pass, _ | .int, _ | .float, _ | .string, _ | .reference, _ | .literal, _ =>
    .ofSuffix ((List.suffix_cons _ _).trans (List.suffix_append w _))
  | .statement h, hw | .expression h, hw => h.laid hw
  | .assign h _, hw => by
    obtain rfl : w = [] := hw
    exact (((h.laid_self rfl).cons _).cons _).cons _
  | .chain (l := l) hfirst h, hw => by
    obtain rfl : w = [] := hw
    have hN : (nextLine l).InFront [] := by cases l <;> rfl
    have hheld : (nextLine l).Held [] := by cases l <;> rfl
    obtain ⟨u, rfl, hu⟩ := hfirst.covers_laid hN (hfirst.laid hheld)
    exact h.laid hu
  | .signed _ _ h, hw => by
    obtain rfl : w = [] := hw
    exact (h.laid_self rfl).cons _
  | .noOperator, hw | .noArguments, hw => ⟨w, rfl, hw.2⟩
  | .operator (t := t) _ _ hright _ h, hw => by
    obtain ⟨u, hu, hcovers⟩ := hright.covers
    have hoperands := (Stretches.single hw.1).append ((Stretches.single (hcovers [] rfl)).behind [t])
    have hlaid := h.laid ⟨Covers.through hw.1 [t] (hcovers [] rfl), hoperands⟩
    simpa [hu] using hlaid
  | .call hcallee h, hw => by
    obtain rfl : w = [] := hw
    obtain ⟨u, rfl, hu⟩ := hcallee.covers_laid rfl (hcallee.laid (w := []) rfl)
    exact h.laid hu
  | .applied (p := p) (q := q) hlist h, hw => by
    obtain ⟨u, hu, hlist⟩ := hlist.laid
    have hcovers := Covers.through hw.1 (⟨.mark .leftParen, p⟩ :: u) (.single ⟨.mark .rightParen, q⟩)
    have harguments := (hlist.before [⟨.mark .rightParen, q⟩]).behind [⟨.mark .leftParen, p⟩]
    have hlaid := h.laid ⟨hcovers, (Stretches.single hw.1).append harguments⟩
    simpa [hu] using hlaid
  | .parenthesis h, hw => by
    obtain rfl : w = [] := hw
    rw [Expr.children_withPlace]
    exact (h.laid (w := []) rfl).next.cons _
  | .blocks hcondition hthen helse, hw | .branches hcondition hthen helse _, hw => by
    obtain rfl : w = [] := hw
    have hbranches := (hthen.laid_self rfl).next.trans (helse.laid_self rfl)
    exact ((hcondition.laid_self rfl).next.trans hbranches).cons _
  | .loop hcondition hbody, hw => by
    obtain rfl : w = [] := hw
    exact ((hcondition.laid_self rfl).trans (hbody.laid_self rfl)).cons _
  | .function hsignature hbody, hw => by
    obtain rfl : w = [] := hw
    exact ((Laid.ofSuffix hsignature.isSuffix).trans (hbody.laid_self rfl)).cons _
  | .block h, hw => by
    obtain rfl : w = [] := hw
    exact h.laid.next.cons _

theorem DerivesRow.laid {N : Row} {ts rest : List (Token Span)} {list : List (Expr Span)} :
    DerivesRow Span.through ok N ts rest list → Laid ts rest list
  | .statements hsep hfirst h =>
    (Laid.ofSuffix hsep.isSuffix).trans ((hfirst.laid_self rfl).trans h.laid)
  | .noStatement hsep => .ofSuffix hsep.isSuffix
  | .nextStatement _ hsep hnext h =>
    ((Laid.ofSuffix hsep.isSuffix).trans ((hnext.laid_self rfl).trans h.laid)).cons _
  | .empty | .noArgument => .ofSuffix (List.suffix_refl _)
  | .arguments hfirst h => (hfirst.laid_self rfl).trans h.laid
  | .nextArgument hnext h => ((hnext.laid_self rfl).trans h.laid).cons _

end

end Grammar

/-! ## Nodes -/

/-- How the span of a node lies among the tokens of its text, and the spans of its children in it. -/
structure Expr.Nested (all : List (Token Span)) (e : Expr Span) : Prop where
  tokens : ∃ first ∈ all, ∃ last ∈ all, e.place = first.place.through last.place
  nonempty : e.place.start.index < e.place.stop.index
  within : ∀ c ∈ e.children,
    e.place.start.index ≤ c.place.start.index ∧ c.place.stop.index ≤ e.place.stop.index
  ordered : e.children.Pairwise fun a b => a.place.stop.index ≤ b.place.start.index

/-- A span from an opening brace to the closing brace that matches it, with expressions in between. -/
def Span.Braces (all : List (Token Span)) (place : Span) (list : List (Expr Span)) : Prop :=
  ∃ front p inner q back,
    all = front ++ ⟨.mark .leftBrace, p⟩ :: (inner ++ ⟨.mark .rightBrace, q⟩ :: back) ∧
      Balanced inner ∧ place = p.through q ∧
      ∀ e ∈ list, p.stop.index ≤ e.place.start.index ∧ e.place.stop.index ≤ q.start.index

variable {all ts rest u : List (Token Span)} {list : List (Expr Span)} {place : Span} {e : Expr Span}

theorem Expr.Nested.of_stretches (hall : InOrder all) (hu : u.Sublist all) (hcovers : Covers u e.place)
    (h : Stretches u e.children) : e.Nested all where
  tokens := by
    obtain ⟨first, hfirst, last, hlast, hplace⟩ := hcovers.exists_through
    exact ⟨first, hu.subset hfirst, last, hu.subset hlast, hplace⟩
  nonempty := hcovers.start_lt_stop (hall.sublist hu)
  within c hc := by
    obtain ⟨v, hv, hc⟩ := h.exists_covers hc
    exact hcovers.within (hall.sublist hu) hc hv
  ordered := h.pairwise (hall.sublist hu)

namespace Grammar

variable {ok : Symbol Span → List (Token Span) → List (Token Span) → Prop}

theorem Derives.nested {N : Symbol Span} (h : Derives Span.through ok N ts rest e)
    (hN : N.repeats = false) (hall : InOrder all) (hts : ts.Sublist all) : e.Nested all := by
  have hfront : N.InFront [] := by cases N <;> first | rfl | cases hN
  have hheld : N.Held [] := by cases N <;> first | rfl | cases hN
  obtain ⟨u, rfl, hu, hchildren⟩ := h.covers_laid hfront (h.laid hheld)
  exact .of_stretches hall ((List.sublist_append_left u rest).trans hts) hu hchildren

theorem Part.nested (h : Part Span.through ok all e) (hall : InOrder all) : e.Nested all := by
  cases h with
  | statement hts h => exact h.nested rfl hall hts.sublist
  | block hts h => exact h.nested rfl hall hts.sublist

/-- A block is read from braces that match. -/
theorem Part.braces (h : Part Span.through ok all (.block place list)) (hall : InOrder all) :
    place.Braces all list := by
  cases h with
  | statement _ h => cases h.isBlock trivial
  | block hts h =>
    obtain ⟨front, rfl⟩ := hts
    cases h with
    | @block p q ts _ _ hrow =>
      obtain ⟨inner, rfl, habove⟩ := hrow.climbs
      obtain ⟨v, hv, hlaid⟩ := hrow.laid
      obtain rfl : inner = v := List.append_cancel_right hv
      refine ⟨front, p, inner, q, _, rfl, habove.toBalanced, rfl, fun e he => ?_⟩
      obtain ⟨x, hx, hcovers⟩ := hlaid.exists_covers he
      obtain ⟨first, hfirst, last, hlast, hplace⟩ := hcovers.exists_through
      have hinside := (List.pairwise_append.mp hall.pairwise).2.1
      obtain ⟨hopen, hinside⟩ := List.pairwise_cons.mp hinside
      have hclose := (List.pairwise_append.mp hinside).2.2
      rw [hplace]
      exact ⟨hopen first (List.mem_append_left _ (hx.subset hfirst)),
        hclose last (hx.subset hlast) _ List.mem_cons_self⟩

end Grammar

/-- The spans of a program are nested and ordered, and those of its blocks are braces that match. -/
theorem Expr.ofSource?_nested {source : Source} {root : Expr Span}
    (h : Expr.ofSource? source = .ok root) :
    ∃ s, TokenStream.ofSource? source = .ok s ∧ (∀ node ∈ root.nodes, node.Nested s.tokens) ∧
      ∀ place list, Expr.block place list ∈ root.nodes.tail → place.Braces s.tokens list := by
  obtain ⟨pieces, dot, list, hcuts, rfl, hrow⟩ := Expr.ofSource?_block h
  have hall := hcuts.inOrder Position.origin
  have hpart : ∀ c ∈ list, Parts Span.through (Farthest Span.through)
      (Piece.tokens source Position.origin pieces) c := hrow.parts (List.suffix_refl _)
  refine ⟨_, TokenStream.ofSource?_of_cuts hcuts, Expr.forall_nodes ?_ ?_, ?_⟩
  · obtain ⟨pre, u, post, htokens, hcore, hcovers⟩ := hrow.core (g := rewinding _ _) rfl
    obtain ⟨v, hv, hlaid⟩ := hcore.laid
    obtain rfl : u = v := List.append_cancel_right hv
    rw [htokens] at hall
    rw [htokens]
    have hu := (List.sublist_append_left u post).trans (List.sublist_append_right pre _)
    exact .of_stretches hall hu hcovers hlaid
  · exact fun c hc node hnode => (hpart c hc node hnode).nested hall
  · intro place inner hnode
    rw [Expr.nodes_eq, List.tail_cons] at hnode
    obtain ⟨c, hc, hnode⟩ := List.mem_flatMap.mp hnode
    exact (hpart c hc _ hnode).braces hall

/-- A sum in the body of a function, with a call on its left and parentheses on its right. -/
theorem Expr.ofSource?_nested_sum :
    let source : Source := ⟨"<stdin>", "fun g() \x7b f(1) + (2) \x7d"⟩
    let span (start stop : Nat) : Span := ⟨source, ⟨start, 0, start⟩, ⟨stop, 0, stop⟩⟩
    let sum : Expr Span := .binary (span 10 20) .add
      (.call (span 10 14) (.reference (span 10 11) "f") [.number (span 12 13) (.int 1)])
      (.number (span 17 20) (.int 2))
    Expr.ofSource? source = .ok (.block (span 0 22)
      [.function (span 0 22) (some "g") [] (.block (span 8 22) [sum])]) ∧
    ∃ s, TokenStream.ofSource? source = .ok s ∧ sum.Nested s.tokens ∧
      (span 8 22).Braces s.tokens [sum] := by
  -- The text is scanned first, which is all that does not reduce by itself.
  have htokens : TokenStream.ofSource? ⟨"<stdin>", "fun g() \x7b f(1) + (2) \x7d"⟩ = .ok
      (let span (start stop : Nat) : Span :=
        ⟨⟨"<stdin>", "fun g() \x7b f(1) + (2) \x7d"⟩, ⟨start, 0, start⟩, ⟨stop, 0, stop⟩⟩
      ⟨[⟨.keyword .fun_, span 0 3⟩, ⟨.identifier "g", span 4 5⟩, ⟨.mark .leftParen, span 5 6⟩,
        ⟨.mark .rightParen, span 6 7⟩, ⟨.mark .leftBrace, span 8 9⟩, ⟨.identifier "f", span 10 11⟩,
        ⟨.mark .leftParen, span 11 12⟩, ⟨.int 1, span 12 13⟩, ⟨.mark .rightParen, span 13 14⟩,
        ⟨.mark .plus, span 15 16⟩, ⟨.mark .leftParen, span 17 18⟩, ⟨.int 2, span 18 19⟩,
        ⟨.mark .rightParen, span 19 20⟩, ⟨.mark .rightBrace, span 21 22⟩], span 22 22⟩) := by cbv
  intro source span sum
  have h : Expr.ofSource? source = .ok (.block (span 0 22)
      [.function (span 0 22) (some "g") [] (.block (span 8 22) [sum])]) := by
    rw [Expr.ofSource?, htokens]
    rfl
  obtain ⟨s, hs, hnodes, hblocks⟩ := Expr.ofSource?_nested h
  refine ⟨h, s, hs, hnodes sum ?_, hblocks (span 8 22) [sum] ?_⟩
  · simp [nodes, nodesBefore, allNodesBefore, sum]
  · simp [nodes, nodesBefore, allNodesBefore]

end Cyan
