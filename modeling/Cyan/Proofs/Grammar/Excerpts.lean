/-
The text of a node is that node.

The text that a node of a program covers is a program by itself, of one statement, and the statement is
the node with positions counted from where its text begins.  A pair of braces is no statement: the text
between its braces is a program with its statements, and so is the text of the whole program.
`Expr.ofSource?_nodes` says all three.

Three facts come together for it: the tokens that a node is read from derive to it when nothing follows
them (`Derives.alone`), a stretch of a text is cut up by itself as it is in the text (`Cuts.excerpt`),
and the place of a node runs from the first of its tokens to the last (`Derives.covers`).
-/
import Cyan.Proofs.Grammar.Nodes
import Cyan.Proofs.Grammar.Sources
import Cyan.Proofs.Token.Partition

namespace Cyan

open Grammar

theorem Grammar.DerivesRow.head_ne_dot {join : Span → Span → Span}
    {ok : Symbol Span → List (Token Span) → List (Token Span) → Prop} {t : Token Span}
    {ts rest : List (Token Span)} {list : List (Expr Span)}
    (h : DerivesRow join ok .statements (t :: ts) rest list) : t.kind ≠ .mark .dot := by
  intro hdot
  cases h with
  | statements hsep hfirst =>
    cases hsep with
    | none =>
      have hbegins := starts_cons.mp hfirst.begins
      rw [hdot] at hbegins
      cases hbegins
    | more ht =>
      rw [hdot] at ht
      cases ht

variable {source : Source} {dot : Bool} {front mid back : List Piece} {list : List (Expr Span)}

/-- A stretch of a text whose tokens are a row of statements is a program with these statements. -/
theorem Cuts.reads (h : Cuts false source.text.toList (front ++ (mid ++ back)) dot [])
    (hrow : DerivesRow Span.through (Farthest Span.through) .statements
      (Piece.tokens source (Position.origin.past (Piece.texts front)) mid) [] list) (name : String) :
    Source.Reads ⟨name, String.ofList (Piece.texts mid)⟩
      (Span.within source (Position.origin.past (Piece.texts front))) list := by
  have hpoint : ∀ p ∈ mid.head?, p.kind? ≠ some (.mark .dot) := by
    intro p hp hkind
    obtain ⟨rest, rfl⟩ := List.head?_eq_some_iff.mp hp
    rw [Piece.tokens_cons_some hkind] at hrow
    exact hrow.head_ne_dot rfl
  obtain ⟨dot', hcuts⟩ := h.excerpt hpoint
  have hjoins : Joins (Span.within source (Position.origin.past (Piece.texts front))) Span.through
      Span.through := fun _ _ => rfl
  rw [← String.toList_ofList (l := Piece.texts mid)] at hcuts
  refine (Source.reads_iff hjoins hcuts).mpr ?_
  rw [Piece.tokens_within, Position.beyond_origin]
  exact hrow

/-- Tokens that are a row of statements cover a text that is a program with these statements. -/
theorem Cuts.reads_covered {pieces : List Piece} (h : Cuts false source.text.toList pieces dot [])
    {pre u post : List (Token Span)} {place : Span}
    (htokens : Piece.tokens source Position.origin pieces = pre ++ (u ++ post))
    (hplace : Covers u place)
    (hrow : DerivesRow Span.through (Farthest Span.through) .statements u [] list) (name : String) :
    Source.Reads ⟨name, place.text⟩ (Span.within source place.start) list := by
  obtain ⟨first, last, hfirst, hlast, rfl⟩ := hplace
  obtain ⟨front, mid, back, rfl, hmid, hspan⟩ := Piece.stretch htokens hfirst hlast
  have htext : source.text.toList = Piece.texts front ++ Piece.texts mid ++ Piece.texts back := by
    rw [h.text_eq]
    simp
  rw [hspan, Piece.texts_append, Span.text_of_split htext]
  rw [← hmid] at hrow
  exact h.reads hrow name

/-- A brace is a piece of one character. -/
theorem Cuts.text_mark {pieces : List Piece} {p : Piece} {m : Mark}
    (h : Cuts false source.text.toList (front ++ p :: pieces) dot []) (hkind : p.kind? = some (.mark m)) :
    p.text = m.spelling.toList := by
  obtain ⟨_, _, -, hpieces⟩ := h.split
  obtain ⟨hspelled, -⟩ := hpieces.lexeme hkind
  generalize p.text = cs at hspelled ⊢
  cases hspelled
  rfl

/-- The text between the braces of a block is a program with its statements. -/
theorem Cuts.reads_braces {pieces : List Piece} (h : Cuts false source.text.toList pieces dot [])
    {pre ts rest : List (Token Span)} {place : Span}
    (htokens : Piece.tokens source Position.origin pieces = pre ++ ts)
    (hblock : Derives Span.through (Farthest Span.through) .block ts rest (.block place list))
    (name : String) :
    ∃ inner, place.text = "\x7b" ++ inner ++ "\x7d" ∧
      Source.Reads ⟨name, inner⟩ (Span.within source (place.start.after '\x7b')) list := by
  cases hblock with
  | @block p q ts _ _ hrow =>
    obtain ⟨v, rfl, halone⟩ := hrow.alone
    obtain ⟨front, a, more, rfl, -, ha, hp, hmore⟩ := Piece.of_tokens_eq htokens
    obtain ⟨mid, b, back, rfl, hmid, hb, hq, -⟩ := Piece.of_tokens_eq hmore
    have hpieces : front ++ a :: (mid ++ b :: back) = (front ++ [a]) ++ (mid ++ b :: back) := by simp
    have hopen : a.text = ['\x7b'] := h.text_mark ha
    have hclose : b.text = ['\x7d'] := by
      rw [hpieces, ← List.append_assoc] at h
      exact h.text_mark hb
    have htext : source.text.toList =
        Piece.texts front ++ ('\x7b' :: (Piece.texts mid ++ ['\x7d'])) ++ Piece.texts back := by
      rw [h.text_eq]
      simp [hopen, hclose]
    have hplace : p.through q = ⟨source, Position.origin.past (Piece.texts front),
        Position.origin.past (Piece.texts front ++ ('\x7b' :: (Piece.texts mid ++ ['\x7d'])))⟩ := by
      have hstart : p.start = _ := congrArg Span.start hp
      have hstop : q.stop = _ := congrArg Span.stop hq
      have hsource : p.source = _ := congrArg Span.source hp
      rw [Span.through, hstart, hstop, hsource]
      simp [hopen, hclose, Position.past_append]
    refine ⟨String.ofList (Piece.texts mid), ?_, ?_⟩
    · rw [hplace, Span.text_of_split htext]
      simp [← String.toList_inj]
    · have hstart : (p.through q).start.after '\x7b' =
          Position.origin.past (Piece.texts (front ++ [a])) := by
        rw [hplace]
        simp [hopen, Position.past_append]
      rw [hpieces] at h
      rw [← hmid] at halone
      rw [hstart]
      exact h.reads halone name

/-- Every node of a program is what its own text is by itself.  The first node is the program. -/
theorem Expr.ofSource?_nodes {source : Source} {root : Expr Span}
    (h : Expr.ofSource? source = .ok root) (name : String) :
    (∀ node ∈ root.nodes.tail, node.isBlock = false →
      Source.Reads ⟨name, node.place.text⟩ (Span.within source node.place.start) [node]) ∧
    (∀ place list, Expr.block place list ∈ root.nodes.tail →
      ∃ inner, place.text = "\x7b" ++ inner ++ "\x7d" ∧
        Source.Reads ⟨name, inner⟩ (Span.within source (place.start.after '\x7b')) list) ∧
    ∃ place list, root = .block place list ∧
      Source.Reads ⟨name, place.text⟩ (Span.within source place.start) list := by
  obtain ⟨pieces, dot, list, hcuts, rfl, hrow⟩ := Expr.ofSource?_block h
  have hpart (p : Span) (node : Expr Span) (hnode : node ∈ (Expr.block p list).nodes.tail) :
      Part Span.through (Farthest Span.through) (Piece.tokens source Position.origin pieces) node := by
    rw [Expr.nodes_eq, List.tail_cons] at hnode
    obtain ⟨c, hc, hnode⟩ := List.mem_flatMap.mp hnode
    exact hrow.parts (List.suffix_refl _) c hc node hnode
  refine ⟨fun node hnode hplain => ?_, fun place inner hnode => ?_, _, list, rfl, ?_⟩
  · cases hpart _ node hnode with
    | statement hsuffix hderives =>
      obtain ⟨pre, hpre⟩ := hsuffix
      obtain ⟨u, rfl, hcovers⟩ := hderives.covers
      obtain ⟨v, hv, halone⟩ := hderives.alone
      obtain rfl : u = v := List.append_cancel_right hv
      exact hcuts.reads_covered hpre.symm (hcovers [] rfl)
        (.statements .none halone (.noStatement .none)) name
    | block hsuffix hderives =>
      cases hderives
      cases hplain
  · cases hpart _ _ hnode with
    | statement hsuffix hderives => cases hderives.isBlock trivial
    | block hsuffix hderives =>
      obtain ⟨pre, hpre⟩ := hsuffix
      exact hcuts.reads_braces hpre.symm hderives name
  · obtain ⟨pre, u, post, htokens, hcore, hcovers⟩ := hrow.core (g := rewinding _ _) rfl
    obtain ⟨v, hv, halone⟩ := hcore.alone
    obtain rfl : u = v := List.append_cancel_right hv
    exact hcuts.reads_covered htokens hcovers halone name

/-- The condition of a loop with its parentheses, and what stands between the braces of its body. -/
theorem Expr.ofSource?_nodes_loop :
    let source : Source := ⟨"<stdin>", "while (x) \x7b y \x7d"⟩
    let span (start stop : Nat) : Span := ⟨source, ⟨start, 0, start⟩, ⟨stop, 0, stop⟩⟩
    Expr.ofSource? source = .ok (.block (span 0 15) [.loop (span 0 15) (.reference (span 6 9) "x")
      (.block (span 10 15) [.reference (span 12 13) "y"])]) ∧
    Source.Reads ⟨"part", "(x)"⟩ (Span.within source ⟨6, 0, 6⟩) [.reference (span 6 9) "x"] ∧
    ∃ inner, "\x7b y \x7d" = "\x7b" ++ inner ++ "\x7d" ∧
      Source.Reads ⟨"part", inner⟩ (Span.within source ⟨11, 0, 11⟩) [.reference (span 12 13) "y"] := by
  have hcondition : (Span.mk ⟨"<stdin>", "while (x) \x7b y \x7d"⟩ ⟨6, 0, 6⟩ ⟨9, 0, 9⟩).text = "(x)" := by
    cbv
  have hbody : (Span.mk ⟨"<stdin>", "while (x) \x7b y \x7d"⟩ ⟨10, 0, 10⟩ ⟨15, 0, 15⟩).text =
      "\x7b y \x7d" := by
    cbv
  -- The text is scanned first, which is all that does not reduce by itself.
  have htokens : TokenStream.ofSource? ⟨"<stdin>", "while (x) \x7b y \x7d"⟩ = .ok
      (let span (start stop : Nat) : Span :=
        ⟨⟨"<stdin>", "while (x) \x7b y \x7d"⟩, ⟨start, 0, start⟩, ⟨stop, 0, stop⟩⟩
      ⟨[⟨.keyword .while_, span 0 5⟩, ⟨.mark .leftParen, span 6 7⟩, ⟨.identifier "x", span 7 8⟩,
        ⟨.mark .rightParen, span 8 9⟩, ⟨.mark .leftBrace, span 10 11⟩, ⟨.identifier "y", span 12 13⟩,
        ⟨.mark .rightBrace, span 14 15⟩], span 15 15⟩) := by cbv
  intro source span
  have h : Expr.ofSource? source = .ok (.block (span 0 15)
      [.loop (span 0 15) (.reference (span 6 9) "x")
        (.block (span 10 15) [.reference (span 12 13) "y"])]) := by
    rw [Expr.ofSource?, htokens]
    rfl
  obtain ⟨hnodes, hblocks, -⟩ := Expr.ofSource?_nodes h "part"
  refine ⟨h, ?_, ?_⟩
  · rw [← hcondition]
    exact hnodes (.reference (span 6 9) "x") (by simp [nodes, nodesBefore, allNodesBefore]) rfl
  · rw [← hbody]
    exact hblocks (span 10 15) [.reference (span 12 13) "y"]
      (by simp [nodes, nodesBefore, allNodesBefore])

end Cyan
