/-
The tokens of a text partition it.

`Partitioned source s` says what the tokens `s` of a source have to do with its text, without reference
to how they were found: where each of them stands, that it is spelled like what it is and that nothing
longer could stand there, that they come in the order of the text and do not overlap, and that only
blanks and comments lie between them.  Positions are those of `Position.behind`, which counts bytes,
newlines and characters on the text in front of a place.  `TokenStream.ofSource?_partitioned` is the
main result.

The pieces of a text carry all of this: a token is one of them, and a gap is a row of pieces that are
no tokens.

The example scans its text by `cbv`, with the equation of `≤` that stands in
`Mathlib.Algebra.Module.Submodule.Lattice`.
-/
import Cyan.Proofs.Token.Excerpt
import Cyan.Proofs.Token.Spelled
import Mathlib.Algebra.Module.Submodule.Lattice

namespace Cyan

namespace Position

/-- The place in a text behind its first characters `before`. -/
def behind (before : List Char) : Position :=
  ⟨byteCount before, before.count '\n', (before.reverse.takeWhile (· ≠ '\n')).length⟩

theorem behind_append_singleton (before : List Char) (c : Char) :
    behind (before ++ [c]) = (behind before).after c := by
  by_cases hc : c = '\n'
  · simp [behind, after, hc, byteCount_append, byteCount]
  · simp [behind, after, hc, byteCount_append, byteCount]

theorem past_behind (before cs : List Char) : (behind before).past cs = behind (before ++ cs) := by
  induction cs generalizing before with
  | nil => rw [List.append_nil, past_nil]
  | cons c cs ih =>
    rw [past_cons, ← behind_append_singleton, ih, List.append_assoc, List.singleton_append]

/-- Moving past characters counts them. -/
theorem past_origin (cs : List Char) : origin.past cs = behind cs := past_behind [] cs

end Position

/-- How the tokens of a source lie in its text. -/
structure Partitioned (source : Source) (s : TokenStream Span) : Prop where
  finish : s.finish = ⟨source, .behind source.text.toList, .behind source.text.toList⟩
  lexemes : ∀ t ∈ s.tokens, ∃ before lexeme after,
    source.text.toList = before ++ lexeme ++ after ∧
      t.place = ⟨source, .behind before, .behind (before ++ lexeme)⟩ ∧
      t.place.text = String.ofList lexeme ∧ t.kind.Spelled lexeme ∧
      ∀ kind longer, Token.Kind.Spelled kind longer → longer <+: lexeme ++ after →
        longer.length ≤ lexeme.length
  ordered : s.tokens.Pairwise fun t u => t.place.stop.index ≤ u.place.start.index
  gaps : ∀ front back, s.tokens = front ++ back → ∃ before gap after,
    source.text.toList = before ++ gap ++ after ∧
      (front.getLast?.map (·.place.stop)).getD .origin = .behind before ∧
      (back.head?.map (·.place.start)).getD s.finish.start = .behind (before ++ gap) ∧ Gap after gap

namespace Piece

variable {source : Source} {start : Position} {pieces : List Piece}

/-- A token is one of the pieces. -/
theorem exists_of_mem_tokens {t : Token Span} (h : t ∈ tokens source start pieces) :
    ∃ front p back, pieces = front ++ p :: back ∧ p.kind? = some t.kind ∧
      t.place = ⟨source, start.past (texts front), start.past (texts front ++ p.text)⟩ := by
  obtain ⟨pre, post, hsplit⟩ := List.append_of_mem h
  obtain ⟨front, p, back, hpieces, -, hkind, hplace, -⟩ := of_tokens_eq hsplit
  rw [texts_append, texts_cons, texts_nil, List.append_nil] at hplace
  exact ⟨front, p, back, hpieces, hkind, hplace⟩

theorem le_start_of_mem_tokens {t : Token Span} (h : t ∈ tokens source start pieces) :
    start.index ≤ t.place.start.index := by
  obtain ⟨front, _, _, -, -, hplace⟩ := exists_of_mem_tokens h
  rw [hplace, Position.index_past]
  omega

theorem tokens_pairwise (source : Source) (start : Position) (pieces : List Piece) :
    (tokens source start pieces).Pairwise fun t u => t.place.stop.index ≤ u.place.start.index := by
  induction pieces generalizing start with
  | nil => exact .nil
  | cons p pieces ih =>
    cases hp : p.kind? with
    | none =>
      rw [tokens_cons_none hp]
      exact ih _
    | some kind =>
      rw [tokens_cons_some hp]
      exact .cons (fun u hu => le_start_of_mem_tokens hu) (ih _)

/-- The pieces in front of the first token. -/
theorem exists_leading_gap (source : Source) (start : Position) (pieces : List Piece) :
    ∃ gap after, pieces = gap ++ after ∧ (∀ p ∈ gap, p.kind? = none) ∧
      ((tokens source start pieces).head?.map (·.place.start)).getD (start.past (texts pieces)) =
        start.past (texts gap) := by
  induction pieces generalizing start with
  | nil => exact ⟨[], [], rfl, by simp, rfl⟩
  | cons p pieces ih =>
    cases hp : p.kind? with
    | none =>
      obtain ⟨gap, after, rfl, hgap, hstart⟩ := ih (start.past p.text)
      refine ⟨p :: gap, after, rfl, List.forall_mem_cons.mpr ⟨hp, hgap⟩, ?_⟩
      rw [tokens_cons_none hp, texts_cons, texts_cons, Position.past_append, Position.past_append,
        hstart]
    | some kind =>
      refine ⟨[], p :: pieces, rfl, by simp, ?_⟩
      rw [tokens_cons_some hp]
      rfl

/-- Where the tokens are cut in two, the pieces between the token before and the token behind are no
tokens. -/
theorem exists_gap {front back : List (Token Span)}
    (h : tokens source start pieces = front ++ back) : ∃ before gap after,
      pieces = before ++ gap ++ after ∧ (∀ p ∈ gap, p.kind? = none) ∧
        (front.getLast?.map (·.place.stop)).getD start = start.past (texts before) ∧
        (back.head?.map (·.place.start)).getD (start.past (texts pieces)) =
          start.past (texts (before ++ gap)) := by
  induction pieces generalizing start front with
  | nil =>
    obtain ⟨rfl, rfl⟩ := List.append_eq_nil_iff.mp h.symm
    exact ⟨[], [], [], rfl, by simp, rfl, rfl⟩
  | cons p pieces ih =>
    cases front with
    | nil =>
      obtain ⟨gap, after, hpieces, hgap, hstart⟩ := exists_leading_gap source start (p :: pieces)
      rw [h] at hstart
      exact ⟨[], gap, after, hpieces, hgap, rfl, hstart⟩
    | cons t front =>
      cases hp : p.kind? with
      | none =>
        rw [tokens_cons_none hp] at h
        obtain ⟨before, gap, after, rfl, hgap, hstop, hstart⟩ := ih h
        refine ⟨p :: before, gap, after, rfl, hgap, ?_, ?_⟩
        · rw [texts_cons, Position.past_append, ← hstop]
          simp [List.getLast?_cons]
        · rw [texts_cons, Position.past_append, hstart, List.cons_append, texts_cons,
            Position.past_append]
      | some kind =>
        rw [tokens_cons_some hp, List.cons_append] at h
        obtain ⟨rfl, htokens⟩ := List.cons.inj h
        obtain ⟨before, gap, after, rfl, hgap, hstop, hstart⟩ := ih htokens
        refine ⟨p :: before, gap, after, rfl, hgap, ?_, ?_⟩
        · rw [texts_cons, Position.past_append, ← hstop]
          cases hlast : front.getLast? <;> simp [List.getLast?_cons, hlast]
        · rw [texts_cons, Position.past_append, hstart, List.cons_append, texts_cons,
            Position.past_append]

end Piece

/-- Pieces that are no tokens are a gap. -/
theorem Cuts.gap {dot dot' : Bool} {text rest : List Char} {pieces : List Piece}
    (h : Cuts dot text pieces dot' rest) (hnone : ∀ p ∈ pieces, p.kind? = none) :
    Gap rest (Piece.texts pieces) := by
  induction h with
  | nil => exact .nil
  | @cons dot c cs l pieces dot' rest hread h ih =>
    obtain ⟨hl, hpieces⟩ := List.forall_mem_cons.mp hnone
    rw [Piece.texts_cons]
    rcases Lexeme.read_cases hread with ⟨kind, hkind, -⟩ | ⟨rfl, hblank, hc⟩ | ⟨rfl, rfl⟩
    · rw [show l.kind? = none from hl] at hkind
      cases hkind
    · exact .blank hblank hc (ih hpieces)
    · -- Behind a comment comes a newline, which is a token, or nothing.
      have hhead : ∀ d ∈ (Lexeme.readComment '#' cs).rest.head?, d = '\n' := by
        intro d hd
        simpa using Lexeme.head_dropWhile (p := (· ≠ '\n')) cs d hd
      have hbody : '\n' ∉ cs.takeWhile (· ≠ '\n') := by
        intro hmem
        simpa using Lexeme.of_mem_takeWhile (p := (· ≠ '\n')) hmem
      generalize (Lexeme.readComment '#' cs).rest = text at h hhead
      cases h with
      | nil =>
        rw [Piece.texts_nil, List.append_nil]
        exact .comment hbody hhead
      | @cons _ d _ l _ _ _ hread _ =>
        cases hhead d rfl
        cases hread
        cases hpieces _ List.mem_cons_self

/-- The token that a piece is, as a lexeme in its text. -/
theorem Cuts.lexeme {dot dot' : Bool} {text rest : List Char} {p : Piece} {pieces : List Piece}
    {kind : Token.Kind} (h : Cuts dot text (p :: pieces) dot' rest) (hkind : p.kind? = some kind) :
    kind.Spelled p.text ∧ ∀ kind' longer, Token.Kind.Spelled kind' longer → longer <+: text →
      longer.length ≤ p.text.length := by
  cases h with
  | @cons _ c cs l _ _ _ hread _ =>
    constructor
    · rcases Lexeme.read_cases hread with ⟨kind', hl, hspelled⟩ | ⟨rfl, -⟩ | ⟨rfl, -⟩
      · rw [show l.kind? = some kind from hkind] at hl
        cases hl
        exact hspelled
      · cases hkind
      · cases hkind
    · intro kind' longer hspelled hprefix
      obtain ⟨after, happend⟩ := hprefix
      exact hspelled.length_le happend hread

/-- The tokens of a text partition it. -/
theorem TokenStream.ofSource?_partitioned {source : Source} {s : TokenStream Span}
    (h : TokenStream.ofSource? source = .ok s) : Partitioned source s := by
  obtain ⟨pieces, dot, hcuts, rfl⟩ := TokenStream.ofSource?_eq_ok.mp h
  have htext : source.text.toList = Piece.texts pieces := by
    rw [hcuts.text_eq, List.append_nil]
  refine ⟨?_, ?_, Piece.tokens_pairwise .., ?_⟩
  · simp only [Position.past_origin]
  · intro t ht
    obtain ⟨front, p, back, rfl, hkind, hplace⟩ := Piece.exists_of_mem_tokens ht
    obtain ⟨dot₁, mid, -, hback⟩ := hcuts.split
    obtain ⟨hspelled, hlongest⟩ := hback.lexeme hkind
    have hmid : mid = p.text ++ Piece.texts back := by
      rw [hback.text_eq, List.append_nil, Piece.texts_cons]
    have hsplit : source.text.toList = Piece.texts front ++ p.text ++ Piece.texts back := by
      rw [htext, Piece.texts_append, Piece.texts_cons, List.append_assoc]
    refine ⟨Piece.texts front, p.text, Piece.texts back, hsplit, ?_, ?_, hspelled, hmid ▸ hlongest⟩
    · rw [hplace, Position.past_origin, Position.past_origin]
    · rw [hplace]
      exact Span.text_of_split hsplit
  · intro front back hsplit
    obtain ⟨before, gap, after, rfl, hgap, hstop, hstart⟩ := Piece.exists_gap hsplit
    rw [List.append_assoc] at hcuts
    obtain ⟨dot₁, mid, -, hback⟩ := hcuts.split
    obtain ⟨dot₂, rest, hcuts, hafter⟩ := hback.split
    have hrest : rest = Piece.texts after := by rw [hafter.text_eq, List.append_nil]
    refine ⟨Piece.texts before, Piece.texts gap, Piece.texts after, ?_, ?_, ?_, ?_⟩
    · rw [htext, Piece.texts_append, Piece.texts_append]
    · rw [← Position.past_origin, ← hstop]
    · rw [← Position.past_origin, ← Piece.texts_append, ← hstart, htext]
    · exact hrest ▸ hcuts.gap hgap

theorem TokenStream.ofSource?_partitioned_comment :
    ∃ s, TokenStream.ofSource? ⟨"<stdin>", "x<=1 #c\n"⟩ = .ok s ∧
      s.kinds = [.identifier "x", .mark .lessEqual, .int 1, .mark .newline] ∧
      Partitioned ⟨"<stdin>", "x<=1 #c\n"⟩ s := by
  have h : TokenStream.ofSource? ⟨"<stdin>", "x<=1 #c\n"⟩ =
      .ok ⟨[⟨.identifier "x", ⟨⟨"<stdin>", "x<=1 #c\n"⟩, ⟨0, 0, 0⟩, ⟨1, 0, 1⟩⟩⟩,
        ⟨.mark .lessEqual, ⟨⟨"<stdin>", "x<=1 #c\n"⟩, ⟨1, 0, 1⟩, ⟨3, 0, 3⟩⟩⟩,
        ⟨.int 1, ⟨⟨"<stdin>", "x<=1 #c\n"⟩, ⟨3, 0, 3⟩, ⟨4, 0, 4⟩⟩⟩,
        ⟨.mark .newline, ⟨⟨"<stdin>", "x<=1 #c\n"⟩, ⟨7, 0, 7⟩, ⟨8, 1, 0⟩⟩⟩],
        ⟨⟨"<stdin>", "x<=1 #c\n"⟩, ⟨8, 1, 0⟩, ⟨8, 1, 0⟩⟩⟩ := by
    cbv
  exact ⟨_, h, rfl, TokenStream.ofSource?_partitioned h⟩

end Cyan
