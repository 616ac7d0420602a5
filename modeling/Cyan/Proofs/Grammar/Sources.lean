/-
Sources as programs.

A source is a program if its text can be cut up into pieces and the tokens among them derive from the
line for statements.  `Source.reads_iff` says so with the places of the program sent through a map that
respects how places are joined: with the map to the one-point type it gives the program up to positions,
and with the map that counts positions from another place it gives the program as a part of a larger
one.
-/
import Cyan.Proofs.Grammar.Places
import Cyan.Proofs.Grammar.Unique
import Cyan.Proofs.Token.Cuts
import Cyan.Session

namespace Cyan

open Grammar

theorem Expr.ofSource?_of_tokens {source : Source} {s : TokenStream Span}
    (h : TokenStream.ofSource? source = .ok s) :
    Expr.ofSource? source = (Expr.ofStream? s).mapError .syntactic := by
  rw [ofSource?, h]
  rfl

/-- The outermost node of a program is a block, and its text can be cut up. -/
theorem Expr.ofSource?_block {source : Source} {program : Expr Span}
    (h : Expr.ofSource? source = .ok program) :
    ∃ pieces dot list, Cuts false source.text.toList pieces dot [] ∧
      program = .block (extent (rewinding Span.through ⟨source,
        Position.origin.past source.text.toList, Position.origin.past source.text.toList⟩) list) list ∧
      DerivesRow Span.through (Farthest Span.through) .statements
        (Piece.tokens source Position.origin pieces) [] list := by
  cases hs : TokenStream.ofSource? source with
  | error e =>
    rw [ofSource?, hs] at h
    cases h
  | ok s =>
    rw [ofSource?_of_tokens hs, ofStream?] at h
    cases hread : Expr.ofTokens? Span.through s with
    | error e =>
      rw [hread] at h
      cases h
    | ok e =>
      rw [hread] at h
      cases h
      obtain ⟨pieces, dot, hcuts, rfl⟩ := TokenStream.ofSource?_eq_ok.mp hs
      obtain ⟨list, rfl, hlist⟩ := Expr.ofTokens?_eq_ok.mp hread
      exact ⟨pieces, dot, list, hcuts, rfl, hlist⟩

variable {Place : Type} {f : Span → Place} {join : Place → Place → Place}

/-- A source is a program, and these are its statements with their places sent through `f`. -/
def Source.Reads (source : Source) (f : Span → Place) (list : List (Expr Place)) : Prop :=
  ∃ place statements, Expr.ofSource? source = .ok (.block place statements) ∧
    statements.map (Expr.map f) = list

theorem Source.exists_reads {source : Source} (f : Span → Place) (h : (Expr.ofSource? source).isOk) :
    ∃ list, source.Reads f list := by
  cases hprogram : Expr.ofSource? source with
  | error d =>
    rw [hprogram] at h
    cases h
  | ok program =>
    obtain ⟨_, _, list, -, rfl, -⟩ := Expr.ofSource?_block hprogram
    exact ⟨_, _, list, hprogram, rfl⟩

theorem Source.Reads.cuts {source : Source} {list : List (Expr Place)} (h : source.Reads f list) :
    ∃ pieces dot, Cuts false source.text.toList pieces dot [] := by
  obtain ⟨_, _, hprogram, -⟩ := h
  obtain ⟨pieces, dot, _, hcuts, -⟩ := Expr.ofSource?_block hprogram
  exact ⟨pieces, dot, hcuts⟩

theorem Source.Reads.program {source : Source} {list : List (Expr Place)} (h : source.Reads f list) :
    ∃ program, Expr.ofSource? source = .ok program ∧ ∃ place, program.map f = .block place list := by
  obtain ⟨place, statements, hprogram, rfl⟩ := h
  exact ⟨_, hprogram, f place, by rw [Expr.map, Expr.mapAll_eq_map]⟩

/-- A text that is cut up into pieces has the statements that the tokens among them derive to. -/
theorem Source.reads_iff {source : Source} {dot : Bool} {pieces : List Piece}
    {list : List (Expr Place)} (hjoins : Joins f Span.through join)
    (h : Cuts false source.text.toList pieces dot []) :
    source.Reads f list ↔ DerivesRow join (Farthest join) .statements
      ((Piece.tokens source Position.origin pieces).map (Token.map f)) [] list := by
  have hs := TokenStream.ofSource?_of_cuts h
  generalize (⟨source, _, _⟩ : Span) = finish at hs
  have hread := Expr.ofTokens?_map f hjoins ⟨Piece.tokens source Position.origin pieces, finish⟩
  rw [Reads, Expr.ofSource?_of_tokens hs, Expr.ofStream?]
  constructor
  · intro ⟨place, statements, hprogram, hlist⟩
    cases htokens : Expr.ofTokens? Span.through ⟨_, finish⟩ with
    | error e =>
      rw [htokens] at hprogram
      cases hprogram
    | ok e =>
      rw [htokens] at hprogram hread
      cases hprogram
      obtain ⟨list', hlist', hrow⟩ := Expr.ofTokens?_eq_ok.mp hread
      rw [Expr.map, Expr.mapAll_eq_map, hlist] at hlist'
      obtain ⟨-, rfl⟩ := Expr.block.inj hlist'
      exact hrow
  · intro hrow
    obtain ⟨e, he, hlist⟩ : ∃ e, Expr.ofTokens? join (TokenStream.map f ⟨_, finish⟩) = .ok e ∧
        ∃ p, e = .block p list :=
      ⟨_, Expr.ofTokens?_eq_ok.mpr ⟨list, rfl, hrow⟩, _, rfl⟩
    obtain ⟨p, rfl⟩ := hlist
    rw [he] at hread
    cases htokens : Expr.ofTokens? Span.through ⟨_, finish⟩ with
    | error e =>
      rw [htokens] at hread
      cases hread
    | ok e =>
      rw [htokens] at hread
      have hmap : Expr.block p list = e.map f := Except.ok.inj hread
      cases e with
      | block place statements =>
        rw [Expr.map, Expr.mapAll_eq_map] at hmap
        exact ⟨place, statements, rfl, (Expr.block.inj hmap).2.symm⟩
      | _ => cases hmap

end Cyan
