/-
Texts that have no tokens.

A text that has no tokens stops having lexemes somewhere, and the text in front of that place has tokens.
What stands at the place decides whether the text is hopeless or only unfinished
(`TokenStream.ofSource?_fault`).  A character that begins no lexeme, and an exclamation mark with another
character than `=` behind it, stay what they are however the text goes on: every longer text has the same
fault at the same place (`LexicalError.Persists`).  A string that is not closed is closed by its quote at
the end of the text, and an exclamation mark at the end becomes a token with a `=` behind it.

The reason is that pieces followed by a character are settled by it.  A text that begins with the same
character may take the place of what follows them, and leaves them and the flag behind them as they are
(`Cuts.before_same`).
-/
import Cyan.Proofs.Token.Partition
import Mathlib.Data.List.TakeWhile

namespace Cyan

namespace Lexeme

variable {dot : Bool} {c : Char} {cs rest' : List Char} {l : Lexeme}

/-- The flag is set by nothing but a numeral. -/
theorem readNumeral_of_dotNext (h : read dot c cs = .ok l) (hdot : l.dotNext = true) :
    c.isDigit = true ∧ l = readNumeral c cs := by
  unfold read at h
  split at h
  · cases h
    cases hdot
  · cases h
    cases cs with
    | nil => cases hdot
    | cons d cs =>
      rw [readPair] at hdot
      split at hdot <;> cases hdot
  · repeat' split at h
    · cases cs with
      | nil => cases h
      | cons d cs =>
        rw [readBang] at h
        split at h <;> cases h
        cases hdot
    · cases h
      cases hdot
    · cases h
      cases hdot
    · unfold readString at h
      split at h <;> cases h
      cases hdot
    · cases h
      cases hdot
    · next hdigit =>
      cases h
      exact ⟨hdigit, rfl⟩
    · cases h
      cases hdot
    · cases h

/-- The flag is set only where a point follows. -/
theorem head?_rest_of_dotNext (h : read dot c cs = .ok l) (hdot : l.dotNext = true) :
    l.rest.head? = some '.' := by
  obtain ⟨-, rfl⟩ := readNumeral_of_dotNext h hdot
  unfold readNumeral at hdot ⊢
  split at hdot
  · simpa using hdot
  · cases hdot

/-- In front of a text that begins in the same way a lexeme keeps its flag. -/
theorem retail_dotNext (h : read dot c cs = .ok l) (hhead : rest'.head? = l.rest.head?) :
    (l.retail rest').dotNext = l.dotNext := by
  cases hdot : l.dotNext with
  | false => simp [retail, hdot]
  | true => simp [retail, hdot, hhead, head?_rest_of_dotNext h hdot]

/-- A fault is a character that begins no lexeme whatever follows it, an exclamation mark without `=`, or
a quote that does not occur again. -/
theorem read_error_cases {fault : LexicalFault} {covered : List Char}
    (h : read dot c cs = .error (fault, covered)) :
    (fault = .invalidCharacter c ∧ covered = [c] ∧ ∀ cs', read dot c cs' = .error (fault, covered)) ∨
    (fault = .loneBang ∧ c = '!' ∧ (cs = [] ∧ covered = ['!'] ∨
      ∃ d ds, cs = d :: ds ∧ d ≠ '=' ∧ covered = ['!', d])) ∨
    (fault = .unterminatedString ∧ (c = '\'' ∨ c = '"') ∧ c ∉ cs ∧ covered = c :: cs) := by
  have hread := h
  unfold read at h
  split at h
  · cases h
  · cases h
  · repeat' split at h
    · next hc =>
      right
      left
      cases cs with
      | nil =>
        cases h
        exact ⟨rfl, hc, Or.inl ⟨rfl, by rw [hc]⟩⟩
      | cons d ds =>
        rw [readBang] at h
        split at h <;> cases h
        next hd => exact ⟨rfl, hc, Or.inr ⟨d, ds, rfl, hd, by rw [hc]⟩⟩
    · cases h
    · cases h
    · next hc =>
      unfold readString at h
      split at h <;> cases h
      next hdrop =>
        have hquote : c ∉ cs := by
          intro hmem
          have hne := List.dropWhile_eq_nil_iff.mp hdrop c hmem
          simp at hne
        exact Or.inr (Or.inr ⟨rfl, hc, hquote, rfl⟩)
    · cases h
    · cases h
    · cases h
    · next hmark hpair hbang hhash hblank hquote hpoint hdigit hstart =>
      cases h
      refine Or.inl ⟨rfl, rfl, fun cs' => ?_⟩
      simp only [read, hmark, hpair, hbang, hhash, hblank, hquote, hpoint, hdigit, hstart, if_false]
      simp

end Lexeme

namespace Cuts

variable {dot dot' : Bool} {text rest : List Char} {pieces : List Piece}

/-- Pieces in front of a text that begins like the one behind them. -/
theorem before_same (h : Cuts dot text pieces dot' rest) (rest' : List Char)
    (hhead : rest'.head? = rest.head?) :
    Cuts dot (Piece.texts pieces ++ rest') pieces dot' rest' := by
  induction h with
  | nil => exact .nil
  | @cons dot c cs l pieces _ _ hread h ih =>
    have hbehind : (Piece.texts pieces ++ rest').head? = l.rest.head? := by
      rw [h.text_eq, List.head?_append, List.head?_append, hhead]
    have hread' := Lexeme.read_append hread fun d hd => Or.inl (hbehind ▸ hd)
    have hcuts := Cuts.cons hread' (Lexeme.retail_dotNext hread hbehind ▸ ih hhead)
    rwa [← List.cons_append, ← Lexeme.text_eq_cons hread, ← List.append_assoc] at hcuts

end Cuts

/-! ## Sources -/

def Source.HasTokens (source : Source) : Prop := ∃ s, TokenStream.ofSource? source = .ok s

/-- Whether every text that begins with the text of an error has the same error. -/
def LexicalError.Persists (e : LexicalError) : Prop :=
  ∀ name more, TokenStream.ofSource? ⟨name, e.place.source.text ++ more⟩ =
    .error ⟨e.fault, ⟨⟨name, e.place.source.text ++ more⟩, e.place.start, e.place.stop⟩⟩

theorem Source.HasTokens.of_cuts {pieces : List Piece} {dot : Bool} {source : Source}
    (h : Cuts false source.text.toList pieces dot []) : source.HasTokens :=
  ⟨_, TokenStream.ofSource?_of_cuts h⟩

section

variable {source : Source} {pieces : List Piece} {dot : Bool} {c : Char} {cs : List Char}
  (h : Cuts false source.text.toList pieces dot (c :: cs))
include h

/-- The text in front of a place where pieces end has tokens. -/
theorem Cuts.hasTokens_front (name : String) :
    Source.HasTokens ⟨name, String.ofList (Piece.texts pieces)⟩ := by
  obtain ⟨dot', hcuts⟩ := h.alone
  rw [← String.toList_ofList (l := Piece.texts pieces)] at hcuts
  exact .of_cuts hcuts

/-- A longer text has tokens if what stands behind the pieces becomes a lexeme that ends the text. -/
theorem Cuts.hasTokens_append {more : String} {l : Lexeme}
    (hread : Lexeme.read dot c (cs ++ more.toList) = .ok l) (hrest : l.rest = []) (name : String) :
    Source.HasTokens ⟨name, source.text ++ more⟩ := by
  have hcuts := h.before_same (c :: (cs ++ more.toList)) rfl
  have hlast : Cuts dot (c :: (cs ++ more.toList)) [l.piece] l.dotNext [] := hrest ▸ .cons hread .nil
  obtain ⟨dot', hall⟩ := hcuts.append hlast (Or.inl rfl)
  rw [← List.cons_append, ← List.append_assoc, ← h.text_eq, ← String.toList_append] at hall
  exact .of_cuts hall

end

/-- Why a text has no tokens, and whether a longer one may have. -/
theorem TokenStream.ofSource?_fault {source : Source} {e : LexicalError}
    (h : TokenStream.ofSource? source = .error e) :
    ∃ before covered after, source.text.toList = before ++ covered ++ after ∧
      e.place = ⟨source, .behind before, .behind (before ++ covered)⟩ ∧
      (∀ name, Source.HasTokens ⟨name, String.ofList before⟩) ∧
      match e.fault with
      | .invalidCharacter c => covered = [c] ∧ e.Persists
      | .loneBang =>
        (∃ d, d ≠ '=' ∧ covered = ['!', d] ∧ e.Persists) ∨
        (covered = ['!'] ∧ after = [] ∧ ∀ name, Source.HasTokens ⟨name, source.text ++ "="⟩)
      | .unterminatedString =>
        ∃ quote content, (quote = '\'' ∨ quote = '"') ∧ covered = quote :: content ∧ after = [] ∧
          ∀ name, Source.HasTokens ⟨name, source.text ++ String.singleton quote⟩ := by
  obtain ⟨pieces, dot, c, cs, covered, hcuts, hread, hplace⟩ := ofSource?_eq_error.mp h
  obtain ⟨fault, place⟩ := e
  subst hplace
  have htext := hcuts.text_eq
  -- A fault that does not depend on the end of the text is met again in every longer one.
  have hpersists (hall : ∀ more, Lexeme.read dot c (cs ++ more) = .error (fault, covered)) :
      LexicalError.Persists ⟨fault, ⟨source, .past .origin (Piece.texts pieces),
        .past .origin (Piece.texts pieces ++ covered)⟩⟩ := by
    intro name more
    have hlonger := hcuts.before_same (c :: (cs ++ more.toList)) rfl
    rw [← List.cons_append, ← List.append_assoc, ← htext, ← String.toList_append] at hlonger
    exact ofSource?_of_fault hlonger (hall more.toList)
  refine ⟨Piece.texts pieces, covered, ?_⟩
  rw [Position.past_origin, Position.past_origin] at hpersists ⊢
  rcases Lexeme.read_error_cases hread with
    ⟨rfl, rfl, hall⟩ | ⟨rfl, rfl, ⟨rfl, rfl⟩ | ⟨d, ds, rfl, hd, rfl⟩⟩ | ⟨rfl, hquote, hcs, rfl⟩
  · exact ⟨cs, by simpa using htext, rfl, hcuts.hasTokens_front, rfl, hpersists fun more => hall _⟩
  · refine ⟨[], by simpa using htext, rfl, hcuts.hasTokens_front, Or.inr ⟨rfl, rfl, ?_⟩⟩
    exact hcuts.hasTokens_append (l := ⟨some (.mark .bangEqual), ['!', '='], [], false⟩) rfl rfl
  · refine ⟨ds, by simpa using htext, rfl, hcuts.hasTokens_front, Or.inl ⟨d, hd, rfl, ?_⟩⟩
    exact hpersists fun more => if_neg hd
  · refine ⟨[], by simpa using htext, rfl, hcuts.hasTokens_front, c, cs, hquote, rfl, rfl, ?_⟩
    have hclosed := Lexeme.read_string hquote hcs dot []
    rw [List.append_nil] at hclosed
    exact hcuts.hasTokens_append (by simpa using hclosed) rfl

theorem TokenStream.ofSource?_fault_bang :
    (∃ e, ofSource? ⟨"<stdin>", "x!\n'"⟩ = .error e ∧ e.fault = .loneBang ∧ e.Persists) ∧
      ∃ e, ofSource? ⟨"<stdin>", "x '#\n"⟩ = .error e ∧ e.fault = .unterminatedString ∧
        Source.HasTokens ⟨"<stdin>", "x '#\n'"⟩ := by
  constructor
  · have h : ofSource? ⟨"<stdin>", "x!\n'"⟩ =
        .error ⟨.loneBang, ⟨⟨"<stdin>", "x!\n'"⟩, ⟨1, 0, 1⟩, ⟨3, 1, 0⟩⟩⟩ := by
      cbv
    obtain ⟨before, covered, after, htext, -, -, hfault⟩ := TokenStream.ofSource?_fault h
    rcases hfault with ⟨d, -, -, hpersists⟩ | ⟨rfl, rfl, -⟩
    · exact ⟨_, h, rfl, hpersists⟩
    · have hlast := congrArg List.getLast? htext
      simp at hlast
  · have h : ofSource? ⟨"<stdin>", "x '#\n"⟩ =
        .error ⟨.unterminatedString, ⟨⟨"<stdin>", "x '#\n"⟩, ⟨2, 0, 2⟩, ⟨5, 1, 0⟩⟩⟩ := by
      cbv
    obtain ⟨before, covered, after, htext, -, -, quote, content, hquote, rfl, -, hclosed⟩ :=
      TokenStream.ofSource?_fault h
    have hmem : quote ∈ "x '#\n".toList := by
      rw [htext]
      simp
    rcases hquote with rfl | rfl
    · exact ⟨_, h, rfl, hclosed "<stdin>"⟩
    · exact absurd hmem (by decide)

end Cyan
