/-
Tokens of a stretch of a text.

The tokens of a text from one of them to another are the tokens of the stretch of text that these two
span, with positions counted from where the stretch begins (`Cuts.excerpt`).  A stretch that begins
with a point has to be left out: whether a point is a token depends on what stands in front of it.
-/
import Cyan.Proofs.Token.Cuts

namespace Cyan

/-! ## Positions counted from another one -/

/-- The position that is `p` when positions are counted from `base`. -/
def Position.beyond (base p : Position) : Position where
  index := base.index + p.index
  line := base.line + p.line
  column := if p.line = 0 then base.column + p.column else p.column

/-- A span of an excerpt as a span of the source, when the excerpt begins at `base`. -/
def Span.within (source : Source) (base : Position) (s : Span) : Span :=
  ⟨source, base.beyond s.start, base.beyond s.stop⟩

namespace Position

theorem after_beyond (base p : Position) (c : Char) :
    (base.beyond p).after c = base.beyond (p.after c) := by
  by_cases hc : c = '\n'
  · simp only [after, if_pos hc, beyond, Nat.add_assoc, Nat.succ_ne_zero, if_false]
  · by_cases hline : p.line = 0
    · simp only [after, if_neg hc, beyond, Nat.add_assoc, if_pos hline]
    · simp only [after, if_neg hc, beyond, Nat.add_assoc, if_neg hline]

theorem past_beyond (base p : Position) (cs : List Char) :
    (base.beyond p).past cs = base.beyond (p.past cs) := by
  induction cs generalizing p with
  | nil => rfl
  | cons c cs ih => rw [past_cons, past_cons, after_beyond, ih]

theorem beyond_origin (base : Position) : base.beyond origin = base := rfl

end Position

/-! ## Pieces of a stretch -/

namespace Piece

theorem tokens_within (source excerpt : Source) (base start : Position) (pieces : List Piece) :
    (tokens excerpt start pieces).map (Token.map (Span.within source base)) =
      tokens source (base.beyond start) pieces := by
  induction pieces generalizing start with
  | nil => rfl
  | cons p rest ih =>
    rw [tokens, List.map_append, ih, tokens, Position.past_beyond]
    cases p.kind? <;> rfl

/-- The piece that a given one of the tokens is. -/
theorem of_tokens_eq {source : Source} {start : Position} {pieces : List Piece}
    {pre post : List (Token Span)} {t : Token Span}
    (h : tokens source start pieces = pre ++ t :: post) :
    ∃ front p back, pieces = front ++ p :: back ∧ tokens source start front = pre ∧
      p.kind? = some t.kind ∧
      t.place = ⟨source, start.past (texts front), start.past (texts (front ++ [p]))⟩ ∧
      tokens source (start.past (texts (front ++ [p]))) back = post := by
  induction pieces generalizing start pre with
  | nil => simp [tokens] at h
  | cons p rest ih =>
    have hbehind (pre : List (Token Span))
        (h : tokens source (start.past p.text) rest = pre ++ t :: post) :
        ∃ front q back, p :: rest = p :: front ++ q :: back ∧
          tokens source (start.past p.text) front = pre ∧ q.kind? = some t.kind ∧
          t.place =
            ⟨source, start.past (texts (p :: front)), start.past (texts (p :: front ++ [q]))⟩ ∧
          tokens source (start.past (texts (p :: front ++ [q]))) back = post := by
      obtain ⟨front, q, back, rfl, hfront, hq, hplace, hback⟩ := ih h
      simp only [List.cons_append, texts_cons, Position.past_append]
      exact ⟨front, q, back, rfl, hfront, hq, hplace, hback⟩
    cases hkind : p.kind? with
    | none =>
      rw [tokens_cons_none hkind] at h
      obtain ⟨front, q, back, hpieces, hfront, hq⟩ := hbehind pre h
      exact ⟨p :: front, q, back, hpieces, by rw [tokens_cons_none hkind, hfront], hq⟩
    | some kind =>
      rw [tokens_cons_some hkind] at h
      cases pre with
      | nil =>
        obtain ⟨rfl, hrest⟩ := List.cons.inj h
        exact ⟨[], p, rest, rfl, rfl, hkind, by simp, by simpa using hrest⟩
      | cons s pre =>
        obtain ⟨rfl, hrest⟩ := List.cons.inj h
        obtain ⟨front, q, back, hpieces, hfront, hq⟩ := hbehind pre hrest
        exact ⟨p :: front, q, back, hpieces, by rw [tokens_cons_some hkind, hfront], hq⟩

/-- The pieces from one of the tokens to another. -/
theorem stretch {source : Source} {start : Position} {pieces : List Piece}
    {pre u post : List (Token Span)} {first last : Token Span}
    (h : tokens source start pieces = pre ++ (u ++ post)) (hfirst : u.head? = some first)
    (hlast : u.getLast? = some last) :
    ∃ front mid back, pieces = front ++ (mid ++ back) ∧
      tokens source (start.past (texts front)) mid = u ∧
      first.place.through last.place =
        ⟨source, start.past (texts front), start.past (texts (front ++ mid))⟩ := by
  obtain ⟨v, rfl⟩ := List.getLast?_eq_some_iff.mp hlast
  have hwhole : tokens source start pieces = (pre ++ v) ++ last :: post := by simp [h]
  obtain ⟨upTo, q, back, rfl, -, -, hplace, hback⟩ := of_tokens_eq hwhole
  have hupTo : tokens source start (upTo ++ [q]) = pre ++ (v ++ [last]) := by
    have htokens := tokens_append source start (upTo ++ [q]) back
    rw [List.append_assoc, List.singleton_append, hback, h] at htokens
    rw [← List.append_assoc] at htokens
    exact (List.append_cancel_right htokens).symm
  obtain ⟨rest, hrest⟩ : ∃ rest, v ++ [last] = first :: rest := List.head?_eq_some_iff.mp hfirst
  rw [hrest] at hupTo
  obtain ⟨front, p, more, hpieces, hfront, -, hplace', -⟩ := of_tokens_eq hupTo
  rw [hpieces] at hupTo hplace
  refine ⟨front, p :: more, back, ?_, ?_, ?_⟩
  · rw [← List.append_assoc, ← hpieces]
    simp
  · rw [tokens_append, hfront] at hupTo
    rw [hrest]
    exact List.append_cancel_left hupTo
  · rw [hplace, hplace']
    rfl

end Piece

theorem Lexeme.read_point {dot : Bool} {cs : List Char} {l : Lexeme}
    (h : read dot '.' cs = .ok l) : l.kind? = some (.mark .dot) := by
  cases dot with
  | true => cases h; rfl
  | false => cases h

/-- Pieces of which the first is no point begin with another character. -/
theorem Cuts.head?_ne_point {dot dot' : Bool} {text rest : List Char} {pieces : List Piece}
    (h : Cuts dot text pieces dot' rest)
    (hpoint : ∀ p ∈ pieces.head?, p.kind? ≠ some (.mark .dot)) :
    (Piece.texts pieces).head? ≠ some '.' := by
  cases h with
  | nil => simp
  | @cons _ c cs l pieces _ _ hread h =>
    rw [Piece.texts_cons]
    intro hhead
    have htext := Lexeme.text_eq_cons hread
    obtain rfl : c = '.' := by
      change (l.text ++ _).head? = _ at hhead
      rw [htext] at hhead
      exact Option.some.inj hhead
    exact hpoint l.piece rfl (Lexeme.read_point hread)

/-- A stretch of a text is cut up by itself as it is in the text. -/
theorem Cuts.excerpt {dot dot' : Bool} {text : List Char} {front mid back : List Piece}
    (h : Cuts dot text (front ++ (mid ++ back)) dot' [])
    (hpoint : ∀ p ∈ mid.head?, p.kind? ≠ some (.mark .dot)) :
    ∃ dot'', Cuts false (Piece.texts mid) mid dot'' [] := by
  obtain ⟨dot₁, text₁, -, hmore⟩ := h.split
  obtain ⟨dot₂, text₂, hmid, -⟩ := hmore.split
  obtain ⟨dot₃, hcuts⟩ := hmid.alone
  exact Cuts.append .nil hcuts (Or.inr (hmid.head?_ne_point hpoint))

end Cyan
