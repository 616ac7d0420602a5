/-
Texts put together at a newline.

A text that has tokens may be followed by blanks, a comment and a newline, and then by any other text.
The whole has the tokens of the first text, the newline, and the tokens of the second with their
positions moved by the bytes and lines in front of it.  Where the second text has no tokens, the whole
has none either, for the same reason and at the place moved in the same way
(`TokenStream.ofSource?_lines`).

The second text is read as if it stood alone, because no flag is set behind a newline.  The first one is
read as before because blanks and comments go on with no lexeme but a comment, and a comment is no token
however long it is (`Cuts.behind_gap`).
-/
import Cyan.Proofs.Token.Faults
import Mathlib.Data.List.Basic

namespace Cyan

/-! ## Blanks and comments -/

namespace Lexeme

variable {c : Char}

theorem stops_of_isBlank (h : Text.isBlank c = true) : Stops c := by
  have hletter : Text.isLetter c = false := Text.Ranges.contains_eq_false (by decide +kernel) h
  have hnumeric : Text.isNumeric c = false := Text.Ranges.contains_eq_false (by decide +kernel) h
  have hne {d : Char} (hd : Text.isBlank d = false) : c ≠ d := by
    rintro rfl
    rw [h] at hd
    cases hd
  refine ⟨?_, ?_, ?_⟩
  · simp [isWordPart, hletter, hnumeric, hne (d := '_') rfl]
  · rw [← Bool.not_eq_true]
    intro hdigit
    rw [isBlank_of_isDigit hdigit] at h
    cases h
  · simp [hne (d := '.') rfl, hne (d := '=') rfl, hne (d := '*') rfl]

/-- A blank that is no newline is a lexeme and no token. -/
theorem read_blank (h : Text.isBlank c = true) (hc : c ≠ '\n') (dot : Bool) (cs : List Char) :
    read dot c cs = .ok ⟨none, [c], cs, false⟩ := by
  have hsign : c ∉ signs := by
    intro hmem
    have hsigns : signs.all (fun d => d = '\n' || !Text.isBlank d) = true := by decide
    have hd := List.all_eq_true.mp hsigns c hmem
    simp [hc, h] at hd
  have hmark : Mark.ofChar? c = none := by
    cases hm : Mark.ofChar? c with
    | none => rfl
    | some m => exact absurd (ofChar?_eq_some hm).2 hsign
  have hpair : Mark.ofPair? c = none := by
    cases hp : Mark.ofPair? c with
    | none => rfl
    | some pair => exact absurd (ofPair?_eq_some hp).2.2 hsign
  simp only [signs, List.mem_cons, List.not_mem_nil, or_false, not_or] at hsign
  simp only [read, hmark, hpair, h, hsign, ↓reduceIte]

/-- A comment runs up to the next newline. -/
theorem read_comment {body : List Char} (h : '\n' ∉ body) (dot : Bool) (after : List Char) :
    read dot '#' (body ++ '\n' :: after) = .ok ⟨none, '#' :: body, '\n' :: after, false⟩ := by
  have hbody : ∀ d ∈ body, (d ≠ '\n' : Bool) = true := by
    intro d hd
    have hne : d ≠ '\n' := fun heq => h (heq ▸ hd)
    simpa using hne
  obtain ⟨htake, hdrop⟩ := span_before hbody (d := '\n') (by simp) after
  show Except.ok (readComment '#' (body ++ '\n' :: after)) = _
  rw [readComment, htake, hdrop]

/-- No newline is in a comment that ends a text. -/
theorem newline_not_mem_comment {dot : Bool} {cs : List Char} {l : Lexeme}
    (h : read dot '#' cs = .ok l) (hrest : l.rest = []) : '\n' ∉ cs := by
  obtain ⟨happend, -⟩ := text_append_rest h
  obtain rfl : l = readComment '#' cs := (Except.ok.inj h).symm
  rw [hrest, List.append_nil] at happend
  intro hmem
  rw [← (List.cons.inj happend).2] at hmem
  simpa using of_mem_takeWhile (p := (· ≠ '\n')) hmem

end Lexeme

namespace Gap

variable {after cs : List Char}

theorem newline_not_mem (h : Gap after cs) : '\n' ∉ cs := by
  induction h with
  | nil => simp
  | blank _ hc _ ih => exact List.not_mem_cons_of_ne_of_not_mem (Ne.symm hc) ih
  | comment hbody _ => exact List.not_mem_cons_of_ne_of_not_mem (by decide) hbody

theorem stops (h : Gap after cs) (hafter : ∀ d ∈ after.head?, d = '\n') :
    ∀ d ∈ (cs ++ after).head?, Lexeme.Stops d := by
  intro d hd
  cases h with
  | nil => exact hafter d hd ▸ Lexeme.stops_newline
  | blank hblank _ _ => exact Option.some.inj hd ▸ Lexeme.stops_of_isBlank hblank
  | comment _ _ => exact Option.some.inj hd ▸ ⟨rfl, rfl, by decide⟩

/-- Behind what a lexeme leaves over, a gap takes nothing into the lexeme unless it is a comment. -/
theorem mayFollow {c : Char} {rest w : List Char} (hw : Gap ('\n' :: after) w)
    (hc : ¬ (c = '#' ∧ rest = [])) : Lexeme.MayFollow c rest (rest ++ (w ++ '\n' :: after)) := by
  intro d hd
  by_cases hnil : rest = []
  · rw [hnil, List.nil_append] at hd
    exact Or.inr ⟨hw.stops (by simp) d hd, fun heq => absurd ⟨heq, hnil⟩ hc⟩
  · rw [List.head?_append_of_ne_nil _ hnil] at hd
    exact Or.inl hd

end Gap

namespace Piece

theorem tokens_of_forall_none {source : Source} {start : Position} {pieces : List Piece}
    (h : ∀ p ∈ pieces, p.kind? = none) : tokens source start pieces = [] := by
  induction pieces generalizing start with
  | nil => rfl
  | cons p pieces ih =>
    obtain ⟨hp, hpieces⟩ := List.forall_mem_cons.mp h
    rw [tokens_cons_none hp, ih hpieces]

end Piece

namespace Cuts

variable {dot dot' : Bool} {text rest w after : List Char} {pieces more : List Piece}

/-- What stands between a token and a newline is pieces that are no tokens. -/
theorem of_gap (dot : Bool) (h : Gap ('\n' :: after) w) : ∃ pieces dot',
    Cuts dot (w ++ '\n' :: after) pieces dot' ('\n' :: after) ∧ ∀ p ∈ pieces, p.kind? = none := by
  induction h generalizing dot with
  | nil => exact ⟨[], dot, .nil, by simp⟩
  | @blank c cs hblank hc _ ih =>
    obtain ⟨pieces, dot', hcuts, hnone⟩ := ih false
    exact ⟨_ :: pieces, dot', .cons (Lexeme.read_blank hblank hc dot _) hcuts,
      List.forall_mem_cons.mpr ⟨rfl, hnone⟩⟩
  | @comment body hbody _ =>
    exact ⟨[_], false, .cons (Lexeme.read_comment hbody dot after) .nil, by simp [Lexeme.piece]⟩

/-- Behind a text that is cut up completely, blanks and a comment do not change its tokens. -/
theorem behind_gap (h : Cuts dot text pieces dot' []) (hw : Gap ('\n' :: after) w) :
    ∃ pieces' dot₁, Cuts dot (text ++ (w ++ '\n' :: after)) pieces' dot₁ ('\n' :: after) ∧
      ∀ source start, Piece.tokens source start pieces' = Piece.tokens source start pieces := by
  generalize hrest : ([] : List Char) = rest at h
  induction h with
  | nil =>
    subst hrest
    obtain ⟨pieces, dot₁, hcuts, hnone⟩ := of_gap _ hw
    exact ⟨pieces, dot₁, hcuts, fun _ _ => Piece.tokens_of_forall_none hnone⟩
  | @cons dot c cs l pieces _ _ hread h ih =>
    subst hrest
    obtain ⟨happend, -⟩ := Lexeme.text_append_rest hread
    by_cases hcomment : c = '#' ∧ l.rest = []
    · -- A comment at the end takes in what follows up to the newline.
      obtain ⟨rfl, hnil⟩ := hcomment
      rw [hnil] at h
      cases h
      have hbody : '\n' ∉ cs ++ w := fun hmem => (List.mem_append.mp hmem).elim
        (Lexeme.newline_not_mem_comment hread hnil) hw.newline_not_mem
      refine ⟨[⟨none, '#' :: (cs ++ w)⟩], false, ?_, fun _ _ => Eq.symm ?_⟩
      · have hcuts := Cuts.cons (Lexeme.read_comment hbody dot after) .nil
        rwa [List.append_assoc] at hcuts
      · obtain rfl : l = Lexeme.readComment '#' cs := (Except.ok.inj hread).symm
        rfl
    · obtain ⟨pieces', dot₁, hcuts, htokens⟩ := ih rfl
      obtain ⟨dot₂, hall⟩ := cons_before hread (hw.mayFollow hcomment) hcuts
      rw [← List.append_assoc, happend] at hall
      refine ⟨_, dot₂, hall, fun source start => ?_⟩
      rw [Piece.tokens, Piece.tokens, htokens]

/-- A text with a line end behind it, and what another text is cut up into. -/
theorem behind_line (h : Cuts false text pieces dot []) (hw : Gap ('\n' :: after) w)
    (h' : Cuts false after more dot' rest) :
    ∃ front, Cuts false (text ++ w ++ '\n' :: after) (front ++ ⟨some (.mark .newline), ['\n']⟩ :: more)
        dot' rest ∧ Piece.texts front = text ++ w ∧
      ∀ source start, Piece.tokens source start front = Piece.tokens source start pieces := by
  obtain ⟨front, dot₁, hfront, htokens⟩ := h.behind_gap hw
  have hnewline : Lexeme.read dot₁ '\n' after = .ok ⟨some (.mark .newline), ['\n'], after, false⟩ := rfl
  refine ⟨front, ?_, ?_, htokens⟩
  · rw [List.append_assoc]
    exact hfront.trans (.cons hnewline h')
  · have htext := hfront.text_eq
    rw [← List.append_assoc] at htext
    exact (List.append_cancel_right htext).symm

end Cuts

/-! ## Positions on later lines -/

/-- A position with some bytes and whole lines put in front of its text. -/
def Position.shifted (bytes lines : Nat) (p : Position) : Position :=
  ⟨bytes + p.index, lines + p.line, p.column⟩

/-- A span of a text as a span of a source that has some bytes and whole lines in front of the text. -/
def Span.shifted (source : Source) (bytes lines : Nat) (s : Span) : Span :=
  ⟨source, s.start.shifted bytes lines, s.stop.shifted bytes lines⟩

namespace Position

theorem behind_newline (front : List Char) :
    behind (front ++ ['\n']) = ⟨byteCount (front ++ ['\n']), (front ++ ['\n']).count '\n', 0⟩ := by
  simp [behind]

/-- Behind a newline, columns are counted from the line's beginning. -/
theorem behind_newline_append (front cs : List Char) :
    behind (front ++ ['\n'] ++ cs) =
      (behind cs).shifted (byteCount (front ++ ['\n'])) ((front ++ ['\n']).count '\n') := by
  rw [← past_behind, ← beyond_origin (behind _), past_beyond, past_origin, behind_newline]
  simp [beyond, shifted]

end Position

theorem Piece.tokens_behind_newline (source excerpt : Source) (front : List Char) (pieces : List Piece) :
    tokens source (.behind (front ++ ['\n'])) pieces =
      (tokens excerpt .origin pieces).map (Token.map
        (Span.shifted source (byteCount (front ++ ['\n'])) ((front ++ ['\n']).count '\n'))) := by
  rw [← Position.beyond_origin (.behind _), ← tokens_within source excerpt, Position.behind_newline]
  congr 2
  funext s
  simp [Span.within, Span.shifted, Position.beyond, Position.shifted]

/-- The tokens of a text do not depend on the source they are shown in but for that source. -/
theorem Piece.tokens_source (source other : Source) (start : Position) (pieces : List Piece) :
    tokens source start pieces =
      (tokens other start pieces).map (Token.map fun s => { s with source := source }) := by
  induction pieces generalizing start with
  | nil => rfl
  | cons p rest ih =>
    rw [tokens, ih, tokens, List.map_append]
    cases p.kind? <;> rfl

/-! ## Sources -/

namespace TokenStream

/-- Scanning goes on behind a line end as at the beginning of a text: a text with blanks, a comment and a
newline behind it keeps its tokens, and any other text behind that newline has the tokens or the fault
that it has alone, moved by the bytes and lines in front of it. -/
theorem ofSource?_lines {first w second : String} {nameFirst : String} {s : TokenStream Span}
    (h : ofSource? ⟨nameFirst, first⟩ = .ok s) (hw : Gap ('\n' :: second.toList) w.toList)
    (name nameSecond : String) :
    let source : Source := ⟨name, first ++ w ++ "\n" ++ second⟩
    let line := first.toList ++ w.toList ++ ['\n']
    let moved := Span.shifted source (byteCount line) (line.count '\n')
    (∀ s', ofSource? ⟨nameSecond, second⟩ = .ok s' → ofSource? source = .ok
      ⟨s.tokens.map (Token.map fun p => { p with source := source }) ++
        ⟨.mark .newline, ⟨source, .behind (first.toList ++ w.toList), .behind line⟩⟩ ::
        s'.tokens.map (Token.map moved), moved s'.finish⟩) ∧
    ∀ e, ofSource? ⟨nameSecond, second⟩ = .error e →
      ofSource? source = .error ⟨e.fault, moved e.place⟩ := by
  intro source line moved
  obtain ⟨pieces, dot, hpieces, rfl⟩ := ofSource?_eq_ok.mp h
  have htext : source.text.toList = first.toList ++ w.toList ++ '\n' :: second.toList := by
    simp [source]
  have hmoved (cs : List Char) : Position.origin.past (first.toList ++ w.toList ++ '\n' :: cs) =
      (Position.origin.past cs).shifted (byteCount line) (line.count '\n') := by
    rw [List.append_cons, Position.past_origin, Position.past_origin, Position.behind_newline_append]
  constructor
  · intro s' hs'
    obtain ⟨more, dot', hmore, rfl⟩ := ofSource?_eq_ok.mp hs'
    obtain ⟨front, hcuts, hfront, htokens⟩ := hpieces.behind_line hw hmore
    rw [← htext] at hcuts
    have hline : (Position.behind (first.toList ++ w.toList)).past ['\n'] = .behind line :=
      Position.past_behind _ _
    rw [ofSource?_of_cuts hcuts, Piece.tokens_append, htokens,
      Piece.tokens_source source ⟨nameFirst, first⟩, hfront, Position.past_origin,
      Piece.tokens_cons_some rfl, hline, Piece.tokens_behind_newline source ⟨nameSecond, second⟩, htext,
      hmoved]
    rfl
  · intro e he
    obtain ⟨more, dot', c, cs, covered, hmore, hread, hplace⟩ := ofSource?_eq_error.mp he
    obtain ⟨front, hcuts, hfront, -⟩ := hpieces.behind_line hw hmore
    rw [← htext] at hcuts
    have hplaces (cs : List Char) :
        Position.origin.past (Piece.texts (front ++ ⟨some (.mark .newline), ['\n']⟩ :: more) ++ cs) =
          (Position.origin.past (Piece.texts more ++ cs)).shifted (byteCount line)
            (line.count '\n') := by
      rw [← hmoved, Piece.texts_append, Piece.texts_cons, hfront]
      simp
    have hstart := hplaces []
    rw [List.append_nil, List.append_nil] at hstart
    rw [ofSource?_of_fault hcuts hread, hplace, hstart, hplaces]
    rfl

set_option maxRecDepth 2000 in
/-- The first text ends in a comment, and the second has a fault on its second line. -/
theorem ofSource?_lines_comment :
    (∃ s, ofSource? ⟨"first", "x # a"⟩ = .ok s) ∧ Gap ('\n' :: "y\n 'b".toList) " # c".toList ∧
      (∃ e, ofSource? ⟨"second", "y\n 'b"⟩ = .error e ∧ e.place.start = ⟨3, 1, 1⟩) ∧
      ∃ e, ofSource? ⟨"both", "x # a" ++ " # c" ++ "\n" ++ "y\n 'b"⟩ = .error e ∧
        e.fault = .unterminatedString ∧ e.place.start = ⟨13, 2, 1⟩ ∧ e.place.stop = ⟨15, 2, 3⟩ := by
  have hfirst : ofSource? ⟨"first", "x # a"⟩ =
      .ok ⟨[⟨.identifier "x", ⟨⟨"first", "x # a"⟩, ⟨0, 0, 0⟩, ⟨1, 0, 1⟩⟩⟩],
        ⟨⟨"first", "x # a"⟩, ⟨5, 0, 5⟩, ⟨5, 0, 5⟩⟩⟩ := by
    cbv
  have hsecond : ofSource? ⟨"second", "y\n 'b"⟩ =
      .error ⟨.unterminatedString, ⟨⟨"second", "y\n 'b"⟩, ⟨3, 1, 1⟩, ⟨5, 1, 3⟩⟩⟩ := by
    cbv
  have hgap : Gap ('\n' :: "y\n 'b".toList) " # c".toList :=
    .blank (by decide) (by decide) (.comment (by decide) (by simp))
  exact ⟨⟨_, hfirst⟩, hgap, ⟨_, hsecond, rfl⟩, _,
    (ofSource?_lines hfirst hgap "both" "second").2 _ hsecond, rfl, by decide, by decide⟩

end TokenStream
end Cyan
