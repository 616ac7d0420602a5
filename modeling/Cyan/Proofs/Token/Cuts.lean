/-
Cutting a text into pieces.

A piece is what is left of a lexeme when the text behind it is forgotten: its token, if it is one, and
its characters.  `Cuts dot text pieces dot' rest` says that reading `text` gives the pieces one after
the other and leaves `rest`; the flags say whether a point is accepted at the beginning and at the end.
A source has tokens exactly if its text can be cut up completely, and they are the pieces laid out from
its beginning (`TokenStream.ofSource?_eq_ok`).

A lexeme is settled by its own characters and the one behind it.  A lexeme that is followed by another
text reads as before if that text is empty, begins with the same character, or begins with a character
that goes on with no lexeme (`Lexeme.read_append`).  Only a newline ends a comment, so behind any lexeme
a text may begin with a newline, and this lifts to pieces as `Cuts.before`.
-/
import Cyan.Token.Stream

namespace Cyan

/-- A stretch of text with the token it is, unless it is a blank or a comment. -/
structure Piece where
  kind? : Option Token.Kind
  text : List Char

namespace Piece

def texts (pieces : List Piece) : List Char := pieces.flatMap Piece.text

@[simp] theorem texts_nil : texts [] = [] := rfl

@[simp] theorem texts_cons (p : Piece) (pieces : List Piece) :
    texts (p :: pieces) = p.text ++ texts pieces := List.flatMap_cons

@[simp] theorem texts_append (pieces more : List Piece) :
    texts (pieces ++ more) = texts pieces ++ texts more := List.flatMap_append

/-- The tokens among the pieces, when these are laid out from `start` on. -/
def tokens (source : Source) (start : Position) : List Piece → List (Token Span)
  | [] => []
  | p :: rest =>
    (p.kind?.map fun kind => ⟨kind, ⟨source, start, start.past p.text⟩⟩).toList ++
      tokens source (start.past p.text) rest

theorem tokens_cons_none {source : Source} {start : Position} {pieces : List Piece} {p : Piece}
    (hp : p.kind? = none) :
    tokens source start (p :: pieces) = tokens source (start.past p.text) pieces := by
  rw [tokens, hp]
  rfl

theorem tokens_cons_some {source : Source} {start : Position} {pieces : List Piece} {p : Piece}
    {kind : Token.Kind} (hp : p.kind? = some kind) :
    tokens source start (p :: pieces) =
      ⟨kind, ⟨source, start, start.past p.text⟩⟩ :: tokens source (start.past p.text) pieces := by
  rw [tokens, hp]
  rfl

theorem tokens_append (source : Source) (start : Position) (pieces more : List Piece) :
    tokens source start (pieces ++ more) =
      tokens source start pieces ++ tokens source (start.past (texts pieces)) more := by
  induction pieces generalizing start with
  | nil => rfl
  | cons p rest ih =>
    rw [List.cons_append, tokens, ih, tokens, List.append_assoc, texts_cons, Position.past_append]

end Piece

namespace Lexeme

def piece (l : Lexeme) : Piece := ⟨l.kind?, l.text⟩

/-! ## One lexeme in front of another text -/

theorem head_dropWhile {p : Char → Bool} (cs : List Char) :
    ∀ c ∈ (cs.dropWhile p).head?, p c = false := by
  intro c hc
  have hnot := List.head?_dropWhile_not p cs
  rw [Option.mem_def.mp hc] at hnot
  simpa using hnot

theorem of_mem_takeWhile {p : Char → Bool} {cs : List Char} {c : Char}
    (h : c ∈ cs.takeWhile p) : p c = true := List.all_eq_true.mp List.all_takeWhile c h

/-- Characters of a class in front of a text that does not begin with one. -/
theorem span_of_all {p : Char → Bool} {cs rest : List Char} (h : ∀ c ∈ cs, p c = true)
    (hrest : ∀ c ∈ rest.head?, p c = false) :
    (cs ++ rest).takeWhile p = cs ∧ (cs ++ rest).dropWhile p = rest := by
  rw [List.takeWhile_append_of_pos h, List.dropWhile_append_of_pos h]
  cases rest with
  | nil => simp
  | cons c rest => simp [hrest c rfl]

theorem span_before {p : Char → Bool} {cs : List Char} (h : ∀ c ∈ cs, p c = true) {d : Char}
    (hd : p d = false) (after : List Char) :
    (cs ++ d :: after).takeWhile p = cs ∧ (cs ++ d :: after).dropWhile p = d :: after :=
  span_of_all h (by simpa using hd)

/-- Characters of a class in front of a text that does not begin with one are what is taken off it. -/
theorem span_append {p : Char → Bool} (cs : List Char) {rest : List Char}
    (hrest : ∀ c ∈ rest.head?, p c = false) :
    (cs.takeWhile p ++ rest).takeWhile p = cs.takeWhile p ∧
      (cs.takeWhile p ++ rest).dropWhile p = rest := span_of_all (fun _ => of_mem_takeWhile) hrest

/-- Whether a text may take the place of `rest` behind any lexeme. -/
def Follows (rest rest' : List Char) : Prop := ∀ d ∈ rest'.head?, d = '\n' ∨ d ∈ rest.head?

theorem Follows.append {rest rest' : List Char} (h : Follows rest rest') (cs : List Char) :
    Follows (cs ++ rest) (cs ++ rest') := by
  cases cs with
  | nil => exact h
  | cons c cs => exact fun d hd => Or.inr hd

/-- Whether a character goes on with no word, no numeral and no mark. -/
def Stops (d : Char) : Prop := isWordPart d = false ∧ d.isDigit = false ∧ d ∉ ['.', '=', '*']

theorem stops_newline : Stops '\n' := ⟨rfl, rfl, by decide⟩

/-- Whether a text may take the place of `rest` behind a lexeme that begins with `c`.  A comment is ended
by nothing but a newline. -/
def MayFollow (c : Char) (rest rest' : List Char) : Prop :=
  ∀ d ∈ rest'.head?, d ∈ rest.head? ∨ Stops d ∧ (c = '#' → d = '\n')

theorem Follows.mayFollow {rest rest' : List Char} (h : Follows rest rest') (c : Char) :
    MayFollow c rest rest' := by
  intro d hd
  rcases h d hd with rfl | hd
  · exact Or.inr ⟨stops_newline, fun _ => rfl⟩
  · exact Or.inl hd

theorem MayFollow.head {c : Char} {p : Char → Bool} {rest rest' : List Char}
    (h : MayFollow c rest rest') (hstops : ∀ d, Stops d → p d = false)
    (hrest : ∀ d ∈ rest.head?, p d = false) : ∀ d ∈ rest'.head?, p d = false := by
  intro d hd
  rcases h d hd with hd | ⟨hd, -⟩
  · exact hrest d hd
  · exact hstops d hd

theorem MayFollow.head_ne {c d : Char} {rest rest' : List Char} (h : MayFollow c rest rest')
    (hd : d ∈ ['.', '=', '*']) (hrest : rest.head? ≠ some d) : rest'.head? ≠ some d := by
  intro hhead
  rcases h d hhead with hmem | ⟨hstops, -⟩
  · exact hrest hmem
  · exact hstops.2.2 hd

/-- Behind a comment comes a newline or nothing. -/
theorem MayFollow.newline {rest rest' : List Char} (h : MayFollow '#' rest rest')
    (hrest : ∀ d ∈ rest.head?, d = '\n') : ∀ d ∈ rest'.head?, d = '\n' := by
  intro d hd
  rcases h d hd with hd | ⟨-, hd⟩
  · exact hrest d hd
  · exact hd rfl

/-- The lexeme in front of another text. -/
def retail (l : Lexeme) (rest' : List Char) : Lexeme :=
  ⟨l.kind?, l.text, rest', l.dotNext && rest'.head? = some '.'⟩

variable {rest' : List Char}

theorem readPair_append {c second : Char} {long short : Mark} {cs : List Char}
    (hsecond : second ∈ ['.', '=', '*']) (h : MayFollow c (readPair c second long short cs).rest rest') :
    readPair c second long short ((readPair c second long short cs).text.tail ++ rest') =
      (readPair c second long short cs).retail rest' := by
  have hshort (hne : rest'.head? ≠ some second) :
      readPair c second long short rest' = ⟨some (.mark short), [c], rest', false⟩ := by
    cases rest' with
    | nil => rfl
    | cons d rest' =>
      have hd : d ≠ second := by simpa using hne
      rw [readPair, if_neg hd]
  cases cs with
  | nil => exact hshort (h.head_ne hsecond (by simp [readPair]))
  | cons d cs =>
    by_cases hd : d = second
    · simp [readPair, hd, retail]
    · rw [readPair, if_neg hd] at h ⊢
      exact hshort (h.head_ne hsecond (by simpa using hd))

theorem readBang_append {c : Char} {cs : List Char} {l : Lexeme} (h : readBang c cs = .ok l) :
    readBang c (l.text.tail ++ rest') = .ok (l.retail rest') := by
  cases cs with
  | nil => cases h
  | cons d cs =>
    rw [readBang] at h
    split at h <;> cases h
    next hd => simp [readBang, hd, retail]

theorem readComment_append {cs : List Char} (h : MayFollow '#' (readComment '#' cs).rest rest') :
    readComment '#' ((readComment '#' cs).text.tail ++ rest') =
      (readComment '#' cs).retail rest' := by
  have hhead := h.newline fun d hd => by
    simpa using head_dropWhile (p := (· ≠ '\n')) cs d hd
  obtain ⟨htake, hdrop⟩ := span_append (p := (· ≠ '\n')) cs (by simpa using hhead)
  simp only [readComment, List.tail_cons]
  rw [htake, hdrop]
  simp [retail]

theorem readString_append {quote : Char} {cs : List Char} {l : Lexeme}
    (h : readString quote cs = .ok l) :
    readString quote (l.text.tail ++ rest') = .ok (l.retail rest') := by
  unfold readString at h
  split at h <;> cases h
  next close rest hdrop =>
    have hclose : (close ≠ quote : Bool) = false :=
      head_dropWhile (p := (· ≠ quote)) cs close (by rw [hdrop]; rfl)
    have hhead : ∀ d ∈ (close :: rest').head?, (d ≠ quote : Bool) = false := by
      intro d hd
      cases hd
      exact hclose
    obtain ⟨htake, hdrop'⟩ := span_append cs hhead
    simp only [readString, List.tail_cons, List.append_assoc, List.singleton_append]
    rw [htake, hdrop']
    simp [retail]

theorem readWord_append {c : Char} {cs : List Char} (h : MayFollow c (readWord c cs).rest rest') :
    readWord c ((readWord c cs).text.tail ++ rest') = (readWord c cs).retail rest' := by
  have hhead := h.head (p := isWordPart) (fun _ hd => hd.1) (head_dropWhile cs)
  obtain ⟨htake, hdrop⟩ := span_append cs hhead
  simp only [readWord, List.tail_cons]
  rw [htake, hdrop]
  simp [retail]

/-- A numeral with a point. -/
theorem readNumeral_point {cs more : List Char} (c : Char)
    (h : cs.dropWhile Char.isDigit = '.' :: more) :
    readNumeral c cs =
      ⟨some (.ofNumber (.ofNumeral (c :: cs.takeWhile Char.isDigit)
          (some (more.takeWhile Char.isDigit)))),
        c :: cs.takeWhile Char.isDigit ++ '.' :: more.takeWhile Char.isDigit,
        more.dropWhile Char.isDigit, (more.dropWhile Char.isDigit).head? = some '.'⟩ := by
  simp only [readNumeral, h]

/-- A numeral without a point. -/
theorem readNumeral_whole {cs : List Char} (c : Char)
    (h : (cs.dropWhile Char.isDigit).head? ≠ some '.') :
    readNumeral c cs =
      ⟨some (.ofNumber (.ofNumeral (c :: cs.takeWhile Char.isDigit) none)),
        c :: cs.takeWhile Char.isDigit, cs.dropWhile Char.isDigit, false⟩ := by
  unfold readNumeral
  split
  · next more hmore => simp [hmore] at h
  · rfl

theorem readNumeral_append {c : Char} {cs : List Char} (h : MayFollow c (readNumeral c cs).rest rest') :
    readNumeral c ((readNumeral c cs).text.tail ++ rest') = (readNumeral c cs).retail rest' := by
  by_cases hpoint : (cs.dropWhile Char.isDigit).head? = some '.'
  · obtain ⟨more, hmore⟩ := List.head?_eq_some_iff.mp hpoint
    rw [readNumeral_point c hmore] at h ⊢
    have hhead : ∀ d ∈ ('.' :: (more.takeWhile Char.isDigit ++ rest')).head?, d.isDigit = false := by
      intro d hd
      cases hd
      rfl
    obtain ⟨htake, hdrop⟩ := span_append cs hhead
    obtain ⟨htake', hdrop'⟩ :=
      span_append more (h.head (p := Char.isDigit) (fun _ hd => hd.2.1) (head_dropWhile more))
    have hdot : rest'.head? = some '.' → (more.dropWhile Char.isDigit).head? = some '.' :=
      fun hdot => Decidable.not_not.mp fun hne => h.head_ne (by decide) hne hdot
    rw [List.cons_append, List.tail_cons, List.append_assoc, List.cons_append,
      readNumeral_point c hdrop, htake, htake', hdrop']
    by_cases hdot' : rest'.head? = some '.'
    · simp only [retail, List.cons_append, hdot', hdot hdot', decide_true, Bool.and_self]
    · simp only [retail, List.cons_append, hdot', decide_false, Bool.and_false]
  · rw [readNumeral_whole c hpoint] at h ⊢
    obtain ⟨htake, hdrop⟩ :=
      span_append cs (h.head (p := Char.isDigit) (fun _ hd => hd.2.1) (head_dropWhile cs))
    have hpoint' : ((cs.takeWhile Char.isDigit ++ rest').dropWhile Char.isDigit).head? ≠ some '.' := by
      rw [hdrop]
      exact h.head_ne (by decide) hpoint
    rw [List.tail_cons, readNumeral_whole c hpoint', htake, hdrop]
    simp [retail]

theorem text_eq_cons {dot : Bool} {c : Char} {cs : List Char} {l : Lexeme}
    (h : read dot c cs = .ok l) : l.text = c :: l.text.tail := by
  obtain ⟨happend, hne⟩ := text_append_rest h
  cases htext : l.text with
  | nil => exact absurd htext hne
  | cons d ds =>
    rw [htext] at happend
    rw [(List.cons.inj happend).1, List.tail_cons]

/-- A lexeme in front of another text that may follow it is read as before. -/
theorem read_append {dot : Bool} {c : Char} {cs : List Char} {l : Lexeme}
    (h : read dot c cs = .ok l) (hrest : MayFollow c l.rest rest') :
    read dot c (l.text.tail ++ rest') = .ok (l.retail rest') := by
  unfold read at h ⊢
  split at h
  · cases h
    simp [retail]
  · next second long short hmark hpair =>
    cases h
    have hsecond : second ∈ ['.', '=', '*'] := by
      unfold Mark.ofPair? at hpair
      split at hpair <;> cases hpair <;> decide
    rw [← readPair_append hsecond hrest]
  · next hmark hpair =>
    split at h
    · rw [if_pos ‹_›]
      exact readBang_append h
    rw [if_neg ‹_›]
    split at h
    · next hcomment =>
      cases h
      subst hcomment
      rw [if_pos rfl, ← readComment_append hrest]
    rw [if_neg ‹_›]
    split at h
    · cases h
      simp [*, retail]
    rw [if_neg ‹_›]
    split at h
    · rw [if_pos ‹_›]
      exact readString_append h
    rw [if_neg ‹_›]
    split at h
    · cases h
      simp [*, retail]
    rw [if_neg ‹_›]
    split at h
    · cases h
      rw [if_pos ‹_›, ← readNumeral_append hrest]
    rw [if_neg ‹_›]
    split at h
    · cases h
      rw [if_pos ‹_›, ← readWord_append hrest]
    · cases h

/-- The flag only matters at a point. -/
theorem read_flag {c : Char} (hc : c ≠ '.') (dot dot' : Bool) (cs : List Char) :
    read dot c cs = read dot' c cs := by
  simp [read, hc]

end Lexeme

/-- Reading `text` gives the pieces and leaves `rest`. -/
inductive Cuts : Bool → List Char → List Piece → Bool → List Char → Prop
  | nil {dot text} : Cuts dot text [] dot text
  | cons {dot c cs l pieces dot' rest} : Lexeme.read dot c cs = .ok l →
    Cuts l.dotNext l.rest pieces dot' rest → Cuts dot (c :: cs) (l.piece :: pieces) dot' rest

namespace Cuts

variable {dot dot' : Bool} {text rest : List Char} {pieces more : List Piece}

theorem text_eq (h : Cuts dot text pieces dot' rest) : text = Piece.texts pieces ++ rest := by
  induction h with
  | nil => rfl
  | cons hread _ ih =>
    obtain ⟨happend, -⟩ := Lexeme.text_append_rest hread
    rw [← happend, ih, Piece.texts_cons, List.append_assoc]
    rfl

/-- A piece of a text is not empty. -/
theorem byteCount_pos {p : Piece} (h : Cuts dot text (p :: pieces) dot' rest) :
    0 < byteCount p.text := by
  cases h with
  | cons hread _ =>
    rw [Lexeme.piece, Lexeme.text_eq_cons hread, byteCount]
    exact Nat.add_pos_left (Char.utf8Size_pos _) _

theorem trans {dot₁ : Bool} {mid : List Char} (h : Cuts dot text pieces dot₁ mid)
    (h' : Cuts dot₁ mid more dot' rest) : Cuts dot text (pieces ++ more) dot' rest := by
  induction h with
  | nil => exact h'
  | cons hread _ ih => exact .cons hread (ih h')

/-- Two rows of pieces one behind the other, where the second does not begin with a point. -/
theorem append {dot₁ dot₂ : Bool} {mid : List Char} (h : Cuts dot text pieces dot₁ mid)
    (h' : Cuts dot₂ mid more dot' rest) (hmid : dot₁ = dot₂ ∨ mid.head? ≠ some '.') :
    ∃ dot'', Cuts dot text (pieces ++ more) dot'' rest := by
  induction h with
  | nil =>
    rcases hmid with rfl | hmid
    · exact ⟨_, h'⟩
    · cases h' with
      | nil => exact ⟨_, .nil⟩
      | cons hread h' =>
        have hc := fun heq => hmid (congrArg some heq)
        exact ⟨_, .cons ((Lexeme.read_flag hc _ _ _).trans hread) h'⟩
  | cons hread _ ih =>
    obtain ⟨dot'', h''⟩ := ih h' hmid
    exact ⟨dot'', .cons hread h''⟩

theorem split (h : Cuts dot text (pieces ++ more) dot' rest) :
    ∃ dot₁ mid, Cuts dot text pieces dot₁ mid ∧ Cuts dot₁ mid more dot' rest := by
  induction pieces generalizing dot text with
  | nil => exact ⟨dot, text, .nil, h⟩
  | cons p pieces ih =>
    cases h with
    | cons hread h =>
      obtain ⟨dot₁, mid, hpieces, hmore⟩ := ih h
      exact ⟨dot₁, mid, .cons hread hpieces, hmore⟩

/-- A lexeme in front of another text, and what that text is cut up into. -/
theorem cons_before {c : Char} {cs rest' : List Char} {l : Lexeme} (hread : Lexeme.read dot c cs = .ok l)
    (hrest : Lexeme.MayFollow c l.rest rest') (h : Cuts l.dotNext rest' pieces dot' rest) :
    ∃ dot'', Cuts dot (l.text ++ rest') (l.piece :: pieces) dot'' rest := by
  have hread' := Lexeme.read_append hread hrest
  -- The flag is lost only where no point follows, and there it does not matter.
  have hflag : (l.retail rest').dotNext = l.dotNext ∨ rest'.head? ≠ some '.' := by
    by_cases hhead : rest'.head? = some '.'
    · left
      simp [Lexeme.retail, hhead]
    · exact Or.inr hhead
  obtain ⟨dot'', h'⟩ := append .nil h hflag
  have hcuts := Cuts.cons hread' h'
  rw [← List.cons_append, ← Lexeme.text_eq_cons hread] at hcuts
  exact ⟨dot'', hcuts⟩

/-- Pieces in front of another text that may follow the last of them. -/
theorem before {rest' : List Char} (h : Cuts dot text pieces dot' rest)
    (hrest : Lexeme.Follows rest rest') :
    ∃ dot'', Cuts dot (Piece.texts pieces ++ rest') pieces dot'' rest' := by
  induction h with
  | nil => exact ⟨_, .nil⟩
  | @cons dot c cs l pieces _ _ hread h ih =>
    obtain ⟨_, h'⟩ := ih hrest
    have hfollows : Lexeme.Follows l.rest (Piece.texts pieces ++ rest') := by
      rw [h.text_eq]
      exact hrest.append _
    obtain ⟨dot'', hcuts⟩ := cons_before hread (hfollows.mayFollow c) h'
    rw [← List.append_assoc] at hcuts
    exact ⟨dot'', hcuts⟩

/-- Pieces make up a text by themselves. -/
theorem alone (h : Cuts dot text pieces dot' rest) :
    ∃ dot'', Cuts dot (Piece.texts pieces) pieces dot'' [] := by
  have hfollows : Lexeme.Follows rest [] := nofun
  obtain ⟨dot'', hcuts⟩ := h.before hfollows
  rw [List.append_nil] at hcuts
  exact ⟨dot'', hcuts⟩

/-- Every text can be cut up to its end or to a fault. -/
theorem total (dot : Bool) : (text : List Char) → ∃ pieces dot' rest,
    Cuts dot text pieces dot' rest ∧
      (rest = [] ∨ ∃ c cs fault, rest = c :: cs ∧ Lexeme.read dot' c cs = .error fault)
  | [] => ⟨[], dot, [], .nil, Or.inl rfl⟩
  | c :: cs => by
    cases hread : Lexeme.read dot c cs with
    | ok l =>
      obtain ⟨pieces, dot', rest, hcuts, hrest⟩ := total l.dotNext l.rest
      exact ⟨l.piece :: pieces, dot', rest, .cons hread hcuts, hrest⟩
    | error fault => exact ⟨[], dot, c :: cs, .nil, Or.inr ⟨c, cs, fault, rfl, hread⟩⟩
termination_by text => text.length
decreasing_by exact Lexeme.length_rest_lt hread

end Cuts

/-! ## Sources -/

namespace Lexeme

theorem layOut_fst (source : Source) (start : Position) (laid : List (Token Span))
    (ls : List Lexeme) :
    (layOut source start laid ls).1 =
      laid.reverse ++ Piece.tokens source start (ls.map piece) := by
  induction ls generalizing start laid with
  | nil => simp [layOut, Piece.tokens]
  | cons l ls ih =>
    rw [layOut, ih, List.map_cons, Piece.tokens]
    cases hkind : l.kind? <;> simp [token?, piece, hkind]

/-- Where pieces are cut off, the rest of the text is split behind them. -/
theorem splitFrom_cuts {dot dot' : Bool} {cs rest : List Char} {pieces : List Piece}
    (h : Cuts dot cs pieces dot' rest) (read : List Lexeme) :
    ∃ more : List Lexeme, splitFrom dot cs read = splitFrom dot' rest (more.reverse ++ read) ∧
      more.map piece = pieces := by
  induction h generalizing read with
  | nil => exact ⟨[], rfl, rfl⟩
  | @cons dot c cs l pieces dot' rest hread _ ih =>
    obtain ⟨more, hsplit, hmore⟩ := ih (l :: read)
    refine ⟨l :: more, ?_, by rw [List.map_cons, hmore]⟩
    rw [splitFrom]
    split
    · next l' hread' =>
      rw [hread] at hread'
      cases hread'
      simpa using hsplit
    · next hread' =>
      rw [hread] at hread'
      cases hread'

end Lexeme

theorem Piece.texts_map_piece (ls : List Lexeme) :
    texts (ls.map Lexeme.piece) = ls.flatMap Lexeme.text := by
  rw [texts, List.flatMap_map]
  rfl

namespace TokenStream

variable {source : Source}

theorem ofSource?_of_cuts {pieces : List Piece} {dot : Bool}
    (h : Cuts false source.text.toList pieces dot []) :
    ofSource? source =
      .ok ⟨Piece.tokens source Position.origin pieces,
        ⟨source, Position.origin.past source.text.toList,
          Position.origin.past source.text.toList⟩⟩ := by
  obtain ⟨ls, hsplit, rfl⟩ := Lexeme.splitFrom_cuts h []
  have hend : Lexeme.splitFrom dot [] (ls.reverse ++ []) = (ls, none) := by
    rw [Lexeme.splitFrom]
    simp
  have htext := h.text_eq
  rw [List.append_nil, Piece.texts_map_piece] at htext
  simp only [ofSource?, Lexeme.split, hsplit, hend]
  rw [Lexeme.layOut_fst, Lexeme.layOut_snd, ← htext]
  rfl

/-- A source whose text can be cut up to a fault has this fault behind its pieces. -/
theorem ofSource?_of_fault {pieces : List Piece} {dot : Bool} {c : Char} {cs : List Char}
    {fault : LexicalFault} {covered : List Char}
    (h : Cuts false source.text.toList pieces dot (c :: cs))
    (hfault : Lexeme.read dot c cs = .error (fault, covered)) :
    ofSource? source = .error ⟨fault, ⟨source, Position.origin.past (Piece.texts pieces),
      Position.origin.past (Piece.texts pieces ++ covered)⟩⟩ := by
  obtain ⟨ls, hsplit, rfl⟩ := Lexeme.splitFrom_cuts h []
  have hend : Lexeme.splitFrom dot (c :: cs) (ls.reverse ++ []) = (ls, some (fault, covered)) := by
    rw [Lexeme.splitFrom]
    split
    · next l hread =>
      rw [hfault] at hread
      cases hread
    · next hread =>
      rw [hfault] at hread
      cases hread
      simp
  simp only [ofSource?, Lexeme.split, hsplit, hend, Lexeme.layOut_snd, Piece.texts_map_piece,
    Position.past_append]

/-- A source has tokens if its text can be cut up completely, and they are the pieces laid out. -/
theorem ofSource?_eq_ok {s : TokenStream Span} :
    ofSource? source = .ok s ↔
      ∃ pieces dot, Cuts false source.text.toList pieces dot [] ∧
        s = ⟨Piece.tokens source Position.origin pieces,
          ⟨source, Position.origin.past source.text.toList,
            Position.origin.past source.text.toList⟩⟩ := by
  constructor
  · intro h
    obtain ⟨pieces, dot, rest, hcuts, rfl | ⟨c, cs, ⟨fault, covered⟩, rfl, hfault⟩⟩ :=
      Cuts.total false source.text.toList
    · rw [ofSource?_of_cuts hcuts] at h
      cases h
      exact ⟨pieces, dot, hcuts, rfl⟩
    · rw [ofSource?_of_fault hcuts hfault] at h
      cases h
  · intro h
    obtain ⟨pieces, dot, hcuts, rfl⟩ := h
    exact ofSource?_of_cuts hcuts

/-- A source has no tokens if its text can be cut up to a fault, which is the error. -/
theorem ofSource?_eq_error {e : LexicalError} :
    ofSource? source = .error e ↔
      ∃ pieces dot c cs covered, Cuts false source.text.toList pieces dot (c :: cs) ∧
        Lexeme.read dot c cs = .error (e.fault, covered) ∧
        e.place = ⟨source, Position.origin.past (Piece.texts pieces),
          Position.origin.past (Piece.texts pieces ++ covered)⟩ := by
  constructor
  · intro h
    obtain ⟨pieces, dot, rest, hcuts, rfl | ⟨c, cs, ⟨fault, covered⟩, rfl, hfault⟩⟩ :=
      Cuts.total false source.text.toList
    · rw [ofSource?_of_cuts hcuts] at h
      cases h
    · rw [ofSource?_of_fault hcuts hfault] at h
      cases h
      exact ⟨pieces, dot, c, cs, covered, hcuts, hfault, rfl⟩
  · intro h
    obtain ⟨pieces, dot, c, cs, covered, hcuts, hfault, hplace⟩ := h
    rw [ofSource?_of_fault hcuts hfault, ← hplace]

end TokenStream
end Cyan
