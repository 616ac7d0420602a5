/-
Points that are tokens.

The flag that a point may stand next is raised by a numeral that meets a second point.  It is lowered by
the point that takes it and by nothing else, so it could outlast its numeral.  `Scans` keeps the flag in
this way, and it is never out of date: where it is up, a float that has a point in its own text ends at
this very place, and the next character is a point (`Scans.dot_iff`).  So it makes no difference that the
flag of a lexeme is told to the next lexeme alone (`scans_iff_cuts`).

A point is thus a token exactly where such a float ends at it, and a scan that comes upon a point
anywhere else fails there (`TokenStream.ofSource?_points`).
-/
import Cyan.Proofs.Token.Faults

namespace Cyan

/-- Reading `text` gives the pieces and leaves `rest`, where the flag that a point may stand next stays
up until a point takes it. -/
inductive Scans : Bool → List Char → List Piece → Bool → List Char → Prop
  | nil {dot text} : Scans dot text [] dot text
  | cons {dot c cs l pieces dot' rest} : Lexeme.read dot c cs = .ok l →
    Scans (l.dotNext || (dot && c ≠ '.')) l.rest pieces dot' rest →
    Scans dot (c :: cs) (l.piece :: pieces) dot' rest

/-- Whether the last of the pieces is a float that is written with a point. -/
def EndsInPointedFloat (pieces : List Piece) : Prop :=
  ∃ p ∈ pieces.getLast?, (∃ x, p.kind? = some (.float x)) ∧ '.' ∈ p.text

/-! ## The flag of one lexeme -/

variable {dot dot' : Bool} {c : Char} {cs text rest : List Char} {l : Lexeme} {pieces : List Piece}
  {source : Source}

namespace Lexeme

theorem point_not_mem (h : ∀ d ∈ cs, d.isDigit = true) : '.' ∉ cs := by
  intro hmem
  cases h '.' hmem

/-- A float is a numeral. -/
theorem readNumeral_of_float {x : Float} (h : read dot c cs = .ok l) (hkind : l.kind? = some (.float x)) :
    c.isDigit = true ∧ l = readNumeral c cs := by
  have hdigit : c.isDigit = true := by
    rcases read_cases h with ⟨kind, hl, hspelled⟩ | ⟨rfl, -⟩ | ⟨rfl, -⟩
    · rw [hkind] at hl
      cases hl
      rw [text_eq_cons h] at hspelled
      generalize htext : c :: l.text.tail = whole at hspelled
      cases hspelled with
      | wide _ hdigits => exact hdigits c (htext ▸ List.mem_cons_self)
      | @float whole _ hne hwhole _ =>
        obtain ⟨d, ds, rfl⟩ := List.exists_cons_of_ne_nil hne
        rw [(List.cons.inj htext).1]
        exact hwhole d List.mem_cons_self
    · cases hkind
    · cases hkind
  rw [read_digit hdigit] at h
  cases h
  exact ⟨hdigit, rfl⟩

/-- A numeral raises the flag if it has a point and another one follows.  It is a float then. -/
theorem readNumeral_dotNext (hc : c.isDigit = true) (cs : List Char) :
    ((readNumeral c cs).dotNext = true ↔
      '.' ∈ (readNumeral c cs).text ∧ (readNumeral c cs).rest.head? = some '.') ∧
    ('.' ∈ (readNumeral c cs).text → ∃ x, (readNumeral c cs).kind? = some (.float x)) := by
  by_cases hpoint : (cs.dropWhile Char.isDigit).head? = some '.'
  · obtain ⟨more, hmore⟩ := List.head?_eq_some_iff.mp hpoint
    rw [readNumeral_point c hmore]
    exact ⟨by simp, fun _ => ⟨_, rfl⟩⟩
  · have hno : '.' ∉ c :: cs.takeWhile Char.isDigit :=
      point_not_mem (List.forall_mem_cons.mpr ⟨hc, fun _ => of_mem_takeWhile⟩)
    rw [readNumeral_whole c hpoint]
    exact ⟨by simp [hno], fun hmem => absurd hmem hno⟩

/-- A lexeme raises the flag if it is a float with a point and another one follows. -/
theorem dotNext_iff (h : read dot c cs = .ok l) : l.dotNext = true ↔
    ((∃ x, l.kind? = some (.float x)) ∧ '.' ∈ l.text) ∧ l.rest.head? = some '.' := by
  constructor
  · intro hdot
    obtain ⟨hc, rfl⟩ := readNumeral_of_dotNext h hdot
    obtain ⟨hflag, hfloat⟩ := readNumeral_dotNext hc cs
    obtain ⟨hmem, hhead⟩ := hflag.mp hdot
    exact ⟨⟨hfloat hmem, hmem⟩, hhead⟩
  · rintro ⟨⟨⟨x, hx⟩, hmem⟩, hhead⟩
    obtain ⟨hc, rfl⟩ := readNumeral_of_float h hx
    exact (readNumeral_dotNext hc cs).1.mpr ⟨hmem, hhead⟩

/-- A point is read as a point or not at all. -/
theorem read_point_eq (dot : Bool) (cs : List Char) : read dot '.' cs =
    if dot then .ok ⟨some (.mark .dot), ['.'], cs, false⟩ else .error (.invalidCharacter '.', ['.']) := by
  cases dot <;> rfl

theorem eq_text_of_mark {m : Mark} (h : read dot c cs = .ok l) (hkind : l.kind? = some (.mark m)) :
    l.text = m.spelling.toList := by
  have hmark {cs : List Char} (h : Token.Kind.Spelled (.mark m) cs) : cs = m.spelling.toList := by
    cases h
    rfl
  rcases read_cases h with ⟨kind, hl, hspelled⟩ | ⟨rfl, -⟩ | ⟨rfl, -⟩
  · obtain rfl := Option.some.inj (hkind.symm.trans hl)
    exact hmark hspelled
  · cases hkind
  · cases hkind

theorem eq_point_of_read (h : read dot c cs = .ok l) (hkind : l.kind? = some (.mark .dot)) :
    c = '.' ∧ dot = true := by
  have hpoint : l.text = ['.'] := eq_text_of_mark h hkind
  rw [text_eq_cons h] at hpoint
  obtain rfl := (List.cons.inj hpoint).1
  cases dot with
  | true => exact ⟨rfl, rfl⟩
  | false => cases h

end Lexeme

/-! ## The flag of a row of lexemes -/

theorem Cuts.eq_of_nil (h : Cuts dot text [] dot' rest) : dot' = dot ∧ rest = text := by
  cases h
  exact ⟨rfl, rfl⟩

/-- Pieces that are cut off with the flag down leave it up where a float with a point ends at a point. -/
theorem Cuts.dot_iff (h : Cuts false text pieces dot rest) :
    dot = true ↔ rest.head? = some '.' ∧ EndsInPointedFloat pieces := by
  rcases List.eq_nil_or_concat pieces with rfl | ⟨front, p, rfl⟩
  · cases h
    simp [EndsInPointedFloat]
  · rw [List.concat_eq_append] at h ⊢
    obtain ⟨dot₁, mid, -, hlast⟩ := h.split
    cases hlast with
    | cons hread hnil =>
      obtain ⟨rfl, rfl⟩ := hnil.eq_of_nil
      rw [Lexeme.dotNext_iff hread, and_comm]
      simp [EndsInPointedFloat, Lexeme.piece]

/-- A flag that is up only where a point follows is taken by the next lexeme. -/
theorem Lexeme.flag_eq (hdot : dot = true → (c :: cs).head? = some '.') (b : Bool) :
    (b || (dot && c ≠ '.')) = b := by
  cases dot with
  | false => simp
  | true =>
    obtain rfl : c = '.' := by simpa using hdot rfl
    simp

theorem Scans.cuts (h : Scans dot text pieces dot' rest) (hdot : dot = true → text.head? = some '.') :
    Cuts dot text pieces dot' rest := by
  induction h with
  | nil => exact .nil
  | cons hread _ ih =>
    rw [Lexeme.flag_eq hdot] at ih
    exact .cons hread (ih (Lexeme.head?_rest_of_dotNext hread))

theorem Cuts.scans (h : Cuts dot text pieces dot' rest) (hdot : dot = true → text.head? = some '.') :
    Scans dot text pieces dot' rest := by
  induction h with
  | nil => exact .nil
  | cons hread _ ih =>
    refine .cons hread ?_
    rw [Lexeme.flag_eq hdot]
    exact ih (Lexeme.head?_rest_of_dotNext hread)

/-- Over a whole text it is the same whether the flag is kept up for a point or told to the next lexeme. -/
theorem scans_iff_cuts : Scans false text pieces dot rest ↔ Cuts false text pieces dot rest :=
  ⟨fun h => h.cuts nofun, fun h => h.scans nofun⟩

/-- The flag is up exactly at a point where a float with a point ends. -/
theorem Scans.dot_iff (h : Scans false text pieces dot (c :: cs)) :
    dot = true ↔ c = '.' ∧ EndsInPointedFloat pieces := by
  have hiff := (scans_iff_cuts.mp h).dot_iff
  rwa [List.head?_cons, Option.some_inj] at hiff

/-! ## Points in a source -/

/-- Of a text, no two beginnings have the same number of bytes. -/
theorem Position.eq_of_behind_eq {before before' after after' : List Char}
    (htext : before ++ after = before' ++ after') (h : behind before = behind before') :
    before = before' := by
  have hcount : byteCount before = byteCount before' := congrArg Position.index h
  have htake := Span.takeBytes_append [] before after
  rw [htext, hcount, Span.takeBytes_append] at htake
  exact (Option.some.inj htake).symm

/-- A token that ends behind the first characters of a text is the last of the pieces they consist of. -/
theorem Piece.exists_of_stop {before after : List Char} (htext : source.text.toList = before ++ after)
    (h : Cuts false source.text.toList pieces dot []) {t : Token Span}
    (ht : t ∈ tokens source .origin pieces) (hstop : t.place.stop = .behind before) :
    ∃ front p back, pieces = front ++ [p] ++ back ∧ texts (front ++ [p]) = before ∧
      p.kind? = some t.kind ∧ t.place.text = String.ofList p.text := by
  obtain ⟨front, p, back, rfl, hkind, hplace⟩ := exists_of_mem_tokens ht
  have hpieces : source.text.toList = texts front ++ p.text ++ texts back := by
    rw [h.text_eq, List.append_nil, texts_append, texts_cons, List.append_assoc]
  have hbefore : texts (front ++ [p]) = before := by
    rw [texts_append, texts_cons, texts_nil, List.append_nil]
    refine Position.eq_of_behind_eq (hpieces.symm.trans htext) ?_
    rw [← Position.past_origin, ← hstop, hplace]
  refine ⟨front, p, back, by simp, hbefore, hkind, ?_⟩
  rw [hplace]
  exact Span.text_of_split hpieces

/-- The token that a piece is lies where the piece lies. -/
theorem Piece.mem_tokens {front back : List Piece} {p : Piece} {kind : Token.Kind}
    (hkind : p.kind? = some kind) : ⟨kind, ⟨source, .behind (texts front), .behind (texts (front ++ [p]))⟩⟩ ∈
      tokens source .origin (front ++ p :: back) := by
  rw [tokens_append, tokens_cons_some hkind, ← Position.past_append, Position.past_origin,
    Position.past_origin, texts_append, texts_cons, texts_nil, List.append_nil]
  exact List.mem_append_right _ List.mem_cons_self

section

variable {before after : List Char} (htext : source.text.toList = before ++ '.' :: after)
  (h : Cuts false source.text.toList pieces dot [])
include htext h

/-- A point is a token where a float with a point ends at it. -/
theorem Cuts.exists_dot {u : Token Span} (hu : u ∈ Piece.tokens source .origin pieces)
    (hfloat : ∃ x, u.kind = .float x) (hpoint : '.' ∈ u.place.text.toList)
    (hstop : u.place.stop = .behind before) :
    ∃ t ∈ Piece.tokens source .origin pieces, t.kind = .mark .dot ∧ t.place.start = .behind before := by
  obtain ⟨x, hx⟩ := hfloat
  obtain ⟨front, p, back, rfl, hfront, hkind, hplace⟩ := Piece.exists_of_stop htext h hu hstop
  obtain ⟨dot', mid, hcuts, hback⟩ := h.split
  obtain rfl : mid = '.' :: after := by
    rw [hcuts.text_eq, hfront] at htext
    exact List.append_cancel_left htext
  have hends : EndsInPointedFloat (front ++ [p]) := by
    rw [hplace, String.toList_ofList] at hpoint
    exact ⟨p, by simp, ⟨x, hx ▸ hkind⟩, hpoint⟩
  obtain rfl : dot' = true := hcuts.dot_iff.mpr ⟨rfl, hends⟩
  cases hback with
  | @cons _ _ _ l pieces _ _ hread _ =>
    rw [Lexeme.read_point_eq, if_pos rfl] at hread
    cases hread
    exact ⟨_, Piece.mem_tokens rfl, rfl, congrArg Position.behind hfront⟩

/-- Where a point is a token, a float with a point ends at it. -/
theorem Cuts.exists_pointed {t : Token Span} (ht : t ∈ Piece.tokens source .origin pieces)
    (hdot : t.kind = .mark .dot) (hstart : t.place.start = .behind before) :
    ∃ u ∈ Piece.tokens source .origin pieces, (∃ x, u.kind = .float x) ∧ '.' ∈ u.place.text.toList ∧
      u.place.stop = .behind before := by
  obtain ⟨front, p, back, rfl, hkind, hplace⟩ := Piece.exists_of_mem_tokens ht
  obtain ⟨dot', mid, hcuts, hback⟩ := h.split
  have hfront : Piece.texts front = before := by
    refine Position.eq_of_behind_eq (hcuts.text_eq.symm.trans htext) ?_
    rw [← hstart, hplace, Position.past_origin]
  cases hback with
  | @cons _ c cs l pieces _ _ hread hback =>
    obtain ⟨rfl, rfl⟩ := Lexeme.eq_point_of_read hread (hkind.trans (congrArg some hdot))
    obtain ⟨-, q, hq, ⟨x, hx⟩, hpoint⟩ := hcuts.dot_iff.mp rfl
    obtain ⟨front, rfl⟩ := List.getLast?_eq_some_iff.mp hq
    have hsplit : source.text.toList = Piece.texts front ++ q.text ++ ('.' :: after) := by
      rw [htext, ← hfront, Piece.texts_append, Piece.texts_cons, Piece.texts_nil, List.append_nil]
    refine ⟨⟨.float x, ⟨source, .behind (Piece.texts front), .behind (Piece.texts (front ++ [q]))⟩⟩, ?_,
      ⟨x, rfl⟩, ?_, congrArg Position.behind hfront⟩
    · rw [List.append_assoc]
      exact Piece.mem_tokens hx
    · have hspan := Span.text_of_split hsplit
      rw [Position.past_origin, Position.past_origin] at hspan
      rw [Piece.texts_append, Piece.texts_cons, Piece.texts_nil, List.append_nil, hspan,
        String.toList_ofList]
      exact hpoint

end

namespace TokenStream

/-- Wherever a scan begins a lexeme, the flag is up exactly at a point where a float with a point ends, and
at any other point the scan fails.  So in a text that has tokens, the point tokens stand on points of the
text, and a point of the text is one exactly if a float with a point ends at it. -/
theorem ofSource?_points (source : Source) :
    (∀ pieces dot c cs, Scans false source.text.toList pieces dot (c :: cs) →
      (dot = true ↔ c = '.' ∧ EndsInPointedFloat pieces) ∧
      (c = '.' → ¬EndsInPointedFloat pieces → ofSource? source =
        .error ⟨.invalidCharacter '.',
          ⟨source, .behind (Piece.texts pieces), .behind (Piece.texts pieces ++ ['.'])⟩⟩)) ∧
    ∀ s, ofSource? source = .ok s →
      (∀ t ∈ s.tokens, t.kind = .mark .dot → ∃ before after, source.text.toList = before ++ '.' :: after ∧
        t.place = ⟨source, .behind before, .behind (before ++ ['.'])⟩) ∧
      ∀ before after, source.text.toList = before ++ '.' :: after →
        ((∃ t ∈ s.tokens, t.kind = .mark .dot ∧ t.place.start = .behind before) ↔
          ∃ u ∈ s.tokens, (∃ x, u.kind = .float x) ∧ '.' ∈ u.place.text.toList ∧
            u.place.stop = .behind before) := by
  refine ⟨fun pieces dot c cs hscans => ⟨hscans.dot_iff, ?_⟩, fun s h => ⟨fun t ht hdot => ?_, ?_⟩⟩
  · rintro rfl hends
    obtain rfl : dot = false := by
      rw [← Bool.not_eq_true, hscans.dot_iff]
      exact fun hpoint => hends hpoint.2
    have herror := ofSource?_of_fault (scans_iff_cuts.mp hscans) (Lexeme.read_point_eq false cs)
    rwa [Position.past_origin, Position.past_origin] at herror
  · obtain ⟨before, lexeme, after, htext, hplace, -, hspelled, -⟩ := (ofSource?_partitioned h).lexemes t ht
    rw [hdot] at hspelled
    cases hspelled
    exact ⟨before, after, htext.trans (List.append_assoc before ['.'] after), hplace⟩
  · intro before after htext
    obtain ⟨pieces, dot, hcuts, rfl⟩ := ofSource?_eq_ok.mp h
    constructor
    · rintro ⟨t, ht, hdot, hstart⟩
      exact hcuts.exists_pointed htext ht hdot hstart
    · rintro ⟨u, hu, hfloat, hpoint, hstop⟩
      exact hcuts.exists_dot htext hu hfloat hpoint hstop

theorem ofSource?_points_pair :
    (∃ s, ofSource? ⟨"<stdin>", "1..2"⟩ = .ok s ∧
      ∃ t ∈ s.tokens, t.kind = .mark .dot ∧ t.place.start = .behind ['1', '.']) ∧
    ofSource? ⟨"<stdin>", "1..."⟩ = .error ⟨.invalidCharacter '.',
      ⟨⟨"<stdin>", "1..."⟩, .behind ['1', '.', '.'], .behind ['1', '.', '.', '.']⟩⟩ := by
  have hnumeral (rest : List Char) : Lexeme.read false '1' ('.' :: '.' :: rest) =
      .ok ⟨some (.float (Decimal.toFloat false ⟨1, 0⟩)), ['1', '.'], '.' :: rest, true⟩ := rfl
  constructor
  · have hint : Lexeme.read false '2' [] = .ok ⟨some (.int 2), ['2'], [], false⟩ := rfl
    have h := @ofSource?_of_cuts ⟨"<stdin>", "1..2"⟩ _ _
      (.cons (hnumeral ['2']) (.cons (Lexeme.read_point_eq true ['2']) (.cons hint .nil)))
    obtain ⟨-, hpoints⟩ := (ofSource?_points ⟨"<stdin>", "1..2"⟩).2 _ h
    have hspan := @Span.text_of_split ⟨"<stdin>", "1..2"⟩ [] ['1', '.'] ['.', '2'] rfl
    have hmem : '.' ∈ (Span.mk ⟨"<stdin>", "1..2"⟩ .origin (Position.origin.past ['1', '.'])).text.toList :=
      (congrArg String.toList hspan) ▸ List.mem_cons_of_mem _ List.mem_cons_self
    exact ⟨_, h, (hpoints ['1', '.'] ['2'] rfl).mpr ⟨_, List.mem_cons_self, ⟨_, rfl⟩, hmem, rfl⟩⟩
  · have hscans : Scans false "1...".toList _ false ['.'] :=
      .cons (hnumeral ['.']) (.cons (Lexeme.read_point_eq true ['.']) .nil)
    refine ((ofSource?_points ⟨"<stdin>", "1..."⟩).1 _ _ _ _ hscans).2 rfl ?_
    rintro ⟨p, hp, ⟨x, hx⟩, -⟩
    cases hp
    cases hx

end TokenStream
end Cyan
