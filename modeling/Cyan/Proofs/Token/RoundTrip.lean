/-
Tokens written out and read again.

The spellings of a stream's tokens, with blanks between them, are a text again.  This text has the same
tokens, with the same values in them, exactly if no token is a point and every float is zero or lies in
the range that is written without an exponent (`TokenStream.ofSource?_spelling`).

A token of a text has a spelling to begin with, and that settles what its own spelling is like: an
integer is not negative, a string does not hold both sorts of quotes, and a float has no sign.  So all
tokens but points and floats out of the range are spelled as tokens of their kind
(`Token.Kind.Spelled.spelling`) and are read again as what they are.  A point begins no lexeme behind a
blank, and a float out of the range begins with a lexeme of another kind
(`Token.Kind.exists_read_float`).  What follows cannot make up for either: a text is read from left to
right, so the first token that is not read back is the first difference (`Cuts.forall_plain`).

The spelling of a single token is a text as well.  It has this token and no other for the tokens that are
read back between others, and that of a point has none (`TokenStream.ofSource?_spelling_alone`).
-/
import Cyan.Proofs.Number.Written
import Cyan.Proofs.Token.Partition
import Cyan.Proofs.Token.Reread

namespace Cyan

namespace Token.Kind

open Binary64 (infinityBits ofBits Positional)

/-- Whether a token is no point, and no float out of the range that is written without an exponent. -/
def Plain : Token.Kind → Prop
  | .mark m => m ≠ .dot
  | .float x => (x == 0) = true ∨ 1e-4 ≤ x ∧ x < 1e16
  | _ => True

theorem Plain.ne_dot {kind : Token.Kind} (h : kind.Plain) : kind ≠ .mark .dot := by
  rintro rfl
  exact h rfl

theorem plain_float {b : Nat} (hb : b ≤ infinityBits) :
    Plain (.float (ofBits false b)) ↔ Positional b := Binary64.positional_iff hb

/-! ## The spellings of tokens that are read back -/

theorem spelling_float {b : Nat} (hb : b ≤ infinityBits) :
    (spelling (.float (ofBits false b))).toList = Binary64.writtenBits floatLayout b := by
  rw [spelling, Number.written, Binary64.written_ofBits hb, String.toList_ofList]

theorem spelled_float {b : Nat} (hb : b ≤ infinityBits) (h : Positional b) :
    Spelled (.float (ofBits false b)) (spelling (.float (ofBits false b))).toList := by
  obtain ⟨whole, fraction, htext, hne, hwhole, hfraction, hbits⟩ := Binary64.exists_writtenBits_eq hb h
  have hspelled := Spelled.float hne hwhole hfraction
  rw [show Decimal.toFloat false ⟨Decimal.digitsValue (whole ++ fraction), -(fraction.length : Int)⟩ =
    ofBits false (Decimal.ofDigits whole fraction).bits from rfl, hbits] at hspelled
  rw [spelling_float hb, htext]
  exact hspelled

theorem spelled_int {n : Int64} {value : Nat} (h : n.toInt = value) :
    Spelled (.int n) (spelling (.int n)).toList := by
  have htext : (spelling (.int n)).toList = Nat.toDigits 10 value := by
    rw [spelling, Number.written, h]
    exact Nat.toList_repr
  rw [htext]
  refine .int Nat.toDigits_ne_nil ?_ ?_
  · intro d hd
    exact Nat.isDigit_of_mem_toDigits (by decide) (by decide) hd
  · rw [h, Decimal.digitsValue_toDigits]

/-- A string that lies between quotes of one sort does not hold both. -/
theorem spelled_string {quote : Char} {content : List Char} (hquote : quote = '\'' ∨ quote = '"')
    (hcontent : quote ∉ content) :
    Spelled (.string (String.ofList content)) (spelling (.string (String.ofList content))).toList := by
  by_cases hdouble : '"' ∈ content
  · have hsingle : '\'' ∉ content := by
      rcases hquote with rfl | rfl
      · exact hcontent
      · exact absurd hdouble hcontent
    have hspelled := Spelled.string (Or.inl rfl) hsingle
    simpa [spelling, stringQuote, hdouble] using hspelled
  · have hspelled := Spelled.string (Or.inr rfl) hdouble
    simpa [spelling, stringQuote, hdouble] using hspelled

/-- The floats of a text have no sign. -/
theorem Spelled.exists_bits {x : Float} {cs : List Char} (h : Spelled (.float x) cs) :
    ∃ b ≤ infinityBits, x = ofBits false b := by
  cases h with
  | wide => exact ⟨_, Decimal.bits_le _, rfl⟩
  | float => exact ⟨_, Decimal.bits_le _, rfl⟩

/-- A token of a text is spelled as one of its kind. -/
theorem Spelled.spelling {kind : Token.Kind} {cs : List Char} (h : Spelled kind cs)
    (hplain : kind.Plain) : Spelled kind kind.spelling.toList := by
  cases kind with
  | float x =>
    obtain ⟨b, hb, rfl⟩ := h.exists_bits
    exact spelled_float hb ((plain_float hb).mp hplain)
  | mark m => exact .mark m
  | keyword word => exact .keyword word
  | literal value => exact .literal value
  | identifier name =>
    have htext : name.toList = cs := by
      cases h
      exact String.toList_ofList
    show Spelled _ name.toList
    rwa [htext]
  | string text =>
    cases h with
    | string hquote hcontent => exact spelled_string hquote hcontent
  | int n =>
    cases h with
    | int _ _ hvalue => exact spelled_int hvalue

/-! ## Floats that are not read back -/

/-- A single digit is an integer. -/
theorem exists_ofNumeral_digit {c : Char} (hc : c.isDigit = true) :
    ∃ n, ofNumber (.ofNumeral [c] none) = .int n := by
  cases hfits : exactInt? (Decimal.digitsValue [c]) with
  | some n => exact ⟨n, by simp only [Number.ofNumeral, hfits, ofNumber]⟩
  | none =>
    have hmin : Int64.minValue.toInt = -9223372036854775808 := by decide
    have hmax : Int64.maxValue.toInt = 9223372036854775807 := by decide
    have hcode : c.toNat ≤ 0x39 := (Char.isDigit_iff_toNat.mp hc).2
    have hvalue : Decimal.digitsValue [c] = c.toNat - 0x30 := rfl
    rw [exactInt?_eq_none_iff] at hfits
    omega

/-- Out of the range, the spelling of a float begins with a token of another kind. -/
theorem exists_read_float {b : Nat} (hb : b ≤ infinityBits) (h : ¬Positional b) : ∃ c ds,
    (spelling (.float (ofBits false b))).toList = c :: ds ∧ ∀ after, ∃ l,
      Lexeme.read false c (ds ++ ' ' :: after) = .ok l ∧
        ∃ kind, l.kind? = some kind ∧ kind ≠ .float (ofBits false b) := by
  rw [spelling_float hb]
  rcases Binary64.writtenBits_cases hb h with
    htext | ⟨first, fraction, tail, hfirst, hfraction, hbits, htext | htext⟩
  · have hread := @Lexeme.read_word 'i' ['n', 'f'] (by decide) (List.all_eq_true.mp (by decide))
    exact ⟨_, _, htext, fun after => ⟨_, hread after, .identifier "inf", rfl, by simp⟩⟩
  · have hread := @Lexeme.read_digits first 'e' [] (by simpa using hfirst) rfl (by decide)
    obtain ⟨n, hn⟩ := exists_ofNumeral_digit hfirst
    exact ⟨_, _, htext, fun after => ⟨_, hread (tail ++ ' ' :: after), _, rfl, by simp [hn]⟩⟩
  · have hread := @Lexeme.read_point_digits first 'e' [] fraction (by simpa using hfirst) hfraction rfl
      (by decide)
    refine ⟨_, _, htext, fun after => ?_⟩
    rw [List.cons_append, List.append_assoc]
    refine ⟨_, hread (tail ++ ' ' :: after), _, rfl, ?_⟩
    intro heq
    apply hbits
    have hfloat : ofBits false (Decimal.ofDigits [first] fraction).bits = ofBits false b :=
      Token.Kind.float.inj heq
    rw [← Binary64.toNat_toBits_ofBits (Decimal.bits_le _), hfloat, Binary64.toNat_toBits_ofBits hb]

end Token.Kind

/-! ## Reading a row of spellings -/

/-- The spellings of tokens, each with a blank behind it. -/
def spellings (kinds : List Token.Kind) : List Char :=
  kinds.flatMap fun kind => kind.spelling.toList ++ [' ']

theorem spellings_cons (kind : Token.Kind) (rest : List Token.Kind) :
    spellings (kind :: rest) = kind.spelling.toList ++ ' ' :: spellings rest := by
  rw [spellings, List.flatMap_cons, List.append_assoc]
  rfl

theorem TokenStream.toList_spelling {Place : Type} (s : TokenStream Place) :
    s.spelling.toList = spellings s.kinds := by
  rw [spelling, String.toList_intercalate]
  generalize s.kinds = kinds
  induction kinds with
  | nil => rfl
  | cons kind rest ih =>
    rw [spellings, List.flatMap_cons, ← spellings, ← ih, List.map_cons, List.cons_append, List.map_cons,
      List.intercalate_cons_of_ne_nil (by simp)]
    simp

/-- The tokens among the pieces. -/
def Piece.kinds (pieces : List Piece) : List Token.Kind := pieces.filterMap Piece.kind?

theorem Piece.kinds_tokens (source : Source) (start : Position) (pieces : List Piece) :
    (tokens source start pieces).map Token.kind = kinds pieces := by
  induction pieces generalizing start with
  | nil => rfl
  | cons p rest ih =>
    cases hp : p.kind? with
    | none => rw [tokens_cons_none hp, ih, kinds, kinds, List.filterMap_cons_none hp]
    | some kind => rw [tokens_cons_some hp, List.map_cons, ih, kinds, kinds, List.filterMap_cons_some hp]

namespace Cuts

variable {dot dot' : Bool} {cs after : List Char} {pieces : List Piece}

/-- What is read first is the first piece. -/
theorem of_read {c : Char} {l : Lexeme} (h : Cuts dot (c :: cs) pieces dot' [])
    (hread : Lexeme.read dot c cs = .ok l) :
    ∃ rest, pieces = l.piece :: rest ∧ Cuts l.dotNext l.rest rest dot' [] := by
  cases h with
  | cons hread' h =>
    rw [hread] at hread'
    cases hread'
    exact ⟨_, rfl, h⟩

/-- A spelling that is read back, and the blank behind it. -/
theorem of_rereads {kind : Token.Kind} (hkind : kind.Rereads cs)
    (h : Cuts false (cs ++ ' ' :: after) pieces dot' []) :
    ∃ rest, Piece.kinds pieces = kind :: Piece.kinds rest ∧ Cuts false after rest dot' [] := by
  obtain ⟨c, ds, rfl, hread⟩ := hkind
  obtain ⟨more, rfl, hmore⟩ := of_read h (hread after)
  have hblank : Lexeme.read false ' ' after = .ok ⟨none, [' '], after, false⟩ := rfl
  obtain ⟨rest, rfl, hrest⟩ := of_read (c := ' ') hmore hblank
  exact ⟨rest, rfl, hrest⟩

/-- Spellings that are all read back. -/
theorem of_forall_rereads {kinds : List Token.Kind}
    (h : ∀ kind ∈ kinds, kind.Rereads kind.spelling.toList) :
    ∃ pieces, Cuts false (spellings kinds) pieces false [] ∧ Piece.kinds pieces = kinds := by
  induction kinds with
  | nil => exact ⟨[], .nil, rfl⟩
  | cons kind rest ih =>
    obtain ⟨⟨c, ds, htext, hread⟩, hrest⟩ := List.forall_mem_cons.mp h
    obtain ⟨pieces, hcuts, hkinds⟩ := ih hrest
    refine ⟨⟨some kind, kind.spelling.toList⟩ :: ⟨none, [' ']⟩ :: pieces, ?_, ?_⟩
    · have hblank : Lexeme.read false ' ' (spellings rest) =
          .ok ⟨none, [' '], spellings rest, false⟩ := rfl
      rw [spellings_cons, htext]
      rw [htext] at hread
      exact .cons (hread (spellings rest)) (.cons hblank hcuts)
    · exact congrArg (kind :: ·) hkinds

/-- The spelling of a token of a text that is not plain is not read as that token, whatever follows. -/
theorem head?_kinds_ne {kind : Token.Kind} (hspelled : kind.Spelled cs) (hplain : ¬kind.Plain)
    (h : Cuts false (kind.spelling.toList ++ ' ' :: after) pieces dot' []) :
    (Piece.kinds pieces).head? ≠ some kind := by
  cases kind with
  | mark m =>
    obtain rfl : m = .dot := Decidable.not_not.mp hplain
    cases h with
    | cons hread _ => cases hread
  | float x =>
    obtain ⟨b, hb, rfl⟩ := hspelled.exists_bits
    obtain ⟨c, ds, htext, hread⟩ :=
      Token.Kind.exists_read_float hb (mt (Token.Kind.plain_float hb).mpr hplain)
    obtain ⟨l, hl, kind, hkind, hne⟩ := hread after
    rw [htext] at h
    obtain ⟨rest, rfl, -⟩ := of_read h hl
    rw [Piece.kinds, List.filterMap_cons_some (show l.piece.kind? = some kind from hkind)]
    simpa using hne
  | _ => exact absurd trivial hplain

/-- Spellings that are read as the tokens they spell are those of plain ones. -/
theorem forall_plain {kinds : List Token.Kind} (hspelled : ∀ kind ∈ kinds, ∃ cs, kind.Spelled cs)
    (h : Cuts false (spellings kinds) pieces dot' []) (hkinds : Piece.kinds pieces = kinds) :
    ∀ kind ∈ kinds, kind.Plain := by
  induction kinds generalizing pieces with
  | nil => simp
  | cons kind rest ih =>
    obtain ⟨⟨cs, hcs⟩, hrest⟩ := List.forall_mem_cons.mp hspelled
    rw [spellings_cons] at h
    by_cases hplain : kind.Plain
    · obtain ⟨more, hmore, h⟩ := of_rereads ((hcs.spelling hplain).reread hplain.ne_dot) h
      rw [hkinds] at hmore
      exact List.forall_mem_cons.mpr ⟨hplain, ih hrest h (List.cons.inj hmore).2.symm⟩
    · have hne := head?_kinds_ne hcs hplain h
      rw [hkinds] at hne
      exact absurd rfl hne

end Cuts

/-! ## Streams -/

namespace TokenStream

/-- A source has tokens of certain kinds if its text can be cut up into them. -/
theorem exists_ofSource?_iff {source : Source} {kinds : List Token.Kind} :
    (∃ s, ofSource? source = .ok s ∧ s.kinds = kinds) ↔
      ∃ pieces dot, Cuts false source.text.toList pieces dot [] ∧ Piece.kinds pieces = kinds := by
  constructor
  · intro h
    obtain ⟨s, hs, hkinds⟩ := h
    obtain ⟨pieces, dot, hcuts, rfl⟩ := ofSource?_eq_ok.mp hs
    exact ⟨pieces, dot, hcuts, (Piece.kinds_tokens ..).symm.trans hkinds⟩
  · intro h
    obtain ⟨pieces, dot, hcuts, hkinds⟩ := h
    exact ⟨_, ofSource?_of_cuts hcuts, (Piece.kinds_tokens ..).trans hkinds⟩

/-- Every token of a text has a spelling. -/
theorem exists_spelled {source : Source} {s : TokenStream Span} (h : ofSource? source = .ok s) :
    ∀ kind ∈ s.kinds, ∃ cs, kind.Spelled cs := by
  intro kind hkind
  obtain ⟨pieces, dot, hcuts, rfl⟩ := ofSource?_eq_ok.mp h
  obtain ⟨t, ht, rfl⟩ := List.mem_map.mp hkind
  obtain ⟨front, p, back, rfl, hp, -⟩ := Piece.exists_of_mem_tokens ht
  obtain ⟨dot', text, -, hback⟩ := hcuts.split
  exact ⟨p.text, (hback.lexeme hp).1⟩

/-- The tokens of a text are plain if they are no points and no floats that need an exponent. -/
theorem forall_plain_iff {kinds : List Token.Kind} :
    (∀ kind ∈ kinds, kind.Plain) ↔
      .mark .dot ∉ kinds ∧ ∀ x, .float x ∈ kinds → (x == 0) = true ∨ 1e-4 ≤ x ∧ x < 1e16 := by
  constructor
  · intro h
    exact ⟨fun hdot => h _ hdot rfl, fun x hx => h _ hx⟩
  · intro h kind hkind
    cases kind with
    | mark m => exact fun hm => h.1 (hm ▸ hkind)
    | float x => exact h.2 x hkind
    | _ => trivial

/-- Joining the spellings of a text's tokens with blanks gives a text with the same tokens exactly if
none of them is a point, and every float is zero or at least 1e-4 and below 1e16. -/
theorem ofSource?_spelling {source : Source} {s : TokenStream Span} (h : ofSource? source = .ok s)
    (name : String) :
    (∃ s', ofSource? ⟨name, s.spelling⟩ = .ok s' ∧ s'.kinds = s.kinds) ↔
      .mark .dot ∉ s.kinds ∧
        ∀ x, .float x ∈ s.kinds → (x == 0) = true ∨ 1e-4 ≤ x ∧ x < 1e16 := by
  have hspelled := exists_spelled h
  rw [← forall_plain_iff, exists_ofSource?_iff, toList_spelling]
  constructor
  · intro hread
    obtain ⟨pieces, dot, hcuts, hkinds⟩ := hread
    exact hcuts.forall_plain hspelled hkinds
  · intro hplain
    have hrereads : ∀ kind ∈ s.kinds, kind.Rereads kind.spelling.toList := by
      intro kind hkind
      obtain ⟨cs, hcs⟩ := hspelled kind hkind
      exact (hcs.spelling (hplain kind hkind)).reread (hplain kind hkind).ne_dot
    obtain ⟨pieces, hcuts, hkinds⟩ := Cuts.of_forall_rereads hrereads
    exact ⟨pieces, false, hcuts, hkinds⟩

theorem ofSource?_spelling_half :
    (∃ s s', ofSource? ⟨"<stdin>", "x=0.5#"⟩ = .ok s ∧
      s.kinds = [.identifier "x", .mark .equal, .float 0.5] ∧
      ofSource? ⟨"<stdin>", s.spelling⟩ = .ok s' ∧ s'.kinds = s.kinds) ∧
    ∃ s, ofSource? ⟨"<stdin>", "0.5.1"⟩ = .ok s ∧ s.kinds = [.float 0.5, .mark .dot, .int 1] ∧
      ¬∃ s', ofSource? ⟨"<stdin>", s.spelling⟩ = .ok s' ∧ s'.kinds = s.kinds := by
  have hhalf : (0.5 : Float) = Decimal.toFloat false ⟨5, -1⟩ := by decide +kernel
  constructor
  · have hx : Lexeme.read false 'x' "=0.5#".toList =
        .ok ⟨some (.identifier "x"), ['x'], "=0.5#".toList, false⟩ := rfl
    have hequal : Lexeme.read false '=' "0.5#".toList =
        .ok ⟨some (.mark .equal), ['='], "0.5#".toList, false⟩ := rfl
    have hnumber : Lexeme.read false '0' ".5#".toList =
        .ok ⟨some (.float (Decimal.toFloat false ⟨5, -1⟩)), "0.5".toList, ['#'], false⟩ := rfl
    have hcomment : Lexeme.read false '#' [] = .ok ⟨none, ['#'], [], false⟩ := rfl
    obtain ⟨s, h, hkinds⟩ : ∃ s, ofSource? ⟨"<stdin>", "x=0.5#"⟩ = .ok s ∧
        s.kinds = [.identifier "x", .mark .equal, .float 0.5] := by
      rw [hhalf]
      exact ⟨_, ofSource?_of_cuts (.cons hx (.cons hequal (.cons hnumber (.cons hcomment .nil)))), rfl⟩
    have hplain : ∀ x, .float x ∈ s.kinds → (x == 0) = true ∨ 1e-4 ≤ x ∧ x < 1e16 := by
      intro x hx
      obtain rfl : x = 0.5 := by simpa [hkinds] using hx
      decide +kernel
    obtain ⟨s', hs', hsame⟩ := (ofSource?_spelling h "<stdin>").mpr ⟨by simp [hkinds], hplain⟩
    exact ⟨s, s', h, hkinds, hs', hsame⟩
  · have hnumber : Lexeme.read false '0' ".5.1".toList =
        .ok ⟨some (.float (Decimal.toFloat false ⟨5, -1⟩)), "0.5".toList, ".1".toList, true⟩ := rfl
    have hdot : Lexeme.read true '.' ['1'] = .ok ⟨some (.mark .dot), ['.'], ['1'], false⟩ := rfl
    have hint : Lexeme.read false '1' [] = .ok ⟨some (.int 1), ['1'], [], false⟩ := rfl
    obtain ⟨s, h, hkinds⟩ : ∃ s, ofSource? ⟨"<stdin>", "0.5.1"⟩ = .ok s ∧
        s.kinds = [.float 0.5, .mark .dot, .int 1] := by
      rw [hhalf]
      exact ⟨_, ofSource?_of_cuts (.cons hnumber (.cons hdot (.cons hint .nil))), rfl⟩
    refine ⟨s, h, hkinds, fun hread => ?_⟩
    exact ((ofSource?_spelling h "<stdin>").mp hread).1 (by simp [hkinds])

/-! ## Single tokens -/

/-- A spelling that is read back in front of a blank is read back at the end of a text. -/
theorem ofSource?_of_rereads {kind : Token.Kind} {text : String} (h : kind.Rereads text.toList)
    (name : String) : ∃ s, ofSource? ⟨name, text⟩ = .ok s ∧ s.kinds = [kind] := by
  obtain ⟨c, ds, htext, hread⟩ := h
  have hblank : Cuts false (c :: (ds ++ [' '])) [⟨some kind, text.toList⟩] false [' '] :=
    .cons (hread []) .nil
  obtain ⟨dot, hcuts⟩ := hblank.alone
  rw [exists_ofSource?_iff]
  exact ⟨_, dot, by simpa using hcuts, rfl⟩

/-- A point at the beginning of a text is no token. -/
theorem ofSource?_point (name : String) : ofSource? ⟨name, "."⟩ =
    .error ⟨.invalidCharacter '.', ⟨⟨name, "."⟩, .origin, Position.origin.past ['.']⟩⟩ := by
  have hcuts : Cuts false ".".toList [] false ['.'] := by simpa using Cuts.nil
  have hread : Lexeme.read false '.' [] = .error (.invalidCharacter '.', ['.']) := rfl
  exact @ofSource?_of_fault ⟨name, "."⟩ _ _ _ _ _ _ hcuts hread

/-- The spelling of a token has this token alone, if it is no point, and if it is zero, at least 1e-4 and
below 1e16, or no float.  The spelling of a point has none. -/
theorem ofSource?_spelling_alone {source : Source} {s : TokenStream Span}
    (h : ofSource? source = .ok s) {kind : Token.Kind} (hkind : kind ∈ s.kinds) (name : String) :
    (kind ≠ .mark .dot → (∀ x, kind = .float x → (x == 0) = true ∨ 1e-4 ≤ x ∧ x < 1e16) →
      ∃ s', ofSource? ⟨name, kind.spelling⟩ = .ok s' ∧ s'.kinds = [kind]) ∧
    (kind = .mark .dot →
      ∃ e, ofSource? ⟨name, kind.spelling⟩ = .error e ∧ e.fault = .invalidCharacter '.') := by
  constructor
  · intro hdot hfloat
    have hplain : kind.Plain := by
      cases kind with
      | mark m => exact fun hm => hdot (congrArg _ hm)
      | float x => exact hfloat x rfl
      | _ => trivial
    obtain ⟨cs, hcs⟩ := exists_spelled h kind hkind
    exact ofSource?_of_rereads ((hcs.spelling hplain).reread hdot) name
  · rintro rfl
    exact ⟨_, ofSource?_point name, rfl⟩

/-- A numeral with a point, and a point that is a token. -/
theorem exists_ofSource?_half :
    ∃ s, ofSource? ⟨"<stdin>", "0.5."⟩ = .ok s ∧ s.kinds = [.float 0.5, .mark .dot] := by
  have hhalf : (0.5 : Float) = Decimal.toFloat false ⟨5, -1⟩ := by decide +kernel
  have hnumber : Lexeme.read false '0' ".5.".toList =
      .ok ⟨some (.float (Decimal.toFloat false ⟨5, -1⟩)), "0.5".toList, ['.'], true⟩ := rfl
  have hdot : Lexeme.read true '.' [] = .ok ⟨some (.mark .dot), ['.'], [], false⟩ := rfl
  rw [hhalf]
  exact ⟨_, ofSource?_of_cuts (.cons hnumber (.cons hdot .nil)), rfl⟩

theorem ofSource?_spelling_alone_half :
    ∃ s, ofSource? ⟨"<stdin>", "0.5."⟩ = .ok s ∧ s.kinds = [.float 0.5, .mark .dot] ∧
      (∃ s', ofSource? ⟨"<stdin>", (Token.Kind.float 0.5).spelling⟩ = .ok s' ∧
        s'.kinds = [.float 0.5]) ∧
      ∃ e, ofSource? ⟨"<stdin>", (Token.Kind.mark .dot).spelling⟩ = .error e ∧
        e.fault = .invalidCharacter '.' := by
  obtain ⟨s, h, hkinds⟩ := exists_ofSource?_half
  have hfloat : .float 0.5 ∈ s.kinds := by simp [hkinds]
  have hdot : .mark .dot ∈ s.kinds := by simp [hkinds]
  refine ⟨s, h, hkinds, ?_, (ofSource?_spelling_alone h hdot "<stdin>").2 rfl⟩
  refine (ofSource?_spelling_alone h hfloat "<stdin>").1 nofun ?_
  intro x hx
  cases hx
  decide +kernel

/-- A point is a token behind a numeral, and its spelling alone is not read as one. -/
theorem ofSource?_spelling_alone_point :
    ∃ s, ofSource? ⟨"<stdin>", "0.5."⟩ = .ok s ∧ .mark .dot ∈ s.kinds ∧
      ¬∃ s', ofSource? ⟨"<stdin>", (Token.Kind.mark .dot).spelling⟩ = .ok s' ∧
        s'.kinds = [.mark .dot] := by
  obtain ⟨s, h, hkinds⟩ := exists_ofSource?_half
  refine ⟨s, h, by simp [hkinds], ?_⟩
  rintro ⟨s', hs', -⟩
  rw [show (Token.Kind.mark .dot).spelling = "." from rfl, ofSource?_point] at hs'
  cases hs'

end TokenStream
end Cyan
