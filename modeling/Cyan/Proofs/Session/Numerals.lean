/-
Numerals in programs and in texts.

A numeral is a digit with digits behind it, and at most one point among or behind them.  There are two
readers of numerals: the scanner, which goes over the characters of a program, and the conversion `Num`,
which takes a text.  They give the same number (`Source.execute_numeral`): the integer of the digits if
there is no point and it fits, and otherwise the float nearest to the exact value of the numeral.

Neither reader knows the other's notion of a numeral.  Both come down to `Number.ofNumeral`, since the
conversion has no sign, no exponent and no word to read in a numeral, and passes over blanks around it.
-/
import Cyan.Proofs.Number.Reading
import Cyan.Proofs.Token.RoundTrip
import Cyan.Session

namespace Cyan

/-- Digits with at most one point, of which the first character is none. -/
structure IsNumeral (cs : List Char) : Prop where
  begins : ∃ c ∈ cs.head?, c.isDigit = true
  digits : ∀ c ∈ cs, c.isDigit = true ∨ c = '.'
  points : cs.count '.' ≤ 1

/-- The exact value of a numeral: its digits as one number, and how many of them are behind the point. -/
def Decimal.ofNumeral (cs : List Char) : Decimal :=
  ⟨Nat.ofDigitChars 10 (cs.filter Char.isDigit) 0, -((cs.dropWhile (· ≠ '.')).tail.length : Int)⟩

variable {cs digits whole fraction : List Char}

theorem IsNumeral.ne_nil (h : IsNumeral cs) : cs ≠ [] := by
  rintro rfl
  obtain ⟨c, hc, -⟩ := h.begins
  cases hc

/-- A numeral is a row of digits, or two rows of digits with a point between. -/
theorem IsNumeral.cases (h : IsNumeral cs) :
    ('.' ∉ cs ∧ ∀ c ∈ cs, c.isDigit = true) ∨
      ∃ whole fraction, cs = whole ++ '.' :: fraction ∧ whole ≠ [] ∧
        (∀ c ∈ whole, c.isDigit = true) ∧ ∀ c ∈ fraction, c.isDigit = true := by
  by_cases hpoint : '.' ∈ cs
  · obtain ⟨whole, fraction, rfl⟩ := List.append_of_mem hpoint
    obtain ⟨c, hc, hdigit⟩ := h.begins
    have hpoints := h.points
    rw [List.count_append, List.count_cons_self] at hpoints
    -- The one point is taken, so the other characters are digits.
    have hdigits {part : List Char} (hpart : ∀ c ∈ part, c ∈ whole ++ '.' :: fraction)
        (hcount : part.count '.' = 0) : ∀ c ∈ part, c.isDigit = true := by
      intro c hc
      rcases h.digits c (hpart c hc) with hdigit | rfl
      · exact hdigit
      · exact absurd hc (List.count_eq_zero.mp hcount)
    refine Or.inr ⟨whole, fraction, rfl, ?_, hdigits ?_ (by omega), hdigits ?_ (by omega)⟩
    · rintro rfl
      cases hc
      cases hdigit
    · exact fun c hc => List.mem_append_left _ hc
    · exact fun c hc => List.mem_append_right _ (List.mem_cons_of_mem _ hc)
  · refine Or.inl ⟨hpoint, fun c hc => ?_⟩
    rcases h.digits c hc with hdigit | rfl
    · exact hdigit
    · exact absurd hc hpoint

theorem IsNumeral.isBlank (h : IsNumeral cs) : ∀ c ∈ cs, Text.isBlank c = false := by
  intro c hc
  rcases h.digits c hc with hdigit | rfl
  · exact isBlank_of_isDigit hdigit
  · decide

/-! ## The value of a numeral -/

theorem Decimal.digitsValue_eq_ofDigitChars (cs : List Char) :
    Decimal.digitsValue cs = Nat.ofDigitChars 10 cs 0 := by
  rw [Decimal.digitsValue_eq_foldl, Nat.ofDigitChars_eq_foldl]

theorem filter_isDigit (h : ∀ c ∈ cs, c.isDigit = true) : cs.filter Char.isDigit = cs :=
  List.filter_eq_self.mpr h

theorem dropWhile_point (h : ∀ c ∈ cs, c.isDigit = true) (rest : List Char) :
    (cs ++ rest).dropWhile (· ≠ '.') = rest.dropWhile (· ≠ '.') := by
  refine List.dropWhile_append_of_pos fun c hc => ?_
  have hne : c ≠ '.' := by
    rintro rfl
    cases h _ hc
  simpa using hne

theorem Decimal.ofNumeral_digits (h : ∀ c ∈ cs, c.isDigit = true) :
    Decimal.ofNumeral cs = Decimal.ofDigits cs [] := by
  have hdrop := dropWhile_point h []
  rw [List.append_nil] at hdrop
  rw [Decimal.ofNumeral, Decimal.ofDigits, filter_isDigit h, hdrop, List.append_nil,
    Decimal.digitsValue_eq_ofDigitChars]
  rfl

theorem Decimal.ofNumeral_point (hwhole : ∀ c ∈ whole, c.isDigit = true)
    (hfraction : ∀ c ∈ fraction, c.isDigit = true) :
    Decimal.ofNumeral (whole ++ '.' :: fraction) = Decimal.ofDigits whole fraction := by
  have hfilter : (whole ++ '.' :: fraction).filter Char.isDigit = whole ++ fraction := by
    rw [List.filter_append, List.filter_cons_of_neg (by decide), filter_isDigit hwhole,
      filter_isDigit hfraction]
  rw [Decimal.ofNumeral, Decimal.ofDigits, hfilter, dropWhile_point hwhole,
    Decimal.digitsValue_eq_ofDigitChars]
  rfl

/-! ## Reading with the conversion -/

namespace Number

/-- Blanks around a text without blanks are passed over. -/
theorem read?_between {before text after : String} (hbefore : ∀ c ∈ before.toList, Text.isBlank c = true)
    (hafter : ∀ c ∈ after.toList, Text.isBlank c = true)
    (htext : ∀ c ∈ text.toList, Text.isBlank c = false) :
    read? (before ++ text ++ after) = read? text := by
  rw [read?, read?, String.toList_append, String.toList_append, trim_between hbefore hafter htext,
    trim_eq htext]

theorem read?_digits (hne : cs ≠ []) (h : ∀ c ∈ cs, c.isDigit = true) :
    read? (String.ofList cs) = some (ofNumeral cs none) := by
  obtain ⟨c, tail, rfl⟩ := List.exists_cons_of_ne_nil hne
  have hc : c.isDigit = true := h c List.mem_cons_self
  have hdigits : isDigits (c :: tail) = true := by
    rw [isDigits, Bool.and_eq_true, List.all_eq_true]
    exact ⟨rfl, h⟩
  have hsign : splitSign (c :: tail) = (false, c :: tail) :=
    splitSign_cons (ne_sign_of_isDigit hc) false tail
  have hint : readInt? (c :: tail) = exactInt? (Decimal.digitsValue (c :: tail)) := by
    rw [readInt?, hsign]
    simp only [hdigits, if_true, Bool.false_eq_true, if_false]
  rw [read?, String.toList_ofList, trim_eq fun c hc => isBlank_of_isDigit (h c hc), hint]
  cases hfits : exactInt? (Decimal.digitsValue (c :: tail)) with
  | some n => simp only [ofNumeral, hfits]
  | none =>
    have hdecimal : readDecimal? ((c :: tail) ++ []) = some ⟨Decimal.digitsValue (c :: tail), 0⟩ :=
      readDecimal?_whole h (List.cons_ne_nil c tail) rfl
    rw [List.append_nil] at hdecimal
    have hfloat : readFloat? (c :: tail) = some (Decimal.toFloat false _) :=
      readFloat?_decimal hc hdecimal false
    simp only [ofNumeral, hfits, Decimal.ofDigits, List.append_nil, hfloat]
    rfl

theorem read?_point (hne : whole ≠ []) (hwhole : ∀ c ∈ whole, c.isDigit = true)
    (hfraction : ∀ c ∈ fraction, c.isDigit = true) :
    read? (String.ofList (whole ++ '.' :: fraction)) = some (ofNumeral whole (some fraction)) := by
  have hnumeral : Numeral (whole ++ '.' :: (fraction ++ [])) _ := .point hwhole hne hfraction rfl nofun
  rw [List.append_nil, Int.add_zero] at hnumeral
  exact read?_numeral hnumeral false

end Number

/-! ## Running a numeral -/

namespace Source

/-- A text with a number for its only token is a program that gives this number and does nothing. -/
theorem execute_number {source : Source} {s : TokenStream Span} {a : Number}
    (h : TokenStream.ofSource? source = .ok s) (hkinds : s.kinds = [.ofNumber a]) (config : Config)
    (bound : Nat) (scope : ScopeId) (w : World Span) :
    source.execute config (bound + 2) scope w = .done (.number a) w := by
  obtain ⟨tokens, finish⟩ := s
  obtain ⟨⟨kind, place⟩, rest, rfl, hkind, hrest⟩ := List.map_eq_cons_iff.mp hkinds
  obtain rfl := List.map_eq_nil_iff.mp hrest
  obtain rfl : kind = .ofNumber a := hkind
  have hprogram : Expr.ofSource? source = .ok (.block (place.through place) [.number place a]) := by
    rw [Expr.ofSource?, h]
    cases a <;> rfl
  rw [execute, hprogram]
  rfl

/-- The two readers on a numeral: what the scanner has for a token, and what the conversion gives. -/
theorem exists_ofNumber (text : String) (h : IsNumeral text.toList) :
    ∃ a, Token.Kind.Rereads (.ofNumber a) text.toList ∧ Number.read? text = some a ∧
      ('.' ∉ text.toList → Nat.ofDigitChars 10 text.toList 0 < 2 ^ 63 →
        ∃ n, a = .int n ∧ n.toInt = Nat.ofDigitChars 10 text.toList 0) ∧
      ('.' ∈ text.toList ∨ 2 ^ 63 ≤ Nat.ofDigitChars 10 text.toList 0 →
        a = .float (Decimal.toFloat false (.ofNumeral text.toList))) := by
  have hmin : Int64.minValue.toInt = -9223372036854775808 := by decide
  have hmax : Int64.maxValue.toInt = 9223372036854775807 := by decide
  rcases h.cases with ⟨hpoint, hdigits⟩ | ⟨whole, fraction, htext, hne, hwhole, hfraction⟩
  · have hread := Number.read?_digits h.ne_nil hdigits
    rw [String.ofList_toList] at hread
    refine ⟨_, Token.Kind.rereads_digits h.ne_nil hdigits, hread, fun _ hlt => ?_, fun hwide => ?_⟩
    · cases hfits : exactInt? (Decimal.digitsValue text.toList) with
      | some n =>
        refine ⟨n, by simp only [Number.ofNumeral, hfits], ?_⟩
        rw [toInt_of_exactInt? hfits, Decimal.digitsValue_eq_ofDigitChars]
      | none =>
        rw [exactInt?_eq_none_iff, Decimal.digitsValue_eq_ofDigitChars] at hfits
        omega
    · have hle := hwide.resolve_left hpoint
      have hfits : exactInt? (Decimal.digitsValue text.toList) = none := by
        rw [exactInt?_eq_none_iff, Decimal.digitsValue_eq_ofDigitChars]
        omega
      simp only [Number.ofNumeral, hfits]
      rw [Decimal.ofNumeral_digits hdigits]
  · have hread := Number.read?_point hne hwhole hfraction
    have hpoint : '.' ∈ text.toList := by
      rw [htext]
      exact List.mem_append_right _ List.mem_cons_self
    rw [← htext, String.ofList_toList] at hread
    refine ⟨_, ?_, hread, fun hno => absurd hpoint hno, fun _ => ?_⟩
    · rw [htext]
      exact (Token.Kind.Spelled.float hne hwhole hfraction).reread (by simp)
    · rw [htext, Decimal.ofNumeral_point hwhole hfraction]
      rfl

/-- A numeral as a program and a numeral given to `Num` are the same number, with blanks around it or not.
It is the integer of the digits if there is no point and the value is below 2 ^ 63, and else the float
nearest to the value. -/
theorem execute_numeral {text : String} (h : IsNumeral text.toList) :
    ∃ a : Number,
      (∀ name config bound scope w,
        Source.execute ⟨name, text⟩ config (bound + 2) scope w = .done (.number a) w) ∧
      (∀ before after : String, (∀ c ∈ before.toList, Text.isBlank c = true) →
        (∀ c ∈ after.toList, Text.isBlank c = true) → ∀ (stack : CallStack Span) (place : Span) w,
        Evaluation.callBuiltin stack place .toNumber [.string (before ++ text ++ after)] w = .done (.number a) w) ∧
      ('.' ∉ text.toList → Nat.ofDigitChars 10 text.toList 0 < 2 ^ 63 →
        ∃ n, a = .int n ∧ n.toInt = Nat.ofDigitChars 10 text.toList 0) ∧
      ('.' ∈ text.toList ∨ 2 ^ 63 ≤ Nat.ofDigitChars 10 text.toList 0 →
        a = .float (Decimal.toFloat false (.ofNumeral text.toList))) := by
  obtain ⟨a, hrereads, hread, hvalue⟩ := exists_ofNumber text h
  refine ⟨a, fun name => ?_, fun before after hbefore hafter stack place w => ?_, hvalue⟩
  · obtain ⟨s, hs, hkinds⟩ := TokenStream.ofSource?_of_rereads hrereads name
    exact execute_number hs hkinds
  · have hnumber : (Value.string (before ++ text ++ after) : Value Span).toNumber = .ok a := by
      rw [Value.toNumber, Number.read?_between hbefore hafter h.isBlank, hread]
    show (do return Value.number (← Evaluation.settle stack place
      (Value.string (before ++ text ++ after)).toNumber)) w = _
    rw [hnumber]
    rfl

/-- The largest integer with zeros in front of it, and the float behind it. -/
theorem execute_numeral_limit :
    IsNumeral "009223372036854775807".toList ∧ IsNumeral "9223372036854775808".toList ∧
    Source.execute ⟨"<stdin>", "009223372036854775807"⟩ {} 2 0 ⟨{}, {}⟩ =
      .done (.number (.int Int64.maxValue)) ⟨{}, {}⟩ ∧
    Evaluation.callBuiltin {} (⟨⟨"<stdin>", ""⟩, .origin, .origin⟩ : Span) .toNumber
      [.string (" " ++ "9223372036854775808" ++ "\n")] ⟨{}, {}⟩ =
      .done (.number (.float 9223372036854775808.0)) ⟨{}, {}⟩ := by
  have hsmall : IsNumeral "009223372036854775807".toList := ⟨⟨'0', rfl, rfl⟩, by simp, by simp⟩
  have hlarge : IsNumeral "9223372036854775808".toList := ⟨⟨'9', rfl, rfl⟩, by simp, by simp⟩
  refine ⟨hsmall, hlarge, ?_, ?_⟩
  · obtain ⟨a, hrun, -, hint, -⟩ := execute_numeral hsmall
    obtain ⟨n, rfl, hn⟩ := hint (by simp) (by decide)
    rw [hrun, Int64.toInt_inj.mp (hn.trans (by decide : _ = Int64.maxValue.toInt))]
  · obtain ⟨a, -, hread, -, hfloat⟩ := execute_numeral hlarge
    have hvalue : Decimal.toFloat false (.ofNumeral "9223372036854775808".toList) =
        9223372036854775808.0 := by
      decide +kernel
    have hblank : ∀ c ∈ " ".toList, Text.isBlank c = true := List.forall_mem_singleton.mpr rfl
    have hnewline : ∀ c ∈ "\n".toList, Text.isBlank c = true := List.forall_mem_singleton.mpr rfl
    rw [hread " " "\n" hblank hnewline, hfloat (Or.inr (by decide)), hvalue]

end Source
end Cyan
