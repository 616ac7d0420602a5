/-
Reading a spelling again.

In front of a blank a spelling is read as the token it spells, whatever follows the blank: no lexeme but
a string, a comment or a blank goes on past one, and behind a blank no point is a token.  The one
spelling this is not true of is the point itself, which needs a numeral before it
(`Token.Kind.Spelled.reread`).
-/
import Cyan.Proofs.Token.Spelled

namespace Cyan

/-- Whether a text is read as a token of the given kind in front of a blank. -/
def Token.Kind.Rereads (kind : Token.Kind) (cs : List Char) : Prop :=
  ∃ c ds, cs = c :: ds ∧ ∀ after, Lexeme.read false c (ds ++ ' ' :: after) =
    .ok ⟨some kind, cs, ' ' :: after, false⟩

namespace Lexeme

variable {c d : Char} {ds : List Char}

theorem read_word (hc : isWordStart c = true) (hds : ∀ d ∈ ds, isWordPart d = true)
    (after : List Char) :
    read false c (ds ++ ' ' :: after) =
      .ok ⟨some (.ofWord (String.ofList (c :: ds))), c :: ds, ' ' :: after, false⟩ := by
  obtain ⟨htake, hdrop⟩ := span_before hds (d := ' ') (by decide) after
  rw [read_wordStart hc, readWord, htake, hdrop]

/-- Digits in front of a character that does not go on with the numeral. -/
theorem read_digits (hds : ∀ d ∈ c :: ds, d.isDigit = true) (hd : d.isDigit = false) (hpoint : d ≠ '.')
    (after : List Char) :
    read false c (ds ++ d :: after) =
      .ok ⟨some (.ofNumber (.ofNumeral (c :: ds) none)), c :: ds, d :: after, false⟩ := by
  obtain ⟨hc, hds⟩ := List.forall_mem_cons.mp hds
  obtain ⟨htake, hdrop⟩ := span_before hds hd after
  rw [read_digit hc, readNumeral_whole c (by rw [hdrop]; simpa using hpoint), htake, hdrop]

/-- Digits with a point among or behind them in front of a character that does not go on with the
numeral and is no point either. -/
theorem read_point_digits {fraction : List Char} (hds : ∀ d ∈ c :: ds, d.isDigit = true)
    (hfraction : ∀ d ∈ fraction, d.isDigit = true) (hd : d.isDigit = false) (hpoint : d ≠ '.')
    (after : List Char) :
    read false c (ds ++ '.' :: (fraction ++ d :: after)) =
      .ok ⟨some (.ofNumber (.ofNumeral (c :: ds) (some fraction))), c :: ds ++ '.' :: fraction,
        d :: after, false⟩ := by
  obtain ⟨hc, hds⟩ := List.forall_mem_cons.mp hds
  obtain ⟨htake, hdrop⟩ := span_before hds (d := '.') rfl (fraction ++ d :: after)
  obtain ⟨htake', hdrop'⟩ := span_before hfraction hd after
  rw [read_digit hc, readNumeral_point c hdrop, htake, htake', hdrop']
  simp [hpoint]

end Lexeme

namespace Token.Kind

open Lexeme

theorem rereads_mark {m : Mark} (hm : m ≠ .dot) : Rereads (.mark m) m.spelling.toList := by
  cases m with
  | dot => exact absurd rfl hm
  | _ => exact ⟨_, _, rfl, fun _ => rfl⟩

theorem rereads_word {c : Char} {ds : List Char} (hc : isWordStart c = true)
    (hds : ∀ d ∈ ds, isWordPart d = true) : Rereads (ofWord (String.ofList (c :: ds))) (c :: ds) :=
  ⟨c, ds, rfl, read_word hc hds⟩

theorem rereads_keyword (word : Keyword) : Rereads (.keyword word) word.spelling.toList := by
  rw [← Keyword.ofWord_spelling]
  cases word <;> exact rereads_word (by decide) (List.all_eq_true.mp (by decide))

theorem rereads_literal (value : Literal) : Rereads (.literal value) value.spelling.toList := by
  rw [← Literal.ofWord_spelling]
  rcases value with (_ | _) | _ <;> exact rereads_word (by decide) (List.all_eq_true.mp (by decide))

theorem rereads_digits {digits : List Char} (hne : digits ≠ [])
    (hdigits : ∀ d ∈ digits, d.isDigit = true) : Rereads (ofNumber (.ofNumeral digits none)) digits := by
  obtain ⟨c, ds, rfl⟩ := List.exists_cons_of_ne_nil hne
  exact ⟨c, ds, rfl, read_digits hdigits rfl (by decide)⟩

/-- In front of a blank every spelling but a point is read as what it spells. -/
theorem Spelled.reread {kind : Token.Kind} {cs : List Char} (h : Spelled kind cs)
    (hdot : kind ≠ .mark .dot) : Rereads kind cs := by
  cases h with
  | mark m => exact rereads_mark fun hm => hdot (congrArg _ hm)
  | keyword word => exact rereads_keyword word
  | literal value => exact rereads_literal value
  | @identifier c ds hc hds hkeyword hliteral =>
    have hword : ofWord (String.ofList (c :: ds)) = .identifier (String.ofList (c :: ds)) := by
      have hspelling := spelling_ofWord (String.ofList (c :: ds))
      rcases ofWord_cases (String.ofList (c :: ds)) with ⟨k, hk⟩ | ⟨v, hv⟩ | hname
      · rw [hk] at hspelling
        exact absurd hspelling (hkeyword k)
      · rw [hv] at hspelling
        exact absurd hspelling (hliteral v)
      · exact hname
    rw [← hword]
    exact rereads_word hc hds
  | @string quote content hquote hcontent =>
    exact ⟨quote, content ++ [quote], rfl, fun after => read_string hquote hcontent false (' ' :: after)⟩
  | @int n _ hne hdigits hvalue =>
    have hfits : exactInt? (Decimal.digitsValue cs) = some n := by
      rw [← hvalue, exactInt?_toInt]
    have hkind : ofNumber (.ofNumeral cs none) = .int n := by
      simp only [Number.ofNumeral, hfits, ofNumber]
    rw [← hkind]
    exact rereads_digits hne hdigits
  | wide hne hdigits hvalue =>
    have hfits : exactInt? (Decimal.digitsValue cs) = none :=
      exactInt?_eq_none_iff.mpr (Or.inr hvalue)
    have hkind : ofNumber (.ofNumeral cs none) =
        .float (Decimal.toFloat false ⟨Decimal.digitsValue cs, 0⟩) := by
      simp only [Number.ofNumeral, hfits, ofNumber, Decimal.ofDigits, List.append_nil]
      rfl
    rw [← hkind]
    exact rereads_digits hne hdigits
  | @float whole fraction hne hwhole hfraction =>
    obtain ⟨c, ds, rfl⟩ := List.exists_cons_of_ne_nil hne
    refine ⟨c, ds ++ '.' :: fraction, rfl, fun after => ?_⟩
    rw [List.append_assoc, List.cons_append, read_point_digits hwhole hfraction rfl (by decide) after]
    rfl

end Token.Kind
end Cyan
