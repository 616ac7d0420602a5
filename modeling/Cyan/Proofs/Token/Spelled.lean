/-
What a lexeme looks like.

`Token.Kind.Spelled kind cs` says that the characters `cs` are a way to write a token of the given kind,
with nothing said about where they stand.  A mark, a keyword and a literal have one spelling each.  A
word that is none of these is an identifier; digits are an integer if their value fits one and a float
if not; digits with a point among or behind them are a float; and a string stands between two quotes of
one sort.  `Gap after cs` says in the same way what may stand between two tokens, where `after` is the
text behind it.

The reader of lexemes meets both: what it reads is spelled like the token it gives or is a blank or a
comment (`Lexeme.spelled_of_read`, `Lexeme.gap_of_read`), and no spelling of any token that begins where
it reads is longer than what it reads (`Token.Kind.Spelled.length_le`).  The latter rests on the first
character alone, since the classes of characters that may begin a lexeme are disjoint.
-/
import Cyan.Proofs.Token.Cuts
import Cyan.Token.Spelling

namespace Cyan

namespace Token.Kind

/-- Whether a token of a kind may be written as a row of characters. -/
inductive Spelled : Token.Kind → List Char → Prop
  | mark (m : Mark) : Spelled (.mark m) m.spelling.toList
  | keyword (word : Keyword) : Spelled (.keyword word) word.spelling.toList
  | literal (value : Literal) : Spelled (.literal value) value.spelling.toList
  | identifier {c cs} : isWordStart c → (∀ d ∈ cs, isWordPart d) →
    (∀ word : Keyword, word.spelling ≠ String.ofList (c :: cs)) →
    (∀ value : Literal, value.spelling ≠ String.ofList (c :: cs)) →
    Spelled (.identifier (String.ofList (c :: cs))) (c :: cs)
  | string {quote content} : quote = '\'' ∨ quote = '"' → quote ∉ content →
    Spelled (.string (String.ofList content)) (quote :: (content ++ [quote]))
  | int {n : Int64} {digits} : digits ≠ [] → (∀ d ∈ digits, d.isDigit) →
    n.toInt = Decimal.digitsValue digits → Spelled (.int n) digits
  | wide {digits} : digits ≠ [] → (∀ d ∈ digits, d.isDigit) →
    Int64.maxValue.toInt < Decimal.digitsValue digits →
    Spelled (.float (Decimal.toFloat false ⟨Decimal.digitsValue digits, 0⟩)) digits
  | float {whole fraction} : whole ≠ [] → (∀ d ∈ whole, d.isDigit) → (∀ d ∈ fraction, d.isDigit) →
    Spelled (.float (Decimal.toFloat false
      ⟨Decimal.digitsValue (whole ++ fraction), -(fraction.length : Int)⟩)) (whole ++ '.' :: fraction)

end Token.Kind

/-- What may stand between two tokens: blanks other than newlines, and at the end a comment that runs
up to a newline or to the end of the text. -/
inductive Gap (after : List Char) : List Char → Prop
  | nil : Gap after []
  | blank {c cs} : Text.isBlank c → c ≠ '\n' → Gap after cs → Gap after (c :: cs)
  | comment {body} : '\n' ∉ body → (∀ d ∈ after.head?, d = '\n') → Gap after ('#' :: body)

/-! ## Classes of characters -/

/-- Tables of which no two ranges overlap have no character in common. -/
theorem Text.Ranges.contains_eq_false {ranges others : Text.Ranges}
    (h : ∀ r ∈ ranges, ∀ s ∈ others, r.2 < s.1 ∨ s.2 < r.1) {c : Char}
    (hc : ranges.contains c = true) : others.contains c = false := by
  rw [← Bool.not_eq_true]
  intro hother
  obtain ⟨r, hr, hlow, hhigh⟩ := mem_of_containsCode hc
  obtain ⟨s, hs, hlow', hhigh'⟩ := mem_of_containsCode hother
  have := h r hr s hs
  omega

/-- The ten digits as a table. -/
theorem Text.contains_of_isDigit {c : Char} (h : c.isDigit = true) :
    Text.Ranges.contains [(0x30, 0x39)] c = true := by
  have hcode : 0x30 ≤ c.toNat ∧ c.toNat ≤ 0x39 := Char.isDigit_iff_toNat.mp h
  simp only [Ranges.contains, Ranges.containsCode]
  rw [if_neg (by omega), if_pos hcode.2]

theorem isBlank_of_isDigit {c : Char} (h : c.isDigit = true) : Text.isBlank c = false :=
  Text.Ranges.contains_eq_false (by decide) (Text.contains_of_isDigit h)

theorem isBlank_of_isWordStart {c : Char} (h : isWordStart c = true) : Text.isBlank c = false := by
  rw [isWordStart, Bool.or_eq_true, decide_eq_true_eq] at h
  rcases h with h | rfl
  · exact Text.Ranges.contains_eq_false (by decide +kernel) h
  · rfl

theorem isDigit_of_isWordStart {c : Char} (h : isWordStart c = true) : c.isDigit = false := by
  rw [← Bool.not_eq_true]
  intro hdigit
  have hletter : Text.isLetter c = false :=
    Text.Ranges.contains_eq_false (by decide +kernel) (Text.contains_of_isDigit hdigit)
  rw [isWordStart, hletter, Bool.false_or, decide_eq_true_eq] at h
  subst h
  cases hdigit

namespace Lexeme

/-- The characters that begin a lexeme of their own, apart from blanks. -/
def signs : List Char :=
  ['+', '-', '/', '(', ')', '\x7b', '\x7d', ':', ';', ',', '\n', '*', '=', '<', '>', '!', '#', '\'', '"',
    '.']

theorem ofChar?_eq_some {c : Char} {m : Mark} (h : Mark.ofChar? c = some m) :
    m.spelling.toList = [c] ∧ c ∈ signs := by
  unfold Mark.ofChar? at h
  split at h <;> cases h <;> decide

theorem ofPair?_eq_some {c second : Char} {long short : Mark}
    (h : Mark.ofPair? c = some (second, long, short)) :
    long.spelling.toList = [c, second] ∧ short.spelling.toList = [c] ∧ c ∈ signs := by
  unfold Mark.ofPair? at h
  split at h <;> cases h <;> decide

/-- What is neither a sign nor a blank begins a numeral or a word, or nothing. -/
theorem read_of_not_mem_signs {c : Char} (hsign : c ∉ signs) (hblank : Text.isBlank c = false)
    (dot : Bool) (cs : List Char) :
    read dot c cs =
      if c.isDigit then .ok (readNumeral c cs)
      else if isWordStart c then .ok (readWord c cs)
      else .error (.invalidCharacter c, [c]) := by
  have hmark : Mark.ofChar? c = none := by
    cases h : Mark.ofChar? c with
    | none => rfl
    | some m => exact absurd (ofChar?_eq_some h).2 hsign
  have hpair : Mark.ofPair? c = none := by
    cases h : Mark.ofPair? c with
    | none => rfl
    | some pair => exact absurd (ofPair?_eq_some h).2.2 hsign
  simp only [signs, List.mem_cons, List.not_mem_nil, or_false, not_or] at hsign
  simp only [read, hmark, hpair, hblank, hsign, Bool.false_eq_true, or_self, false_and, ↓reduceIte]

theorem read_digit {c : Char} (h : c.isDigit = true) (dot : Bool) (cs : List Char) :
    read dot c cs = .ok (readNumeral c cs) := by
  have hsign : c ∉ signs := by
    intro hmem
    have hdigits : signs.all (fun d => !d.isDigit) = true := by decide
    have hc := List.all_eq_true.mp hdigits c hmem
    rw [h] at hc
    cases hc
  rw [read_of_not_mem_signs hsign (isBlank_of_isDigit h), if_pos h]

theorem read_wordStart {c : Char} (h : isWordStart c = true) (dot : Bool) (cs : List Char) :
    read dot c cs = .ok (readWord c cs) := by
  have hsign : c ∉ signs := by
    intro hmem
    have hwords : signs.all (fun d => !isWordStart d) = true := by decide
    have hc := List.all_eq_true.mp hwords c hmem
    rw [h] at hc
    cases hc
  rw [read_of_not_mem_signs hsign (isBlank_of_isWordStart h), isDigit_of_isWordStart h, if_pos h]
  rfl

end Lexeme

/-! ## What is read is spelled like what it is -/

namespace Token.Kind

theorem spelling_ofWord (word : String) : (ofWord word).spelling = word := by
  unfold ofWord
  split <;> rfl

theorem ofWord_cases (word : String) :
    (∃ k, ofWord word = .keyword k) ∨ (∃ v, ofWord word = .literal v) ∨
      ofWord word = .identifier word := by
  unfold ofWord
  split <;> simp

theorem spelled_word {c : Char} {cs : List Char} (hc : isWordStart c = true)
    (hcs : ∀ d ∈ cs, isWordPart d = true) :
    Spelled (ofWord (String.ofList (c :: cs))) (c :: cs) := by
  have htext : (ofWord (String.ofList (c :: cs))).spelling.toList = c :: cs := by
    rw [spelling_ofWord, String.toList_ofList]
  rcases ofWord_cases (String.ofList (c :: cs)) with ⟨k, hk⟩ | ⟨v, hv⟩ | hname
  · rw [hk] at htext ⊢
    rw [← htext]
    exact .keyword k
  · rw [hv] at htext ⊢
    rw [← htext]
    exact .literal v
  · rw [hname]
    refine .identifier hc hcs ?_ ?_
    · intro k hk
      rw [← hk, Keyword.ofWord_spelling] at hname
      cases hname
    · intro v hv
      rw [← hv, Literal.ofWord_spelling] at hname
      cases hname

theorem spelled_digits {digits : List Char} (hne : digits ≠ [])
    (h : ∀ d ∈ digits, d.isDigit = true) :
    Spelled (.ofNumber (.ofNumeral digits none)) digits := by
  cases hint : exactInt? (Decimal.digitsValue digits) with
  | some n =>
    simp only [Number.ofNumeral, hint]
    exact .int hne h (toInt_of_exactInt? hint)
  | none =>
    have hwide : Int64.maxValue.toInt < Decimal.digitsValue digits := by
      rcases exactInt?_eq_none_iff.mp hint with hlow | hhigh
      · have hmin : Int64.minValue.toInt = -9223372036854775808 := by decide
        omega
      · exact hhigh
    simp only [Number.ofNumeral, hint, Decimal.ofDigits, List.append_nil]
    exact .wide hne h hwide

end Token.Kind

namespace Lexeme

variable {dot : Bool} {c : Char} {cs : List Char} {l : Lexeme} {kind : Token.Kind}

theorem spelled_pair {second : Char} {long short : Mark}
    (h : Mark.ofPair? c = some (second, long, short)) (cs : List Char) :
    ∃ kind, (readPair c second long short cs).kind? = some kind ∧
      kind.Spelled (readPair c second long short cs).text := by
  obtain ⟨hlong, hshort, -⟩ := ofPair?_eq_some h
  have hspelled : Token.Kind.Spelled (.mark short) [c] := hshort ▸ .mark short
  cases cs with
  | nil => exact ⟨_, rfl, hspelled⟩
  | cons d cs =>
    by_cases hd : d = second
    · rw [readPair, if_pos hd, hd, ← hlong]
      exact ⟨_, rfl, .mark long⟩
    · rw [readPair, if_neg hd]
      exact ⟨_, rfl, hspelled⟩

theorem spelled_bang (h : readBang '!' cs = .ok l) :
    ∃ kind, l.kind? = some kind ∧ kind.Spelled l.text := by
  cases cs with
  | nil => cases h
  | cons d cs =>
    rw [readBang] at h
    split at h <;> cases h
    next hd => exact ⟨_, rfl, hd ▸ .mark .bangEqual⟩

theorem spelled_string (hc : c = '\'' ∨ c = '"') (h : readString c cs = .ok l) :
    ∃ kind, l.kind? = some kind ∧ kind.Spelled l.text := by
  unfold readString at h
  split at h <;> cases h
  next close rest hdrop =>
    have hclose : close = c := by
      have hnot : decide (close ≠ c) = false := head_dropWhile (p := (· ≠ c)) cs close (hdrop ▸ rfl)
      simpa using hnot
    have hcontent : c ∉ cs.takeWhile (· ≠ c) := by
      intro hmem
      have hne : decide (c ≠ c) = true := of_mem_takeWhile hmem
      simp at hne
    rw [hclose]
    exact ⟨_, rfl, .string hc hcontent⟩

theorem spelled_numeral (hc : c.isDigit = true) (cs : List Char) :
    ∃ kind, (readNumeral c cs).kind? = some kind ∧ kind.Spelled (readNumeral c cs).text := by
  have hwhole : ∀ d ∈ c :: cs.takeWhile Char.isDigit, d.isDigit = true := by
    intro d hd
    rcases List.mem_cons.mp hd with rfl | hd
    · exact hc
    · exact of_mem_takeWhile hd
  unfold readNumeral
  split
  · exact ⟨_, rfl, .float (List.cons_ne_nil _ _) hwhole fun _ => of_mem_takeWhile⟩
  · exact ⟨_, rfl, Token.Kind.spelled_digits (List.cons_ne_nil _ _) hwhole⟩

/-- A lexeme is a token and spelled like it, or a blank, or a comment. -/
theorem read_cases (h : read dot c cs = .ok l) :
    (∃ kind, l.kind? = some kind ∧ kind.Spelled l.text) ∨
      (l = ⟨none, [c], cs, false⟩ ∧ Text.isBlank c ∧ c ≠ '\n') ∨
      (l = readComment c cs ∧ c = '#') := by
  unfold read at h
  split at h
  · next m hmark =>
    cases h
    exact Or.inl ⟨_, rfl, (ofChar?_eq_some hmark).1 ▸ .mark m⟩
  · next hpair =>
    cases h
    exact Or.inl (spelled_pair hpair cs)
  · next hmark _ =>
    repeat' split at h
    · next hc => exact Or.inl (spelled_bang (hc ▸ h))
    · next hc => cases h; exact Or.inr (Or.inr ⟨rfl, hc⟩)
    · next hblank =>
      cases h
      have hc : c ≠ '\n' := by
        rintro rfl
        cases hmark
      exact Or.inr (Or.inl ⟨rfl, hblank, hc⟩)
    · next hc => exact Or.inl (spelled_string hc h)
    · next hc => cases h; exact Or.inl ⟨_, rfl, hc.1 ▸ .mark .dot⟩
    · next hc => cases h; exact Or.inl (spelled_numeral hc cs)
    · next hc =>
      cases h
      exact Or.inl ⟨_, rfl, Token.Kind.spelled_word hc fun _ => of_mem_takeWhile⟩
    · cases h

end Lexeme

/-! ## No lexeme could be longer -/

namespace Lexeme

theorem length_le_takeWhile {p : Char → Bool} {ds : List Char} (h : ∀ d ∈ ds, p d = true)
    (after : List Char) : ds.length ≤ ((ds ++ after).takeWhile p).length := by
  rw [List.takeWhile_append_of_pos h, List.length_append]
  omega

variable {dot : Bool} {c : Char} {ds after : List Char} {l : Lexeme}

/-- A mark of two characters is not cut short. -/
theorem length_mark_le {m : Mark} (hm : m.spelling.toList = c :: ds)
    (h : read dot c (ds ++ after) = .ok l) : (c :: ds).length ≤ l.text.length := by
  have hpos : 1 ≤ l.text.length := List.length_pos_iff.mpr (text_append_rest h).2
  cases m <;> cases hm <;> first | exact hpos | (cases h; exact Nat.le_refl 2)

theorem length_word_le (hc : isWordStart c = true) (hds : ∀ d ∈ ds, isWordPart d = true)
    (h : read dot c (ds ++ after) = .ok l) : (c :: ds).length ≤ l.text.length := by
  rw [read_wordStart hc] at h
  cases h
  exact Nat.succ_le_succ (length_le_takeWhile hds after)

theorem length_digits_le (hds : ∀ d ∈ c :: ds, d.isDigit = true)
    (h : read dot c (ds ++ after) = .ok l) : (c :: ds).length ≤ l.text.length := by
  obtain ⟨hc, hds⟩ := List.forall_mem_cons.mp hds
  have hle := length_le_takeWhile hds after
  rw [read_digit hc] at h
  cases h
  unfold readNumeral
  split <;> simp only [List.length_append, List.length_cons] <;> omega

theorem length_float_le {fraction : List Char} (hds : ∀ d ∈ c :: ds, d.isDigit = true)
    (hfraction : ∀ d ∈ fraction, d.isDigit = true)
    (h : read dot c (ds ++ '.' :: fraction ++ after) = .ok l) :
    (c :: ds ++ '.' :: fraction).length ≤ l.text.length := by
  obtain ⟨hc, hds⟩ := List.forall_mem_cons.mp hds
  have hle := length_le_takeWhile hfraction after
  rw [read_digit hc, List.append_assoc, List.cons_append] at h
  have hpoint : (ds ++ '.' :: (fraction ++ after)).dropWhile Char.isDigit = '.' :: (fraction ++ after) := by
    rw [List.dropWhile_append_of_pos hds]
    rfl
  have hwhole : (ds ++ '.' :: (fraction ++ after)).takeWhile Char.isDigit = ds := by
    rw [List.takeWhile_append_of_pos hds]
    simp
  rw [readNumeral_point c hpoint, hwhole] at h
  cases h
  simp only [List.length_append, List.length_cons]
  omega

/-- A string ends at the first quote like the one it began with. -/
theorem read_string {content : List Char} (hc : c = '\'' ∨ c = '"') (hcontent : c ∉ content)
    (dot : Bool) (after : List Char) :
    read dot c (content ++ [c] ++ after) =
      .ok ⟨some (.string (String.ofList content)), c :: (content ++ [c]), after, false⟩ := by
  have hread : read dot c (content ++ [c] ++ after) = readString c (content ++ [c] ++ after) := by
    rcases hc with rfl | rfl <;> rfl
  have hall : ∀ d ∈ content, (d ≠ c : Bool) = true := by
    intro d hd
    have hne : d ≠ c := fun heq => hcontent (heq ▸ hd)
    simpa using hne
  obtain ⟨htake, hdrop⟩ := span_before hall (d := c) (by simp) after
  rw [hread, List.append_assoc, List.singleton_append, readString, htake, hdrop]

theorem length_string_le {content : List Char} (hc : c = '\'' ∨ c = '"') (hcontent : c ∉ content)
    (h : read dot c (content ++ [c] ++ after) = .ok l) :
    (c :: (content ++ [c])).length ≤ l.text.length := by
  rw [read_string hc hcontent] at h
  cases h
  exact Nat.le_refl _

end Lexeme

/-- What is read where a token could stand is not shorter than the token's spelling. -/
theorem Token.Kind.Spelled.length_le {kind : Token.Kind} {longer after cs : List Char} {c : Char}
    {dot : Bool} {l : Lexeme} (hspelled : kind.Spelled longer) (happend : longer ++ after = c :: cs)
    (h : Lexeme.read dot c cs = .ok l) : longer.length ≤ l.text.length := by
  have hword (hstart : longer.head?.all isWordStart = true) (hne : longer ≠ [])
      (hall : longer.all isWordPart = true) : longer.length ≤ l.text.length := by
    cases longer with
    | nil => exact absurd rfl hne
    | cons d ds =>
      cases happend
      have hparts := List.forall_mem_cons.mp (List.all_eq_true.mp hall)
      exact Lexeme.length_word_le hstart hparts.2 h
  have hnumeral (hne : longer ≠ []) (hall : ∀ d ∈ longer, d.isDigit = true) :
      longer.length ≤ l.text.length := by
    cases longer with
    | nil => exact absurd rfl hne
    | cons d ds =>
      cases happend
      exact Lexeme.length_digits_le hall h
  cases hspelled with
  | mark m =>
    obtain ⟨d, ds, hm⟩ : ∃ d ds, m.spelling.toList = d :: ds := by
      cases m <;> exact ⟨_, _, rfl⟩
    rw [hm] at happend ⊢
    cases happend
    exact Lexeme.length_mark_le hm h
  | keyword word =>
    cases word <;> exact hword (by decide) (by decide) (by decide)
  | literal value =>
    rcases value with (_ | _) | _ <;> exact hword (by decide) (by decide) (by decide)
  | identifier hc hcs =>
    cases happend
    exact Lexeme.length_word_le hc hcs h
  | string hquote hcontent =>
    cases happend
    exact Lexeme.length_string_le hquote hcontent h
  | int hne hdigits => exact hnumeral hne hdigits
  | wide hne hdigits => exact hnumeral hne hdigits
  | @float whole fraction hne hwhole hfraction =>
    cases whole with
    | nil => exact absurd rfl hne
    | cons d ds =>
      cases happend
      exact Lexeme.length_float_le hwhole hfraction h

end Cyan
