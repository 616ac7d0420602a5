/-
Reading what was written.

The text that `Str` gives for a number is one that `Num` reads as that number again, of the same kind and
with its sign (`Evaluation.toNumber_toString`).  A text is read as an integer if it can be, so what is
written for a float must not read as one.  `Numeral cs d` says that the characters `cs` do not, and that
they are read as the decimal `d`.  The written form of a finite float is such a numeral, for a decimal
with the bits of the float (`Binary64.numeral_writtenBits`).

Where a float is written with an exponent, the digits of the exponent all count, because the float is
finite and not zero.
-/
import Cyan.Evaluation.Evaluate
import Cyan.Number.Reading
import Cyan.Proofs.Number.Order
import Cyan.Proofs.Number.Written
import Cyan.Proofs.Token.Spelled

namespace Cyan
namespace Number

open Binary64

variable {cs rest whole fraction before after : List Char} {c mark : Char} {d : Decimal} {e : Int}

/-! ## Signs and blanks -/

theorem splitSign_cons (hc : c ≠ '-' ∧ c ≠ '+') (negative : Bool) (cs : List Char) :
    splitSign (if negative then '-' :: c :: cs else c :: cs) = (negative, c :: cs) := by
  cases negative with
  | true => rfl
  | false =>
    unfold splitSign
    split
    · next h => exact absurd (List.cons.inj h).1 hc.1
    · next h => exact absurd (List.cons.inj h).1 hc.2
    · rfl

theorem ne_sign_of_isDigit (hc : c.isDigit = true) : c ≠ '-' ∧ c ≠ '+' := by
  constructor <;> rintro rfl <;> cases hc

theorem trim_between (hbefore : ∀ c ∈ before, Text.isBlank c = true)
    (hafter : ∀ c ∈ after, Text.isBlank c = true) (h : ∀ c ∈ cs, Text.isBlank c = false) :
    Text.trim (before ++ cs ++ after) = cs := by
  have hdrop {cs : List Char} (h : ∀ c ∈ cs, Text.isBlank c = false) :
      cs.dropWhile Text.isBlank = cs :=
    List.dropWhile_eq_self_iff.mpr fun hlt => by simp [h _ (List.getElem_mem hlt)]
  have hend : ((cs ++ after).reverse.dropWhile Text.isBlank).reverse = cs := by
    rw [List.reverse_append, List.dropWhile_append_of_pos fun c hc => hafter c (List.mem_reverse.mp hc),
      hdrop fun c hc => h c (List.mem_reverse.mp hc), List.reverse_reverse]
  rw [Text.trim, List.append_assoc, List.dropWhile_append_of_pos hbefore]
  cases cs with
  | nil =>
    rw [List.nil_append, List.dropWhile_eq_nil_iff.mpr hafter]
    rfl
  | cons c cs => rwa [List.cons_append, List.dropWhile_cons_of_neg (by simp [h c List.mem_cons_self])]

theorem trim_eq (h : ∀ c ∈ cs, Text.isBlank c = false) : Text.trim cs = cs := by
  simpa using @trim_between cs [] [] nofun nofun h

/-! ## Integers -/

theorem toList_toString (n : Int) : (toString n).toList =
    if decide (n < 0) then '-' :: Nat.toDigits 10 n.natAbs else Nat.toDigits 10 n.natAbs := by
  cases n with
  | ofNat m =>
    have hnonneg : ¬ Int.ofNat m < 0 := Int.not_lt.mpr (Int.natCast_nonneg m)
    rw [decide_eq_false hnonneg, if_neg Bool.false_ne_true]
    exact Nat.toList_repr
  | negSucc m =>
    rw [decide_eq_true (Int.negSucc_lt_zero m), if_pos rfl]
    show ("-" ++ Nat.repr (m + 1)).toList = _
    rw [String.toList_append, Nat.toList_repr]
    rfl

theorem isDigit_toDigits (n : Nat) : ∀ c ∈ Nat.toDigits 10 n, c.isDigit = true :=
  fun _ hc => Nat.isDigit_of_mem_toDigits (by decide) (by decide) hc

theorem isDigits_toDigits (n : Nat) : isDigits (Nat.toDigits 10 n) = true := by
  rw [isDigits, Bool.and_eq_true, List.all_eq_true]
  exact ⟨by simp, isDigit_toDigits n⟩

theorem splitSign_toString (n : Int) :
    splitSign (toString n).toList = (decide (n < 0), Nat.toDigits 10 n.natAbs) := by
  obtain ⟨c, cs, hdigits⟩ := List.exists_cons_of_ne_nil (Nat.toDigits_ne_nil (b := 10) (n := n.natAbs))
  have hc : c.isDigit = true := isDigit_toDigits n.natAbs c (hdigits ▸ List.mem_cons_self)
  rw [toList_toString, hdigits, splitSign_cons (ne_sign_of_isDigit hc)]

theorem signed_natAbs (n : Int) : (if decide (n < 0) then -(n.natAbs : Int) else n.natAbs) = n := by
  by_cases h : n < 0
  · rw [decide_eq_true h, if_pos rfl]
    omega
  · rw [decide_eq_false h, if_neg Bool.false_ne_true]
    omega

theorem readInt?_toString (n : Int) : readInt? (toString n).toList = exactInt? n := by
  rw [readInt?, splitSign_toString]
  simp only [isDigits_toDigits, if_true, Decimal.digitsValue_toDigits, signed_natAbs]

theorem isBlank_toString (n : Int) : ∀ c ∈ (toString n).toList, Text.isBlank c = false := by
  intro c hc
  have hdigit : ∀ c ∈ Nat.toDigits 10 n.natAbs, Text.isBlank c = false :=
    fun c hc => isBlank_of_isDigit (isDigit_toDigits _ c hc)
  rw [toList_toString] at hc
  split at hc
  · rcases List.mem_cons.mp hc with rfl | hc
    · decide
    · exact hdigit c hc
  · exact hdigit c hc

theorem read?_int (n : Int64) : read? (int n).written = some (int n) := by
  rw [read?, written, trim_eq (isBlank_toString n.toInt), readInt?_toString, exactInt?_toInt]

/-! ## Floats -/

/-- Characters that are no integer, and that are read as a decimal. -/
structure Numeral (cs : List Char) (d : Decimal) : Prop where
  begins : ∃ c ∈ cs.head?, c.isDigit = true
  not_isDigits : isDigits cs = false
  not_blank : ∀ c ∈ cs, Text.isBlank c = false
  read_eq : readDecimal? cs = some d

theorem readExponent?_head (h : readExponent? rest = some e) :
    rest = [] ∨ ∃ mark tail, rest = mark :: tail ∧ mark.isDigit = false ∧ mark ≠ '.' := by
  cases rest with
  | nil => exact Or.inl rfl
  | cons mark tail =>
    by_cases hmark : mark = 'e' ∨ mark = 'E'
    · refine Or.inr ⟨mark, tail, rfl, ?_⟩
      rcases hmark with rfl | rfl <;> decide
    · rw [readExponent?, if_neg hmark] at h
      cases h

/-- Digits end where an exponent begins. -/
theorem span_exponent (hcs : ∀ c ∈ cs, c.isDigit = true) (h : readExponent? rest = some e) :
    (cs ++ rest).takeWhile Char.isDigit = cs ∧ (cs ++ rest).dropWhile Char.isDigit = rest := by
  rw [List.takeWhile_append_of_pos hcs, List.dropWhile_append_of_pos hcs]
  rcases readExponent?_head h with rfl | ⟨mark, tail, rfl, hmark, -⟩
  · exact ⟨List.append_nil cs, rfl⟩
  · rw [List.takeWhile_cons, List.dropWhile_cons, hmark]
    exact ⟨List.append_nil cs, rfl⟩

theorem readDecimal?_point (hwhole : ∀ c ∈ whole, c.isDigit = true) (hne : whole ≠ [])
    (hfraction : ∀ c ∈ fraction, c.isDigit = true) (h : readExponent? rest = some e) :
    readDecimal? (whole ++ '.' :: (fraction ++ rest)) =
      some ⟨Decimal.digitsValue (whole ++ fraction), -(fraction.length : Int) + e⟩ := by
  have hdrop : (whole ++ '.' :: (fraction ++ rest)).dropWhile Char.isDigit =
      '.' :: (fraction ++ rest) := by
    rw [List.dropWhile_append_of_pos hwhole]
    rfl
  have htake : (whole ++ '.' :: (fraction ++ rest)).takeWhile Char.isDigit = whole := by
    rw [List.takeWhile_append_of_pos hwhole]
    exact List.append_nil whole
  obtain ⟨hdigits, hrest⟩ := span_exponent hfraction h
  simp only [readDecimal?, htake, hdrop, hdigits, hrest, h]
  simp [hne, Decimal.ofDigits]

theorem readDecimal?_whole (hwhole : ∀ c ∈ whole, c.isDigit = true) (hne : whole ≠ [])
    (h : readExponent? rest = some e) :
    readDecimal? (whole ++ rest) = some ⟨Decimal.digitsValue whole, e⟩ := by
  obtain ⟨hdigits, hrest⟩ := span_exponent hwhole h
  simp only [readDecimal?, hdigits, hrest]
  rcases readExponent?_head h with rfl | ⟨mark, tail, rfl, -, hmark⟩
  · simp [hne, h, Decimal.ofDigits]
  · simp [hne, h, hmark, Decimal.ofDigits]

/-- An exponent that is written is read again. -/
theorem readExponent?_toString (h : e.natAbs < 65536) :
    readExponent? ('e' :: (toString e).toList) = some e := by
  have hvalue := Decimal.digitsValue_toDigits e.natAbs
  rw [readExponent?, if_pos (Or.inl rfl), splitSign_toString]
  simp only [isDigits_toDigits, if_true]
  rw [exponentValue_eq_digitsValue (by rwa [hvalue]), hvalue, signed_natAbs]

/-- The words begin with no digit. -/
theorem ne_word (hc : c.isDigit = true) {word : List Char}
    (hword : word.head?.map Char.isDigit = some false) (cs : List Char) :
    (c :: cs).map Char.toLower ≠ word := by
  rintro rfl
  have hcode := (Char.isDigit_iff_toNat.mp hc).2
  have hlower : c.toLower = c := by
    refine dif_neg fun hupper => ?_
    have hle : 'A'.toNat ≤ c.toNat := UInt32.le_iff_toNat_le.mp hupper.1
    exact absurd (Nat.le_trans hle hcode) (by decide)
  rw [List.map_cons, List.head?_cons, Option.map_some, hlower, hc] at hword
  cases hword

/-- Behind a sign, or without one, a decimal is read as the float nearest to it. -/
theorem readFloat?_decimal (hc : c.isDigit = true) (h : readDecimal? (c :: cs) = some d)
    (negative : Bool) : readFloat? (if negative then '-' :: c :: cs else c :: cs) =
      some (Decimal.toFloat negative d) := by
  have hword (word : String) (hword : word.toList.head?.map Char.isDigit = some false) :
      String.ofList ((c :: cs).map Char.toLower) ≠ word := by
    rintro rfl
    rw [String.toList_ofList] at hword
    exact ne_word hc hword cs rfl
  rw [readFloat?, splitSign_cons (ne_sign_of_isDigit hc)]
  simp only [hword "inf" rfl, hword "infinity" rfl, hword "nan" rfl, or_self, if_false, h]
  rfl

theorem read?_numeral (h : Numeral cs d) (negative : Bool) :
    read? (String.ofList (if negative then '-' :: cs else cs)) =
      some (float (Decimal.toFloat negative d)) := by
  obtain ⟨c, hhead, hc⟩ := h.begins
  obtain ⟨tail, rfl⟩ := List.head?_eq_some_iff.mp hhead
  have hblank : ∀ a ∈ (if negative then '-' :: c :: tail else c :: tail), Text.isBlank a = false := by
    cases negative with
    | false => exact h.not_blank
    | true => exact List.forall_mem_cons.mpr ⟨by decide, h.not_blank⟩
  rw [read?, String.toList_ofList, trim_eq hblank, readInt?, splitSign_cons (ne_sign_of_isDigit hc)]
  simp only [h.not_isDigits, Bool.false_eq_true, if_false]
  rw [readFloat?_decimal hc h.read_eq]
  rfl

theorem not_isDigits_of_mem (h : c ∈ cs) (hc : c.isDigit = false) : isDigits cs = false := by
  have hall : cs.all Char.isDigit = false :=
    List.all_eq_false.mpr ⟨c, h, ne_of_eq_of_ne hc Bool.false_ne_true⟩
  rw [isDigits, hall, Bool.and_false]

theorem Numeral.point (hwhole : ∀ c ∈ whole, c.isDigit = true) (hne : whole ≠ [])
    (hfraction : ∀ c ∈ fraction, c.isDigit = true) (h : readExponent? rest = some e)
    (hrest : ∀ c ∈ rest, Text.isBlank c = false) :
    Numeral (whole ++ '.' :: (fraction ++ rest))
      ⟨Decimal.digitsValue (whole ++ fraction), -(fraction.length : Int) + e⟩ where
  begins := by
    obtain ⟨first, whole, rfl⟩ := List.exists_cons_of_ne_nil hne
    exact ⟨first, rfl, hwhole first List.mem_cons_self⟩
  not_isDigits := not_isDigits_of_mem (c := '.') (by simp) rfl
  not_blank := by
    have hdigit {cs : List Char} (hcs : ∀ c ∈ cs, c.isDigit = true) : ∀ c ∈ cs, Text.isBlank c = false :=
      fun c hc => isBlank_of_isDigit (hcs c hc)
    have hbehind := List.forall_mem_append.mpr ⟨hdigit hfraction, hrest⟩
    exact List.forall_mem_append.mpr ⟨hdigit hwhole, List.forall_mem_cons.mpr ⟨by decide, hbehind⟩⟩
  read_eq := readDecimal?_point hwhole hne hfraction h

theorem Numeral.exponent (hc : c.isDigit = true) (h : readExponent? (mark :: rest) = some e)
    (hrest : ∀ c ∈ mark :: rest, Text.isBlank c = false) :
    Numeral (c :: mark :: rest) ⟨Decimal.digitsValue [c], e⟩ where
  begins := ⟨c, rfl, hc⟩
  not_isDigits := by
    obtain hnil | ⟨_, _, hcons, hmark, -⟩ := readExponent?_head h
    · cases hnil
    · obtain ⟨rfl, -⟩ := List.cons.inj hcons
      exact not_isDigits_of_mem (c := mark) (by simp) hmark
  not_blank := List.forall_mem_cons.mpr ⟨isBlank_of_isDigit hc, hrest⟩
  read_eq := readDecimal?_whole (List.forall_mem_singleton.mpr hc) (List.cons_ne_nil c []) h

/-- The exponents of finite floats are small. -/
theorem natAbs_power_shortest_lt {b : Nat} (hb : b < infinityBits) (hzero : b ≠ 0) :
    (Decimal.shortest b).power.natAbs < 65536 := by
  have hcoefficient := coefficient_shortest_ne_zero (Nat.le_of_lt hb) hzero
  have hbits := Decimal.bits_shortest (Nat.le_of_lt hb)
  have hvalue (e : Int) : (Decimal.mk 1 e).value = 10 ^ e := by simp [Decimal.value]
  have hhigh : (Decimal.shortest b).power < 401 := by
    apply Int.lt_of_not_ge
    intro h
    rw [Decimal.le_power_iff hcoefficient, ← hvalue] at h
    have hle := Decimal.bits_le_bits h
    rw [hbits] at hle
    exact absurd hb (Nat.not_lt_of_le hle)
  have hlow : -401 ≤ (Decimal.shortest b).power := by
    rw [Decimal.le_power_iff hcoefficient, ← hvalue]
    apply le_of_not_gt
    intro h
    have hle := Decimal.bits_le_bits (le_of_lt h)
    rw [hbits] at hle
    exact hzero (Nat.le_zero.mp hle)
  omega

/-- What is written for a finite float is a numeral for it. -/
theorem numeral_writtenBits {b : Nat} (hb : b < infinityBits) :
    ∃ d, Numeral (writtenBits floatLayout b) d ∧ d.bits = b := by
  by_cases h : Positional b
  · obtain ⟨whole, fraction, htext, hne, hwhole, hfraction, hbits⟩ :=
      exists_writtenBits_eq (Nat.le_of_lt hb) h
    have hnumeral : Numeral (whole ++ '.' :: (fraction ++ [])) _ :=
      .point hwhole hne hfraction rfl (by simp)
    rw [List.append_nil, Int.add_zero, ← htext] at hnumeral
    exact ⟨_, hnumeral, hbits⟩
  · have hzero : b ≠ 0 := fun heq => h (Or.inl heq)
    obtain ⟨first, fraction, hfirst, hfraction, hvalue, htext⟩ := exists_exponential_eq hb h
    generalize hpower : (Decimal.shortest b).power = e at hvalue htext
    have hexponent := readExponent?_toString (hpower ▸ natAbs_power_shortest_lt hb hzero)
    have hblank : ∀ c ∈ 'e' :: (toString e).toList, Text.isBlank c = false :=
      List.forall_mem_cons.mpr ⟨by decide, isBlank_toString e⟩
    have hbits {d : Decimal} (hd : d.value = (Decimal.ofDigits [first] fraction).value * 10 ^ e) :
        d.bits = b := by
      rw [Decimal.bits_congr (hd.trans hvalue), Decimal.bits_shortest (Nat.le_of_lt hb)]
    rcases htext with ⟨rfl, htext⟩ | htext
    · rw [htext]
      refine ⟨_, .exponent hfirst hexponent hblank, hbits ?_⟩
      simp [Decimal.value, Decimal.ofDigits]
    · rw [htext]
      refine ⟨_, .point (List.forall_mem_singleton.mpr hfirst) (List.cons_ne_nil first []) hfraction
        hexponent hblank, hbits ?_⟩
      rw [Decimal.value, Decimal.value_ofDigits, zpow_add₀ (by norm_num), mul_assoc]

theorem ofBits_magnitude (x : Float) : ofBits (isNegative x) (magnitude x) = x := by
  have hlt : x.toBits.toNat < 2 * signWeight := x.toBits.toNat_lt
  have hbits : (if isNegative x then signWeight + magnitude x else magnitude x) = x.toBits.toNat := by
    rw [isNegative, magnitude]
    by_cases hsign : signWeight ≤ x.toBits.toNat
    · rw [decide_eq_true hsign, if_pos rfl, Nat.mod_eq_sub_mod hsign, Nat.mod_eq_of_lt (by omega)]
      omega
    · rw [decide_eq_false hsign, if_neg Bool.false_ne_true, Nat.mod_eq_of_lt (Nat.lt_of_not_le hsign)]
  rw [ofBits, hbits]
  exact (congrArg Float.ofBits UInt64.ofNat_toNat).trans (Float.ofBits_toBits x)

/-- What is written for a float that is a number is read as the float. -/
theorem read?_float {x : Float} (hx : x.isNaN = false) : read? (float x).written = some (float x) := by
  have hle : magnitude x ≤ infinityBits := by
    apply Nat.le_of_not_lt
    rw [← isNaN_iff, hx]
    exact Bool.false_ne_true
  rw [written, Binary64.written, if_neg (Nat.not_lt_of_le hle)]
  rcases Nat.lt_or_eq_of_le hle with hlt | heq
  · obtain ⟨d, hnumeral, hbits⟩ := numeral_writtenBits hlt
    have hread := read?_numeral hnumeral (isNegative x)
    rwa [Decimal.toFloat, hbits, ofBits_magnitude] at hread
  · have hinfinity (negative : Bool) :
        read? (String.ofList (if negative then ['-', 'i', 'n', 'f'] else ['i', 'n', 'f'])) =
          some (float (ofBits negative infinityBits)) := by
      cases negative <;> cbv
    have htext : writtenBits floatLayout (magnitude x) = ['i', 'n', 'f'] := by
      rw [heq]
      rfl
    rw [htext]
    refine (hinfinity (isNegative x)).trans ?_
    rw [← heq, ofBits_magnitude]

theorem read?_written (a : Number) :
    ∃ b, read? a.written = some b ∧ b.isNaN = a.isNaN ∧ (a.isNaN = true ∨ b = a) := by
  cases a with
  | int n => exact ⟨int n, read?_int n, rfl, Or.inr rfl⟩
  | float x =>
    cases hx : x.isNaN with
    | false => exact ⟨float x, read?_float hx, rfl, Or.inr rfl⟩
    | true =>
      have hwritten : (float x).written = "NaN" := by
        rw [written, Binary64.written, if_pos (isNaN_iff.mp hx)]
        rfl
      have hread : read? "NaN" = some (float (ofBits false (infinityBits + exponentWeight / 2))) := by
        cbv
      rw [hwritten]
      refine ⟨_, hread, ?_, Or.inl hx⟩
      rw [isNaN, isNaN, hx]
      decide +kernel

end Number

/-- `Str` makes of a number the text that is written for it, and `Num` reads this text as the same number
again, and as a NaN if it was one. -/
theorem Evaluation.toNumber_toString {Place : Type} (stack : CallStack Place) (place : Place)
    (a : Number) (w : World Place) :
    ∃ b, callBuiltin stack place .toString [.number a] w = .done (.string a.written) w ∧
      callBuiltin stack place .toNumber [.string a.written] w = .done (.number b) w ∧
      (do
        let text ← callBuiltin stack place .toString [.number a]
        callBuiltin stack place .toNumber [text]) w = .done (.number b) w ∧
      b.isNaN = a.isNaN ∧ (a.isNaN = true ∨ b = a) := by
  obtain ⟨b, hread, hb⟩ := a.read?_written
  have hstring : callBuiltin stack place .toString [.number a] w = .done (.string a.written) w := rfl
  have hnumber : callBuiltin stack place .toNumber [.string a.written] w = .done (.number b) w := by
    show (do return Value.number (← settle stack place (Value.string a.written).toNumber)) w = _
    rw [Value.toNumber, hread]
    rfl
  refine ⟨b, hstring, hnumber, ?_, hb⟩
  rw [Action.bind_apply, Action.andThen, hstring]
  exact hnumber

end Cyan
