/-
What the underlines of an excerpt stand under.

An excerpt has two rows for each line its span lies on: the line, with a blank for a tab, and the
underline (`Span.linesOf_excerpt`), which marks the columns from `Span.underlineFrom` on
(`Span.marked_iff`).  `Span.covering_underlined` says how the marks and the characters of the span
belong together, for a span that covers at least one character.  Its text has no carriage returns,
because an excerpt leaves them out at the end of a line, where they still count as columns.

The marks are those of the span with one exception.  A span that ends with a newline stops at column
zero of the next line, on which it has no character, and the excerpt shows that line with a mark at
that column (`Span.marked_beyond`).
-/
import Cyan.Proofs.Source.Lines

namespace Cyan

namespace Span

/-! ## The rows of an excerpt -/

/-- A line of the source as the excerpt shows it. -/
def shownLine (s : Span) (number : Nat) : List Char :=
  excerptLine ((linesOf s.source.text.toList)[number]?.getD [])

/-- How many columns are marked on a line. -/
def underlineLength (s : Span) (number : Nat) : Nat :=
  max (s.underlineTo number (s.shownLine number).length - s.underlineFrom number) 1

/-- The row below a line. -/
def underline (s : Span) (number : Nat) : List Char :=
  List.replicate (s.underlineFrom number) ' ' ++ List.replicate (s.underlineLength number) '~'

/-- The numbers of the lines that the span lies on. -/
def numbers (s : Span) : List Nat :=
  List.range' s.start.line (max s.stop.line s.start.line + 1 - s.start.line)

theorem getElem?_numbers {s : Span} {number : Nat} (hstart : s.start.line ≤ number)
    (hstop : number ≤ max s.stop.line s.start.line) :
    s.numbers[number - s.start.line]? = some number := by
  rw [numbers, List.getElem?_range' (by omega)]
  congr 1
  omega

theorem length_numbers (s : Span) :
    s.numbers.length = max s.stop.line s.start.line + 1 - s.start.line :=
  List.length_range'

theorem newline_not_mem_excerptLine {line : List Char} (h : '\n' ∉ line) :
    '\n' ∉ excerptLine line := by
  intro hmem
  obtain ⟨c, hc, htab⟩ := List.mem_map.mp hmem
  have hline : c ∈ line :=
    List.mem_reverse.mp ((List.dropWhile_sublist _).subset (List.mem_reverse.mp hc))
  split at htab
  · cases htab
  · exact h (htab ▸ hline)

theorem newline_not_mem_shownLine (s : Span) (number : Nat) : '\n' ∉ s.shownLine number := by
  apply newline_not_mem_excerptLine
  cases hline : (linesOf s.source.text.toList)[number]? with
  | none => exact List.not_mem_nil
  | some line => exact newline_not_mem_of_mem_linesOf (List.mem_of_getElem? hline)

theorem newline_not_mem_underline (s : Span) (number : Nat) : '\n' ∉ s.underline number := by
  simp [underline]

theorem intercalate_pairs {α : Type} (sep : α) (first second : Nat → List α) (numbers : List Nat) :
    List.intercalate [sep] (numbers.map fun number => first number ++ sep :: second number) =
      List.intercalate [sep] (numbers.flatMap fun number => [first number, second number]) := by
  induction numbers with
  | nil => rfl
  | cons number numbers ih =>
    cases numbers with
    | nil => simp [List.intercalate_cons_cons]
    | cons next rest =>
      rw [List.map_cons] at ih ⊢
      rw [List.map_cons, List.intercalate_cons_cons, ih]
      simp [List.intercalate_cons_cons]

theorem getElem?_flatMap_pairs {α β : Type} (first second : α → β) (xs : List α) (i : Nat) :
    (xs.flatMap fun x => [first x, second x])[2 * i]? = xs[i]?.map first ∧
      (xs.flatMap fun x => [first x, second x])[2 * i + 1]? = xs[i]?.map second := by
  induction xs generalizing i with
  | nil => simp
  | cons x xs ih =>
    cases i with
    | zero => simp
    | succ i => exact ih i

theorem length_flatMap_pairs {α β : Type} (first second : α → β) (xs : List α) :
    (xs.flatMap fun x => [first x, second x]).length = 2 * xs.length := by
  simp [List.length_flatMap, Nat.mul_comm]

theorem linesOf_excerpt (s : Span) : linesOf s.excerpt.toList =
    s.numbers.flatMap fun number => [s.shownLine number, s.underline number] := by
  have hparts : s.excerpt.toList = List.intercalate ['\n']
      (s.numbers.map fun number => s.shownLine number ++ '\n' :: s.underline number) := by
    simp only [excerpt, String.toList_ofList, List.getElem?_toArray]
    rfl
  rw [hparts, intercalate_pairs, linesOf_eq_splitOn, List.splitOn_intercalate]
  · intro row hrow
    obtain ⟨number, -, hrow⟩ := List.mem_flatMap.mp hrow
    simp only [List.mem_cons, List.not_mem_nil, or_false] at hrow
    rcases hrow with rfl | rfl
    · exact s.newline_not_mem_shownLine number
    · exact s.newline_not_mem_underline number
  · intro hnil
    have hlength := congrArg List.length hnil
    rw [length_flatMap_pairs, length_numbers, List.length_nil] at hlength
    omega

/-- The two rows of the excerpt for a line that the span lies on. -/
theorem rows_of_le {s : Span} {number : Nat} (hstart : s.start.line ≤ number)
    (hstop : number ≤ max s.stop.line s.start.line) :
    (linesOf s.excerpt.toList)[2 * (number - s.start.line)]? = some (s.shownLine number) ∧
      (linesOf s.excerpt.toList)[2 * (number - s.start.line) + 1]? = some (s.underline number) := by
  obtain ⟨heven, hodd⟩ :=
    getElem?_flatMap_pairs s.shownLine s.underline s.numbers (number - s.start.line)
  rw [linesOf_excerpt, heven, hodd, getElem?_numbers hstart hstop]
  exact ⟨rfl, rfl⟩

theorem length_linesOf_excerpt (s : Span) : (linesOf s.excerpt.toList).length =
    2 * (max s.stop.line s.start.line + 1 - s.start.line) := by
  rw [linesOf_excerpt, length_flatMap_pairs, length_numbers]

/-! ## The marked columns -/

/-- The excerpt of `s` has a tilde at a column below a line. -/
def Marked (s : Span) (number column : Nat) : Prop :=
  s.start.line ≤ number ∧ ∃ row,
    (linesOf s.excerpt.toList)[2 * (number - s.start.line) + 1]? = some row ∧ row[column]? = some '~'

theorem getElem?_underline {s : Span} {number column : Nat} :
    (s.underline number)[column]? = some '~' ↔
      s.underlineFrom number ≤ column ∧
        column < s.underlineFrom number + s.underlineLength number := by
  rw [underline, List.getElem?_append, List.length_replicate]
  by_cases hcolumn : column < s.underlineFrom number
  · rw [if_pos hcolumn, List.getElem?_replicate, if_pos hcolumn]
    exact iff_of_false (by decide) (by omega)
  · rw [if_neg hcolumn, List.getElem?_replicate]
    split
    · exact iff_of_true rfl (by omega)
    · exact iff_of_false nofun (by omega)

theorem marked_iff {s : Span} {number column : Nat} : s.Marked number column ↔
    s.start.line ≤ number ∧ number ≤ max s.stop.line s.start.line ∧
      s.underlineFrom number ≤ column ∧
        column < s.underlineFrom number + s.underlineLength number := by
  constructor
  · rintro ⟨hstart, row, hrow, htilde⟩
    have hstop : number ≤ max s.stop.line s.start.line := by
      obtain ⟨hlt, -⟩ := List.getElem?_eq_some_iff.mp hrow
      rw [length_linesOf_excerpt] at hlt
      omega
    rw [(rows_of_le hstart hstop).2] at hrow
    cases hrow
    exact ⟨hstart, hstop, getElem?_underline.mp htilde⟩
  · rintro ⟨hstart, hstop, hcolumn⟩
    exact ⟨hstart, _, (rows_of_le hstart hstop).2, getElem?_underline.mpr hcolumn⟩

/-- A mark lies between the two ends of the span, or it is the one behind a newline at the end. -/
theorem Marked.between {s : Span} {p : Position} (h : s.Marked p.line p.column)
    (hspan : s.start.Precedes s.stop) :
    ¬ p.Precedes s.start ∧
      (p.Precedes s.stop ∨ s.stop.column = 0 ∧ p.line = s.stop.line ∧ p.column = 0) := by
  obtain ⟨hstart, hstop, hfrom, hto⟩ := marked_iff.mp h
  simp only [underlineLength, underlineTo, underlineFrom, Position.Precedes] at hspan hfrom hto ⊢
  split_ifs at hfrom hto <;> omega

theorem Marked.column_le {s : Span} {number column : Nat} (h : s.Marked number column)
    (hstart : number = s.start.line → s.start.column ≤ (s.shownLine number).length)
    (hstop : number = s.stop.line → s.stop.column ≤ (s.shownLine number).length)
    (hspan : s.start.Precedes s.stop) : column ≤ (s.shownLine number).length := by
  obtain ⟨hge, hle, hfrom, hto⟩ := marked_iff.mp h
  simp only [underlineLength, underlineTo, underlineFrom, Position.Precedes] at hspan hfrom hto
  split_ifs at hfrom hto <;> omega

/-- The columns of a line between the two ends of the span are marked. -/
theorem marked_of_between {s : Span} {p : Position} (hstart : ¬ p.Precedes s.start)
    (hstop : p.Precedes s.stop) (hcolumn : p.column < (s.shownLine p.line).length) :
    s.Marked p.line p.column := by
  apply marked_iff.mpr
  simp only [underlineLength, underlineTo, underlineFrom, Position.Precedes] at hstart hstop ⊢
  split_ifs <;> omega

/-- Every line of the excerpt has a mark. -/
theorem marked_underlineFrom {s : Span} {number : Nat} (hstart : s.start.line ≤ number)
    (hstop : number ≤ max s.stop.line s.start.line) :
    s.Marked number (s.underlineFrom number) := by
  refine marked_iff.mpr ⟨hstart, hstop, Nat.le_refl _, ?_⟩
  unfold underlineLength
  omega

/-! ## Marks and characters -/

/-- The span of the characters `mid`, which stand behind `pre`. -/
def covering (source : Source) (pre mid : List Char) : Span :=
  ⟨source, .behind pre, .behind (pre ++ mid)⟩

/-- A line and a column are the place of one of the characters `mid`, which stand behind `pre`. -/
def HasPlace (pre mid : List Char) (number column : Nat) : Prop :=
  ∃ front c back, mid = front ++ c :: back ∧ (Position.behind (pre ++ front)).line = number ∧
    (Position.behind (pre ++ front)).column = column

/-- How the excerpt of a span marks the characters `mid` that the span covers, which stand behind
`pre`.  A newline may have a mark at the end of its line, all other characters do have one. -/
structure Underlined (pre mid : List Char) (s : Span) : Prop where
  rows : (linesOf s.excerpt.toList).length = 2 * (s.stop.line + 1 - s.start.line)
  shown : ∀ number, s.start.line ≤ number → number ≤ s.stop.line →
    (linesOf s.excerpt.toList)[2 * (number - s.start.line)]? =
      (linesOf s.source.text.toList)[number]?.map (·.map fun c => if c = '\t' then ' ' else c)
  marks : ∀ number column, s.Marked number column →
    HasPlace pre mid number column ∨
      mid.getLast? = some '\n' ∧ number = s.stop.line ∧ column = 0
  characters : ∀ front c back, mid = front ++ c :: back → c ≠ '\n' →
    s.Marked (Position.behind (pre ++ front)).line (Position.behind (pre ++ front)).column
  lines : ∀ number, s.start.line ≤ number → number ≤ s.stop.line →
    (∃ column, HasPlace pre mid number column) ∨ mid.getLast? = some '\n' ∧ number = s.stop.line
  beyond : mid.getLast? = some '\n' →
    s.Marked s.stop.line 0 ∧ ∀ column, ¬ HasPlace pre mid s.stop.line column

theorem excerptLine_of_not_mem {line : List Char} (h : '\r' ∉ line) :
    excerptLine line = line.map fun c => if c = '\t' then ' ' else c := by
  have hkeep : line.reverse.dropWhile (· = '\r') = line.reverse := by
    rw [List.dropWhile_eq_self_iff]
    intro hpos hfirst
    have hmem := List.getElem_mem hpos
    rw [decide_eq_true_iff.mp hfirst] at hmem
    exact h (List.mem_reverse.mp hmem)
  rw [excerptLine, hkeep, List.reverse_reverse]

theorem shownLine_of_getElem? {s : Span} {number : Nat} {line : List Char}
    (hreturn : '\r' ∉ s.source.text.toList)
    (hline : (linesOf s.source.text.toList)[number]? = some line) :
    s.shownLine number = line.map fun c => if c = '\t' then ' ' else c := by
  rw [shownLine, hline]
  refine excerptLine_of_not_mem fun hmem => hreturn ?_
  obtain ⟨before, after, htext, -, -, rfl⟩ := exists_behind_line_start hline
  rw [htext]
  exact List.mem_append_right _ ((List.takeWhile_prefix _).subset hmem)

/-- The width of the line that a place is on. -/
theorem length_shownLine {s : Span} {before after : List Char}
    (hreturn : '\r' ∉ s.source.text.toList) (htext : s.source.text.toList = before ++ after) :
    (s.shownLine (Position.behind before).line).length =
      (Position.behind before).column + (after.takeWhile (· ≠ '\n')).length := by
  obtain ⟨line, hline, hlength⟩ := exists_line_of_behind before after
  rw [shownLine_of_getElem? hreturn (htext ▸ hline), List.length_map, hlength]

section

variable {source : Source} {pre mid post : List Char}

/-- The last character of a span is a newline if the span stops where a line begins. -/
theorem getLast?_of_column_eq_zero (hmid : mid ≠ [])
    (hcolumn : (Position.behind (pre ++ mid)).column = 0) : mid.getLast? = some '\n' := by
  obtain ⟨front, c, rfl⟩ := (List.eq_nil_or_concat mid).resolve_left hmid
  rw [List.concat_eq_append] at *
  rw [← List.append_assoc, Position.behind_append_singleton] at hcolumn
  by_contra hlast
  have hc : c ≠ '\n' := by simpa using hlast
  rw [Position.after, if_neg hc] at hcolumn
  cases hcolumn

theorem column_eq_zero_of_getLast? (hlast : mid.getLast? = some '\n') :
    (Position.behind (pre ++ mid)).column = 0 := by
  obtain ⟨front, rfl⟩ := List.getLast?_eq_some_iff.mp hlast
  rw [← List.append_assoc, Position.behind_append_singleton]
  rfl

theorem covering_precedes (source : Source) (pre : List Char) (hmid : mid ≠ []) :
    (covering source pre mid).start.Precedes (covering source pre mid).stop :=
  Position.behind_precedes pre hmid

theorem start_line_le_stop_line (source : Source) (pre mid : List Char) :
    (covering source pre mid).start.line ≤ (covering source pre mid).stop.line := by
  show (Position.behind pre).line ≤ (Position.behind (pre ++ mid)).line
  rw [← Position.past_behind, Position.line_past]
  omega

theorem max_line (source : Source) (pre mid : List Char) :
    max (covering source pre mid).stop.line (covering source pre mid).start.line =
      (covering source pre mid).stop.line :=
  Nat.max_eq_left (start_line_le_stop_line source pre mid)

/-- Behind a newline at the end of a span is a mark, on a line without characters of the span. -/
theorem marked_beyond (source : Source) (pre : List Char) (hlast : mid.getLast? = some '\n') :
    (covering source pre mid).Marked (covering source pre mid).stop.line 0 ∧
      ∀ column, ¬ HasPlace pre mid (covering source pre mid).stop.line column := by
  have hmid : mid ≠ [] := by
    rintro rfl
    cases hlast
  have hzero : (covering source pre mid).stop.column = 0 := column_eq_zero_of_getLast? hlast
  have hline : (covering source pre mid).start.line < (covering source pre mid).stop.line := by
    have hspan := covering_precedes source pre hmid
    unfold Position.Precedes at hspan
    omega
  constructor
  · have hmarked := marked_underlineFrom hline.le (max_line source pre mid).ge
    rwa [underlineFrom, if_neg hline.ne'] at hmarked
  · rintro column ⟨front, c, back, hmid, hplace, -⟩
    obtain hlt | ⟨-, hlt⟩ := (Position.between_of_eq pre hmid).2
    · exact absurd hplace hlt.ne
    · exact absurd (hzero ▸ hlt : _ < 0) (Nat.not_lt_zero _)

variable (htext : source.text.toList = pre ++ mid ++ post)
  (hreturn : '\r' ∉ source.text.toList)
include htext

theorem getElem?_linesOf_of_le_stop {number : Nat}
    (h : number ≤ (covering source pre mid).stop.line) :
    ∃ line, (linesOf source.text.toList)[number]? = some line := by
  refine ⟨_, List.getElem?_eq_getElem ?_⟩
  rw [length_linesOf, htext, List.count_append]
  have hstop : (covering source pre mid).stop.line = (pre ++ mid).count '\n' := rfl
  omega

include hreturn

/-- A mark stands below a character of the span, apart from the one behind a newline at the end. -/
theorem Marked.hasPlace {number column : Nat} (hmid : mid ≠ [])
    (h : (covering source pre mid).Marked number column) :
    HasPlace pre mid number column ∨
      mid.getLast? = some '\n' ∧ number = (covering source pre mid).stop.line ∧ column = 0 := by
  have hspan := covering_precedes source pre hmid
  let p : Position := ⟨0, number, column⟩
  obtain ⟨hstart, hstop | ⟨hzero, hline, hcolumn⟩⟩ := Marked.between (p := p) h hspan
  · left
    have hle : number ≤ (covering source pre mid).stop.line :=
      (marked_iff.mp h).2.1.trans (Nat.max_le.mpr ⟨le_rfl, start_line_le_stop_line source pre mid⟩)
    have hwidth : column ≤ ((covering source pre mid).shownLine number).length := by
      refine h.column_le ?_ ?_ hspan
      · rintro rfl
        have hlength := length_shownLine (s := covering source pre mid) hreturn
          (htext.trans (List.append_assoc ..))
        exact hlength ▸ Nat.le_add_right ..
      · rintro rfl
        exact length_shownLine (s := covering source pre mid) hreturn htext ▸ Nat.le_add_right ..
    -- A column within the width of its line is a place of the text.
    obtain ⟨line, hline⟩ := getElem?_linesOf_of_le_stop htext hle
    rw [shownLine_of_getElem? (s := covering source pre mid) hreturn hline, List.length_map] at hwidth
    obtain ⟨before, after, hbefore, rfl, rfl⟩ := exists_behind_of_le hline hwidth
    obtain ⟨front, c, back, hmid, rfl⟩ :=
      Position.exists_of_between (htext.symm.trans hbefore) hstart hstop
    exact ⟨front, c, back, hmid, rfl, rfl⟩
  · exact .inr ⟨getLast?_of_column_eq_zero hmid hzero, hline, hcolumn⟩

theorem marked_behind {front back : List Char} {c : Char} (hmid : mid = front ++ c :: back)
    (hc : c ≠ '\n') : (covering source pre mid).Marked (Position.behind (pre ++ front)).line
      (Position.behind (pre ++ front)).column := by
  have hsplit : source.text.toList = (pre ++ front) ++ (c :: back ++ post) := by
    rw [htext, hmid]
    simp
  have hlength := length_shownLine (s := covering source pre mid) hreturn hsplit
  rw [List.cons_append, List.takeWhile_cons_of_pos (by simpa using hc), List.length_cons] at hlength
  obtain ⟨hstart, hstop⟩ := Position.between_of_eq pre hmid
  exact marked_of_between hstart hstop (by omega)

/-- The excerpt of a span that covers at least one character.  Its marks are those below the characters
of the span; where the last one is a newline, there is one more mark on the line behind it. -/
theorem covering_underlined (hmid : mid ≠ []) : Underlined pre mid (covering source pre mid) where
  rows := by rw [length_linesOf_excerpt, max_line]
  shown number hstart hstop := by
    obtain ⟨line, hline⟩ : ∃ line,
        (linesOf (covering source pre mid).source.text.toList)[number]? = some line :=
      getElem?_linesOf_of_le_stop htext hstop
    have hle := hstop.trans (max_line source pre mid).ge
    rw [(rows_of_le hstart hle).1, shownLine_of_getElem? hreturn hline, hline]
    rfl
  marks _ _ h := h.hasPlace htext hreturn hmid
  characters _ _ _ hmid hc := marked_behind htext hreturn hmid hc
  lines number hstart hstop := by
    have hmarked := marked_underlineFrom hstart (hstop.trans (max_line source pre mid).ge)
    rcases hmarked.hasPlace htext hreturn hmid with hplace | ⟨hlast, hline, -⟩
    · exact .inl ⟨_, hplace⟩
    · exact .inr ⟨hlast, hline⟩
  beyond := marked_beyond source pre

end

theorem covering_underlined_string :
    let source : Source := ⟨"<stdin>", "let s = 'a\n\tb'"⟩
    source.text.toList = "let s = ".toList ++ "'a\n\tb'".toList ++ [] ∧
      '\r' ∉ source.text.toList ∧ "'a\n\tb'".toList ≠ [] ∧
      Underlined "let s = ".toList "'a\n\tb'".toList
        (covering source "let s = ".toList "'a\n\tb'".toList) := by
  intro source
  have htext : source.text.toList = "let s = ".toList ++ "'a\n\tb'".toList ++ [] := by decide
  have hreturn : '\r' ∉ source.text.toList := by decide
  have hmid : "'a\n\tb'".toList ≠ [] := by decide
  exact ⟨htext, hreturn, hmid, covering_underlined htext hreturn hmid⟩

/-- The excerpt of a newline has a mark below the first character of the next line. -/
theorem covering_underlined_newline :
    let source : Source := ⟨"<stdin>", "let\nx"⟩
    source.text.toList = ['l', 'e', 't'] ++ ['\n'] ++ ['x'] ∧ '\r' ∉ source.text.toList ∧
      (covering source ['l', 'e', 't'] ['\n']).excerpt = "let\n   ~\nx\n~" ∧
      (covering source ['l', 'e', 't'] ['\n']).Marked 1 0 ∧
      ∀ column, ¬ HasPlace ['l', 'e', 't'] ['\n'] 1 column := by
  intro source
  exact ⟨by decide, by decide, by cbv, marked_beyond source ['l', 'e', 't'] rfl⟩

end Span
end Cyan
