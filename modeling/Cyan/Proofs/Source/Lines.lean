/-
Lines of a text and the places on them.

The lines of a text are what `List.splitOn` leaves between its newlines.  A place in a text, which is
`Position.behind` of the characters in front of it, and a column of one of the lines are the same thing:
`getElem?_linesOf_behind` finds the line that a place is on, and `exists_behind_of_le` the place that a
column is.  Line and column order the places of a text as the text does (`Position.behind_precedes`).
-/
import Cyan.Proofs.Token.Partition
import Cyan.Source.Excerpt
import Mathlib.Data.List.Induction
import Mathlib.Data.List.Infix
import Mathlib.Data.List.TakeWhile
import Mathlib.Tactic.ByContra

namespace Cyan

theorem linesOf_cons (c : Char) (cs : List Char) :
    linesOf (c :: cs) = if c = '\n' then [] :: linesOf cs else (linesOf cs).modifyHead (c :: ·) := by
  have hne : linesOf cs ≠ [] := by
    cases cs with
    | nil => simp [linesOf]
    | cons d ds =>
      rw [linesOf, List.foldr_cons]
      split
      · simp
      · split <;> simp
  obtain ⟨line, lines, hlines⟩ := List.exists_cons_of_ne_nil hne
  rw [hlines]
  rw [linesOf] at hlines ⊢
  rw [List.foldr_cons, hlines]
  rfl

theorem linesOf_eq_splitOn (cs : List Char) : linesOf cs = cs.splitOn '\n' := by
  induction cs with
  | nil => rfl
  | cons c cs ih =>
    rw [linesOf_cons, List.splitOn_cons_eq_if_modifyHead, ih]
    simp only [beq_iff_eq]

theorem linesOf_append_newline (cs ds : List Char) :
    linesOf (cs ++ '\n' :: ds) = linesOf cs ++ linesOf ds := by
  simp only [linesOf_eq_splitOn, List.splitOn_append_cons_self]

/-- Newlines separate the lines of a text, so there is one line more. -/
theorem length_linesOf (cs : List Char) : (linesOf cs).length = cs.count '\n' + 1 := by
  induction cs with
  | nil => rfl
  | cons c cs ih =>
    rw [linesOf_cons]
    by_cases hc : c = '\n'
    · rw [if_pos hc, List.length_cons, ih, hc, List.count_cons_self]
    · rw [if_neg hc, List.length_modifyHead, ih, List.count_cons_of_ne hc]

theorem getElem?_zero_linesOf (cs : List Char) :
    (linesOf cs)[0]? = some (cs.takeWhile (· ≠ '\n')) := by
  induction cs with
  | nil => rfl
  | cons c cs ih =>
    rw [linesOf_cons]
    by_cases hc : c = '\n'
    · simp [hc]
    · obtain ⟨line, lines, hlines⟩ : ∃ line lines, linesOf cs = line :: lines :=
        List.exists_cons_of_ne_nil (by simp [linesOf_eq_splitOn])
      rw [hlines] at ih ⊢
      simp only [List.getElem?_cons_zero, Option.some.injEq] at ih
      simp [hc, ih]

/-- The line that a place of a text is on: what is in front of the place since the last newline, and
what is behind it up to the next one. -/
theorem getElem?_linesOf_behind (before after : List Char) :
    (linesOf (before ++ after))[(Position.behind before).line]? =
      some ((before.reverse.takeWhile (· ≠ '\n')).reverse ++ after.takeWhile (· ≠ '\n')) := by
  induction before using List.reverseRecOn generalizing after with
  | nil => exact getElem?_zero_linesOf after
  | append_singleton before c ih =>
    rw [List.append_assoc, List.singleton_append, Position.behind_append_singleton]
    by_cases hc : c = '\n'
    · subst hc
      have hlength : (linesOf before).length = ((Position.behind before).after '\n').line :=
        length_linesOf before
      rw [linesOf_append_newline, List.getElem?_append_right hlength.le, hlength, Nat.sub_self,
        getElem?_zero_linesOf]
      simp
    · have hline : ((Position.behind before).after c).line = (Position.behind before).line := by
        rw [Position.after, if_neg hc]
      rw [hline, ih]
      simp [hc]

/-- The width of the line that a place of a text is on. -/
theorem exists_line_of_behind (before after : List Char) :
    ∃ line, (linesOf (before ++ after))[(Position.behind before).line]? = some line ∧
      line.length = (Position.behind before).column + (after.takeWhile (· ≠ '\n')).length := by
  refine ⟨_, getElem?_linesOf_behind before after, ?_⟩
  rw [List.length_append, List.length_reverse]
  rfl

theorem exists_behind_of_le_count {cs : List Char} {n : Nat} (h : n ≤ cs.count '\n') :
    ∃ before after, cs = before ++ after ∧ (Position.behind before).line = n ∧
      (Position.behind before).column = 0 := by
  induction cs using List.reverseRecOn with
  | nil => exact ⟨[], [], rfl, (Nat.le_zero.mp h).symm, rfl⟩
  | append_singleton cs c ih =>
    by_cases hn : n ≤ cs.count '\n'
    · obtain ⟨before, after, rfl, hplace⟩ := ih hn
      exact ⟨before, after ++ [c], by rw [List.append_assoc], hplace⟩
    · -- The line begins behind the last character, which is then a newline.
      by_cases hc : c = '\n'
      · subst hc
        rw [List.count_append, List.count_singleton_self] at h
        have hline : cs.count '\n' + 1 = n := by omega
        refine ⟨cs ++ ['\n'], [], (List.append_nil _).symm, ?_⟩
        rw [Position.behind_append_singleton]
        exact ⟨hline, rfl⟩
      · have hnone : '\n' ∉ [c] := fun hmem => hc (List.mem_singleton.mp hmem).symm
        rw [List.count_append, List.count_eq_zero_of_not_mem hnone] at h
        exact absurd h hn

/-- Where a line of a text begins. -/
theorem exists_behind_line_start {cs line : List Char} {n : Nat}
    (h : (linesOf cs)[n]? = some line) :
    ∃ before after, cs = before ++ after ∧ (Position.behind before).line = n ∧
      (Position.behind before).column = 0 ∧ line = after.takeWhile (· ≠ '\n') := by
  have hn : n ≤ cs.count '\n' := by
    obtain ⟨hlt, -⟩ := List.getElem?_eq_some_iff.mp h
    rw [length_linesOf] at hlt
    omega
  obtain ⟨before, after, rfl, hline, hcolumn⟩ := exists_behind_of_le_count hn
  have hrow := getElem?_linesOf_behind before after
  rw [hline, h, List.length_eq_zero_iff.mp hcolumn] at hrow
  exact ⟨before, after, rfl, hline, hcolumn, Option.some.inj hrow⟩

theorem newline_not_mem_of_mem_linesOf {cs line : List Char} (h : line ∈ linesOf cs) :
    '\n' ∉ line := by
  obtain ⟨n, hn⟩ := List.mem_iff_getElem?.mp h
  obtain ⟨before, after, -, -, -, rfl⟩ := exists_behind_line_start hn
  intro hmem
  simpa using List.mem_takeWhile_imp hmem

/-- The place that a column of a line is. -/
theorem exists_behind_of_le {cs line : List Char} {n column : Nat}
    (hline : (linesOf cs)[n]? = some line) (hcolumn : column ≤ line.length) :
    ∃ before after, cs = before ++ after ∧ (Position.behind before).line = n ∧
      (Position.behind before).column = column := by
  have hmem : '\n' ∉ line.take column := fun hmem =>
    newline_not_mem_of_mem_linesOf (List.mem_of_getElem? hline) (List.mem_of_mem_take hmem)
  obtain ⟨before, after, rfl, hbefore, hzero, rfl⟩ := exists_behind_line_start hline
  obtain ⟨rest, hrest⟩ := List.takeWhile_prefix (· ≠ '\n') (l := after)
  refine ⟨before ++ (after.takeWhile (· ≠ '\n')).take column,
    (after.takeWhile (· ≠ '\n')).drop column ++ rest, ?_, ?_, ?_⟩
  · rw [List.append_assoc, ← List.append_assoc (List.take ..), List.take_append_drop, hrest]
  · rw [← Position.past_behind, Position.line_past, hbefore, List.count_eq_zero_of_not_mem hmem]
    rfl
  · rw [← Position.past_behind, Position.column_past hmem, hzero, List.length_take]
    omega

namespace Position

/-- One place comes before another, going by line and column. -/
def Precedes (p q : Position) : Prop := p.line < q.line ∨ p.line = q.line ∧ p.column < q.column

theorem behind_precedes (before : List Char) {cs : List Char} (h : cs ≠ []) :
    (behind before).Precedes (behind (before ++ cs)) := by
  rw [← past_behind]
  by_cases hcs : '\n' ∈ cs
  · have hpos : 0 < cs.count '\n' := List.count_pos_iff.mpr hcs
    exact .inl (by rw [line_past]; omega)
  · have hpos : 0 < cs.length := List.length_pos_iff.mpr h
    refine .inr ⟨?_, ?_⟩
    · rw [line_past, List.count_eq_zero_of_not_mem hcs]
      rfl
    · rw [column_past hcs]
      omega

theorem Precedes.asymm {p q : Position} (h : p.Precedes q) : ¬ q.Precedes p := by
  unfold Precedes at *
  omega

/-- The place of one of the characters `mid`, which stand behind `pre`. -/
theorem between_of_eq (pre : List Char) {mid front back : List Char} {c : Char}
    (h : mid = front ++ c :: back) :
    ¬ (behind (pre ++ front)).Precedes (behind pre) ∧
      (behind (pre ++ front)).Precedes (behind (pre ++ mid)) := by
  subst h
  constructor
  · by_cases hfront : front = []
    · rw [hfront, List.append_nil]
      exact fun h => h.asymm h
    · exact (behind_precedes pre hfront).asymm
  · rw [← List.append_assoc]
    exact behind_precedes _ (List.cons_ne_nil c back)

/-- A place that is not before a stretch of a text, and before its end, is inside of it. -/
theorem exists_of_between {pre mid post before after : List Char}
    (h : pre ++ mid ++ post = before ++ after) (hstart : ¬ (behind before).Precedes (behind pre))
    (hstop : (behind before).Precedes (behind (pre ++ mid))) :
    ∃ front c back, mid = front ++ c :: back ∧ before = pre ++ front := by
  have hpre : pre <+: before := by
    rw [List.append_assoc] at h
    rcases List.append_eq_append_iff.mp h with ⟨cs, hcs, -⟩ | ⟨cs, rfl, -⟩
    · exact ⟨cs, hcs.symm⟩
    · have hcs : cs = [] := by
        by_contra hcs
        exact hstart (behind_precedes before hcs)
      rw [hcs, List.append_nil]
  rcases List.append_eq_append_iff.mp h with ⟨cs, rfl, -⟩ | ⟨cs, hcs, -⟩
  · by_cases hne : cs = []
    · rw [hne, List.append_nil] at hstop
      exact absurd hstop hstop.asymm
    · exact absurd (behind_precedes _ hne) hstop.asymm
  · obtain ⟨front, rfl⟩ := hpre
    rw [List.append_assoc, List.append_cancel_left_eq] at hcs
    cases cs with
    | nil =>
      rw [hcs, List.append_nil] at hstop
      exact absurd hstop hstop.asymm
    | cons c back => exact ⟨front, c, back, hcs, rfl⟩

end Position
end Cyan
