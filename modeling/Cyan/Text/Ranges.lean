/-
Character classes as sorted tables of code point ranges.

A class is a list of inclusive ranges in ascending order.  Membership walks the list and stops at the
first range that begins above the code point, so a character of the ASCII range is settled by the
head of the table.  `mem_of_containsCode` says that an answer of `true` comes from a range of the
table, and `containsCode_of_mem` that in an ascending table every range is found.
-/

namespace Cyan
namespace Text

/-- Inclusive ranges of code points, in ascending order. -/
abbrev Ranges := List (Nat × Nat)

namespace Ranges

/-- Whether some range holds the code point `n`. -/
def containsCode : Ranges → Nat → Bool
  | [], _ => false
  | (first, last) :: rest, n =>
    if n < first then false
    else if n ≤ last then true
    else containsCode rest n

def contains (ranges : Ranges) (c : Char) : Bool := ranges.containsCode c.toNat

/-- Each range ends before the next one begins. -/
def Ascending : Ranges → Prop := List.Pairwise fun a b => a.2 < b.1

/-- A code point is only accepted by a range that holds it. -/
theorem mem_of_containsCode {ranges : Ranges} {n : Nat} (h : ranges.containsCode n = true) :
    ∃ r ∈ ranges, r.1 ≤ n ∧ n ≤ r.2 := by
  induction ranges with
  | nil => simp [containsCode] at h
  | cons r rest ih =>
    rw [containsCode] at h
    split at h
    · simp at h
    · next hlow =>
      split at h
      · next hhigh => exact ⟨r, List.mem_cons_self, Nat.le_of_not_lt hlow, hhigh⟩
      · obtain ⟨s, hs, hn⟩ := ih h
        exact ⟨s, List.mem_cons_of_mem r hs, hn⟩

/-- In an ascending table the early stop skips no range. -/
theorem containsCode_of_mem {ranges : Ranges} {n : Nat} (hasc : ranges.Ascending)
    {r : Nat × Nat} (hr : r ∈ ranges) (hlow : r.1 ≤ n) (hhigh : n ≤ r.2)
    (hwf : ∀ s ∈ ranges, s.1 ≤ s.2) : ranges.containsCode n = true := by
  induction ranges with
  | nil => simp at hr
  | cons s rest ih =>
    obtain ⟨hs, hrest⟩ := List.pairwise_cons.mp hasc
    rw [containsCode]
    rcases List.mem_cons.mp hr with rfl | hmem
    · rw [if_neg (Nat.not_lt.mpr hlow), if_pos hhigh]
    · have hlt := hs r hmem
      have hself := hwf s List.mem_cons_self
      rw [if_neg (by omega), if_neg (by omega)]
      exact ih hrest hmem fun t ht => hwf t (List.mem_cons_of_mem s ht)

end Ranges
end Text
end Cyan
