/-
Blank characters: the Unicode property `White_Space`.  Blanks other than the newline separate tokens
and mean nothing else, and they are what is trimmed from a text that is read as a number.
-/
import Cyan.Text.Ranges

namespace Cyan
namespace Text

/-- The characters with the Unicode property `White_Space`, as ranges of code points. -/
def blankRanges : Ranges :=
   [(0x9, 0xd), (0x20, 0x20), (0x85, 0x85), (0xa0, 0xa0), (0x1680, 0x1680), (0x2000, 0x200a),
    (0x2028, 0x2029), (0x202f, 0x202f), (0x205f, 0x205f), (0x3000, 0x3000)]

def isBlank (c : Char) : Bool := blankRanges.contains c

/-- A text without the blanks at its two ends. -/
def trim (cs : List Char) : List Char :=
  ((cs.dropWhile isBlank).reverse.dropWhile isBlank).reverse

def trimmed (s : String) : String := String.ofList (trim s.toList)

/-- Every blank of the ASCII range that core knows of is a blank. -/
theorem isBlank_of_isWhitespace {c : Char} (h : c.isWhitespace = true) : isBlank c = true := by
  simp only [Char.isWhitespace, Bool.or_eq_true, decide_eq_true_eq] at h
  rcases h with ((rfl | rfl) | rfl) | rfl <;> decide

end Text
end Cyan
