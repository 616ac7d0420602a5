/-
Positions in a text.

A position counts three things at once: the bytes before it, the newlines before it, and the
characters since the last newline.  `Position.after` moves past one character and `Position.past`
past a stretch of text, so every position the program reports is `past` of some prefix of its text.
-/

namespace Cyan

/-- The number of bytes in the encoding of a text. -/
def byteCount : List Char → Nat
  | [] => 0
  | c :: cs => c.utf8Size + byteCount cs

theorem byteCount_append (cs ds : List Char) :
    byteCount (cs ++ ds) = byteCount cs + byteCount ds := by
  induction cs with
  | nil => simp [byteCount]
  | cons c cs ih =>
    rw [List.cons_append, byteCount, ih, byteCount]
    omega

/-- A place between two characters of a text.  `line` and `column` count from zero; `index` is the
number of bytes before the place in the text's UTF-8 encoding. -/
structure Position where
  index : Nat := 0
  line : Nat := 0
  column : Nat := 0
deriving DecidableEq, Repr, Inhabited

namespace Position

def origin : Position := {}

def after (p : Position) (c : Char) : Position :=
  if c = '\n' then ⟨p.index + c.utf8Size, p.line + 1, 0⟩
  else ⟨p.index + c.utf8Size, p.line, p.column + 1⟩

/-- The position behind the stretch `cs` of text that begins at `p`. -/
def past (p : Position) (cs : List Char) : Position := cs.foldl after p

/-- A position as it is shown to readers, who count lines and columns from one. -/
def shown (p : Position) : String := s!"{p.line + 1}:{p.column + 1}"

@[simp] theorem past_nil (p : Position) : p.past [] = p := rfl

@[simp] theorem past_cons (p : Position) (c : Char) (cs : List Char) :
    p.past (c :: cs) = (p.after c).past cs := rfl

theorem past_append (p : Position) (cs ds : List Char) : p.past (cs ++ ds) = (p.past cs).past ds :=
  List.foldl_append

theorem index_past (p : Position) (cs : List Char) :
    (p.past cs).index = p.index + byteCount cs := by
  induction cs generalizing p with
  | nil => simp [byteCount]
  | cons c cs ih =>
    rw [past_cons, ih, byteCount]
    have : (p.after c).index = p.index + c.utf8Size := by unfold after; split <;> rfl
    omega

theorem line_past (p : Position) (cs : List Char) :
    (p.past cs).line = p.line + cs.count '\n' := by
  induction cs generalizing p with
  | nil => simp
  | cons c cs ih =>
    rw [past_cons, ih, List.count_cons]
    by_cases hc : c = '\n' <;> simp [after, hc]
    omega

/-- A stretch without newlines stays on its line and adds its characters to the column. -/
theorem column_past {cs : List Char} (h : '\n' ∉ cs) (p : Position) :
    (p.past cs).column = p.column + cs.length := by
  induction cs generalizing p with
  | nil => simp
  | cons c cs ih =>
    have hc : c ≠ '\n' := fun e => h (by simp [e])
    rw [past_cons, ih fun hmem => h (List.mem_cons_of_mem c hmem)]
    simp only [after, if_neg hc, List.length_cons]
    omega

end Position
end Cyan
