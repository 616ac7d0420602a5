/-
Spans of source text.

A `Source` is a text with the name that messages give it, and a `Span` is the stretch of one source
between two positions.  A span carries its source along, so that a message can quote the text it is
about even when that text was entered long before.  `Span.through` joins two spans: it runs from the
start of the first to the end of the second.
-/
import Cyan.Source.Position

namespace Cyan

/-- A text and the name it goes by: a path, or a label such as `<stdin>`. -/
structure Source where
  name : String
  text : String
deriving DecidableEq, Repr, Inhabited

/-- The part of a source from `start` up to, and not including, the character at `stop`. -/
structure Span where
  source : Source
  start : Position
  stop : Position
deriving DecidableEq, Repr, Inhabited

namespace Span

/-- The span from the start of `s` to the end of `t`, in the source of `s`. -/
def through (s t : Span) : Span := { s with stop := t.stop }

/-- The number of the line a span starts on, counted from one. -/
def line (s : Span) : Nat := s.start.line + 1

/-- A span as it is shown to readers: its two positions, joined by a dash. -/
def shown (s : Span) : String := s!"{s.start.shown}-{s.stop.shown}"

/-- What is left of `cs` behind its first `n` bytes, if a character ends there. -/
def dropBytes : Nat → List Char → Option (List Char)
  | 0, cs => some cs
  | _ + 1, [] => none
  | n + 1, c :: cs => if c.utf8Size ≤ n + 1 then dropBytes (n + 1 - c.utf8Size) cs else none
termination_by _ cs => cs.length

/-- The first `n` bytes of `cs`, if a character ends there, put behind the characters `read`, which
are in reverse order. -/
def takeBytes (read : List Char) : Nat → List Char → Option (List Char)
  | 0, _ => some read.reverse
  | _ + 1, [] => none
  | n + 1, c :: cs =>
    if c.utf8Size ≤ n + 1 then takeBytes (c :: read) (n + 1 - c.utf8Size) cs else none
termination_by _ cs => cs.length

/-- The text a span covers.  It is empty when the span starts behind its end. -/
def text (s : Span) : String :=
  if s.start.index ≤ s.stop.index then
    match dropBytes s.start.index s.source.text.toList with
    | some rest =>
      match takeBytes [] (s.stop.index - s.start.index) rest with
      | some covered => String.ofList covered
      | none => ""
    | none => ""
  else ""

@[simp] theorem through_start (s t : Span) : (s.through t).start = s.start := rfl

@[simp] theorem through_stop (s t : Span) : (s.through t).stop = t.stop := rfl

@[simp] theorem through_source (s t : Span) : (s.through t).source = s.source := rfl

theorem through_assoc (s t u : Span) : (s.through t).through u = s.through (t.through u) := rfl

theorem dropBytes_append (cs ds : List Char) :
    dropBytes (byteCount cs) (cs ++ ds) = some ds := by
  induction cs with
  | nil => simp [dropBytes, byteCount]
  | cons c cs ih =>
    have hpos := Char.utf8Size_pos c
    obtain ⟨k, hk⟩ : ∃ k, byteCount cs + c.utf8Size = k + 1 :=
      ⟨byteCount cs + c.utf8Size - 1, by omega⟩
    rw [byteCount, Nat.add_comm, hk, List.cons_append, dropBytes,
      if_pos (by omega), ← hk, Nat.add_sub_cancel, ih]

theorem takeBytes_append (read cs ds : List Char) :
    takeBytes read (byteCount cs) (cs ++ ds) = some (read.reverse ++ cs) := by
  induction cs generalizing read with
  | nil => simp [takeBytes, byteCount]
  | cons c cs ih =>
    have hpos := Char.utf8Size_pos c
    obtain ⟨k, hk⟩ : ∃ k, byteCount cs + c.utf8Size = k + 1 :=
      ⟨byteCount cs + c.utf8Size - 1, by omega⟩
    rw [byteCount, Nat.add_comm, hk, List.cons_append, takeBytes,
      if_pos (by omega), ← hk, Nat.add_sub_cancel, ih]
    simp

/-- The text of a span whose ends are true positions of its source is the stretch between them. -/
theorem text_of_split {source : Source} {cs ds es : List Char}
    (h : source.text.toList = cs ++ ds ++ es) :
    (Span.mk source (Position.origin.past cs) (Position.origin.past (cs ++ ds))).text =
      String.ofList ds := by
  have hle : (Position.origin.past cs).index ≤ (Position.origin.past (cs ++ ds)).index := by
    rw [Position.index_past, Position.index_past, byteCount_append]
    omega
  have hstart : (Position.origin.past cs).index = byteCount cs := by
    rw [Position.index_past]
    exact Nat.zero_add _
  have hwidth : (Position.origin.past (cs ++ ds)).index - (Position.origin.past cs).index =
      byteCount ds := by
    rw [Position.index_past, Position.index_past, byteCount_append]
    omega
  rw [text, if_pos hle]
  simp only [hwidth]
  simp only [hstart, h, List.append_assoc, dropBytes_append, takeBytes_append]
  simp

end Span
end Cyan
