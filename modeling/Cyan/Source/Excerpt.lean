/-
Excerpts: the lines a span lies on, each with an underline below the columns the span covers.

Every line of the excerpt is written with tabs as single blanks, so that one column is one character,
and without the carriage returns at its end.  The underline runs over the span's columns on that line,
and is one tilde long where the span covers none, so that an empty span is still marked.
-/
import Cyan.Source.Span

namespace Cyan

/-- The lines of a text, without their newlines.  A text that ends in a newline has an empty last
line. -/
def linesOf (cs : List Char) : List (List Char) :=
  cs.foldr (fun c lines =>
    if c = '\n' then [] :: lines
    else match lines with
      | line :: rest => (c :: line) :: rest
      | [] => [[c]]) [[]]

namespace Span

/-- A line as an excerpt writes it. -/
def excerptLine (line : List Char) : List Char :=
  (line.reverse.dropWhile (· = '\r')).reverse.map fun c => if c = '\t' then ' ' else c

/-- The column at which the underline begins on line `number`. -/
def underlineFrom (s : Span) (number : Nat) : Nat :=
  if number = s.start.line then s.start.column else 0

/-- The column at which the underline ends on line `number`, which is `width` columns wide. -/
def underlineTo (s : Span) (number width : Nat) : Nat :=
  if number = max s.stop.line s.start.line then s.stop.column else width

/-- One line of the excerpt with the underline below it.  A line the text does not have is empty. -/
def excerptOf (s : Span) (number : Nat) (line? : Option (List Char)) : List Char :=
  let line := excerptLine (line?.getD [])
  let first := s.underlineFrom number
  let length := max (s.underlineTo number line.length - first) 1
  line ++ '\n' :: (List.replicate first ' ' ++ List.replicate length '~')

/-- The lines of the source that the span lies on, underlined where it covers them. -/
def excerpt (s : Span) : String :=
  let lines := (linesOf s.source.text.toList).toArray
  let count := max s.stop.line s.start.line + 1 - s.start.line
  let parts := (List.range' s.start.line count).map fun number => s.excerptOf number lines[number]?
  String.ofList (List.intercalate ['\n'] parts)

end Span
end Cyan
