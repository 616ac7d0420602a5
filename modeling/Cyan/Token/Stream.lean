/-
From a source to its tokens.

A text is taken apart into lexemes first, without regard to positions, and the lexemes are then laid
out one behind the other from the text's beginning.  `TokenStream.ofSource?` keeps those that are
tokens, each with the span it fills.  Where no lexeme begins, the error covers the characters that
were looked at in vain.
-/
import Cyan.Source.Span
import Cyan.Token.Lexeme

namespace Cyan

/-- A text that is no row of lexemes, with the place where it stops being one. -/
structure LexicalError where
  fault : LexicalFault
  place : Span
deriving Repr

namespace Lexeme

/-- The token a lexeme is, if it is one, with the span it fills when it begins at `start`. -/
def token? (source : Source) (start : Position) (l : Lexeme) : Option (Token Span) :=
  l.kind?.map fun kind => ⟨kind, ⟨source, start, start.past l.text⟩⟩

/-- The tokens of lexemes laid out from `start` on, put behind the tokens `laid`, which are in reverse
order, and the position behind the last lexeme. -/
def layOut (source : Source) (start : Position) (laid : List (Token Span)) :
    List Lexeme → List (Token Span) × Position
  | [] => (laid.reverse, start)
  | l :: rest =>
    layOut source (start.past l.text) ((l.token? source start).toList ++ laid) rest

theorem layOut_snd (source : Source) (start : Position) (laid : List (Token Span))
    (ls : List Lexeme) :
    (layOut source start laid ls).2 = start.past (ls.flatMap Lexeme.text) := by
  induction ls generalizing start laid with
  | nil => rfl
  | cons l ls ih => rw [layOut, ih, List.flatMap_cons, Position.past_append]

theorem layOut_append (source : Source) (start : Position) (laid : List (Token Span))
    (ls ms : List Lexeme) :
    (layOut source start laid (ls ++ ms)).1 =
      (layOut source (start.past (ls.flatMap Lexeme.text))
        (layOut source start laid ls).1.reverse ms).1 := by
  induction ls generalizing start laid with
  | nil => simp [layOut]
  | cons l ls ih =>
    rw [List.cons_append, layOut, ih, List.flatMap_cons, Position.past_append]
    rfl

end Lexeme

/-- The tokens of a source, or the error that ends its row of lexemes early. -/
def TokenStream.ofSource? (source : Source) : Except LexicalError (TokenStream Span) :=
  let (lexemes, fault?) := Lexeme.split source.text.toList
  let (tokens, stop) := Lexeme.layOut source Position.origin [] lexemes
  match fault? with
  | none => .ok ⟨tokens, ⟨source, stop, stop⟩⟩
  | some (fault, covered) => .error ⟨fault, ⟨source, stop, stop.past covered⟩⟩

end Cyan
