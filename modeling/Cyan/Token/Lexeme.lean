/-
Lexemes: the stretches of text that one look at the text settles.

`Lexeme.read` takes the first lexeme off a text that is not empty.  A lexeme is a token, or a blank or
comment that is no token, and it is as long as its kind allows: two-character marks win over their
first character, a word runs over all letters, numeric characters and underscores, and a numeral over
digits and one point.  `Lexeme.split` takes a text apart completely.

A point is a token only where a numeral that already has a point ends at it, as in `1.2.3`.  The
lexeme of such a numeral has `dotNext` set, and the reader of the next lexeme is told so.

Two facts hold the module together: `Lexeme.text_append_rest` says that a lexeme and what is left of
the text make up the text, and `Lexeme.text_ne_nil` that a lexeme is never empty.
-/
import Cyan.Token.Basic
import Cyan.Number.Reading
import Cyan.Text.Letter
import Cyan.Text.Numeric

namespace Cyan

/-- Why no lexeme begins at some place. -/
inductive LexicalFault where
  /-- No lexeme begins with this character here. -/
  | invalidCharacter (c : Char)
  /-- An exclamation mark only occurs in `!=`. -/
  | loneBang
  /-- The text ends inside a string. -/
  | unterminatedString
deriving DecidableEq, Repr, Inhabited

namespace Mark

/-- The mark that consists of one character and begins no other mark. -/
def ofChar? : Char → Option Mark
  | '+' => some .plus
  | '-' => some .minus
  | '/' => some .slash
  | '(' => some .leftParen
  | ')' => some .rightParen
  | '{' => some .leftBrace
  | '}' => some .rightBrace
  | ':' => some .colon
  | ';' => some .semicolon
  | ',' => some .comma
  | '\n' => some .newline
  | _ => none

/-- For a character that is a mark and also begins a longer one: the second character of the longer
mark, the longer mark, and the shorter one. -/
def ofPair? : Char → Option (Char × Mark × Mark)
  | '*' => some ('*', .starStar, .star)
  | '=' => some ('=', .equalEqual, .equal)
  | '<' => some ('=', .lessEqual, .less)
  | '>' => some ('=', .greaterEqual, .greater)
  | _ => none

end Mark

def isWordStart (c : Char) : Bool := Text.isLetter c || c = '_'

def isWordPart (c : Char) : Bool := Text.isLetter c || Text.isNumeric c || c = '_'

/-- A stretch at the beginning of a text: the token it is, unless it is a blank or a comment, its
characters, the rest of the text, and whether the rest begins with a point that is a token. -/
structure Lexeme where
  kind? : Option Token.Kind
  text : List Char
  rest : List Char
  dotNext : Bool := false
deriving Repr

namespace Lexeme

/-- The outcome of reading one lexeme: a fault comes with the characters it covers. -/
abbrev Reading := Except (LexicalFault × List Char) Lexeme

/-- A mark that may be the first character of a longer one. -/
def readPair (c second : Char) (long short : Mark) : List Char → Lexeme
  | d :: rest =>
    if d = second then ⟨some (.mark long), [c, d], rest, false⟩
    else ⟨some (.mark short), [c], d :: rest, false⟩
  | [] => ⟨some (.mark short), [c], [], false⟩

/-- `!=`, which nothing else may follow an exclamation mark. -/
def readBang (c : Char) : List Char → Reading
  | d :: rest =>
    if d = '=' then .ok ⟨some (.mark .bangEqual), [c, d], rest, false⟩
    else .error (.loneBang, [c, d])
  | [] => .error (.loneBang, [c])

/-- A comment, which ends before the newline. -/
def readComment (c : Char) (cs : List Char) : Lexeme :=
  ⟨none, c :: cs.takeWhile (· ≠ '\n'), cs.dropWhile (· ≠ '\n'), false⟩

/-- A string, which is everything up to the next mark like the one it began with. -/
def readString (quote : Char) (cs : List Char) : Reading :=
  match cs.dropWhile (· ≠ quote) with
  | close :: rest =>
    let content := cs.takeWhile (· ≠ quote)
    .ok ⟨some (.string (String.ofList content)), quote :: (content ++ [close]), rest, false⟩
  | [] => .error (.unterminatedString, quote :: cs)

def readNumeral (c : Char) (cs : List Char) : Lexeme :=
  let whole := c :: cs.takeWhile Char.isDigit
  match cs.dropWhile Char.isDigit with
  | '.' :: more =>
    let fraction := more.takeWhile Char.isDigit
    let rest := more.dropWhile Char.isDigit
    ⟨some (.ofNumber (.ofNumeral whole (some fraction))), whole ++ '.' :: fraction, rest,
      rest.head? = some '.'⟩
  | rest => ⟨some (.ofNumber (.ofNumeral whole none)), whole, rest, false⟩

def readWord (c : Char) (cs : List Char) : Lexeme :=
  let word := c :: cs.takeWhile isWordPart
  ⟨some (.ofWord (String.ofList word)), word, cs.dropWhile isWordPart, false⟩

/-- The first lexeme of the text `c :: cs`.  A point is only accepted where `dotNext` holds. -/
def read (dotNext : Bool) (c : Char) (cs : List Char) : Reading :=
  match Mark.ofChar? c, Mark.ofPair? c with
  | some mark, _ => .ok ⟨some (.mark mark), [c], cs, false⟩
  | none, some (second, long, short) => .ok (readPair c second long short cs)
  | none, none =>
    if c = '!' then readBang c cs
    else if c = '#' then .ok (readComment c cs)
    else if Text.isBlank c then .ok ⟨none, [c], cs, false⟩
    else if c = '\'' ∨ c = '"' then readString c cs
    else if c = '.' ∧ dotNext then .ok ⟨some (.mark .dot), [c], cs, false⟩
    else if c.isDigit then .ok (readNumeral c cs)
    else if isWordStart c then .ok (readWord c cs)
    else .error (.invalidCharacter c, [c])

theorem readPair_spec (c second : Char) (long short : Mark) (cs : List Char) :
    (readPair c second long short cs).text ++ (readPair c second long short cs).rest = c :: cs ∧
      (readPair c second long short cs).text ≠ [] := by
  cases cs with
  | nil => simp [readPair]
  | cons d rest =>
    rw [readPair]
    split <;> simp

theorem readNumeral_spec (c : Char) (cs : List Char) :
    (readNumeral c cs).text ++ (readNumeral c cs).rest = c :: cs ∧
      (readNumeral c cs).text ≠ [] := by
  have hsplit := List.takeWhile_append_dropWhile (p := Char.isDigit) (l := cs)
  unfold readNumeral
  split
  · next more hmore =>
    rw [hmore] at hsplit
    simp only [List.append_assoc, List.cons_append, List.takeWhile_append_dropWhile, hsplit]
    simp
  · simp only [List.cons_append, hsplit]
    simp

/-- A lexeme and the rest after it make up the text, and the lexeme is not empty. -/
theorem text_append_rest {dot : Bool} {c : Char} {cs : List Char} {l : Lexeme}
    (h : read dot c cs = .ok l) : l.text ++ l.rest = c :: cs ∧ l.text ≠ [] := by
  unfold read at h
  split at h
  · cases h; simp
  · cases h; exact readPair_spec ..
  · repeat' split at h
    · cases cs with
      | nil => simp [readBang] at h
      | cons d rest =>
        rw [readBang] at h
        split at h <;> cases h
        simp
    · cases h
      simp [readComment]
    · cases h; simp
    · unfold readString at h
      split at h <;> cases h
      next close rest hdrop =>
        have hsplit := List.takeWhile_append_dropWhile (p := (· ≠ c)) (l := cs)
        rw [hdrop] at hsplit
        simp only [List.cons_append, List.append_assoc, List.nil_append, hsplit]
        simp
    · cases h; simp
    · cases h; exact readNumeral_spec ..
    · cases h
      simp [readWord]
    · simp at h

/-- A fault covers at least one character, and those it covers begin the text. -/
theorem covered_of_fault {dot : Bool} {c : Char} {cs : List Char} {fault : LexicalFault}
    {covered : List Char} (h : read dot c cs = .error (fault, covered)) :
    covered <+: c :: cs ∧ covered ≠ [] := by
  unfold read at h
  split at h
  · cases h
  · cases h
  · repeat' split at h
    · cases cs with
      | nil => cases h; simp
      | cons d rest =>
        rw [readBang] at h
        split at h <;> cases h
        simp
    · cases h
    · cases h
    · unfold readString at h
      split at h <;> cases h
      simp
    · cases h
    · cases h
    · cases h
    · cases h
      simp

/-- What is left behind a lexeme is shorter than the text. -/
theorem length_rest_lt {dot : Bool} {c : Char} {cs : List Char} {l : Lexeme}
    (h : read dot c cs = .ok l) : l.rest.length < (c :: cs).length := by
  obtain ⟨happend, hne⟩ := text_append_rest h
  rw [← happend, List.length_append]
  have := List.length_pos_iff.mpr hne
  omega

/-- The lexemes of a text up to its end or to the first fault, put behind the lexemes `read`, which
are in reverse order. -/
def splitFrom (dot : Bool) (cs : List Char) (lexemes : List Lexeme) :
    List Lexeme × Option (LexicalFault × List Char) :=
  match cs with
  | [] => (lexemes.reverse, none)
  | c :: cs =>
    match _h : read dot c cs with
    | .ok l => splitFrom l.dotNext l.rest (l :: lexemes)
    | .error fault => (lexemes.reverse, some fault)
termination_by cs.length
decreasing_by exact length_rest_lt _h

/-- The lexemes of a text in order, and the fault that ended them early, if there was one. -/
def split (text : List Char) : List Lexeme × Option (LexicalFault × List Char) :=
  splitFrom false text []

end Lexeme
end Cyan
