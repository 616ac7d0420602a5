/-
Quoted texts: a text between quote marks, with everything in it visible.

The backslash and the quote mark itself get a backslash before them, NUL, tab, newline and carriage
return have a letter of their own, and a character that is combining or unprintable is written by its
code point in hexadecimal.  Every other character stands for itself.  Strings are quoted with `"`
and single characters with `'`, and each leaves the other mark alone.
-/
import Cyan.Text.Combining
import Cyan.Text.Unprintable

namespace Cyan
namespace Text

/-- A character written by its code point, such as `\u{200b}`. -/
def codePointEscape (c : Char) : List Char :=
  '\\' :: 'u' :: '{' :: (Nat.toDigits 16 c.toNat ++ ['}'])

/-- A character as it is written between two marks `quote`. -/
def escape (quote c : Char) : List Char :=
  if c = '\x00' then ['\\', '0']
  else if c = '\t' then ['\\', 't']
  else if c = '\n' then ['\\', 'n']
  else if c = '\r' then ['\\', 'r']
  else if c = '\\' ∨ c = quote then ['\\', c]
  else if isCombining c ∨ isUnprintable c then codePointEscape c
  else [c]

def enclose (quote : Char) (cs : List Char) : List Char :=
  quote :: (cs.flatMap (escape quote) ++ [quote])

def quoted (s : String) : String := String.ofList (enclose '"' s.toList)

def quotedChar (c : Char) : String := String.ofList (enclose '\'' [c])

end Text
end Cyan
