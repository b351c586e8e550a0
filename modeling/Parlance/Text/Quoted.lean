import Parlance.Text.Property

/-!
# Quoted texts

A quoted text shows a text between quotes, with the quote, the backslash and everything that does not
print written as escapes. `Quoting` says which quotes are escaped; the two styles in use are given
as values.
-/

namespace Parlance.Text

/-- Which of the two quotes a quoted text escapes. -/
structure Quoting where
  single : Bool
  double : Bool
  deriving DecidableEq, Repr

namespace Quoting

/-- Texts and file names between double quotes: single quotes stay. -/
def text : Quoting := ⟨false, true⟩

/-- A single character between single quotes: double quotes stay. -/
def character : Quoting := ⟨true, false⟩

end Quoting

/-- A number in lower-case hexadecimal digits. -/
def hexadecimal (n : Nat) : List Char :=
  Nat.toDigits 16 n

/-- A character by its code point in hexadecimal, between braces. -/
def codePointEscape (c : Char) : List Char :=
  ['\\', 'u', '\x7b'] ++ hexadecimal c.toNat ++ ['\x7d']

/-- A character as it stands in a quoted text. -/
def Quoting.escape (q : Quoting) (c : Char) : List Char :=
  if c = '\x00' then ['\\', '0']
  else if c = '\t' then ['\\', 't']
  else if c = '\r' then ['\\', 'r']
  else if c = '\n' then ['\\', 'n']
  else if c = '\\' then ['\\', '\\']
  else if c = '"' && q.double || c = '\'' && q.single then ['\\', c]
  else if extendsGrapheme c || !isPrintable c then codePointEscape c
  else [c]

/-- A text between double quotes. -/
def quoted (q : Quoting) (s : String) : String :=
  String.ofList ('"' :: s.toList.flatMap q.escape ++ ['"'])

/-- A character between single quotes. -/
def quotedChar (c : Char) : String :=
  String.ofList ('\'' :: Quoting.character.escape c ++ ['\''])

end Parlance.Text
