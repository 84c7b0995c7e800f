/-
  Boundary.Text.Quoted — a text in double quotes, as messages show it (the names
  `c_string` refuses).

  Quotes and backslashes get a backslash, the common controls their letter, and every
  other character that would not show its code point in braces.
-/
import Boundary.Text.Escaped

namespace Boundary.Text

/-- The code point in lower-case hexadecimal, without leading zeros. -/
def codePoint (c : Char) : List Char :=
  ['\\', 'u', '\x7b'] ++ Nat.toDigits 16 c.toNat ++ ['\x7d']

def quotedChar (c : Char) : List Char :=
  if c = '\x00' then ['\\', '0']
  else if c = '\t' then ['\\', 't']
  else if c = '\r' then ['\\', 'r']
  else if c = '\n' then ['\\', 'n']
  else if c = '"' then ['\\', '"']
  else if c = '\\' then ['\\', '\\']
  else if Escaped.holds c then codePoint c
  else [c]

def quoted (s : String) : String :=
  String.ofList ('"' :: s.toList.flatMap quotedChar ++ ['"'])

end Boundary.Text
