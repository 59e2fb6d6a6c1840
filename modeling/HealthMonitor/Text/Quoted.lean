import HealthMonitor.Text.Invisible
import HealthMonitor.Text.Numeral

/-!
# Quoted texts in messages

`quoted s` writes a text between double quotes so that it stays on one line and shows every
character: the quote and the backslash are escaped, line breaks, tabs and the null character have
short escapes, and every other character that is not drawn on its own is written by its code point
in lower-case hexadecimal.
-/

namespace HealthMonitor.Text

/-- A character by its code point: `\u` and hexadecimal digits in braces. -/
def codePoint (c : Char) : List Char :=
  ['\\', 'u', '\x7b'] ++ Nat.toDigits 16 c.toNat ++ ['\x7d']

/-- The spelling of one character inside a quoted text. -/
def escaped (c : Char) : List Char :=
  if c = '"' then ['\\', '"']
  else if c = '\\' then ['\\', '\\']
  else if c = '\n' then ['\\', 'n']
  else if c = '\r' then ['\\', 'r']
  else if c = '\t' then ['\\', 't']
  else if c.toNat = 0 then ['\\', '0']
  else if c.toNat < 0x20 || c.toNat = 0x7F || Invisible.contains c then codePoint c
  else [c]

/-- A text between double quotes, escaped. -/
def quoted (s : String) : String :=
  String.ofList ('"' :: s.toList.flatMap escaped ++ ['"'])

end HealthMonitor.Text
