/-
Quoted names: a file name inside an operating system's complaint.

A name may hold anything, so a message that has to show exactly which file it speaks
of puts the name in double quotes and writes out what would not be seen, or not be seen
for what it is: the double quote and the backslash get a backslash, and controls, other
characters without a mark, ignorable ones, and extenders are shown as their code point.
-/
import Bitext.Text.Extender
import Bitext.Text.Ignorable
import Bitext.Text.Printable

namespace Bitext.Text

/-- The double quote and the backslash. -/
def escapedCodes : List Nat := [0x22, 0x5C]

/-- The code point of a character in braces. -/
def codeEscape (c : Char) : String :=
  "\\u\x7b" ++ String.ofList (Nat.toDigits 16 c.toNat) ++ "\x7d"

/-- A character as it stands in a quoted name. -/
def quoteChar (c : Char) : String :=
  if c = '\t' then "\\t"
  else if c = '\r' then "\\r"
  else if c = '\n' then "\\n"
  else if c.toNat = 0 then "\\0"
  else if escapedCodes.contains c.toNat then "\\" ++ c.toString
  else if isExtender c || isIgnorable c || !isPrintable c then codeEscape c
  else c.toString

/-- A name in double quotes. -/
def quoted (name : String) : String := "\"" ++ String.join (name.toList.map quoteChar) ++ "\""

end Bitext.Text
