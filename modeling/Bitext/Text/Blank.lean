/-
Blanks: the characters that separate words.

A word is a longest run of characters that are not blank.  Blank means the Unicode
property White_Space, which is wider than the ASCII blanks of `Char.isWhitespace`
(it has the line tabulation, the no-break space and the typographic spaces) and
narrower than "looks like a space": the zero-width space U+200B, the byte order mark
U+FEFF and the information separators U+001C to U+001F are ordinary characters.
-/
import Bitext.Text.Ranges

namespace Bitext.Text

/-- The code points of White_Space. -/
def blankRanges : Ranges :=
  [(0x0009, 0x000D), (0x0020, 0x0020), (0x0085, 0x0085), (0x00A0, 0x00A0),
   (0x1680, 0x1680), (0x2000, 0x200A), (0x2028, 0x2029), (0x202F, 0x202F),
   (0x205F, 0x205F), (0x3000, 0x3000)]

/-- A character is blank when its code point lies in one of the ranges. -/
def isBlank (c : Char) : Bool := blankRanges.has c

/-- A tab is a blank, so no word reaches over the end of a group. -/
theorem isBlank_tab : isBlank '\t' = true := by decide

/-- A space is a blank, so it can join two words. -/
theorem isBlank_space : isBlank ' ' = true := by decide

/-- The words of a text: what stands between blanks, as far as there is something. -/
def words (text : List Char) : List (List Char) :=
  (text.splitOnP isBlank).filter fun word => !word.isEmpty

end Bitext.Text
