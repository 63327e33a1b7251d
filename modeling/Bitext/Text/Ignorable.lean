/-
Ignorable characters: those that show nothing, also to a reader who does not know them.

Joiners, marks of direction, selectors of a variant and tags are ignorable, and so are the
Hangul fillers, which are letters that hold an empty place.  Some code points are set aside
for ignorable characters that are still to come.  The property is the Unicode property
Default_Ignorable_Code_Point of version 17.0.
-/
import Bitext.Text.Ranges

namespace Bitext.Text

/-- The code points of Default_Ignorable_Code_Point. -/
def ignorableRanges : Ranges :=
  [(0x00AD, 0x00AD), (0x034F, 0x034F), (0x061C, 0x061C), (0x115F, 0x1160), (0x17B4, 0x17B5),
   (0x180B, 0x180F), (0x200B, 0x200F), (0x202A, 0x202E), (0x2060, 0x206F), (0x3164, 0x3164),
   (0xFE00, 0xFE0F), (0xFEFF, 0xFEFF), (0xFFA0, 0xFFA0), (0xFFF0, 0xFFF8), (0x1BCA0, 0x1BCA3),
   (0x1D173, 0x1D17A), (0xE0000, 0xE0FFF)]

/-- The character shows nothing. -/
def isIgnorable (c : Char) : Bool := ignorableRanges.has c

end Bitext.Text
