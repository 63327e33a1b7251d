/-
Ranges: sets of characters that a standard lays down.

A property of characters is kept as a table, the closed ranges of the code points that
have it.  The ranges of a table ascend and there is a gap before each of them, so that a
set has one table only.
-/
namespace Bitext.Text

/-- Closed ranges of code points. -/
abbrev Ranges := List (Nat × Nat)

namespace Ranges

/-- The code point of the character lies in one of the ranges. -/
def has (ranges : Ranges) (c : Char) : Bool :=
  ranges.any fun range => range.1 ≤ c.toNat && c.toNat ≤ range.2

end Ranges

end Bitext.Text
