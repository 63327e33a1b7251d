/-
Length histograms: how many sides have how many tokens.

Lengths are counted in classes of a hundred.  A histogram is the map from classes to
counts, and its rows are read off in class order, each with the number of sides counted
so far and the share of the total that they are.

Sides are counted with exact numbers.  A histogram can also be given lengths and histograms
that have nothing to do with a text, and its counts and the ends of its classes are then not
sure to fit a word; so everything it does is said once more, step by step, in words.
-/
import Std.Data.ExtTreeMap
import Bitext.Number.Binary64
import Bitext.Number.Word

namespace Bitext

/-- The number of sides in each class of a hundred lengths. -/
structure Histogram where
  counts : Std.ExtTreeMap Nat Nat

/-- A class of lengths with its count, and the counts up to it out of all. -/
structure HistogramRow where
  start : Nat
  stop : Nat
  count : Nat
  accumulated : Nat
  total : Nat
  deriving DecidableEq, Repr

namespace HistogramRow

/-- The accumulated share of the row. -/
def percentage (row : HistogramRow) : Binary64 := Binary64.percentage row.accumulated row.total

/-- The row as a line of a report. -/
def text (row : HistogramRow) : String :=
  toString row.start ++ " ~ " ++ toString row.stop ++ ": " ++ toString row.count
    ++ " (acc: " ++ row.percentage.twoPlaces ++ "%)"

end HistogramRow

namespace Histogram

/-- The number of lengths in a class. -/
def classWidth : Nat := 100

/-- A histogram in which nothing is counted. -/
def empty : Histogram := ⟨∅⟩

/-- The count of a class. -/
def count (h : Histogram) (c : Nat) : Nat := h.counts.getD c 0

/-- Counts `n` more sides of a class. -/
def add (h : Histogram) (c n : Nat) : Histogram := ⟨h.counts.insert c (h.count c + n)⟩

/-- Counts a side of the given length. -/
def record (h : Histogram) (tokens : Nat) : Histogram := h.add (tokens / classWidth) 1

/-- Counts what another histogram has counted. -/
def merge (h other : Histogram) : Histogram :=
  other.counts.toList.foldl (fun h entry => h.add entry.1 entry.2) h

/-- The number of sides counted. -/
def total (h : Histogram) : Nat := (h.counts.toList.map (·.2)).foldr (· + ·) 0

/-- The rows of the given classes, with `before` sides counted ahead of them. -/
def rowsFrom (total before : Nat) : List (Nat × Nat) → List HistogramRow
  | [] => []
  | (c, n) :: rest =>
      ⟨c * classWidth, (c + 1) * classWidth, n, before + n, total⟩
        :: rowsFrom total (before + n) rest

/-- The rows of the histogram in class order. -/
def rows (h : Histogram) : List HistogramRow := rowsFrom h.total 0 h.counts.toList

/-! ### In words -/

/-- Counts `n` more sides of a class in words. -/
def addIn (overflow : Overflow) (h : Histogram) (c n : Nat) : Option Histogram := do
  return ⟨h.counts.insert c (← overflow.word (h.count c + n))⟩

/-- Counts a side of the given length in words. -/
def recordIn (overflow : Overflow) (h : Histogram) (tokens : Nat) : Option Histogram :=
  h.addIn overflow (tokens / classWidth) 1

/-- Counts what another histogram has counted, in words. -/
def mergeIn (overflow : Overflow) (h other : Histogram) : Option Histogram :=
  other.counts.toList.foldlM (fun h entry => h.addIn overflow entry.1 entry.2) h

/-- The number of sides counted, added up in words. -/
def totalIn (overflow : Overflow) (h : Histogram) : Option Nat :=
  (h.counts.toList.map (·.2)).foldlM (fun sum n => overflow.word (sum + n)) 0

/-- The rows of the given classes in words, with `before` sides counted ahead of them. -/
def rowsFromIn (overflow : Overflow) (total before : Nat) :
    List (Nat × Nat) → Option (List HistogramRow)
  | [] => some []
  | (c, n) :: rest => do
      let accumulated ← overflow.word (before + n)
      let start ← overflow.word (c * classWidth)
      let next ← overflow.word (c + 1)
      let stop ← overflow.word (next * classWidth)
      let rows ← rowsFromIn overflow total accumulated rest
      return ⟨start, stop, n, accumulated, total⟩ :: rows

/-- The rows of the histogram in class order, in words. -/
def rowsIn (overflow : Overflow) (h : Histogram) : Option (List HistogramRow) := do
  rowsFromIn overflow (← h.totalIn overflow) 0 h.counts.toList

end Histogram

end Bitext
