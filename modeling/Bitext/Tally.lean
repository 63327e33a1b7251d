/-
The tally: what happened to the line pairs that were read.

Every worker keeps a tally of its own, and the tallies are merged when its file is
done, so nothing is shared while files are read.  A side that is too long is counted
whatever becomes of its pair; a pair is counted once as accepted or as rejected, and
once more as clipped when it was cut to be accepted.
-/
import Bitext.Histogram

namespace Bitext

/-- The counters of a reading. -/
structure Tally where
  /-- Line pairs read, accepted or not. -/
  read : Nat := 0
  /-- Pairs that went into the index. -/
  accepted : Nat := 0
  /-- Source sides over their maximum. -/
  sourceTooLong : Nat := 0
  /-- Target sides over their maximum. -/
  targetTooLong : Nat := 0
  /-- Pairs left out because a side was too long. -/
  rejected : Nat := 0
  /-- Pairs with a side clipped to its maximum. -/
  clipped : Nat := 0
  /-- The lengths of the source sides as they were read. -/
  sourceLengths : Histogram := .empty
  /-- The lengths of the target sides as they were read. -/
  targetLengths : Histogram := .empty

namespace Tally

/-- The tally before anything is read. -/
def empty : Tally := {}

/-- Both tallies together. -/
def merge (t other : Tally) : Tally where
  read := t.read + other.read
  accepted := t.accepted + other.accepted
  sourceTooLong := t.sourceTooLong + other.sourceTooLong
  targetTooLong := t.targetTooLong + other.targetTooLong
  rejected := t.rejected + other.rejected
  clipped := t.clipped + other.clipped
  sourceLengths := t.sourceLengths.merge other.sourceLengths
  targetLengths := t.targetLengths.merge other.targetLengths

/-- Both tallies together, counted in words. -/
def mergeIn (overflow : Overflow) (t other : Tally) : Option Tally := do
  return {
    read := ← overflow.word (t.read + other.read)
    accepted := ← overflow.word (t.accepted + other.accepted)
    sourceTooLong := ← overflow.word (t.sourceTooLong + other.sourceTooLong)
    targetTooLong := ← overflow.word (t.targetTooLong + other.targetTooLong)
    rejected := ← overflow.word (t.rejected + other.rejected)
    clipped := ← overflow.word (t.clipped + other.clipped)
    sourceLengths := ← t.sourceLengths.mergeIn overflow other.sourceLengths
    targetLengths := ← t.targetLengths.mergeIn overflow other.targetLengths }

end Tally

end Bitext
