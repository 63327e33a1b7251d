/-
The record of a batch in an epoch file.

A record holds the number of pairs, then all source lines and all target lines, each
side as one text with a line feed between two lines:

    pair count, source length, source lines, target length, target lines

A line feed can separate the lines because no line contains one.  In place of a pair
count, minus one marks the end of the file; every other count below one is refused, and
so is a side that does not fall into as many lines as there are pairs.
-/
import Bitext.Record.Bytes

namespace Bitext.BatchRecord

/-- The pair count that marks the end of an epoch file. -/
def endMark : Int := -1

/-- The bytes of the end mark. -/
def endBytes : ByteArray := Bytes.word (Bytes.wordRange - 1)

/-- The character between two lines of a side. -/
def separator : Char := '\n'

/-- The lines of a side as one text. -/
def joinLines (lines : List String) : String := (String.singleton separator).intercalate lines

/-- The lines of a side's text. -/
def splitLines (side : String) : List String :=
  (side.toList.splitOn separator).map String.ofList

/-- The bytes of a batch, if its size and its sides fit. -/
def encode (batch : Batch) : Except Fault ByteArray := do
  if Bytes.signedRange ≤ batch.size then
    throw ⟨.numberTooLarge, [.storingBatch batch.size]⟩
  let source ← Bytes.text? (joinLines batch.sourceLines)
  let target ← Bytes.text? (joinLines batch.targetLines)
  return Bytes.word batch.size ++ source ++ target

/-- The batch at a position and the position of the next record, or nothing at the end
mark. -/
def decode (bytes : ByteArray) (position : Nat) : Except RecordFault (Option (Batch × Nat)) := do
  let count := Bytes.signed (← Bytes.wordAt bytes position)
  if count = endMark then
    return none
  if count ≤ 0 then
    throw ⟨position, .pairCount count⟩
  let (source, next) ← Bytes.textAt bytes (position + 4)
  let (target, next) ← Bytes.textAt bytes next
  let sources := splitLines source
  let targets := splitLines target
  if (sources.length : Int) ≠ count ∨ (targets.length : Int) ≠ count then
    throw ⟨position, .lineCounts count.toNat sources.length targets.length⟩
  return some (⟨List.zipWith Pair.mk sources targets⟩, next)

end Bitext.BatchRecord
