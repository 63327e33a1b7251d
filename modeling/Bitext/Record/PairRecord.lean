/-
The record of a pair in a blob.

A record holds the two token counts and then the two texts:

    source tokens, target tokens, source length, source, target length, target

The counts come first and have a fixed width, so whether a pair still fits a batch can be
told from the header alone, without looking at its text.  A record is written part by
part; a part that does not fit stops the writing, and the parts before it stay written.
-/
import Bitext.Record.Bytes

namespace Bitext

/-- The token counts of a record. -/
structure Header where
  sourceTokens : Nat
  targetTokens : Nat
  deriving DecidableEq, Repr

/-- The tokens of both sides. -/
def Header.tokenCount (h : Header) : Nat := h.sourceTokens + h.targetTokens

/-- A record as it is read back. -/
structure PairRecord where
  header : Header
  pair : Pair
  deriving DecidableEq, Repr

namespace PairRecord

/-- The parts of a pair's record, in the order in which they are written. -/
def parts (p : Admitted) : List (Except Fault ByteArray) :=
  [Bytes.word? (.storingTokenCount .source p.sourceTokens) p.sourceTokens,
   Bytes.word? (.storingTokenCount .target p.targetTokens) p.targetTokens,
   Bytes.text? p.pair.source,
   Bytes.text? p.pair.target]

/-- Writes parts behind the bytes that are there, up to the first one that does not
fit. -/
def write (bytes : ByteArray) : List (Except Fault ByteArray) → ByteArray × Option Fault
  | [] => (bytes, none)
  | .ok part :: rest => write (bytes ++ part) rest
  | .error fault :: _ => (bytes, some fault)

/-- The token counts of the record at an offset. -/
def headerAt (bytes : ByteArray) (offset : Nat) : Except RecordFault Header := do
  let sourceTokens ← Bytes.wordAt bytes offset
  let targetTokens ← Bytes.wordAt bytes (offset + 4)
  .ok ⟨sourceTokens, targetTokens⟩

/-- The record at an offset. -/
def readAt (bytes : ByteArray) (offset : Nat) : Except RecordFault PairRecord := do
  let header ← headerAt bytes offset
  let (source, position) ← Bytes.textAt bytes (offset + 8)
  let (target, _) ← Bytes.textAt bytes position
  .ok ⟨header, ⟨source, target⟩⟩

end PairRecord

end Bitext
