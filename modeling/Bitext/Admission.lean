/-
Admission: which line pairs go into an index, and in what shape.

The two lines of a pair have to have the same number of groups; a pair that does not is
a fault of the corpus and stops the reading.  After that the pair is counted, and when a
side is over its maximum the overlong policy decides: the pair is left out, or each
side that is too long is clipped to its maximum.  Length and key of an admitted pair are
those of the text that is stored, not of the text that was read.
-/
import Bitext.LengthClass
import Bitext.Tally

namespace Bitext

/-- What became of a line pair. -/
inductive Verdict where
  | accepted (p : Admitted)
  | rejected (sourceTooLong targetTooLong : Bool)
  deriving DecidableEq, Repr

namespace Admission

/-- A side and its token count, clipped when it has more tokens than allowed. -/
def fit (text : String) (tokens most : Nat) : String × Nat :=
  if tokens > most then (Line.clip text most, most) else (text, tokens)

/-- The admitted pair of two sides with the given token counts. -/
def file (settings : Settings) (source target : String × Nat) (clipped : Bool) : Admitted where
  pair := ⟨source.1, target.1⟩
  sourceTokens := source.2
  targetTokens := target.2
  clipped := clipped
  key := settings.bucketing.key source.2 target.2 settings.classWidth

/-- What becomes of a pair whose groups match. -/
def verdict (settings : Settings) (pair : Pair) : Verdict :=
  let sourceTokens := pair.sourceTokens
  let targetTokens := pair.targetTokens
  let sourceTooLong := decide (sourceTokens > settings.maxSource)
  let targetTooLong := decide (targetTokens > settings.maxTarget)
  match settings.overlong, sourceTooLong || targetTooLong with
  | _, false =>
      .accepted (file settings (pair.source, sourceTokens) (pair.target, targetTokens) false)
  | .drop, true => .rejected sourceTooLong targetTooLong
  | .clip, true =>
      .accepted (file settings (fit pair.source sourceTokens settings.maxSource)
        (fit pair.target targetTokens settings.maxTarget) true)

/-- Counts a pair whose groups match, and what became of it. -/
def count (settings : Settings) (pair : Pair) (tally : Tally) : Tally :=
  let counted : Tally :=
    { tally with
      read := tally.read + 1
      sourceLengths := tally.sourceLengths.record pair.sourceTokens
      targetLengths := tally.targetLengths.record pair.targetTokens
      sourceTooLong :=
        tally.sourceTooLong + (if pair.sourceTokens > settings.maxSource then 1 else 0)
      targetTooLong :=
        tally.targetTooLong + (if pair.targetTokens > settings.maxTarget then 1 else 0) }
  match verdict settings pair with
  | .rejected _ _ => { counted with rejected := counted.rejected + 1 }
  | .accepted p =>
      { counted with
        accepted := counted.accepted + 1
        clipped := counted.clipped + (if p.clipped then 1 else 0) }

/-- The two sides of a pair have the same number of groups. -/
def groupsMatch (pair : Pair) : Bool :=
  Line.groupCount pair.source == Line.groupCount pair.target

/-- The fault of a line whose sides differ in their groups. -/
def mismatch (line : Nat) (pair : Pair) : Fault :=
  Cause.groupMismatch line (Line.groupCount pair.source) (Line.groupCount pair.target)

/-- Takes in a line pair: what becomes of it, and the tally with it.  A pair whose groups
do not match is a fault and leaves the tally as it was. -/
def receive (settings : Settings) (line : Nat) (pair : Pair) (tally : Tally) :
    Except Fault (Verdict × Tally) :=
  if groupsMatch pair then .ok (verdict settings pair, count settings pair tally)
  else .error (mismatch line pair)

end Admission

end Bitext
