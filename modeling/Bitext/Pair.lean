/-
Sentence pairs, before and after they are admitted to an index.

A pair is a source line and the target line next to it.  An admitted pair also carries
what was found out about it: how many tokens each side has, under which key its length
is filed, and whether a side was clipped on the way.  A batch is the pairs that are
handed out together.
-/
import Bitext.Text.Line

namespace Bitext

/-- The two sides of a pair. -/
inductive Side where
  | source
  | target
  deriving DecidableEq, Repr

/-- The side as a word inside a sentence. -/
def Side.name : Side → String
  | .source => "source"
  | .target => "target"

/-- The side as the first word of a sentence. -/
def Side.title : Side → String
  | .source => "Source"
  | .target => "Target"

/-- A source line and the target line that goes with it. -/
structure Pair where
  source : String
  target : String
  deriving DecidableEq, Repr

namespace Pair

/-- The tokens of the source side. -/
def sourceTokens (p : Pair) : Nat := Line.tokenCount p.source

/-- The tokens of the target side. -/
def targetTokens (p : Pair) : Nat := Line.tokenCount p.target

/-- The tokens of both sides. -/
def tokenCount (p : Pair) : Nat := p.sourceTokens + p.targetTokens

end Pair

/-- A pair that an index holds, with the token counts that stand in its record. -/
structure Admitted where
  pair : Pair
  sourceTokens : Nat
  targetTokens : Nat
  /-- A side was over its maximum and has been cut to it. -/
  clipped : Bool
  /-- The key of the length bucket that the pair belongs to. -/
  key : Nat
  deriving DecidableEq, Repr

/-- The tokens of both sides, as counted on admission. -/
def Admitted.tokenCount (p : Admitted) : Nat := p.sourceTokens + p.targetTokens

/-- Pairs that are handed out together, in order. -/
structure Batch where
  pairs : List Pair
  deriving DecidableEq, Repr

namespace Batch

/-- The number of pairs. -/
def size (b : Batch) : Nat := b.pairs.length

/-- A batch without pairs. -/
def isEmpty (b : Batch) : Bool := b.pairs.isEmpty

/-- The tokens of all pairs together. -/
def tokenCount (b : Batch) : Nat := (b.pairs.map Pair.tokenCount).foldr (· + ·) 0

/-- The source lines, in order. -/
def sourceLines (b : Batch) : List String := b.pairs.map Pair.source

/-- The target lines, in order. -/
def targetLines (b : Batch) : List String := b.pairs.map Pair.target

end Batch

end Bitext
