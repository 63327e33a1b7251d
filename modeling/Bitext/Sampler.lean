/-
The sampler: which bucket the next batch comes from.

A number is drawn below the number of all offsets that are left, and the buckets are
laid side by side in ascending key order, each as wide as it is full; the bucket in
which the number falls is the one.  So a bucket is chosen in proportion to what it still
holds, and the batches of an epoch come in an order that is nearly that of a shuffle,
while each batch is drawn from one bucket.

The counts of an index are exact.  The walk over them can be taken over any other counts too,
of which the sum is not sure to fit a word; so it is said once more with the counts added up
in words.

Epoch `n` of a corpus draws from a generator that is started from the base seed plus `n`,
modulo 2^64.
-/
import Bitext.Bucket.Index
import Bitext.Number.Word
import Bitext.Random.Dice

namespace Bitext

/-- The key under which number `r` falls when the counts are laid side by side. -/
def chooseByCount : List (Nat × Nat) → Nat → Option Nat
  | [], _ => none
  | (key, count) :: rest, r => if r < count then some key else chooseByCount rest (r - count)

/-- The key of the bucket that the next batch comes from, unless all are empty. -/
def Index.select {σ : Type} (index : Index) (dice : Dice σ) (s : σ) : Option Nat × σ :=
  if h : 0 < index.total then
    let (r, s) := dice.roll s index.total h
    (chooseByCount index.counts r.val, s)
  else (none, s)

/-- The key under which number `r` falls, if the program gets there, with the counts added up in
words from `before` on. -/
def chooseIn (overflow : Overflow) (before : Nat) : List (Nat × Nat) → Nat → Option (Option Nat)
  | [], _ => some none
  | (key, count) :: rest, r => do
      let stop ← overflow.word (before + count)
      if r < stop then return some key
      chooseIn overflow stop rest r

/-- The key of the bucket that the next batch comes from, chosen in words. -/
def Index.selectIn {σ : Type} (overflow : Overflow) (index : Index) (dice : Dice σ) (s : σ) :
    Option (Option Nat × σ) :=
  if h : 0 < index.total then do
    let (r, s) := dice.roll s index.total h
    return (← chooseIn overflow 0 index.counts r.val, s)
  else some (none, s)

/-- The state from which an epoch is drawn. -/
def Generator.ofEpoch {σ : Type} (generator : Generator σ) (baseSeed epoch : Nat) : σ :=
  generator.ofSeed (UInt64.ofNat (baseSeed + epoch))

end Bitext
