/-
Packing: from an index to batches.

A batch is filled from the front of one bucket.  Its first pair is taken whatever its
size; each further pair is taken while the batch is below its token budget and stays
within it, which the header of the pair's record tells.  So a batch of several pairs
never exceeds the budget, and a pair that exceeds it alone is a batch of its own.

The buckets are drawn until nothing is left.  Every batch takes at least one offset
away, so there are at most as many batches as offsets, and that many rounds are enough.
A record that cannot be read stops the packing; the batches before it have been packed
by then.
-/
import Bitext.Blob
import Bitext.Record.BatchRecord
import Bitext.Sampler

namespace Bitext.Packing

/-! ### One batch -/

/-- What has been taken from a bucket, and what is left of it. -/
structure Filled where
  pairs : List Pair
  tokens : Nat
  rest : Queue Nat

/-- The next pair does not go into a batch that holds `tokens` tokens. -/
def isFull (budget tokens next : Nat) : Bool := tokens ≥ budget || tokens + next > budget

/-- Takes further pairs into a batch that holds `tokens` tokens. -/
def fillUp (blob : Blob) (budget tokens : Nat) (queue : Queue Nat) : Except RecordFault Filled :=
  match _popped : queue.pop? with
  | none => .ok ⟨[], tokens, queue⟩
  | some (offset, rest) => do
      let next ← blob.headerAt offset
      if isFull budget tokens next.tokenCount then
        return ⟨[], tokens, queue⟩
      let record ← blob.recordAt offset
      let filled ← fillUp blob budget (tokens + record.header.tokenCount) rest
      return { filled with pairs := record.pair :: filled.pairs }
termination_by queue.toList.length
decreasing_by simp [Queue.toList_of_pop? _popped]

/-- Takes a batch from the front of a bucket. -/
def fill (blob : Blob) (budget : Nat) (queue : Queue Nat) : Except RecordFault Filled :=
  match queue.pop? with
  | none => .ok ⟨[], 0, queue⟩
  | some (offset, rest) => do
      let record ← blob.recordAt offset
      let filled ← fillUp blob budget record.header.tokenCount rest
      return { filled with pairs := record.pair :: filled.pairs }

/-- A batch with the bucket it was taken from, its token count by the headers, and its
record in the epoch file. -/
structure PackedBatch where
  key : Nat
  batch : Batch
  tokens : Nat
  bytes : ByteArray

/-- Takes a batch from the bucket of a key and encodes it. -/
def next (blob : Blob) (budget : Nat) (index : Index) (key : Nat) :
    Except Fault (PackedBatch × Index) :=
  match fill blob budget ((index.bucket? key).getD .empty) with
  | .error fault => .error (Cause.record fault)
  | .ok filled =>
      match BatchRecord.encode ⟨filled.pairs⟩ with
      | .error fault => .error fault
      | .ok bytes =>
          .ok (⟨key, ⟨filled.pairs⟩, filled.tokens, bytes⟩,
            ⟨index.putBack key filled.rest, index.total - filled.pairs.length⟩)

/-! ### All batches -/

/-- The batches that were packed, and what stopped the packing, if anything did. -/
structure Packed where
  batches : List PackedBatch
  fault : Option Fault

/-- Packs batches for the given number of rounds, or until nothing is left. -/
def rounds {σ : Type} (dice : Dice σ) (blob : Blob) (budget : Nat) : Nat → Index → σ → Packed
  | 0, _, _ => ⟨[], none⟩
  | n + 1, index, s =>
      match index.select dice s with
      | (none, _) => ⟨[], none⟩
      | (some key, s) =>
          match next blob budget index key with
          | .error fault => ⟨[], some fault⟩
          | .ok (first, index) =>
              let others := rounds dice blob budget n index s
              ⟨first :: others.batches, others.fault⟩

/-- Packs everything that the index holds. -/
def all {σ : Type} (dice : Dice σ) (blob : Blob) (budget : Nat) (index : Index) (s : σ) :
    Packed :=
  rounds dice blob budget index.total index s

/-- The number of pairs in packed batches. -/
def pairCount (batches : List PackedBatch) : Nat :=
  (batches.map (·.batch.size)).foldr (· + ·) 0

/-- The bytes of an epoch file with the given batches. -/
def epochBytes (batches : List PackedBatch) : ByteArray :=
  batches.foldl (fun bytes packed => bytes ++ packed.bytes) .empty ++ BatchRecord.endBytes

/-- A report of the progress is due after this many batches. -/
def reportInterval : Nat := 10000

/-- The events of packed batches, with the given numbers of batches and pairs ahead of
them. -/
def events (batchesBefore pairsBefore : Nat) : List PackedBatch → List Event
  | [] => []
  | packed :: rest =>
      let batches := batchesBefore + 1
      let pairs := pairsBefore + packed.batch.size
      (if batches % reportInterval = 0 then [.packedSoFar batches pairs] else [])
        ++ .packedBatch packed.key packed.batch.size packed.tokens :: events batches pairs rest

end Bitext.Packing
