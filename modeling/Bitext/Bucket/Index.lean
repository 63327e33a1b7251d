/-
The bucket index: where the pairs of each length are.

An index maps the key of a length bucket to the offsets of its pairs, in corpus order.
A bucket comes into being with its first offset and goes away with its last, so an
index without buckets is one whose pairs have all been taken.  The number of all
offsets is kept beside the buckets, because it is the range of every draw.
-/
import Std.Data.ExtTreeMap
import Bitext.Bucket.Queue

namespace Bitext

/-- The offsets of a bitext's pairs by length bucket. -/
structure Index where
  buckets : Std.ExtTreeMap Nat (Queue Nat)
  total : Nat

namespace Index

/-- The index that holds no offsets. -/
def empty : Index := ⟨∅, 0⟩

/-- The bucket of a key, if it holds anything. -/
def bucket? (index : Index) (key : Nat) : Option (Queue Nat) := index.buckets[key]?

/-- Files an offset under a key, behind the offsets that are there. -/
def insert (index : Index) (key offset : Nat) : Index where
  buckets := index.buckets.insert key (((index.bucket? key).getD .empty).push offset)
  total := index.total + 1

/-- Puts back what is left of a bucket, which vanishes when that is nothing. -/
def putBack (index : Index) (key : Nat) (rest : Queue Nat) :
    Std.ExtTreeMap Nat (Queue Nat) :=
  if rest.isEmpty then index.buckets.erase key else index.buckets.insert key rest

/-- Takes the oldest offset of a key. -/
def pop? (index : Index) (key : Nat) : Option (Nat × Index) :=
  match (index.bucket? key).bind Queue.pop? with
  | some (offset, rest) => some (offset, ⟨index.putBack key rest, index.total - 1⟩)
  | none => none

/-- The oldest offset of a key. -/
def front? (index : Index) (key : Nat) : Option Nat := (index.bucket? key).bind Queue.front?

/-- The keys with the number of their offsets, in ascending key order. -/
def counts (index : Index) : List (Nat × Nat) :=
  index.buckets.toList.map fun entry => (entry.1, entry.2.size)

/-- The number of buckets. -/
def bucketCount (index : Index) : Nat := index.buckets.size

/-- No bucket is left. -/
def isEmpty (index : Index) : Bool := index.buckets.isEmpty

/-- The offsets filed under a key, oldest first. -/
def offsets (index : Index) (key : Nat) : List Nat :=
  ((index.bucket? key).map Queue.toList).getD []

/-- The offsets of all buckets, by ascending key and oldest first. -/
def allOffsets (index : Index) : List (Nat × Nat) :=
  index.buckets.toList.flatMap fun entry => entry.2.toList.map (entry.1, ·)

end Index

end Bitext
