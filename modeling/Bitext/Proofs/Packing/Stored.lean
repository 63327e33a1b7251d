/-
The buckets of a store.

What a store holds can be read from the blob that its writer leaves.  So the cut of a
bucket's offsets, which is what the packing follows, is the cut of the pairs that were
admitted under its key, in the order in which they were admitted.
-/
import Bitext.Proofs.Build.Store
import Bitext.Proofs.Packing.Buckets

namespace Bitext.Store.Holds

open Packing

variable {store : Store} {entries : List (Nat × Admitted)} {blob : Blob}

theorem recordAt (h : store.Holds entries) (hblob : blob.bytes = store.writer.bytes)
    {entry : Nat × Admitted} (hentry : entry ∈ entries) :
    blob.recordAt entry.1 = .ok (PairRecord.ofAdmitted entry.2) := by
  show PairRecord.readAt blob.bytes entry.1 = _
  rw [hblob]
  exact PairRecord.readAt_of_standsAt (h.stands entry hentry) (h.fits entry hentry)

/-- Every offset of a store's index leads to a record. -/
theorem readable (h : store.Holds entries) (hblob : blob.bytes = store.writer.bytes) :
    Readable blob store.index := by
  intro key offset hoffset
  rw [h.offsets] at hoffset
  obtain ⟨entry, hentry, rfl⟩ := List.mem_map.mp hoffset
  exact ⟨_, h.recordAt hblob (List.mem_filter.mp hentry).1⟩

/-- The batches of a bucket are cut from the pairs that were admitted under its key. -/
theorem cut_offsets (h : store.Holds entries) (hblob : blob.bytes = store.writer.bytes)
    (budget key : Nat) :
    (cut (tokensAt blob) budget (store.index.offsets key)).map (batchAt blob)
      = (cut Admitted.tokenCount budget ((entries.map (·.2)).filter (·.key = key))).map
          fun segment => ⟨segment.map (·.pair)⟩ := by
  have hoffsets : store.index.offsets key = (entries.filter (·.2.key = key)).map (·.1) :=
    h.offsets key
  have hadmitted : (entries.map (·.2)).filter (·.key = key)
      = (entries.filter (·.2.key = key)).map (·.2) := List.filter_map
  have hrecord : ∀ entry ∈ entries.filter (·.2.key = key),
      blob.recordAt entry.1 = .ok (PairRecord.ofAdmitted entry.2) :=
    fun entry hentry => h.recordAt hblob (List.mem_filter.mp hentry).1
  rw [hoffsets, hadmitted]
  generalize entries.filter (·.2.key = key) = bucket at hrecord ⊢
  -- both sides are cuts of one list of entries, by costs that agree on it
  have htokens : ∀ entry ∈ bucket, tokensAt blob entry.1 = entry.2.tokenCount :=
    fun entry hentry => tokensAt_of_recordAt (hrecord entry hentry)
  rw [cut_map bucket htokens, cut_map bucket fun _ _ => rfl, List.map_map, List.map_map]
  refine List.map_congr_left fun segment hsegment => ?_
  have hpairs : ∀ entry ∈ segment, pairAt blob entry.1 = entry.2.pair := by
    intro entry hentry
    have hmem : entry ∈ bucket := by
      rw [← (cut_greedy bucket).flatten_eq]
      exact List.mem_flatten_of_mem hsegment hentry
    exact pairAt_of_recordAt (hrecord entry hmem)
  simp only [Function.comp_apply, batchAt, List.map_map]
  exact congrArg Batch.mk (List.map_congr_left hpairs)

end Bitext.Store.Holds
