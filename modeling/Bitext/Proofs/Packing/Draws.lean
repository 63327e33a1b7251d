/-
The batches of an epoch do not depend on the draws.

The batches that come from a bucket are the greedy cut of what it holds, whatever is drawn.
Two packings of one index therefore have the same batches in every bucket, and differ only
in how the buckets take turns.
-/
import Mathlib
import Bitext.Proofs.Packing.Rounds
import Bitext.Proofs.Packing.Stored
import Bitext.Random.Keystream

namespace Bitext.Packing

/-- **Draws only order the batches.**  When the offsets of an index lead to records and its
segments fit theirs, a packing goes through whatever is drawn; the batches that come from a
bucket are, in order, the greedy cut of its offsets; and so any two packings have the same
batches, each as often, and differ in their order across buckets only. -/
theorem batches_determined_by_buckets {blob : Blob} {budget : Nat} {index : Index}
    (hindex : index.Made) (hread : Readable blob index)
    (hfits : ∀ key segments, GreedyCut (tokensAt blob) budget (index.offsets key) segments →
      ∀ segment ∈ segments, BatchRecord.Fits (batchAt blob segment)) :
    (∀ {σ : Type} (dice : Dice σ) (s : σ),
      (all dice blob budget index s).fault = none ∧
      ∀ key, ∃ segments, GreedyCut (tokensAt blob) budget (index.offsets key) segments ∧
        ((all dice blob budget index s).batches.filter (·.key = key)).map (·.batch)
          = segments.map (batchAt blob)) ∧
    ∀ {σ τ : Type} (dice : Dice σ) (s : σ) (other : Dice τ) (t : τ),
      ((all dice blob budget index s).batches.map (·.batch)).Perm
        ((all other blob budget index t).batches.map (·.batch)) ∧
      (all dice blob budget index s).batches.length
        = (all other blob budget index t).batches.length := by
  have hcoherent := hindex.coherent
  have hnone : ∀ {σ : Type} (dice : Dice σ) (s : σ), (all dice blob budget index s).fault = none :=
    fun dice s => rounds_fault index.total index s hcoherent hread (Nat.le_refl _)
      (fun key => hfits key _ (cut_greedy (index.offsets key)))
  have hfilter : ∀ {σ : Type} (dice : Dice σ) (s : σ) (key : Nat),
      (all dice blob budget index s).batches.filter (·.key = key)
        = (cut (tokensAt blob) budget (index.offsets key)).map (packedAt blob key) :=
    fun dice s => rounds_filter index.total index s hcoherent (Nat.le_refl _) (hnone dice s)
  refine ⟨?_, ?_⟩
  · intro σ dice s
    refine ⟨hnone dice s, fun key => ⟨_, cut_greedy (index.offsets key), ?_⟩⟩
    rw [hfilter, List.map_map]
    rfl
  · intro σ τ dice s other t
    have hperm : (all dice blob budget index s).batches.Perm
        (all other blob budget index t).batches :=
      perm_of_filter_key PackedBatch.key fun key => by rw [hfilter, hfilter]
    exact ⟨hperm.map _, hperm.length_eq⟩

/-- Two pairs of one bucket and one of another. -/
def threePairs : List Admitted :=
  [⟨⟨"a", "b"⟩, 1, 1, false, 1⟩, ⟨⟨"c", "d"⟩, 1, 1, false, 1⟩, ⟨⟨"e e", "f f"⟩, 2, 2, false, 2⟩]

theorem fits_of_mem_cut_threePairs (key : Nat) :
    ∀ segment ∈ cut Admitted.tokenCount 3 (threePairs.filter (·.key = key)),
      BatchRecord.Fits ⟨segment.map (·.pair)⟩ := by
  by_cases hfirst : key = 1
  · have hcut : cut Admitted.tokenCount 3 (threePairs.filter (·.key = 1))
        = [[⟨⟨"a", "b"⟩, 1, 1, false, 1⟩], [⟨⟨"c", "d"⟩, 1, 1, false, 1⟩]] := by cbv
    rw [hfirst, hcut]
    intro segment hsegment
    rcases (by simpa using hsegment) with rfl | rfl
    · exact ⟨by decide, by decide, by decide⟩
    · exact ⟨by decide, by decide, by decide⟩
  · by_cases hsecond : key = 2
    · have hcut : cut Admitted.tokenCount 3 (threePairs.filter (·.key = 2))
          = [[⟨⟨"e e", "f f"⟩, 2, 2, false, 2⟩]] := by cbv
      rw [hsecond, hcut]
      intro segment hsegment
      obtain rfl := List.mem_singleton.mp hsegment
      exact ⟨by decide, by decide, by decide⟩
    · have hnone : threePairs.filter (·.key = key) = [] := by
        simp [threePairs, Ne.symm hfirst, Ne.symm hsecond]
      rw [hnone, cut_nil]
      simp

/-- Three pairs are packed into the same batches from any two seeds. -/
theorem three_pairs_from_two_seeds :
    ∃ blob : Blob, ∃ index : Index, (index.offsets 1).length = 2 ∧ (index.offsets 2).length = 1 ∧
      ((all Keystream.dice blob 3 index (Keystream.ofSeed 7)).batches.map (·.batch)).Perm
        ((all Keystream.dice blob 3 index (Keystream.ofSeed 8)).batches.map (·.batch)) := by
  obtain ⟨store, hstore⟩ := Store.appendAll_of_fits threePairs (.ofWriter (.ofFile ⟨"", []⟩))
    (by decide)
  obtain ⟨entries, hentries, hholds⟩ := (Store.holds_ofFile ⟨"", []⟩).appendAll threePairs hstore
  rw [List.nil_append] at hholds
  let blob : Blob := ⟨⟨"", []⟩, store.writer.bytes, 3⟩
  have hfits : ∀ key segments, GreedyCut (tokensAt blob) 3 (store.index.offsets key) segments →
      ∀ segment ∈ segments, BatchRecord.Fits (batchAt blob segment) := by
    intro key segments hcut segment hsegment
    rw [hcut.eq_cut] at hsegment
    have hbatch := List.mem_map_of_mem (f := batchAt blob) hsegment
    rw [hholds.cut_offsets rfl, hentries] at hbatch
    obtain ⟨found, hfound, heq⟩ := List.mem_map.mp hbatch
    rw [← heq]
    exact fits_of_mem_cut_threePairs key found hfound
  have hbatches := (batches_determined_by_buckets hholds.made (hholds.readable rfl) hfits).2
    Keystream.dice (Keystream.ofSeed 7) Keystream.dice (Keystream.ofSeed 8)
  have hlength : ∀ key, (store.index.offsets key).length
      = (threePairs.filter (·.key = key)).length := by
    intro key
    rw [hholds.offsets, List.length_map, ← hentries, List.filter_map, List.length_map]
    rfl
  exact ⟨blob, store.index, by rw [hlength]; decide, by rw [hlength]; decide, hbatches.1⟩

end Bitext.Packing
