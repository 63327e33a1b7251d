/-
What an epoch holds.

An epoch is packed from a built index.  When the packing goes through, the epoch file holds
the batches of the packing and is left as it was written, because the blob that is deleted
then is another file.  In every bucket the batches are the greedy cut of the pairs that were
admitted under its key, and all of them read back as they were packed; so nothing that was
admitted is missing, and nothing stands in an epoch twice.
-/
import Bitext.Corpus
import Bitext.Proofs.BatchStream
import Bitext.Proofs.Build.Index
import Bitext.Proofs.Packing.Rounds

namespace Bitext

/-- The key of the bucket to which a pair belongs by its text. -/
def Settings.keyOf (settings : Settings) (p : Pair) : Nat :=
  settings.bucketing.key p.sourceTokens p.targetTokens settings.classWidth

/-! ### The packing of a built index -/

section packing

open Packing

variable {settings : Settings} {built : BuiltIndex} {entries : List (Nat × Admitted)}
  {σ : Type} {dice : Dice σ} {s : σ} {budget : Nat}

/-- The batches of a bucket are cut from the pairs that belong to it by their text. -/
theorem BuiltIndex.Offers.cut_offsets (h : built.Offers settings entries) (budget key : Nat) :
    (cut (tokensAt built.blob) budget (built.index.offsets key)).map (batchAt built.blob)
      = (cut Pair.tokenCount budget
          ((entries.map (·.2.pair)).filter (settings.keyOf · = key))).map Batch.mk := by
  obtain ⟨store, hholds, hindex, hbytes⟩ := h.stored
  have hbucket : (entries.map (·.2.pair)).filter (settings.keyOf · = key)
      = ((entries.map (·.2)).filter (·.key = key)).map (·.pair) := by
    rw [List.filter_map, List.filter_map, List.map_map]
    have hkeys : ∀ entry ∈ entries,
        ((decide <| settings.keyOf · = key) ∘ fun entry : Nat × Admitted => entry.2.pair) entry
          = ((decide <| ·.key = key) ∘ fun entry : Nat × Admitted => entry.2) entry := by
      intro entry hentry
      have hkey : entry.2.key = settings.keyOf entry.2.pair := (h.accurate entry hentry).key
      simp [hkey]
    rw [List.filter_congr hkeys]
    rfl
  have htokens : ∀ p ∈ (entries.map (·.2)).filter (·.key = key),
      p.pair.tokenCount = p.tokenCount := by
    intro p hp
    obtain ⟨entry, hentry, rfl⟩ := List.mem_map.mp (List.mem_filter.mp hp).1
    exact (h.accurate entry hentry).tokenCount.symm
  rw [hindex, hholds.cut_offsets hbytes, hbucket, cut_map _ htokens, List.map_map]
  rfl

theorem BuiltIndex.Offers.coherent (h : built.Offers settings entries) :
    built.index.Coherent := by
  obtain ⟨store, hholds, hindex, -⟩ := h.stored
  rw [hindex]
  exact hholds.made.coherent

theorem BuiltIndex.Offers.readable (h : built.Offers settings entries) :
    Readable built.blob built.index := by
  obtain ⟨store, hholds, hindex, hbytes⟩ := h.stored
  rw [hindex]
  exact hholds.readable hbytes

/-- A packing of which the segments fit goes through. -/
theorem BuiltIndex.Offers.fault_eq_none (h : built.Offers settings entries)
    (hfits : ∀ key, ∀ segment ∈ cut Pair.tokenCount budget
      ((entries.map (·.2.pair)).filter (settings.keyOf · = key)), BatchRecord.Fits ⟨segment⟩) :
    (all dice built.blob budget built.index s).fault = none := by
  refine rounds_fault _ _ s h.coherent h.readable (Nat.le_refl _) fun key segment hsegment => ?_
  have hbatch := List.mem_map_of_mem (f := batchAt built.blob) hsegment
  rw [h.cut_offsets] at hbatch
  obtain ⟨found, hfound, heq⟩ := List.mem_map.mp hbatch
  rw [← heq]
  exact hfits key found hfound

theorem BuiltIndex.Offers.filter_key (h : built.Offers settings entries)
    (hfault : (all dice built.blob budget built.index s).fault = none) (key : Nat) :
    ((all dice built.blob budget built.index s).batches.filter (·.key = key)).map (·.batch)
      = (cut Pair.tokenCount budget
          ((entries.map (·.2.pair)).filter (settings.keyOf · = key))).map Batch.mk := by
  rw [all, rounds_filter _ _ s h.coherent (Nat.le_refl _) hfault key, List.map_map,
    ← h.cut_offsets]
  rfl

/-- A batch is a segment of the pairs that belong to its bucket. -/
theorem BuiltIndex.Offers.exists_segment (h : built.Offers settings entries)
    (hfault : (all dice built.blob budget built.index s).fault = none) {packed : PackedBatch}
    (hpacked : packed ∈ (all dice built.blob budget built.index s).batches) :
    ∃ segment, packed.batch = ⟨segment⟩ ∧ segment ≠ [] ∧
      LetsIn Pair.tokenCount budget segment ∧
      ∀ p ∈ segment, settings.keyOf p = packed.key ∧ p ∈ entries.map (·.2.pair) := by
  have hmem : packed.batch ∈ ((all dice built.blob budget built.index s).batches.filter
      (·.key = packed.key)).map (·.batch) :=
    List.mem_map_of_mem (List.mem_filter.mpr ⟨hpacked, by simp⟩)
  rw [h.filter_key hfault] at hmem
  obtain ⟨segment, hsegment, hbatch⟩ := List.mem_map.mp hmem
  have hcut : GreedyCut Pair.tokenCount budget
      ((entries.map (·.2.pair)).filter (settings.keyOf · = packed.key)) _ := cut_greedy _
  obtain ⟨hne, hlets⟩ := hcut.letsIn segment hsegment
  refine ⟨segment, hbatch.symm, hne, hlets, fun p hp => ?_⟩
  have hbucket := List.mem_flatten_of_mem hsegment hp
  rw [hcut.flatten_eq] at hbucket
  obtain ⟨hpair, hkey⟩ := List.mem_filter.mp hbucket
  exact ⟨by simpa using hkey, hpair⟩

/-- Every batch reads back as it was packed. -/
theorem BuiltIndex.Offers.sound (h : built.Offers settings entries)
    (hfault : (all dice built.blob budget built.index s).fault = none) :
    ∀ packed ∈ (all dice built.blob budget built.index s).batches, packed.Sound := by
  intro packed hpacked
  obtain ⟨segment, hbatch, hne, -, hpairs⟩ := h.exists_segment hfault hpacked
  obtain ⟨hfits, hbytes⟩ :=
    BatchRecord.encode_ok_iff.mp (encode_of_mem_rounds _ _ s packed hpacked)
  refine ⟨hfits, hbytes, by rw [hbatch]; exact hne, ?_⟩
  rw [hbatch]
  intro p hp
  obtain ⟨entry, hentry, rfl⟩ := List.mem_map.mp (hpairs p hp).2
  exact h.onOneLine entry hentry

/-- Tagged by their keys, the pairs of a bucket's batches are those of the batches with the
key. -/
theorem filter_tagged (batches : List PackedBatch) (key : Nat) :
    (batches.flatMap fun packed => packed.batch.pairs.map (packed.key, ·)).filter (·.1 = key)
      = (((batches.filter (·.key = key)).map (·.batch)).flatMap (·.pairs)).map (key, ·) := by
  induction batches with
  | nil => rfl
  | cons packed rest ih =>
      rw [List.flatMap_cons, List.filter_append, ih]
      by_cases hkey : packed.key = key
      · have hall : (packed.batch.pairs.map (packed.key, ·)).filter (·.1 = key)
            = packed.batch.pairs.map (key, ·) := by
          rw [hkey]
          exact List.filter_eq_self.mpr (by simp)
        rw [hall, List.filter_cons_of_pos (by simpa using hkey), List.map_cons, List.flatMap_cons,
          List.map_append]
      · have hnone : (packed.batch.pairs.map (packed.key, ·)).filter (·.1 = key) = [] :=
          List.filter_eq_nil_iff.mpr (by simp [hkey])
        rw [hnone, List.filter_cons_of_neg (by simpa using hkey), List.nil_append]

/-- **The batches of an epoch hold the admitted pairs, each as often as it was admitted.** -/
theorem BuiltIndex.Offers.perm (h : built.Offers settings entries)
    (hfault : (all dice built.blob budget built.index s).fault = none) :
    ((all dice built.blob budget built.index s).batches.flatMap (·.batch.pairs)).Perm
      (entries.map (·.2.pair)) := by
  generalize hpairs : entries.map (·.2.pair) = pairs
  generalize hall : (all dice built.blob budget built.index s).batches = batches
  have htagged : (batches.flatMap fun packed => packed.batch.pairs.map (packed.key, ·)).Perm
      (pairs.map fun p => (settings.keyOf p, p)) := by
    refine perm_of_filter_key Prod.fst fun key => ?_
    have hbucket := h.filter_key hfault key
    rw [hpairs, hall] at hbucket
    have hkept : (pairs.map fun p => (settings.keyOf p, p)).filter (·.1 = key)
        = (pairs.filter (settings.keyOf · = key)).map (key, ·) := by
      rw [List.filter_map]
      refine List.map_congr_left fun p hp => ?_
      have hkey : settings.keyOf p = key := by simpa using (List.mem_filter.mp hp).2
      rw [hkey]
    have hflat : ((cut Pair.tokenCount budget (pairs.filter (settings.keyOf · = key))).map
        Batch.mk).flatMap (·.pairs) = pairs.filter (settings.keyOf · = key) := by
      rw [List.flatMap_map]
      show (cut Pair.tokenCount budget _).flatMap id = _
      rw [List.flatMap_id]
      exact (cut_greedy _).flatten_eq
    rw [filter_tagged, hbucket, hflat, hkept]
  have hsecond := htagged.map Prod.snd
  rw [List.map_flatMap, List.map_map] at hsecond
  simpa [Function.comp_def] using hsecond

theorem pairCount_eq (batches : List PackedBatch) :
    pairCount batches = (batches.flatMap (·.batch.pairs)).length := by
  rw [pairCount, List.length_flatMap]
  rfl

end packing

/-! ### The epoch file -/

namespace Epoch

open Packing

/-- Closing a blob deletes its file, if there is one. -/
theorem disk_closeBlob (blob : Blob) (w : Workspace) :
    ((closeBlob blob).run w).2.disk
      = if w.disk.isFile blob.file.location then w.disk.erase blob.file.location else w.disk := by
  have hreport : ((closeBlob blob).run w).2.disk = (blob.close.run w).2.disk := by
    simp only [closeBlob, Work.run_bind]
    cases hclose : blob.close.run w with
    | mk result after =>
        have hwork : StateT.run blob.close.run w = (result, after) := hclose
        simp only [hwork]
        cases result <;> rfl
  rw [hreport, Disk.isFile]
  simp only [Blob.close, Job.run_bind, Job.run_lift, Workspace.run_delete, Disk.remove]
  cases w.disk.node? blob.file.location with
  | none => rfl
  | some node => cases node <;> rfl

/-- Closing a blob touches no other file. -/
theorem node?_closeBlob {blob : Blob} {there : Location} (h : there ≠ blob.file.location)
    (w : Workspace) : ((closeBlob blob).run w).2.disk.node? there = w.disk.node? there := by
  rw [disk_closeBlob]
  split
  · exact Disk.node?_erase_of_ne h
  · rfl

/-- A packing that goes through leaves its epoch, with its batches in the file. -/
theorem run_pack {σ : Type} {dice : Dice σ} {s : σ} {budget : Nat} {built : BuiltIndex}
    {folder : Path} {w : Workspace} {file : TemporaryFile} {disk : Disk}
    (hcreate : w.disk.createTemporary folder ending = (.ok file, disk))
    (hdrawn : Disk.IsDrawn built.blob.file.location BlobWriter.ending)
    (hfault : (all dice built.blob budget built.index s).fault = none) :
    ∃ after, (pack budget dice s built folder).run w
        = (.ok ⟨file, (all dice built.blob budget built.index s).batches.length,
            pairCount (all dice built.blob budget built.index s).batches, built.tally⟩, after) ∧
      after.disk.bytesAt file.location
        = .ok (epochBytes (all dice built.blob budget built.index s).batches) := by
  obtain ⟨hfile, hnode, -⟩ := Disk.of_createTemporary_ok hcreate
  have hother : file.location ≠ built.blob.file.location := hfile.ne hdrawn (by decide)
  have hisFile : disk.isFile file.location = true := by rw [Disk.isFile, hnode]
  simp only [pack, Job.run_bind, Job.run_lift, Workspace.run_newTemporary, hcreate,
    Workspace.run_report, Workspace.run_reportAll, hfault, Workspace.run_overwrite, if_pos hisFile]
  refine ⟨_, rfl, ?_⟩
  rw [Disk.bytesAt]
  simp only
  rw [node?_closeBlob hother, Disk.node?_put_self hfile.ne_nil]

/-- With a file for its epoch, a packing fails only when something stops it, and then with that. -/
theorem result_pack {σ : Type} {dice : Dice σ} {s : σ} {budget : Nat} {built : BuiltIndex}
    {folder : Path} {w : Workspace} {file : TemporaryFile} {disk : Disk}
    (hcreate : w.disk.createTemporary folder ending = (.ok file, disk)) :
    ((pack budget dice s built folder).run w).1
      = match (all dice built.blob budget built.index s).fault with
        | none => .ok ⟨file, (all dice built.blob budget built.index s).batches.length,
            pairCount (all dice built.blob budget built.index s).batches, built.tally⟩
        | some fault => .error fault := by
  simp only [pack, Job.run_bind, Job.run_lift, Workspace.run_newTemporary, hcreate]
  cases (all dice built.blob budget built.index s).fault with
  | none => rfl
  | some fault => rfl

/-- A packing that leaves an epoch has had a file for it and has gone through. -/
theorem of_pack_ok {σ : Type} {dice : Dice σ} {s : σ} {budget : Nat} {built : BuiltIndex}
    {folder : Path} {w after : Workspace} {e : Epoch}
    (h : (pack budget dice s built folder).run w = (.ok e, after)) :
    (∃ file disk, w.disk.createTemporary folder ending = (.ok file, disk)) ∧
      (all dice built.blob budget built.index s).fault = none := by
  simp only [pack, Job.run_bind, Job.run_lift, Workspace.run_newTemporary] at h
  cases hcreate : w.disk.createTemporary folder ending with
  | mk result disk =>
      cases result with
      | error reason =>
          simp only [hcreate, Job.run_bind, Job.run_lift, Job.run_throw] at h
          cases h
      | ok file =>
          refine ⟨⟨file, disk, rfl⟩, ?_⟩
          cases hfault : (all dice built.blob budget built.index s).fault with
          | none => rfl
          | some fault =>
              simp only [hcreate, hfault, Job.run_bind, Job.run_lift, Job.run_throw] at h
              cases h

/-! ### What a prepared epoch serves -/

/-- The epoch serves batches of the given pairs: they are in its file, read back, are cut from
the buckets and hold all pairs. -/
structure Serves (settings : Settings) (e : Epoch) (w : Workspace) (pairs : List Pair)
    (batches : List PackedBatch) : Prop where
  file : w.disk.bytesAt e.file.location = .ok (epochBytes batches)
  sound : ∀ packed ∈ batches, packed.Sound
  count : e.batches = batches.length
  size : e.pairs = (batches.flatMap (·.batch.pairs)).length
  accepted : e.tally.accepted = pairs.length
  letsIn : ∀ packed ∈ batches, LetsIn Pair.tokenCount settings.tokenBudget packed.batch.pairs
  key : ∀ packed ∈ batches, ∀ p ∈ packed.batch.pairs, settings.keyOf p = packed.key
  perm : (batches.flatMap (·.batch.pairs)).Perm pairs

/-- Packing what a build offers serves its pairs, in the batches of the packing. -/
theorem exists_serves {σ : Type} {dice : Dice σ} {s : σ} {settings : Settings}
    {built : BuiltIndex} {entries : List (Nat × Admitted)} {folder : Path} {w : Workspace}
    {file : TemporaryFile} {disk : Disk} (h : built.Offers settings entries)
    (hcreate : w.disk.createTemporary folder ending = (.ok file, disk))
    (hfault : (all dice built.blob settings.tokenBudget built.index s).fault = none) :
    ∃ e after, (pack settings.tokenBudget dice s built folder).run w = (.ok e, after) ∧
      e.Serves settings after (entries.map (·.2.pair))
        (all dice built.blob settings.tokenBudget built.index s).batches := by
  obtain ⟨after, hrun, hbytes⟩ := run_pack hcreate h.drawn hfault
  refine ⟨_, after, hrun, ⟨hbytes, h.sound hfault, rfl, pairCount_eq _, ?_, ?_, ?_,
    h.perm hfault⟩⟩
  · rw [List.length_map]
    exact h.accepted
  · intro packed hpacked
    obtain ⟨segment, hbatch, -, hlets, -⟩ := h.exists_segment hfault hpacked
    rw [hbatch]
    exact hlets
  · intro packed hpacked p hp
    obtain ⟨segment, hbatch, -, -, hpairs⟩ := h.exists_segment hfault hpacked
    rw [hbatch] at hp
    exact (hpairs p hp).1

/-- An epoch that serves batches opens as a stream that has them ahead. -/
theorem Serves.openStream {settings : Settings} {e : Epoch} {w : Workspace} {pairs : List Pair}
    {batches : List PackedBatch} (h : e.Serves settings w pairs batches) :
    ∃ stream, e.openStream.run w = (.ok stream, w) ∧ stream.Ahead batches ∧
      stream.total = batches.length ∧ stream.read = 0 := by
  refine ⟨BatchStream.ofBytes e.file (epochBytes batches) e.batches, ?_, ⟨rfl, ?_, h.sound⟩,
    h.count, rfl⟩
  · simp only [Epoch.openStream, BatchStream.openFile, Job.run_bind, Job.run_lift,
      Workspace.run_bytesOf, h.file]
    rfl
  · rw [epochBytes_eq]
    exact Bytes.StandsAt.whole _

end Epoch

end Bitext
