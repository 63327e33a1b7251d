/-
What a build that succeeds has come to.

The blob's file is a temporary file, so it does not change what the paths of the corpus
lead to, and nothing else touches it while the files are read.  A build that succeeds
therefore holds what is kept of the line pairs that the files deliver on the disk on which
it was begun, in corpus order, and every offset of its index leads to its pair.
-/
import Bitext.Proofs.Build.Gather
import Bitext.Proofs.Disk
import Bitext.Proofs.Packing.Stored

namespace Bitext

/-! ### What is kept of a corpus -/

theorem FilePair.openReader_eq {disk other : Disk} (h : disk.AgreesOnGiven other)
    (files : FilePair) : files.openReader disk = files.openReader other := by
  unfold openReader openSide
  rw [Disk.find_eq h, Disk.find_eq h]

theorem FilePair.Faulty.of_agreesOnGiven {disk other : Disk} {files : FilePair}
    (hfaulty : files.Faulty disk) (h : disk.AgreesOnGiven other) : files.Faulty other := by
  have hopen := FilePair.openReader_eq h files
  cases hfaulty with
  | unopened hfault => exact .unopened (hopen ▸ hfault)
  | unread hreader hfault => exact .unread (hopen ▸ hreader) hfault
  | mismatched hreader hfound hgroups => exact .mismatched (hopen ▸ hreader) hfound hgroups

namespace Build

variable {settings : Settings} {disk : Disk} {pairs : List FilePair}

/-- What is kept of the line pairs that file pairs deliver, in corpus order. -/
def kept (settings : Settings) (disk : Disk) (pairs : List FilePair) : List Pair :=
  (pairs.flatMap (·.delivered disk)).filterMap (Admission.kept settings)

theorem kept_eq {other : Disk} (h : disk.AgreesOnGiven other) :
    kept settings disk pairs = kept settings other pairs := by
  unfold kept
  congr 1
  refine List.flatMap_congr fun files _ => ?_
  rw [FilePair.delivered, FilePair.delivered, FilePair.openReader_eq h]

theorem ofFiles_eq {other : Disk} (h : disk.AgreesOnGiven other) (files : FilePair) :
    Harvest.ofFiles settings disk .empty files = Harvest.ofFiles settings other .empty files := by
  rw [Harvest.ofFiles, Harvest.ofFiles, FilePair.openReader_eq h]

theorem admitted_eq {other : Disk} (h : disk.AgreesOnGiven other) :
    admitted settings disk pairs = admitted settings other pairs := by
  unfold admitted harvests
  congr 1
  exact List.map_congr_left fun files _ => ofFiles_eq h files

theorem admitted_of_sound (settings : Settings) (hsound : ∀ files ∈ pairs, ¬files.Faulty disk) :
    (admitted settings disk pairs).map (·.pair) = kept settings disk pairs ∧
      (tally settings disk pairs).accepted = (admitted settings disk pairs).length := by
  induction pairs with
  | nil => exact ⟨rfl, rfl⟩
  | cons files rest ih =>
      obtain ⟨hpairs, haccepted⟩ :=
        Harvest.ofFiles_admitted (outcome_of_sound settings (hsound files (by simp)))
      obtain ⟨hrest, hcount⟩ :=
        ih fun other hother => hsound other (List.mem_cons_of_mem files hother)
      refine ⟨?_, ?_⟩
      · rw [admitted_cons, List.map_append, hpairs, hrest, kept, kept, List.flatMap_cons,
          List.filterMap_append]
      · rw [admitted_cons, List.length_append, ← haccepted, ← hcount]
        rfl

theorem of_mem_admitted {p : Admitted} (h : p ∈ admitted settings disk pairs) :
    p.Accurate settings ∧ p.pair.OnOneLine ∧ Admission.groupsMatch p.pair = true := by
  obtain ⟨files, -, hp⟩ := mem_admitted_iff.mp h
  exact Harvest.of_mem_ofFiles hp

end Build

/-! ### The blob's file -/

namespace BlobWriter

theorem run_create (folder : Path) (w : Workspace) :
    (create folder).run w
      = (match w.disk.createTemporary folder ending with
        | (.ok file, disk) => (.ok (ofFile file), { w with disk })
        | (.error reason, disk) =>
            (.error (Job.creationFault (.creatingBlob folder.text) folder ending reason),
              { w with disk })) := by
  simp only [create, Job.run_bind, Job.run_lift, Workspace.run_newTemporary]
  cases w.disk.createTemporary folder ending with
  | mk result disk => cases result <;> rfl

/-- A writer whose file is there leaves a blob of what it has written. -/
theorem run_finish (writer : BlobWriter) {w : Workspace}
    (hfile : w.disk.isFile writer.file.location = true) (hne : writer.file.location ≠ []) :
    writer.finish.run w
      = (.ok ⟨writer.file, if writer.position = 0 then .empty else writer.bytes, writer.records⟩,
        { w with disk := w.disk.put writer.file.location (.file writer.bytes) }) := by
  simp only [finish, Job.run_bind, Job.run_lift, Workspace.run_overwrite, if_pos hfile]
  by_cases hzero : writer.position = 0
  · rw [if_pos hzero, if_pos hzero]
    rfl
  · have hbytes : (w.disk.put writer.file.location (.file writer.bytes)).bytesAt
        writer.file.location = .ok writer.bytes := by
      rw [Disk.bytesAt, Disk.node?_put_self hne]
    simp only [if_neg hzero, Job.run_bind, Job.run_lift, Workspace.run_bytesOf, hbytes]
    rfl

end BlobWriter

/-! ### The index -/

/-- A built index that was made by writing the given pairs, all of them as admission leaves
them, to a new file. -/
structure BuiltIndex.MadeOf (settings : Settings) (built : BuiltIndex) (pairs : List Admitted) :
    Prop where
  index : built.index = (Store.filled built.blob.file pairs).index
  bytes : built.blob.bytes = (Store.filled built.blob.file pairs).writer.bytes
  records : built.blob.records = pairs.length
  accepted : built.tally.accepted = pairs.length
  drawn : Disk.IsDrawn built.blob.file.location BlobWriter.ending
  fits : ∀ p ∈ pairs, PairRecord.Fits p
  accurate : ∀ p ∈ pairs, p.Accurate settings
  onOneLine : ∀ p ∈ pairs, p.pair.OnOneLine
  groupsMatch : ∀ p ∈ pairs, Admission.groupsMatch p.pair = true

/-- A built index that leads to the given pairs, all of them as they should be. -/
structure BuiltIndex.Offers (settings : Settings) (built : BuiltIndex)
    (entries : List (Nat × Admitted)) : Prop where
  stored : ∃ store : Store, store.Holds entries ∧ built.index = store.index ∧
    built.blob.bytes = store.writer.bytes
  accurate : ∀ entry ∈ entries, entry.2.Accurate settings
  onOneLine : ∀ entry ∈ entries, entry.2.pair.OnOneLine
  accepted : built.tally.accepted = entries.length
  drawn : Disk.IsDrawn built.blob.file.location BlobWriter.ending

/-- Pairs that were written to a new file are offered from where they were placed. -/
theorem BuiltIndex.MadeOf.offers {settings : Settings} {built : BuiltIndex} {pairs : List Admitted}
    (h : built.MadeOf settings pairs) : built.Offers settings (Store.placed 0 pairs) where
  stored := ⟨_, Store.holds_filled built.blob.file h.fits, h.index, h.bytes⟩
  accurate _ hentry := h.accurate _ (Store.mem_of_mem_placed hentry)
  onOneLine _ hentry := h.onOneLine _ (Store.mem_of_mem_placed hentry)
  accepted := by rw [h.accepted, Store.length_placed]
  drawn := h.drawn

namespace Build

/-- The workspace in which the files are read, with the blob's file on its disk. -/
def opened (settings : Settings) (files : FileSet) (w : Workspace) (disk : Disk) : Workspace :=
  ⟨disk, w.log.push (.buildingIndex files.size settings.workers)⟩

section

variable {settings : Settings} {files : FileSet} {w after : Workspace} {built : BuiltIndex}
  {file : TemporaryFile} {disk : Disk}

/-- Without a file for the blob nothing is read. -/
theorem run_index_of_uncreated {reason : OsError}
    (hcreate : w.disk.createTemporary settings.tempDir BlobWriter.ending
      = (.error reason, disk)) :
    ∃ fault after, (index settings files).run w = (.error fault, after) ∧ after.disk = disk := by
  simp only [index, Job.run_bind, Job.run_lift, Workspace.run_report, BlobWriter.run_create,
    hcreate]
  exact ⟨_, _, rfl, rfl⟩

/-- A reading that fails takes the blob's file with it. -/
theorem run_index_of_unread {fault : Fault} {read : Workspace}
    (hcreate : w.disk.createTemporary settings.tempDir BlobWriter.ending = (.ok file, disk))
    (hgather : (gather settings files (.ofWriter (.ofFile file))).run (opened settings files w disk)
      = (.error fault, read)) :
    ∃ after, (index settings files).run w = (.error fault, after) ∧
      after.disk = disk.erase file.location := by
  have hleft : read.disk = disk := by
    have hdisk := disk_gather settings files (.ofWriter (.ofFile file))
      (opened settings files w disk)
    rwa [hgather] at hdisk
  rw [opened] at hgather
  simp only [index, Job.run_bind, Job.run_lift, Workspace.run_report, Job.run_attempt,
    BlobWriter.run_create, hcreate, hgather, Job.run_throw, BlobWriter.discard,
    Workspace.run_discard, hleft]
  exact ⟨_, rfl, rfl⟩

/-- The index is what was read, and the blob's file is what was written. -/
theorem run_index_of_read {full : Store} {t : Tally} {read : Workspace}
    (hcreate : w.disk.createTemporary settings.tempDir BlobWriter.ending = (.ok file, disk))
    (hgather : (gather settings files (.ofWriter (.ofFile file))).run (opened settings files w disk)
      = (.ok (full, t), read)) :
    ∃ after, (index settings files).run w
        = (.ok ⟨⟨file, if full.writer.position = 0 then .empty else full.writer.bytes,
            full.writer.records⟩, full.index, t⟩, after) ∧
      after.disk = disk.put file.location (.file full.writer.bytes) := by
  obtain ⟨hdrawn, hfile, -⟩ := Disk.of_createTemporary_ok hcreate
  obtain ⟨-, hwritten, -⟩ := gather_ok_iff.mp (congrArg Prod.fst hgather)
  have hsame : full.writer.file = file := by
    obtain ⟨-, rfl⟩ := (Store.appendAll_ok_iff _).mp hwritten
    rw [Store.file_grownAll]
    rfl
  have hleft : read.disk = disk := by
    have hdisk := disk_gather settings files (.ofWriter (.ofFile file))
      (opened settings files w disk)
    rwa [hgather] at hdisk
  have hisFile : read.disk.isFile full.writer.file.location = true := by
    rw [hsame, hleft, Disk.isFile, hfile]
  have hne : full.writer.file.location ≠ [] := by
    rw [hsame]
    exact hdrawn.ne_nil
  rw [opened] at hgather
  simp only [index, Job.run_bind, Job.run_lift, Workspace.run_report, Job.run_attempt,
    BlobWriter.run_create, hcreate, hgather, BlobWriter.run_finish _ hisFile hne, hsame, hleft]
  exact ⟨_, rfl, rfl⟩

/-- A build that succeeds has gone through a new file for the blob and a reading into it. -/
theorem exists_of_index_ok (h : (index settings files).run w = (.ok built, after)) :
    ∃ file disk full, w.disk.createTemporary settings.tempDir BlobWriter.ending = (.ok file, disk) ∧
      (∀ pair ∈ files.pairs, ¬pair.Faulty disk) ∧
      (Store.ofWriter (.ofFile file)).appendAll (admitted settings disk files.pairs) = .ok full ∧
      built = ⟨⟨file, if full.writer.position = 0 then .empty else full.writer.bytes,
        full.writer.records⟩, full.index, tally settings disk files.pairs⟩ ∧
      after.disk = disk.put file.location (.file full.writer.bytes) := by
  cases hcreate : w.disk.createTemporary settings.tempDir BlobWriter.ending with
  | mk result disk =>
      cases result with
      | error reason =>
          obtain ⟨fault, left, hfault, -⟩ := run_index_of_uncreated hcreate
          rw [h] at hfault
          cases hfault
      | ok file =>
          cases hgather : (gather settings files (.ofWriter (.ofFile file))).run
              (opened settings files w disk) with
          | mk result read =>
              cases result with
              | error fault =>
                  obtain ⟨left, hfault, -⟩ := run_index_of_unread hcreate hgather
                  rw [h] at hfault
                  cases hfault
              | ok found =>
                  obtain ⟨full, t⟩ := found
                  obtain ⟨hsound, hwritten, rfl⟩ := gather_ok_iff.mp (congrArg Prod.fst hgather)
                  obtain ⟨written, hindex, hdisk⟩ := run_index_of_read hcreate hgather
                  obtain ⟨hbuilt, rfl⟩ := Prod.mk.inj (h.symm.trans hindex)
                  exact ⟨file, disk, full, rfl, hsound, hwritten, Except.ok.inj hbuilt, hdisk⟩

/-- A build succeeds when there can be a file for the blob, no file pair is faulty and the
admitted pairs fit their records. -/
theorem exists_index_ok
    (hcreate : ∃ file disk, w.disk.createTemporary settings.tempDir BlobWriter.ending
      = (.ok file, disk))
    (hsound : ∀ pair ∈ files.pairs, ¬pair.Faulty w.disk)
    (hfits : ∀ p ∈ admitted settings w.disk files.pairs, PairRecord.Fits p) :
    ∃ built after, (index settings files).run w = (.ok built, after) := by
  obtain ⟨file, disk, hcreate⟩ := hcreate
  have hagrees := Disk.agreesOnGiven_of_createTemporary hcreate
  rw [← admitted_eq hagrees] at hfits
  obtain ⟨full, hwritten⟩ := Store.appendAll_of_fits _ (.ofWriter (.ofFile file)) hfits
  have hsound : ∀ pair ∈ files.pairs, ¬pair.Faulty disk := by
    intro pair hpair hfaulty
    exact hsound pair hpair (hfaulty.of_agreesOnGiven hagrees)
  cases hgather : (gather settings files (.ofWriter (.ofFile file))).run
      (opened settings files w disk) with
  | mk result read =>
      have hread := (gather_ok_iff (w := opened settings files w disk)).mpr ⟨hsound, hwritten, rfl⟩
      rw [hgather] at hread
      obtain rfl : result = _ := hread
      obtain ⟨after, hindex, -⟩ := run_index_of_read hcreate hgather
      exact ⟨_, after, hindex⟩

/-- The index of the two files can be built, whatever has been logged. -/
theorem exists_index_doubled (log : Array Event) :
    ∃ built after, (index twoAtOnce ⟨⟨""⟩, doubled⟩).run ⟨twoFiles, log⟩ = (.ok built, after) := by
  refine exists_index_ok (Disk.createTemporary_ok_iff.mpr ⟨?_, ?_, rfl⟩) not_faulty_doubled
    fits_admitted_doubled
  · decide
  · exact ⟨[.given "tmp"], by cbv⟩

theorem kept_doubled :
    kept twoAtOnce twoFiles doubled = [⟨"x", "x"⟩, ⟨"u", "u"⟩, ⟨"v", "v"⟩] := by
  rw [← (admitted_of_sound twoAtOnce not_faulty_doubled).1, admitted_doubled]
  rfl

/-- After a build that succeeds there is room for another temporary file in the same folder,
unless the request for it is refused. -/
theorem createTemporary_of_index_ok (h : (index settings files).run w = (.ok built, after))
    {ending : String}
    (hpath : (settings.tempDir.temporary ending).defect? = none)
    (hgranted : w.disk.refuses (w.disk.drawn + 1) = false) :
    ∃ file disk, after.disk.createTemporary settings.tempDir ending = (.ok file, disk) := by
  obtain ⟨file, disk, full, hcreate, -, -, -, hafter⟩ := exists_of_index_ok h
  obtain ⟨hdrawn, -, -⟩ := Disk.of_createTemporary_ok hcreate
  have hcounted := Disk.drawn_of_createTemporary hcreate
  have hagrees := Disk.agreesOnGiven_of_createTemporary hcreate
  obtain ⟨-, ⟨place, hplace⟩, -⟩ := Disk.createTemporary_ok_iff.mp ⟨file, disk, hcreate⟩
  have hfolder : after.disk.AgreesOnGiven w.disk := by
    rw [hafter]
    exact (Disk.agreesOnGiven_put disk hdrawn _).trans hagrees
  refine Disk.createTemporary_ok_iff.mpr ⟨hpath, ⟨place, ?_⟩, ?_⟩
  · rw [Disk.folderAlong_eq hfolder, hplace]
  · rw [hafter]
    show disk.refuses disk.drawn = false
    rw [hcounted.1, hcounted.2, hgranted]

/-- A build that succeeds is made of the admitted pairs, in corpus order. -/
theorem madeOf_admitted_of_index_ok (h : (index settings files).run w = (.ok built, after)) :
    built.MadeOf settings (admitted settings w.disk files.pairs) ∧
      (admitted settings w.disk files.pairs).map (·.pair) = kept settings w.disk files.pairs := by
  obtain ⟨file, disk, full, hcreate, hsound, hwritten, rfl, -⟩ := exists_of_index_ok h
  obtain ⟨hdrawn, -, -⟩ := Disk.of_createTemporary_ok hcreate
  obtain ⟨hpairs, haccepted⟩ := admitted_of_sound settings hsound
  obtain ⟨hfits, rfl⟩ := (Store.appendAll_ok_iff _).mp hwritten
  have hagrees := Disk.agreesOnGiven_of_createTemporary hcreate
  rw [← admitted_eq hagrees, ← kept_eq hagrees]
  refine ⟨?_, hpairs⟩
  exact {
    index := rfl
    bytes := (Store.holds_filled file hfits).bytes_eq
    records := Store.records_filled file _
    accepted := haccepted
    drawn := hdrawn
    fits := hfits
    accurate := fun p hp => (of_mem_admitted hp).1
    onOneLine := fun p hp => (of_mem_admitted hp).2.1
    groupsMatch := fun p hp => (of_mem_admitted hp).2.2 }

/-- **A build that succeeds is made of what is kept of the corpus.** -/
theorem madeOf_of_index_ok (h : (index settings files).run w = (.ok built, after)) :
    ∃ pairs, built.MadeOf settings pairs ∧
      pairs.map (·.pair) = kept settings w.disk files.pairs :=
  ⟨_, madeOf_admitted_of_index_ok h⟩

/-- **A build that succeeds offers what is kept of the corpus.** -/
theorem of_index_ok (h : (index settings files).run w = (.ok built, after)) :
    ∃ entries, built.Offers settings entries ∧
      entries.map (·.2.pair) = kept settings w.disk files.pairs := by
  obtain ⟨pairs, hmade, hpairs⟩ := madeOf_of_index_ok h
  refine ⟨_, hmade.offers, ?_⟩
  rw [← hpairs, ← Store.map_placed pairs 0, List.map_map, Store.map_placed]
  rfl

end

end Build

end Bitext
