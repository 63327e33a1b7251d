/-
What each stage of a pass leaves on the disk.

A build adds the blob's file or nothing.  A packing deletes the blob, whatever comes of it,
and adds the epoch's file when it goes through; so an epoch that was prepared has cost one
file, and one that could not be prepared none, at whatever stage it failed.  A stream takes
the file of its epoch over and deletes it at its end, at its first fault, or when it is
dropped before that.
-/
import Bitext.Proofs.Corpus
import Bitext.Proofs.Disk.Temporary

namespace Bitext

open Disk (Keeps Gains)

variable {w after : Workspace} {place : Location}

/-! ### Builds -/

/-- **A build adds the blob's file, or it keeps the entries.** -/
theorem Build.index_keeps_or_gains {settings : Settings} {files : FileSet}
    {result : Except Fault BuiltIndex} (h : (index settings files).run w = (result, after))
    (hfresh : w.disk.Fresh) (hplace : w.disk.folderAlong settings.tempDir.steps = .ok place) :
    match result with
    | .ok built => Gains place BlobWriter.ending w.disk after.disk built.blob.file.location
    | .error _ => w.disk.Keeps after.disk := by
  cases hcreate : w.disk.createTemporary settings.tempDir BlobWriter.ending with
  | mk made disk =>
      have hmade := Disk.createTemporary_keeps_or_gains hcreate hfresh hplace
      cases made with
      | error reason =>
          obtain ⟨fault, left, hrun, hdisk⟩ := run_index_of_uncreated hcreate
          obtain ⟨rfl, rfl⟩ := Prod.mk.inj (h.symm.trans hrun)
          rw [hdisk]
          exact hmade
      | ok file =>
          cases hgather : (gather settings files (.ofWriter (.ofFile file))).run
              (opened settings files w disk) with
          | mk gathered read =>
              cases gathered with
              | error fault =>
                  obtain ⟨left, hrun, hdisk⟩ := run_index_of_unread hcreate hgather
                  obtain ⟨rfl, rfl⟩ := Prod.mk.inj (h.symm.trans hrun)
                  rw [hdisk]
                  exact hmade.erase hfresh
              | ok found =>
                  obtain ⟨full, t⟩ := found
                  obtain ⟨left, hrun, hdisk⟩ := run_index_of_read hcreate hgather
                  obtain ⟨rfl, rfl⟩ := Prod.mk.inj (h.symm.trans hrun)
                  rw [hdisk]
                  exact hmade.put hfresh full.writer.bytes

/-! ### Packings -/

/-- **A packing deletes the blob, and adds the epoch's file if it goes through.**  The index may
be any, also one whose offsets lead nowhere. -/
theorem Epoch.pack_keeps_or_gains {σ : Type} {budget : Nat} {dice : Dice σ} {s : σ}
    {built : BuiltIndex} {folder : Path} {result : Except Fault Epoch}
    (h : (pack budget dice s built folder).run w = (result, after)) (hfresh : w.disk.Fresh)
    (hplace : w.disk.folderAlong folder.steps = .ok place) :
    match result with
    | .ok e => w.disk.isFile built.blob.file.location = true →
        Gains place ending (w.disk.erase built.blob.file.location) after.disk e.file.location
    | .error _ => (w.disk.erase built.blob.file.location).Keeps after.disk := by
  cases hcreate : w.disk.createTemporary folder ending with
  | mk made disk =>
      have hmade := Disk.createTemporary_keeps_or_gains hcreate hfresh hplace
      cases made with
      | error reason =>
          simp only [pack, BuiltIndex.discard, Blob.discard, Job.run_bind, Job.run_lift,
            Workspace.run_newTemporary, hcreate, Workspace.run_discard, Job.run_throw] at h
          obtain ⟨rfl, rfl⟩ := Prod.mk.inj h
          exact hmade.erase _
      | ok file =>
          cases hfault : (Packing.all dice built.blob budget built.index s).fault with
          | some fault =>
              simp only [pack, BuiltIndex.discard, Blob.discard, Job.run_bind, Job.run_lift,
                Workspace.run_newTemporary, hcreate, Workspace.run_report,
                Workspace.run_reportAll, hfault, Workspace.run_discard, Job.run_throw] at h
              obtain ⟨rfl, rfl⟩ := Prod.mk.inj h
              exact (hmade.erase hfresh).erase _
          | none =>
              have hisFile : disk.isFile file.location = true := hmade.isFile hfresh
              simp only [pack, Job.run_bind, Job.run_lift, Workspace.run_newTemporary, hcreate,
                Workspace.run_report, Workspace.run_reportAll, hfault, Workspace.run_overwrite,
                if_pos hisFile] at h
              obtain ⟨rfl, rfl⟩ := Prod.mk.inj h
              intro hblob
              have hwritten := hmade.put hfresh
                (Packing.epochBytes (Packing.all dice built.blob budget built.index s).batches)
              have hother : file.location ≠ built.blob.file.location := by
                obtain ⟨bytes, hentry⟩ := Disk.exists_entry_of_isFile hblob
                exact (hmade.ne_of_mem hfresh _ hentry).symm
              have hthere : (disk.put file.location (.file (Packing.epochBytes
                  (Packing.all dice built.blob budget built.index s).batches))).isFile
                    built.blob.file.location = true := by
                rw [Disk.isFile, hwritten.node?_of_ne hother.symm]
                exact hblob
              show Gains place ending _ ((closeBlob built.blob).run _).2.disk _
              rw [disk_closeBlob]
              simp only [hthere, if_true]
              exact hwritten.erase_other hother

namespace Corpus

/-- **A prepared epoch has cost one file, and one that could not be prepared none.** -/
theorem prepare_keeps_or_gains {σ : Type} {corpus next : Corpus σ} {epoch : Nat}
    {result : Except Fault Epoch}
    (h : (corpus.prepare epoch).run w = ((result, next), after)) (hfresh : w.disk.Fresh)
    (hplace : w.disk.folderAlong corpus.settings.tempDir.steps = .ok place) :
    next.settings = corpus.settings ∧
      match result with
      | .ok e => Gains place Epoch.ending w.disk after.disk e.file.location
      | .error _ => w.disk.Keeps after.disk := by
  cases hindex : (Build.index corpus.settings corpus.files).run (begun epoch w) with
  | mk indexed built =>
      have hbuilt := Build.index_keeps_or_gains (w := begun epoch w) hindex hfresh hplace
      cases indexed with
      | error fault =>
          rw [run_prepare_of_error hindex] at h
          cases h
          exact ⟨rfl, hbuilt⟩
      | ok index =>
          have hmiddle : built.disk.folderAlong corpus.settings.tempDir.steps = .ok place := by
            rw [Disk.folderAlong_eq hbuilt.agreesOnGiven]
            exact hplace
          rw [run_prepare_of_ok hindex] at h
          cases hpack : (Epoch.pack corpus.settings.tokenBudget corpus.generator.dice
              (corpus.generator.ofEpoch corpus.baseSeed epoch) index corpus.settings.tempDir).run
              (corpus.summed index built) with
          | mk packed last =>
              have hpacked := Epoch.pack_keeps_or_gains (w := corpus.summed index built) hpack
                (hbuilt.fresh hfresh) hmiddle
              have hkept : w.disk.Keeps (built.disk.erase index.blob.file.location) :=
                hbuilt.erase hfresh
              rw [hpack] at h
              cases h
              refine ⟨rfl, ?_⟩
              cases result with
              | error fault => exact hkept.trans hpacked
              | ok e => exact hkept.gains (hpacked (hbuilt.isFile hfresh))

end Corpus

/-! ### Streams -/

namespace BatchStream

variable {stream : BatchStream}

/-- The disk after a stream has let go of its file. -/
def released (stream : BatchStream) (disk : Disk) : Disk :=
  if stream.finished then disk else disk.erase stream.file.location

/-- The file of a stream that has not ended is there. -/
def HasFile (stream : BatchStream) (disk : Disk) : Prop :=
  stream.finished = false → disk.isFile stream.file.location = true

theorem run_finish (h : stream.HasFile w.disk) :
    stream.finish.run w
      = ({ stream with finished := true }, { w with disk := stream.released w.disk }) := by
  cases hfinished : stream.finished with
  | true =>
      have hsame : { stream with finished := true } = stream := by rw [← hfinished]
      simp only [finish, released, hfinished, if_true, hsame]
      rfl
  | false =>
      have hfile := h hfinished
      unfold Disk.isFile at hfile
      simp only [finish, released, hfinished, Bool.false_eq_true, if_false, Work.run_bind,
        Workspace.run_delete, Disk.remove]
      split at hfile
      · rename_i bytes hnode
        rw [hnode]
        rfl
      · cases hfile

theorem disk_drop (h : stream.HasFile w.disk) :
    (stream.drop.run w).2.disk = stream.released w.disk := by
  simp only [drop, Work.run_bind, run_finish h]
  rfl

/-- The stream goes on and has left the disk alone, or it has ended and let go of its file. -/
def GoesOn (stream last : BatchStream) (w after : Workspace) : Prop :=
  stream.finished = false ∧ last.finished = false ∧ last.file = stream.file ∧ after.disk = w.disk

/-- The stream has ended and let go of its file. -/
def HasEnded (stream last : BatchStream) (w after : Workspace) : Prop :=
  last.finished = true ∧ after.disk = stream.released w.disk

/-- **A stream goes on exactly when it hands out a batch.** -/
theorem next_goesOn_or_hasEnded (h : stream.HasFile w.disk) :
    ∃ result last after, stream.next.run w = ((result, last), after) ∧
      ((∃ batch, result = some (.ok batch)) ∧ stream.GoesOn last w after ∨
        (∀ batch, result ≠ some (.ok batch)) ∧ stream.HasEnded last w after) := by
  cases hfinished : stream.finished with
  | true =>
      refine ⟨none, stream, w, next_of_finished hfinished w, .inr ⟨by simp, hfinished, ?_⟩⟩
      rw [released, hfinished, if_pos rfl]
  | false =>
      cases hdecode : BatchRecord.decode stream.bytes stream.position with
      | error fault =>
          have hreported : stream.HasFile
              ((Workspace.report (.damagedEpoch stream.file.text fault)).run w).2.disk := h
          refine ⟨some (.error ⟨.record fault,
              [.readingBatch (stream.read + 1) stream.file.text]⟩),
            { stream with finished := true },
            ⟨stream.released w.disk, w.log.push (.damagedEpoch stream.file.text fault)⟩, ?_,
            .inr ⟨by simp, rfl, rfl⟩⟩
          simp only [next, hfinished, hdecode, Bool.false_eq_true, if_false, Work.run_bind,
            run_finish hreported]
          rfl
      | ok found =>
          cases found with
          | none =>
              refine ⟨none, { stream with finished := true },
                { w with disk := stream.released w.disk }, ?_, .inr ⟨by simp, rfl, rfl⟩⟩
              simp only [next, hfinished, hdecode, Bool.false_eq_true, if_false, Work.run_bind,
                run_finish h]
              rfl
          | some found =>
              obtain ⟨batch, position⟩ := found
              obtain ⟨reportAt, hadvance⟩ := advance_eq stream position
              refine ⟨some (.ok batch), (stream.advance position).2,
                { w with log := w.log ++ (stream.advance position).1.toList }, ?_,
                .inl ⟨⟨batch, rfl⟩, hfinished, ?_, ?_, rfl⟩⟩
              · simp only [next, hfinished, hdecode, Bool.false_eq_true, if_false, Work.run_bind,
                  Workspace.run_reportAll]
                rfl
              · rw [hadvance]
                exact hfinished
              · rw [hadvance]

theorem GoesOn.hasFile {last : BatchStream} (h : stream.GoesOn last w after)
    (hfile : stream.HasFile w.disk) : last.HasFile after.disk := by
  obtain ⟨hopen, -, hsame, hdisk⟩ := h
  intro _
  rw [hsame, hdisk]
  exact hfile hopen

theorem HasEnded.hasFile {last : BatchStream} (h : stream.HasEnded last w after) :
    last.HasFile after.disk := by
  intro hopen
  rw [h.1] at hopen
  cases hopen

theorem GoesOn.released_eq {last : BatchStream} (h : stream.GoesOn last w after) :
    last.released after.disk = stream.released w.disk := by
  obtain ⟨hopen, hlast, hsame, hdisk⟩ := h
  rw [released, released, hopen, hlast, hsame, hdisk]

theorem HasEnded.released_eq {last : BatchStream} (h : stream.HasEnded last w after) :
    last.released after.disk = stream.released w.disk := by
  rw [released, h.1, if_pos rfl, h.2]

/-- However much is read of a stream, its file is there until it lets go of it. -/
theorem takeResults_released (n : Nat) :
    ∀ {stream : BatchStream} {w : Workspace}, stream.HasFile w.disk →
      ∃ results last after, (stream.takeResults n).run w = ((results, last), after) ∧
        last.HasFile after.disk ∧ last.released after.disk = stream.released w.disk := by
  induction n with
  | zero =>
      intro stream w h
      exact ⟨[], stream, w, rfl, h, rfl⟩
  | succ n ih =>
      intro stream w h
      obtain ⟨result, later, middle, hnext, hstep⟩ := next_goesOn_or_hasEnded h
      have hkeeps : later.HasFile middle.disk ∧
          later.released middle.disk = stream.released w.disk := by
        rcases hstep with ⟨-, hgoes⟩ | ⟨-, hended⟩
        · exact ⟨hgoes.hasFile h, hgoes.released_eq⟩
        · exact ⟨hended.hasFile, hended.released_eq⟩
      cases result with
      | none =>
          refine ⟨[], later, middle, ?_, hkeeps⟩
          simp only [takeResults, Work.run_bind, hnext]
          rfl
      | some found =>
          obtain ⟨results, last, after, hrest, hfile, hreleased⟩ := ih hkeeps.1
          refine ⟨found :: results, last, after, ?_, hfile, hreleased.trans hkeeps.2⟩
          simp only [takeResults, Work.run_bind, hnext, hrest]
          rfl

/-- A stream that is drained has let go of its file. -/
theorem disk_drain (h : stream.HasFile w.disk) :
    (stream.drain.run w).2.disk = stream.released w.disk := by
  obtain ⟨results, last, after, htake, hfile, hreleased⟩ :=
    takeResults_released (stream.bytes.size + 2) h
  rw [← hreleased, ← disk_drop hfile]
  simp only [drain, Work.run_bind, htake]
  rfl

end BatchStream

/-! ### Epochs that are opened -/

/-- An epoch whose file is there opens as a stream that takes the file over. -/
theorem Epoch.openStream_of_isFile {e : Epoch} (h : w.disk.isFile e.file.location = true) :
    ∃ stream, e.openStream.run w = (.ok stream, w) ∧ stream.file = e.file ∧
      stream.finished = false := by
  obtain ⟨bytes, hbytes⟩ : ∃ bytes, w.disk.bytesAt e.file.location = .ok bytes := by
    unfold Disk.isFile at h
    unfold Disk.bytesAt
    split at h
    · rename_i bytes hnode
      exact ⟨bytes, by rw [hnode]⟩
    · cases h
  refine ⟨.ofBytes e.file bytes e.batches, ?_, rfl, rfl⟩
  simp only [openStream, BatchStream.openFile, Job.run_bind, Job.run_lift, Workspace.run_bytesOf,
    hbytes]
  rfl

/-- **A stream over the next epoch has cost one file, and one that could not be had none.** -/
theorem Corpus.iterate_keeps_or_gains {σ : Type} {corpus next : Corpus σ}
    {result : Except Fault BatchStream}
    (h : corpus.iterate.run w = ((result, next), after)) (hfresh : w.disk.Fresh)
    (hplace : w.disk.folderAlong corpus.settings.tempDir.steps = .ok place) :
    next.settings = corpus.settings ∧
      match result with
      | .ok stream => stream.finished = false ∧
          Gains place Epoch.ending w.disk after.disk stream.file.location
      | .error _ => w.disk.Keeps after.disk := by
  cases hprepare : (corpus.prepare corpus.nextEpoch).run w with
  | mk prepared middle =>
      obtain ⟨prepared, counted⟩ := prepared
      obtain ⟨hsettings, hprepared⟩ := prepare_keeps_or_gains hprepare hfresh hplace
      cases prepared with
      | error fault =>
          rw [run_iterate_of_error hprepare] at h
          cases h
          exact ⟨hsettings, hprepared⟩
      | ok e =>
          obtain ⟨stream, hopen, hrun⟩ := run_iterate_of_ok hprepare
          obtain ⟨opened, hopened, hfile, hunfinished⟩ :=
            Epoch.openStream_of_isFile (hprepared.isFile hfresh)
          rw [hopen] at hopened
          cases hopened
          rw [hrun] at h
          cases h
          refine ⟨hsettings, hunfinished, ?_⟩
          rw [hfile]
          exact hprepared

end Bitext
