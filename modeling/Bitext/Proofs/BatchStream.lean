/-
An epoch file read to its end.

The records of an epoch file stand one behind the other and the end mark stands behind the
last one.  A stream that has read some of them is at the start of the next, so as long as
there are batches it hands out the next batch, and after them it ends.  What it reports on
the way does not change what it reads.
-/
import Bitext.BatchStream
import Bitext.Packing
import Bitext.Proofs.Record.BatchRecord
import Bitext.Proofs.Workspace

namespace Bitext

namespace Packing

open Bytes (StandsAt)

/-- The bytes of some batches and of the end mark behind them. -/
def closed : List PackedBatch → ByteArray
  | [] => BatchRecord.endBytes
  | packed :: rest => packed.bytes ++ closed rest

theorem epochBytes_eq (batches : List PackedBatch) : epochBytes batches = closed batches := by
  have hfold : ∀ (l : List PackedBatch) (front : ByteArray),
      l.foldl (fun bytes packed => bytes ++ packed.bytes) front ++ BatchRecord.endBytes
        = front ++ closed l := by
    intro l
    induction l with
    | nil => intro front; rfl
    | cons packed rest ih =>
        intro front
        rw [List.foldl_cons, ih, closed, ByteArray.append_assoc]
  rw [epochBytes, hfold, ByteArray.empty_append]

/-- A batch that reads back as it was packed. -/
structure PackedBatch.Sound (packed : PackedBatch) : Prop where
  fits : BatchRecord.Fits packed.batch
  bytes : packed.bytes = BatchRecord.bytes packed.batch
  pairs : packed.batch.pairs ≠ []
  onOneLine : ∀ p ∈ packed.batch.pairs, p.OnOneLine

theorem PackedBatch.Sound.decode {packed : PackedBatch} (h : packed.Sound) {file : ByteArray}
    {position : Nat} (hstands : StandsAt file position packed.bytes) :
    BatchRecord.decode file position
      = .ok (some (packed.batch, position + packed.bytes.size)) := by
  rw [h.bytes] at hstands ⊢
  exact BatchRecord.decode_of_standsAt hstands h.fits h.pairs h.onOneLine

/-- There are not more batches than bytes. -/
theorem length_le_size_closed {batches : List PackedBatch} (h : ∀ packed ∈ batches, packed.Sound) :
    batches.length ≤ (closed batches).size := by
  induction batches with
  | nil => exact Nat.zero_le _
  | cons packed rest ih =>
      have hrest := ih fun later hlater => h later (List.mem_cons_of_mem packed hlater)
      have hpos : 1 ≤ packed.bytes.size := by
        rw [(h packed (by simp)).bytes, BatchRecord.bytes, ByteArray.size_append, Bytes.size_word]
        omega
      rw [closed, ByteArray.size_append, List.length_cons]
      omega

end Packing

namespace BatchStream

open Packing (closed)
open Bytes (StandsAt)

variable {stream : BatchStream}

/-- The stream has the records of some batches before it, and the end mark behind them. -/
structure Ahead (stream : BatchStream) (batches : List Packing.PackedBatch) : Prop where
  finished : stream.finished = false
  stands : StandsAt stream.bytes stream.position (closed batches)
  sound : ∀ packed ∈ batches, packed.Sound

/-! ### One step -/

theorem advance_eq (stream : BatchStream) (position : Nat) :
    ∃ reportAt, (stream.advance position).2
      = { stream with position := position, read := stream.read + 1, reportAt := reportAt } := by
  unfold advance
  simp only
  split
  · exact ⟨_, rfl⟩
  · exact ⟨stream.reportAt, rfl⟩

theorem next_of_batch {batch : Batch} {position : Nat} (hfinished : stream.finished = false)
    (hdecode : BatchRecord.decode stream.bytes stream.position = .ok (some (batch, position)))
    (w : Workspace) :
    ∃ after, stream.next.run w
      = ((some (.ok batch), (stream.advance position).2), after) := by
  simp only [next, hfinished, hdecode, Bool.false_eq_true, if_false]
  exact ⟨_, rfl⟩

theorem finish_eq (hfinished : stream.finished = false) (w : Workspace) :
    ∃ after, stream.finish.run w = ({ stream with finished := true }, after) := by
  simp only [finish, hfinished, Bool.false_eq_true, if_false, Work.run_bind]
  cases ((Workspace.delete stream.file).run w).1 with
  | none => exact ⟨_, rfl⟩
  | some reason => exact ⟨_, rfl⟩

theorem next_of_end (hfinished : stream.finished = false)
    (hdecode : BatchRecord.decode stream.bytes stream.position = .ok none) (w : Workspace) :
    ∃ after, stream.next.run w = ((none, { stream with finished := true }), after) := by
  simp only [next, hfinished, hdecode, Bool.false_eq_true, if_false]
  obtain ⟨after, hfinish⟩ := finish_eq hfinished w
  simp only [Work.run_bind, hfinish]
  exact ⟨after, rfl⟩

theorem next_of_fault {fault : RecordFault} (hfinished : stream.finished = false)
    (hdecode : BatchRecord.decode stream.bytes stream.position = .error fault) (w : Workspace) :
    ∃ after, stream.next.run w
      = ((some (.error ⟨.record fault, [.readingBatch (stream.read + 1) stream.file.text]⟩),
          { stream with finished := true }), after) := by
  simp only [next, hfinished, hdecode, Bool.false_eq_true, if_false, Work.run_bind]
  obtain ⟨after, hfinish⟩ := finish_eq hfinished
    ((Workspace.report (.damagedEpoch stream.file.text fault)).run w).2
  simp only [hfinish]
  exact ⟨after, rfl⟩

theorem next_of_finished (hfinished : stream.finished = true) (w : Workspace) :
    stream.next.run w = ((none, stream), w) := by
  simp only [next, hfinished, if_true]
  rfl

theorem Ahead.next_cons {packed : Packing.PackedBatch} {rest : List Packing.PackedBatch}
    (h : stream.Ahead (packed :: rest)) (w : Workspace) :
    ∃ later after, stream.next.run w = ((some (.ok packed.batch), later), after) ∧
      later.Ahead rest ∧ later.read = stream.read + 1 ∧ later.total = stream.total := by
  have hdecode := (h.sound packed (by simp)).decode h.stands.left
  obtain ⟨after, hnext⟩ := next_of_batch h.finished hdecode w
  obtain ⟨reportAt, hadvance⟩ := advance_eq stream (stream.position + packed.bytes.size)
  rw [hadvance] at hnext
  refine ⟨_, after, hnext, ⟨h.finished, h.stands.right, ?_⟩, rfl, rfl⟩
  exact fun later hlater => h.sound later (List.mem_cons_of_mem packed hlater)

/-! ### Many steps -/

/-- **A stream hands out the batches that are ahead of it, counts them, and ends.** -/
theorem Ahead.takeResults (n : Nat) :
    ∀ {stream : BatchStream} {batches : List Packing.PackedBatch} (w : Workspace),
      stream.Ahead batches →
      ∃ last after, (stream.takeResults n).run w
          = (((batches.take n).map (.ok ·.batch), last), after) ∧
        last.read = stream.read + min n batches.length ∧ last.total = stream.total ∧
        (batches.length < n → last.finished = true) := by
  induction n with
  | zero =>
      intro stream batches w _
      exact ⟨stream, w, rfl, by simp, rfl, fun h => absurd h (Nat.not_lt_zero _)⟩
  | succ n ih =>
      intro stream batches w h
      cases batches with
      | nil =>
          obtain ⟨after, hnext⟩ := next_of_end h.finished (BatchRecord.decode_endBytes h.stands) w
          refine ⟨{ stream with finished := true }, after, ?_, by simp, rfl, fun _ => rfl⟩
          simp only [BatchStream.takeResults, Work.run_bind, hnext]
          rfl
      | cons packed rest =>
          obtain ⟨later, middle, hnext, hahead, hread, htotal⟩ := h.next_cons w
          obtain ⟨last, after, hrest, hlastRead, hlastTotal, hfinished⟩ := ih middle hahead
          refine ⟨last, after, ?_, ?_, by rw [hlastTotal, htotal], ?_⟩
          · simp only [BatchStream.takeResults, Work.run_bind, hnext, hrest]
            rfl
          · rw [hlastRead, hread, List.length_cons]
            omega
          · intro hless
            exact hfinished (by simpa using hless)

/-- Draining a stream gives all batches that are ahead of it. -/
theorem Ahead.drain {batches : List Packing.PackedBatch} (h : stream.Ahead batches)
    (w : Workspace) : (stream.drain.run w).1 = batches.map (.ok ·.batch) := by
  obtain ⟨last, after, htake, -, -, -⟩ := h.takeResults (stream.bytes.size + 2) w
  have hsize := Packing.length_le_size_closed h.sound
  have hinside := h.stands.le_size
  have hall : batches.take (stream.bytes.size + 2) = batches :=
    List.take_of_length_le (by omega)
  simp only [BatchStream.drain, Work.run_bind, htake, hall]
  rfl

end BatchStream

end Bitext
