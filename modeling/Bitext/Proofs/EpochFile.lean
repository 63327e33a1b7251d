/-
Epoch files, written and read back.

An epoch file is the records of its batches and the end mark.  A stream over such a file hands
out the batches, numbers them from one, and then has nothing more to hand out, whatever stands
behind the end mark.  The other way round, a stream that comes to its end without a fault has gone
through an epoch file: the bytes up to the end of the mark are what is written for the batches
that it has handed out.
-/
import Bitext.Proofs.BatchStream
import Bitext.Proofs.Record.Canonical

namespace Bitext

/-! ### The file of batches -/

namespace BatchRecord

/-- The bytes of an epoch file with the given batches, if all of them fit. -/
def encodeAll : List Batch → Except Fault ByteArray
  | [] => .ok endBytes
  | batch :: rest => do
      let first ← encode batch
      let others ← encodeAll rest
      return first ++ others

/-- The records of batches and the end mark behind them. -/
def fileOf : List Batch → ByteArray
  | [] => endBytes
  | batch :: rest => bytes batch ++ fileOf rest

theorem encodeAll_of_fits {batches : List Batch} (h : ∀ batch ∈ batches, Fits batch) :
    encodeAll batches = .ok (fileOf batches) := by
  induction batches with
  | nil => rfl
  | cons batch rest ih =>
      have hfirst := encode_ok_iff.mpr ⟨h batch (by simp), rfl⟩
      have hrest := ih fun later hlater => h later (List.mem_cons_of_mem batch hlater)
      rw [encodeAll, hfirst, hrest]
      rfl

/-- Batches whose bytes are those of an epoch file fit, and there is one file that they have. -/
theorem of_encodeAll_ok {batches : List Batch} {written : ByteArray}
    (h : encodeAll batches = .ok written) :
    (∀ batch ∈ batches, Fits batch) ∧ written = fileOf batches := by
  induction batches generalizing written with
  | nil => exact ⟨by simp, (Except.ok.inj h).symm⟩
  | cons batch rest ih =>
      obtain ⟨first, hfirst, h⟩ := exists_of_bind_ok h
      obtain ⟨others, hothers, h⟩ := exists_of_bind_ok h
      obtain ⟨hfits, rfl⟩ := encode_ok_iff.mp hfirst
      obtain ⟨hrest, rfl⟩ := ih hothers
      exact ⟨List.forall_mem_cons.mpr ⟨hfits, hrest⟩, (Except.ok.inj h).symm⟩

/-- From a position on a file reads as batches, and then it ends or there is a record that cannot
be read. -/
inductive Reads (file : ByteArray) : Nat → List Batch → Option RecordFault → Prop where
  | ends {position : Nat} : decode file position = .ok none → Reads file position [] none
  | breaks {position : Nat} {fault : RecordFault} :
      decode file position = .error fault → Reads file position [] (some fault)
  | batch {position next : Nat} {batch : Batch} {rest : List Batch} {fault : Option RecordFault} :
      decode file position = .ok (some (batch, next)) → Reads file next rest fault →
      Reads file position (batch :: rest) fault

/-- Batches that their records keep are read until the end mark comes. -/
theorem reads_of_standsAt {file : ByteArray} {position : Nat} {batches : List Batch}
    (h : Bytes.StandsAt file position (fileOf batches))
    (hbatches : ∀ batch ∈ batches, Storable batch) : Reads file position batches none := by
  induction batches generalizing position with
  | nil => exact .ends (decode_endBytes h)
  | cons batch rest ih =>
      have hbatch := hbatches batch (List.mem_cons_self ..)
      have hdecode := decode_eq_some_iff.mpr ⟨hbatch, h.left, rfl⟩
      exact .batch hdecode
        (ih h.right fun later hlater => hbatches later (List.mem_cons_of_mem batch hlater))

end BatchRecord

/-! ### Reading what was written -/

namespace Packing

theorem closed_eq_fileOf {batches : List PackedBatch} (h : ∀ packed ∈ batches, packed.Sound) :
    closed batches = BatchRecord.fileOf (batches.map (·.batch)) := by
  induction batches with
  | nil => rfl
  | cons packed rest ih =>
      have hrest := ih fun later hlater => h later (List.mem_cons_of_mem packed hlater)
      rw [closed, hrest, (h packed (List.mem_cons_self ..)).bytes]
      rfl

/-- A batch as it is packed, from no bucket in particular. -/
def PackedBatch.ofBatch (batch : Batch) : PackedBatch :=
  ⟨0, batch, batch.tokenCount, BatchRecord.bytes batch⟩

theorem PackedBatch.sound_ofBatch {batch : Batch} (h : BatchRecord.Storable batch) :
    (PackedBatch.ofBatch batch).Sound := ⟨h.fits, rfl, h.pairs, h.onOneLine⟩

theorem PackedBatch.Sound.storable {packed : PackedBatch} (h : packed.Sound) :
    BatchRecord.Storable packed.batch := ⟨h.fits, h.pairs, h.onOneLine⟩

theorem closed_ofBatch (batches : List Batch) :
    closed (batches.map PackedBatch.ofBatch) = BatchRecord.fileOf batches := by
  induction batches with
  | nil => rfl
  | cons batch rest ih =>
      rw [List.map_cons, closed, ih]
      rfl

end Packing

namespace BatchStream

open Packing (PackedBatch)

variable {stream : BatchStream}

/-- What a stream answers when it is asked so many times for the next batch and its number. -/
def numberedAnswers (stream : BatchStream) :
    Nat → Work (List (Option (Except Fault (Nat × Batch))) × BatchStream)
  | 0 => return ([], stream)
  | n + 1 => do
      let (answer, stream) ← stream.nextNumbered
      let (answers, stream) ← stream.numberedAnswers n
      return (answer :: answers, stream)

theorem run_nextNumbered {answer : Option (Except Fault Batch)} {later : BatchStream}
    {w after : Workspace} (h : stream.next.run w = ((answer, later), after)) :
    stream.nextNumbered.run w
      = ((answer.map fun result => result.map (later.read, ·), later), after) := by
  simp only [nextNumbered, Work.run_bind, h]
  rfl

/-- A stream that has ended has no more answers. -/
theorem numberedAnswers_of_finished (h : stream.finished = true) (n : Nat) (w : Workspace) :
    (stream.numberedAnswers n).run w = (((List.range n).map fun _ => none, stream), w) := by
  induction n with
  | zero => rfl
  | succ n ih =>
      have hanswer := run_nextNumbered (next_of_finished h w)
      simp only [numberedAnswers, Work.run_bind, hanswer, ih]
      rw [List.range_succ_eq_map, List.map_cons, List.map_map]
      rfl

/-- The answers of a stream that has handed out so many batches and reads as these and a fault, if
there is one. -/
def answersOf (file : TemporaryFile) :
    Nat → List Batch → Option RecordFault → List (Except Fault (Nat × Batch))
  | _, [], none => []
  | read, [], some fault => [.error ⟨.record fault, [.readingBatch (read + 1) file.text]⟩]
  | read, batch :: rest, fault => .ok (read + 1, batch) :: answersOf file (read + 1) rest fault

/-- Each batch comes with its number, and then the fault names the number of the batch that
would have come next. -/
theorem getElem?_answersOf (file : TemporaryFile) (read : Nat) (batches : List Batch)
    (fault : Option RecordFault) (i : Nat) :
    (answersOf file read batches fault)[i]?
      = if i < batches.length then batches[i]?.map fun batch => .ok (read + (i + 1), batch)
        else if i = batches.length then fault.map fun damaged =>
          .error ⟨.record damaged, [.readingBatch (read + (i + 1)) file.text]⟩
        else none := by
  induction batches generalizing read i with
  | nil =>
      cases fault <;> cases i <;> rfl
  | cons batch rest ih =>
      cases i with
      | zero => rfl
      | succ i =>
          have hshift : read + 1 + (i + 1) = read + (i + 1 + 1) := by omega
          rw [answersOf, List.getElem?_cons_succ, ih, hshift]
          simp

/-- **A stream numbers the batches that its file reads as, answers with the fault behind them if
there is one, and has no answer from then on.** -/
theorem run_numberedAnswers (n : Nat) :
    ∀ {stream : BatchStream} {batches : List Batch} {fault : Option RecordFault} (w : Workspace),
      stream.finished = false →
      BatchRecord.Reads stream.bytes stream.position batches fault →
      ∃ last after, (stream.numberedAnswers n).run w
        = (((List.range n).map fun i =>
              (answersOf stream.file stream.read batches fault)[i]?, last), after) := by
  induction n with
  | zero => intro stream batches fault w _ _; exact ⟨stream, w, rfl⟩
  | succ n ih =>
      intro stream batches fault w hfinished hreads
      have hended : ({ stream with finished := true } : BatchStream).finished = true := rfl
      cases hreads with
      | ends hdecode =>
          obtain ⟨after, hnext⟩ := next_of_end hfinished hdecode w
          have hanswer := run_nextNumbered hnext
          have hrest := numberedAnswers_of_finished hended n after
          refine ⟨{ stream with finished := true }, after, ?_⟩
          simp only [numberedAnswers, Work.run_bind, hanswer, hrest]
          rw [List.range_succ_eq_map, List.map_cons, List.map_map]
          rfl
      | breaks hdecode =>
          obtain ⟨after, hnext⟩ := next_of_fault hfinished hdecode w
          have hanswer := run_nextNumbered hnext
          have hrest := numberedAnswers_of_finished hended n after
          refine ⟨{ stream with finished := true }, after, ?_⟩
          simp only [numberedAnswers, Work.run_bind, hanswer, hrest]
          rw [List.range_succ_eq_map, List.map_cons, List.map_map]
          rfl
      | @batch _ next batch rest _ hdecode hlater =>
          obtain ⟨middle, hnext⟩ := next_of_batch hfinished hdecode w
          obtain ⟨reportAt, hadvance⟩ := advance_eq stream next
          rw [hadvance] at hnext
          have hanswer := run_nextNumbered hnext
          obtain ⟨last, after, hrest⟩ := @ih
            { stream with position := next, read := stream.read + 1, reportAt := reportAt }
            rest _ middle hfinished hlater
          refine ⟨last, after, ?_⟩
          simp only [numberedAnswers, Work.run_bind, hanswer, hrest]
          rw [List.range_succ_eq_map, List.map_cons, List.map_map]
          rfl

/-- **A stream numbers the batches that are ahead of it, and has no answer behind them.** -/
theorem Ahead.numberedAnswers (n : Nat) {stream : BatchStream} {batches : List PackedBatch}
    (w : Workspace) (h : stream.Ahead batches) :
    ∃ last after, (stream.numberedAnswers n).run w
      = (((List.range n).map fun i =>
            batches[i]?.map fun packed => .ok (stream.read + (i + 1), packed.batch), last),
          after) := by
  have hstands := h.stands
  rw [Packing.closed_eq_fileOf h.sound] at hstands
  have hreads := BatchRecord.reads_of_standsAt hstands fun batch hbatch => by
    obtain ⟨packed, hpacked, rfl⟩ := List.mem_map.mp hbatch
    exact (h.sound packed hpacked).storable
  obtain ⟨last, after, hrun⟩ := run_numberedAnswers n w h.finished hreads
  refine ⟨last, after, ?_⟩
  rw [hrun]
  have hanswer : ∀ i, (answersOf stream.file stream.read (batches.map (·.batch)) none)[i]?
      = batches[i]?.map fun packed => Except.ok (stream.read + (i + 1), packed.batch) := by
    intro i
    rw [getElem?_answersOf, List.getElem?_map, Option.map_map, Option.map_none, ite_self]
    by_cases hi : i < (batches.map (·.batch)).length
    · rw [if_pos hi]
      rfl
    · rw [if_neg hi, List.getElem?_eq_none (by simpa using hi)]
      rfl
  simp only [hanswer]

theorem run_openFile {file : TemporaryFile} {content : ByteArray} {w : Workspace}
    (h : w.disk.bytesAt file.location = .ok content) (total : Nat) :
    (openFile file total).run w = (.ok (ofBytes file content total), w) := by
  simp only [openFile, Job.run_bind, Job.run_lift, Workspace.run_bytesOf, h]
  rfl

/-- **Batches that were written are read back.**  Batches that their records keep have an epoch
file, and whatever is written behind it, and however many batches it is said to hold, it opens as
a stream that hands out these batches in order.  The `i`-th answer is the `i`-th batch with its
number, counted from one, as long as there is one; from then on there is none. -/
theorem written_batches_are_read_back {batches : List Batch}
    (h : ∀ batch ∈ batches, BatchRecord.Storable batch) :
    ∃ written, BatchRecord.encodeAll batches = .ok written ∧
      ∀ (behind : ByteArray) (file : TemporaryFile) (total : Nat) (w : Workspace),
        w.disk.bytesAt file.location = .ok (written ++ behind) →
        ∃ stream, (openFile file total).run w = (.ok stream, w) ∧
          (stream.drain.run w).1 = batches.map .ok ∧
          ∀ n, ∃ last after, (stream.numberedAnswers n).run w
            = (((List.range n).map fun i => batches[i]?.map fun batch => .ok (i + 1, batch), last),
                after) := by
  refine ⟨_, BatchRecord.encodeAll_of_fits fun batch hbatch => (h batch hbatch).fits, ?_⟩
  intro behind file total w hfile
  have hahead : (ofBytes file (BatchRecord.fileOf batches ++ behind) total).Ahead
      (batches.map PackedBatch.ofBatch) := by
    refine ⟨rfl, ?_, ?_⟩
    · rw [Packing.closed_ofBatch]
      exact (Bytes.StandsAt.whole _).append behind
    · intro packed hpacked
      obtain ⟨batch, hbatch, rfl⟩ := List.mem_map.mp hpacked
      exact PackedBatch.sound_ofBatch (h batch hbatch)
  refine ⟨_, run_openFile hfile total, ?_, fun n => ?_⟩
  · rw [hahead.drain, List.map_map]
    rfl
  · obtain ⟨last, after, hanswers⟩ := hahead.numberedAnswers n w
    refine ⟨last, after, ?_⟩
    rw [hanswers]
    have hnumber : ∀ i, (ofBytes file (BatchRecord.fileOf batches ++ behind) total).read + (i + 1)
        = i + 1 := fun i => Nat.zero_add (i + 1)
    simp only [hnumber, List.getElem?_map, Option.map_map]
    rfl

/-- Two batches with empty lines, a tab, a carriage return and a letter that takes two bytes. -/
def twoBatches : List Batch := [⟨[⟨"a\tb", ""⟩, ⟨"", "é\r"⟩]⟩, ⟨[⟨"", ""⟩]⟩]

theorem storable_twoBatches : ∀ batch ∈ twoBatches, BatchRecord.Storable batch := by
  have hfits : ∀ batch ∈ twoBatches, BatchRecord.Fits batch := by
    intro batch hbatch
    rcases List.mem_cons.mp hbatch with rfl | hbatch
    · exact ⟨by decide, by decide, by decide⟩
    · obtain rfl := List.mem_singleton.mp hbatch
      exact ⟨by decide, by decide, by decide⟩
  have hlines : ∀ batch ∈ twoBatches, batch.pairs ≠ [] ∧ ∀ p ∈ batch.pairs,
      '\n' ∉ p.source.toList ∧ '\n' ∉ p.target.toList := by decide
  intro batch hbatch
  exact ⟨hfits batch hbatch, (hlines batch hbatch).1, (hlines batch hbatch).2⟩

/-- A workspace with one file on its disk. -/
def holding (file : TemporaryFile) (content : ByteArray) : Workspace :=
  ⟨{ entries := [(file.location, .file content)] }, #[]⟩

/-- The two batches come back with their numbers, although a byte stands behind the end mark. -/
theorem two_batches_are_read_back :
    ∃ written stream, BatchRecord.encodeAll twoBatches = .ok written ∧
      (openFile ⟨"e", [.given "e"]⟩ 2).run (holding ⟨"e", [.given "e"]⟩ (written ++ ⟨#[7]⟩))
        = (.ok stream, holding ⟨"e", [.given "e"]⟩ (written ++ ⟨#[7]⟩)) ∧
      ((stream.numberedAnswers 3).run (holding ⟨"e", [.given "e"]⟩ (written ++ ⟨#[7]⟩))).1.1
        = [some (.ok (1, ⟨[⟨"a\tb", ""⟩, ⟨"", "é\r"⟩]⟩)), some (.ok (2, ⟨[⟨"", ""⟩]⟩)), none] := by
  obtain ⟨written, hwritten, hread⟩ := written_batches_are_read_back storable_twoBatches
  obtain ⟨stream, hopen, -, hanswers⟩ := hread ⟨#[7]⟩ ⟨"e", [.given "e"]⟩ 2
    (holding ⟨"e", [.given "e"]⟩ (written ++ ⟨#[7]⟩)) rfl
  obtain ⟨last, after, hthree⟩ := hanswers 3
  refine ⟨written, stream, hwritten, hopen, ?_⟩
  rw [hthree]
  rfl

/-! ### A file that was read to its end -/

theorem run_takeResults_of_none {later : BatchStream} {w after : Workspace}
    (h : stream.next.run w = ((none, later), after)) (n : Nat) :
    (stream.takeResults (n + 1)).run w = (([], later), after) := by
  simp only [takeResults, Work.run_bind, h]
  rfl

theorem run_takeResults_of_some {result : Except Fault Batch} {later : BatchStream}
    {w middle : Workspace} (h : stream.next.run w = ((some result, later), middle)) (n : Nat) :
    ((stream.takeResults (n + 1)).run w).1
      = (result :: ((later.takeResults n).run middle).1.1,
          ((later.takeResults n).run middle).1.2) := by
  simp only [takeResults, Work.run_bind, h]
  rfl

theorem advance_fields (stream : BatchStream) (position : Nat) :
    (stream.advance position).2.finished = stream.finished ∧
      (stream.advance position).2.bytes = stream.bytes ∧
      (stream.advance position).2.position = position := by
  obtain ⟨reportAt, hadvance⟩ := advance_eq stream position
  rw [hadvance]
  exact ⟨rfl, rfl, rfl⟩

/-- **A stream that ends without a fault has gone through an epoch file.**  What it has handed out
are batches that their records keep; from where it was, their records and the end mark stand in
its file, and it stops in front of the mark. -/
theorem stands_of_takeResults (n : Nat) :
    ∀ {stream last : BatchStream} {batches : List Batch} {w : Workspace},
      stream.finished = false →
      ((stream.takeResults n).run w).1 = (batches.map .ok, last) → batches.length < n →
      (∀ batch ∈ batches, BatchRecord.Storable batch) ∧
        Bytes.StandsAt stream.bytes stream.position (BatchRecord.fileOf batches) ∧
        last.position + BatchRecord.endBytes.size
          = stream.position + (BatchRecord.fileOf batches).size := by
  induction n with
  | zero => intro stream last batches w _ _ hless; exact absurd hless (Nat.not_lt_zero _)
  | succ n ih =>
      intro stream last batches w hfinished hrun hless
      cases hdecode : BatchRecord.decode stream.bytes stream.position with
      | error fault =>
          obtain ⟨middle, hnext⟩ := next_of_fault hfinished hdecode w
          rw [run_takeResults_of_some hnext] at hrun
          -- no batch is a fault
          have hresults := congrArg Prod.fst hrun
          cases batches <;> cases hresults
      | ok found =>
          cases found with
          | none =>
              obtain ⟨after, hnext⟩ := next_of_end hfinished hdecode w
              rw [run_takeResults_of_none hnext] at hrun
              obtain ⟨hresults, rfl⟩ := Prod.mk.inj hrun
              obtain rfl := List.map_eq_nil_iff.mp hresults.symm
              exact ⟨by simp, BatchRecord.decode_eq_none_iff.mp hdecode, rfl⟩
          | some found =>
              obtain ⟨batch, position⟩ := found
              obtain ⟨hbatch, hstands, rfl⟩ := BatchRecord.decode_eq_some_iff.mp hdecode
              obtain ⟨middle, hnext⟩ := next_of_batch hfinished hdecode w
              obtain ⟨hunfinished, hbytes, hposition⟩ := advance_fields stream
                (stream.position + (BatchRecord.bytes batch).size)
              rw [run_takeResults_of_some hnext] at hrun
              obtain ⟨hresults, hlast⟩ := Prod.mk.inj hrun
              cases batches with
              | nil => cases hresults
              | cons first rest =>
                  obtain ⟨hfirst, hrest⟩ := List.cons.inj hresults
                  obtain rfl := Except.ok.inj hfirst
                  obtain ⟨hothers, hbehind, hend⟩ :=
                    ih (hunfinished.trans hfinished) (Prod.ext hrest hlast)
                      (Nat.lt_of_succ_lt_succ hless)
                  rw [hbytes, hposition] at hbehind
                  rw [hposition] at hend
                  refine ⟨List.forall_mem_cons.mpr ⟨hbatch, hothers⟩, hstands.join hbehind, ?_⟩
                  rw [hend, BatchRecord.fileOf, ByteArray.size_append, Nat.add_assoc]

end BatchStream

/-! ### One form for each record -/

/-- **Only what is written is read.**  A batch that is read from a file lies inside it, is not
empty, has one line on every side, and its record is the bytes that were passed.  A pair that is
read from a blob has the header that can be read alone, and appending it to any blob writes the
bytes that it was read from.  And when a stream over any bytes ends without a fault, the bytes up
to the end of the mark are what is written for the batches that it has handed out. -/
theorem only_what_is_written_is_read :
    (∀ (file : ByteArray) (position next : Nat) (batch : Batch),
      BatchRecord.decode file position = .ok (some (batch, next)) →
        position < next ∧ next ≤ file.size ∧ batch.pairs ≠ [] ∧
          (∀ p ∈ batch.pairs, p.OnOneLine) ∧
          BatchRecord.encode batch = .ok (file.extract position next)) ∧
    (∀ (blob : Blob) (offset : Nat) (record : PairRecord), blob.recordAt offset = .ok record →
      blob.headerAt offset = .ok record.header ∧
        offset + BlobWriter.recordSize record.pair ≤ blob.bytes.size ∧
        ∀ (p : Admitted) (writer : BlobWriter), PairRecord.ofAdmitted p = record →
          writer.append p
            = (.ok writer.position,
                { writer with
                  bytes := writer.bytes
                    ++ blob.bytes.extract offset (offset + BlobWriter.recordSize record.pair)
                  position := writer.position + BlobWriter.recordSize record.pair
                  records := writer.records + 1 })) ∧
    (∀ (file : TemporaryFile) (bytes : ByteArray) (total n : Nat) (w : Workspace)
      (batches : List Batch) (last : BatchStream),
      (((BatchStream.ofBytes file bytes total).takeResults n).run w).1 = (batches.map .ok, last) →
      batches.length < n →
        last.position + BatchRecord.endBytes.size ≤ bytes.size ∧
          BatchRecord.encodeAll batches
            = .ok (bytes.extract 0 (last.position + BatchRecord.endBytes.size))) := by
  refine ⟨fun file position next batch h => ?_, fun blob offset record h => ?_,
    fun file bytes total n w batches last hrun hless => ?_⟩
  · obtain ⟨hbatch, -, -⟩ := BatchRecord.decode_eq_some_iff.mp h
    obtain ⟨hless, hle, hcut⟩ := BatchRecord.extract_of_decode h
    refine ⟨hless, hle, hbatch.pairs, hbatch.onOneLine, ?_⟩
    exact BatchRecord.encode_ok_iff.mpr ⟨hbatch.fits, hcut⟩
  · refine ⟨PairRecord.headerAt_of_readAt h, PairRecord.le_size_of_readAt h,
      fun p writer hp => ?_⟩
    obtain ⟨hfits, -⟩ := (PairRecord.readAt_ok_iff hp).mp h
    obtain ⟨-, hcut⟩ := PairRecord.extract_of_readAt h hp
    have hpair : p.pair = record.pair := congrArg PairRecord.pair hp
    have hbytes : blob.bytes.extract offset (offset + BlobWriter.recordSize record.pair)
        = PairRecord.encode p := hcut
    rw [BlobWriter.append, PairRecord.write_of_fits hfits, hbytes, hpair]
  · obtain ⟨hbatches, hstands, hend⟩ := BatchStream.stands_of_takeResults n rfl hrun hless
    obtain ⟨hle, hcut⟩ := Bytes.standsAt_iff.mp hstands
    have hstart : (BatchStream.ofBytes file bytes total).position = 0 := rfl
    rw [hstart, Nat.zero_add] at hend hle hcut
    rw [hend, BatchRecord.encodeAll_of_fits fun batch hbatch => (hbatches batch hbatch).fits]
    exact ⟨hle, congrArg Except.ok hcut.symm⟩

/-- The file of a batch of one pair. -/
def onePairFile : ByteArray := ⟨#[1, 0, 0, 0, 1, 0, 0, 0, 97, 0, 0, 0, 0, 255, 255, 255, 255]⟩

/-- The blob of one pair of one token. -/
def onePairBlob : Blob := ⟨⟨"", []⟩, ⟨#[1, 0, 0, 0, 0, 0, 0, 0, 1, 0, 0, 0, 97, 0, 0, 0, 0]⟩, 1⟩

/-- One pair is read from either file as it would be written there. -/
theorem one_pair_is_read_as_written :
    BatchRecord.decode onePairFile 0 = .ok (some (⟨[⟨"a", ""⟩]⟩, 13)) ∧
      BatchRecord.encode ⟨[⟨"a", ""⟩]⟩ = .ok (onePairFile.extract 0 13) ∧
      onePairBlob.recordAt 0 = .ok ⟨⟨1, 0⟩, ⟨"a", ""⟩⟩ ∧
      onePairBlob.headerAt 0 = .ok ⟨1, 0⟩ ∧
      ∃ last, (((BatchStream.ofBytes ⟨"", []⟩ onePairFile 1).takeResults 2).run ⟨{}, #[]⟩).1
          = ([.ok ⟨[⟨"a", ""⟩]⟩], last) ∧
        BatchRecord.encodeAll [⟨[⟨"a", ""⟩]⟩]
          = .ok (onePairFile.extract 0 (last.position + BatchRecord.endBytes.size)) := by
  obtain ⟨hbatch, hpair, hstream⟩ := only_what_is_written_is_read
  have hdecode : BatchRecord.decode onePairFile 0 = .ok (some (⟨[⟨"a", ""⟩]⟩, 13)) := by rfl
  have hrecord : onePairBlob.recordAt 0 = .ok ⟨⟨1, 0⟩, ⟨"a", ""⟩⟩ := by rfl
  have hwritten := hstream ⟨"", []⟩ onePairFile 1 2 ⟨{}, #[]⟩ [⟨[⟨"a", ""⟩]⟩] _ rfl (by decide)
  exact ⟨hdecode, (hbatch _ _ _ _ hdecode).2.2.2.2, hrecord, (hpair _ _ _ hrecord).1, _, rfl,
    hwritten.2⟩

end Bitext
