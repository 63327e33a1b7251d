/-
Epoch files that are cut off.

What is read from the front of a file is read from the whole file as well, and it lies in the
front.  So nothing can be read in place of a record that does not lie there whole: the whole file
would read the same, but it reads the record.  This covers every place at which a file can be cut,
in a number, in a text, in a character of a text or in the end mark, and none of these cases has
to be looked at.
-/
import Bitext.Proofs.EpochFile

namespace Bitext

/-- A part stands in the front of a file when it stands in the file and ends in the front. -/
theorem Bytes.standsAt_extract_iff {file part : ByteArray} {position cut : Nat} :
    StandsAt (file.extract 0 cut) position part ↔
      StandsAt file position part ∧ position + part.size ≤ cut := by
  rw [standsAt_iff, standsAt_iff, ByteArray.extract_extract, ByteArray.size_extract, Nat.zero_add,
    Nat.zero_add]
  constructor
  · rintro ⟨hle, hpart⟩
    rw [Nat.min_eq_left (by omega)] at hpart
    exact ⟨⟨by omega, hpart⟩, by omega⟩
  · rintro ⟨⟨hle, hpart⟩, hcut⟩
    rw [Nat.min_eq_left hcut]
    exact ⟨by omega, hpart⟩

/-! ### Records at the cut -/

namespace BatchRecord

open Bytes

variable {file : ByteArray} {position cut : Nat} {found : Option (Batch × Nat)}
  {batches : List Batch}

/-- Where that ends which was found at a position. -/
def behind (position : Nat) : Option (Batch × Nat) → Nat
  | none => position + endBytes.size
  | some (_, next) => next

/-- **The front of a file reads as the file does, as far as the records lie in it.** -/
theorem decode_extract_iff :
    decode (file.extract 0 cut) position = .ok found ↔
      decode file position = .ok found ∧ behind position found ≤ cut := by
  cases found with
  | none => rw [decode_eq_none_iff, decode_eq_none_iff, standsAt_extract_iff, behind]
  | some found =>
      obtain ⟨batch, next⟩ := found
      rw [decode_eq_some_iff, decode_eq_some_iff, standsAt_extract_iff, behind]
      constructor
      · rintro ⟨hbatch, ⟨hstands, hle⟩, rfl⟩
        exact ⟨⟨hbatch, hstands, rfl⟩, hle⟩
      · rintro ⟨⟨hbatch, hstands, rfl⟩, hle⟩
        exact ⟨hbatch, ⟨hstands, hle⟩, rfl⟩

/-- A record across the cut cannot be read, nor can an end mark. -/
theorem exists_damaged_of_cut (h : decode file position = .ok found)
    (hcut : cut < behind position found) :
    ∃ damaged, decode (file.extract 0 cut) position = .error damaged := by
  cases hdecode : decode (file.extract 0 cut) position with
  | error damaged => exact ⟨damaged, rfl⟩
  | ok other =>
      obtain ⟨hfile, hle⟩ := decode_extract_iff.mp hdecode
      obtain rfl := Except.ok.inj (h.symm.trans hfile)
      omega

/-! ### Files that are cut -/

/-- The number of bytes in the records of batches. -/
def recordsSize (batches : List Batch) : Nat := (batches.map fun batch => (bytes batch).size).sum

theorem recordsSize_cons (batch : Batch) (rest : List Batch) :
    recordsSize (batch :: rest) = (bytes batch).size + recordsSize rest := by
  simp [recordsSize]

theorem size_fileOf (batches : List Batch) :
    (fileOf batches).size = recordsSize batches + endBytes.size := by
  induction batches with
  | nil => exact (Nat.zero_add _).symm
  | cons batch rest ih => rw [fileOf, ByteArray.size_append, ih, recordsSize_cons, Nat.add_assoc]

/-- **A file that is cut reads as the batches whose records lie in front of the cut, and then
there is a record that cannot be read.** -/
theorem Reads.of_cut (h : Reads file position batches none)
    (hcut : cut < position + recordsSize batches + endBytes.size) :
    ∃ whole damaged, whole ≤ batches.length ∧
      (∀ i < batches.length, i < whole ↔ position + recordsSize (batches.take (i + 1)) ≤ cut) ∧
      Reads (file.extract 0 cut) position (batches.take whole) (some damaged) := by
  generalize hfault : none = fault at h
  induction h with
  | breaks => cases hfault
  | @ends position hdecode =>
      have hbehind : cut < behind position none := hcut
      obtain ⟨damaged, hdamaged⟩ := exists_damaged_of_cut hdecode hbehind
      exact ⟨0, damaged, Nat.le_refl 0, fun i hi => absurd hi (Nat.not_lt_zero i),
        .breaks hdamaged⟩
  | @batch position next batch rest _ hdecode _ ih =>
      obtain ⟨-, -, hnext⟩ := decode_eq_some_iff.mp hdecode
      rw [recordsSize_cons] at hcut
      by_cases hle : next ≤ cut
      · obtain ⟨whole, damaged, hwhole, hinside, hreads⟩ := ih (by omega) hfault
        have hfirst := decode_extract_iff.mpr ⟨hdecode, hle⟩
        refine ⟨whole + 1, damaged, Nat.succ_le_succ hwhole, fun i hi => ?_, .batch hfirst hreads⟩
        rw [List.take_succ_cons, recordsSize_cons]
        cases i with
        | zero =>
            have hnone : recordsSize (rest.take 0) = 0 := rfl
            omega
        | succ i =>
            have hlater := hinside i (Nat.lt_of_succ_lt_succ hi)
            omega
      · have hbehind : cut < behind position (some (batch, next)) := Nat.lt_of_not_le hle
        obtain ⟨damaged, hdamaged⟩ := exists_damaged_of_cut hdecode hbehind
        refine ⟨0, damaged, Nat.zero_le _, fun i _ => ?_, .breaks hdamaged⟩
        rw [List.take_succ_cons, recordsSize_cons]
        omega

end BatchRecord

namespace BatchStream

/-- The answers of a stream over the first batches and a fault behind them. -/
theorem getElem?_answersOf_take (file : TemporaryFile) {batches : List Batch} {whole : Nat}
    (hwhole : whole ≤ batches.length) (damaged : RecordFault) (i : Nat) :
    (answersOf file 0 (batches.take whole) (some damaged))[i]?
      = if i < whole then batches[i]?.map fun batch => .ok (i + 1, batch)
        else if i = whole then
          some (.error ⟨.record damaged, [.readingBatch (whole + 1) file.text]⟩)
        else none := by
  have hlength : (batches.take whole).length = whole := List.length_take_of_le hwhole
  rw [getElem?_answersOf, hlength, List.getElem?_take, Nat.zero_add]
  by_cases hi : i < whole
  · rw [if_pos hi, if_pos hi, if_pos hi]
  · rw [if_neg hi, if_neg hi]
    by_cases hend : i = whole
    · rw [if_pos hend, if_pos hend, hend]
      rfl
    · rw [if_neg hend, if_neg hend]

/-- **An epoch file that is cut off is always noticed.**  The file of some batches may be cut at
any byte, at its start and in the end mark as well.  What is left opens as a stream that hands out,
in order and unchanged, exactly the batches whose records are left whole.  The answer after them
is the fault of a record that cannot be read, and there is no answer from then on. -/
theorem truncated_files_are_always_noticed {batches : List Batch} {written : ByteArray} {cut : Nat}
    (hbatches : ∀ batch ∈ batches, batch.pairs ≠ [] ∧ ∀ p ∈ batch.pairs, p.OnOneLine)
    (hwritten : BatchRecord.encodeAll batches = .ok written) (hcut : cut < written.size) :
    ∃ whole damaged, whole ≤ batches.length ∧
      (∀ i < batches.length,
        i < whole ↔ BatchRecord.recordsSize (batches.take (i + 1)) ≤ cut) ∧
      ∀ (file : TemporaryFile) (total : Nat) (w : Workspace),
        w.disk.bytesAt file.location = .ok (written.extract 0 cut) →
        ∃ stream, (openFile file total).run w = (.ok stream, w) ∧
          ∀ n, ∃ last after, (stream.numberedAnswers n).run w
            = (((List.range n).map fun i =>
                  if i < whole then batches[i]?.map fun batch => .ok (i + 1, batch)
                  else if i = whole then
                    some (.error ⟨.record damaged, [.readingBatch (whole + 1) file.text]⟩)
                  else none, last), after) := by
  obtain ⟨hfits, rfl⟩ := BatchRecord.of_encodeAll_ok hwritten
  have hreads := BatchRecord.reads_of_standsAt (Bytes.StandsAt.whole (BatchRecord.fileOf batches))
    fun batch hbatch =>
      ⟨hfits batch hbatch, (hbatches batch hbatch).1, (hbatches batch hbatch).2⟩
  rw [BatchRecord.size_fileOf] at hcut
  obtain ⟨whole, damaged, hwhole, hinside, hfront⟩ := hreads.of_cut (by rwa [Nat.zero_add])
  refine ⟨whole, damaged, hwhole, fun i hi => ?_, fun file total w hfile =>
    ⟨_, run_openFile hfile total, fun n => ?_⟩⟩
  · rw [hinside i hi, Nat.zero_add]
  · have hopened : (ofBytes file ((BatchRecord.fileOf batches).extract 0 cut)
        total).finished = false := rfl
    obtain ⟨last, after, hrun⟩ := run_numberedAnswers n w hopened hfront
    refine ⟨last, after, ?_⟩
    rw [hrun]
    exact congrArg (fun answers => ((answers, last), after))
      (List.map_congr_left fun i _ => getElem?_answersOf_take file hwhole damaged i)

theorem encodeAll_twoBatches :
    BatchRecord.encodeAll twoBatches = .ok (BatchRecord.fileOf twoBatches) :=
  BatchRecord.encodeAll_of_fits fun batch hbatch => (storable_twoBatches batch hbatch).fits

/-- A file with two batches that lacks two bytes of its end mark reads as both of them, but not to
its end. -/
theorem two_batches_without_an_end :
    ∃ damaged stream, (openFile ⟨"e", [.given "e"]⟩ 2).run
        (holding ⟨"e", [.given "e"]⟩ ((BatchRecord.fileOf twoBatches).extract 0 34))
      = (.ok stream, holding ⟨"e", [.given "e"]⟩ ((BatchRecord.fileOf twoBatches).extract 0 34)) ∧
      ((stream.numberedAnswers 4).run
        (holding ⟨"e", [.given "e"]⟩ ((BatchRecord.fileOf twoBatches).extract 0 34))).1.1
        = [some (.ok (1, ⟨[⟨"a\tb", ""⟩, ⟨"", "é\r"⟩]⟩)), some (.ok (2, ⟨[⟨"", ""⟩]⟩)),
            some (.error ⟨.record damaged, [.readingBatch 3 "e"]⟩), none] := by
  have hcut : 34 < (BatchRecord.fileOf twoBatches).size := by decide
  obtain ⟨whole, damaged, hwhole, hinside, hstream⟩ := truncated_files_are_always_noticed
    (fun batch hbatch => ⟨(storable_twoBatches batch hbatch).pairs,
      (storable_twoBatches batch hbatch).onOneLine⟩) encodeAll_twoBatches hcut
  have hsecond : 1 < whole := (hinside 1 (by decide)).mpr (by decide)
  obtain rfl : whole = 2 := Nat.le_antisymm hwhole hsecond
  obtain ⟨stream, hopen, hanswers⟩ := hstream ⟨"e", [.given "e"]⟩ 2
    (holding ⟨"e", [.given "e"]⟩ ((BatchRecord.fileOf twoBatches).extract 0 34)) rfl
  obtain ⟨last, after, hfour⟩ := hanswers 4
  refine ⟨damaged, stream, hopen, ?_⟩
  rw [hfour]
  rfl

end BatchStream

end Bitext
