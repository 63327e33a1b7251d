/-
Pair records read back as they were written.

A record whose four parts fit their fields is written whole, and wherever it stands in a
file it is read back as the pair that it was written for; its header alone gives the same
token counts.  A record that was written whole had parts that fit, so whoever has seen a
pair being appended knows that it can be read.
-/
import Bitext.Blob
import Bitext.Proofs.Record.Bytes

namespace Bitext.PairRecord

open Bytes

/-- Both counts and both texts of a pair fit their fields. -/
structure Fits (p : Admitted) : Prop where
  sourceTokens : p.sourceTokens < wordRange
  targetTokens : p.targetTokens < wordRange
  source : p.pair.source.utf8ByteSize < wordRange
  target : p.pair.target.utf8ByteSize < wordRange

instance (p : Admitted) : Decidable (Fits p) :=
  decidable_of_iff (p.sourceTokens < wordRange ∧ p.targetTokens < wordRange ∧
      p.pair.source.utf8ByteSize < wordRange ∧ p.pair.target.utf8ByteSize < wordRange)
    ⟨fun ⟨hs, ht, hsource, htarget⟩ => ⟨hs, ht, hsource, htarget⟩,
      fun h => ⟨h.sourceTokens, h.targetTokens, h.source, h.target⟩⟩

/-- The bytes of a pair's record. -/
def encode (p : Admitted) : ByteArray :=
  word p.sourceTokens ++ (word p.targetTokens ++ (text p.pair.source ++ text p.pair.target))

/-- What is read back of a pair. -/
def ofAdmitted (p : Admitted) : PairRecord := ⟨⟨p.sourceTokens, p.targetTokens⟩, p.pair⟩

theorem size_encode (p : Admitted) : (encode p).size = BlobWriter.recordSize p.pair := by
  unfold encode BlobWriter.recordSize
  simp only [ByteArray.size_append, size_word, size_text]
  omega

/-! ### Writing -/

theorem word?_of_lt {n : Nat} (h : n < wordRange) (what : Context) :
    word? what n = .ok (word n) := by
  rw [word?, if_pos h]

theorem text?_of_lt {s : String} (h : s.utf8ByteSize < wordRange) : text? s = .ok (text s) := by
  rw [text?_eq, if_pos h]

/-- A record that fits is written whole. -/
theorem write_of_fits {p : Admitted} (h : Fits p) (bytes : ByteArray) :
    write bytes (parts p) = (bytes ++ encode p, none) := by
  rw [parts, word?_of_lt h.sourceTokens, word?_of_lt h.targetTokens, text?_of_lt h.source,
    text?_of_lt h.target]
  simp only [write, encode, ByteArray.append_assoc]

/-- A part that does not fit stops the writing. -/
theorem write_ok_head {bytes : ByteArray} {part : Except Fault ByteArray}
    {rest : List (Except Fault ByteArray)} (h : (write bytes (part :: rest)).2 = none) :
    ∃ written, part = .ok written ∧ (write (bytes ++ written) rest).2 = none := by
  cases part with
  | ok written => exact ⟨written, rfl, h⟩
  | error fault => simp [write] at h

/-- A record that was written whole fits. -/
theorem fits_of_write {p : Admitted} {bytes : ByteArray}
    (h : (write bytes (parts p)).2 = none) : Fits p := by
  have hword : ∀ {what n written}, word? what n = .ok written → n < wordRange := by
    intro what n written hok
    unfold word? at hok
    split at hok
    · assumption
    · simp at hok
  have htext : ∀ {s written}, text? s = .ok written → s.utf8ByteSize < wordRange := by
    intro s written hok
    unfold text? at hok
    split at hok
    · assumption
    · simp at hok
  obtain ⟨_, hsourceTokens, h⟩ := write_ok_head h
  obtain ⟨_, htargetTokens, h⟩ := write_ok_head h
  obtain ⟨_, hsource, h⟩ := write_ok_head h
  obtain ⟨_, htarget, -⟩ := write_ok_head h
  exact ⟨hword hsourceTokens, hword htargetTokens, htext hsource, htext htarget⟩

/-! ### Reading -/

section StandsAt

variable {file : ByteArray} {position : Nat} {p : Admitted}

theorem headerAt_of_standsAt (h : StandsAt file position (encode p)) (hp : Fits p) :
    headerAt file position = .ok (ofAdmitted p).header := by
  have hsource : wordAt file position = .ok p.sourceTokens := h.left.wordAt_eq hp.sourceTokens
  have htarget : wordAt file (position + 4) = .ok p.targetTokens := by
    have hstands := h.right.left
    rw [size_word] at hstands
    exact hstands.wordAt_eq hp.targetTokens
  simp only [headerAt, hsource, htarget, bind, Except.bind]
  rfl

/-- **A record reads back as the pair that it was written for.** -/
theorem readAt_of_standsAt (h : StandsAt file position (encode p)) (hp : Fits p) :
    readAt file position = .ok (ofAdmitted p) := by
  have htexts : StandsAt file (position + 8) (text p.pair.source ++ text p.pair.target) := by
    have hstands := h.right.right
    rw [size_word, size_word] at hstands
    exact hstands
  have hsource := htexts.left.textAt_eq hp.source
  have htarget := htexts.right.textAt_eq hp.target
  simp only [readAt, headerAt_of_standsAt h hp, hsource, htarget, bind, Except.bind]
  rfl

end StandsAt

/-- The header can be read wherever the record can, and tells the same counts. -/
theorem headerAt_of_readAt {file : ByteArray} {position : Nat} {record : PairRecord}
    (h : readAt file position = .ok record) : headerAt file position = .ok record.header := by
  simp only [readAt, bind, Except.bind] at h
  split at h
  · simp at h
  · rename_i header hheader
    split at h
    · simp at h
    · split at h
      · simp at h
      · obtain rfl := Except.ok.inj h
        exact hheader

/-- A record whose header cannot be read cannot be read for the same reason. -/
theorem readAt_of_headerAt {file : ByteArray} {position : Nat} {fault : RecordFault}
    (h : headerAt file position = .error fault) : readAt file position = .error fault := by
  rw [readAt, h]
  rfl

end Bitext.PairRecord
