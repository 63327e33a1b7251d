/-
Batch records read back as they were written.

The lines of a side are joined by line feeds and cut at line feeds.  The two are inverse to
each other exactly when no line holds a line feed and there is a line at all: a side of no
lines and a side of one empty line have the same bytes.  For batches of such lines a record
says everything, so wherever it stands it is read back as its batch, and the reader goes on
where it ends.
-/
import Bitext.Record.BatchRecord
import Bitext.Proofs.Record.Bytes

namespace Bitext

/-- No side of the pair holds a line feed. -/
def Pair.OnOneLine (p : Pair) : Prop :=
  BatchRecord.separator ∉ p.source.toList ∧ BatchRecord.separator ∉ p.target.toList

namespace BatchRecord

open Bytes

/-- The pairs of a batch can be counted and both sides can be stored. -/
structure Fits (batch : Batch) : Prop where
  size : batch.size < signedRange
  source : (joinLines batch.sourceLines).utf8ByteSize < wordRange
  target : (joinLines batch.targetLines).utf8ByteSize < wordRange

/-- The bytes of a batch's record. -/
def bytes (batch : Batch) : ByteArray :=
  word batch.size
    ++ (text (joinLines batch.sourceLines) ++ text (joinLines batch.targetLines))

theorem text?_ok_iff {s : String} {written : ByteArray} :
    text? s = .ok written ↔ s.utf8ByteSize < wordRange ∧ written = text s := by
  rw [text?_eq]
  split
  · rename_i hlt
    simp [hlt, eq_comm]
  · rename_i hlt
    simp [hlt]

/-- **A batch is encoded exactly when it fits, and then to its bytes.** -/
theorem encode_ok_iff {batch : Batch} {written : ByteArray} :
    encode batch = .ok written ↔ Fits batch ∧ written = bytes batch := by
  simp only [encode, bind, Except.bind]
  constructor
  · intro h
    split at h
    · simp at h
    · rename_i hsize
      split at h
      · simp at h
      · rename_i source hsource
        split at h
        · simp at h
        · rename_i target htarget
          obtain ⟨hs, rfl⟩ := text?_ok_iff.mp hsource
          obtain ⟨ht, rfl⟩ := text?_ok_iff.mp htarget
          obtain rfl := Except.ok.inj h
          refine ⟨⟨by omega, hs, ht⟩, ?_⟩
          rw [bytes, ByteArray.append_assoc]
  · rintro ⟨hfits, rfl⟩
    have hsize : ¬signedRange ≤ batch.size := Nat.not_le.mpr hfits.size
    rw [if_neg hsize, text?_ok_iff.mpr ⟨hfits.source, rfl⟩, text?_ok_iff.mpr ⟨hfits.target, rfl⟩]
    show Except.ok _ = _
    rw [bytes, ByteArray.append_assoc]

/-! ### Sides -/

/-- Lines without line feeds come back out of the text that they were joined to. -/
theorem splitLines_joinLines {lines : List String} (hne : lines ≠ [])
    (hlines : ∀ line ∈ lines, separator ∉ line.toList) :
    splitLines (joinLines lines) = lines := by
  have hjoined : (joinLines lines).toList = [separator].intercalate (lines.map String.toList) := by
    simp [joinLines]
  have hcut : ([separator].intercalate (lines.map String.toList)).splitOn separator
      = lines.map String.toList := by
    refine List.splitOn_intercalate separator ?_ (by simpa using hne)
    intro line hline
    obtain ⟨text, htext, rfl⟩ := List.mem_map.mp hline
    exact hlines text htext
  rw [splitLines, hjoined, hcut, List.map_map]
  simp

theorem zipWith_lines (batch : Batch) :
    List.zipWith Pair.mk batch.sourceLines batch.targetLines = batch.pairs := by
  unfold Batch.sourceLines Batch.targetLines
  induction batch.pairs with
  | nil => rfl
  | cons pair rest ih => simp [ih]

/-! ### Reading -/

section StandsAt

variable {file : ByteArray} {position : Nat}

/-- **A record reads back as its batch, and the next one starts behind it.** -/
theorem decode_of_standsAt {batch : Batch} (h : StandsAt file position (bytes batch))
    (hfits : Fits batch) (hne : batch.pairs ≠ []) (hlines : ∀ p ∈ batch.pairs, p.OnOneLine) :
    decode file position = .ok (some (batch, position + (bytes batch).size)) := by
  have hcount : wordAt file position = .ok batch.size := by
    refine h.left.wordAt_eq (Nat.lt_trans hfits.size ?_)
    decide
  have htexts : StandsAt file (position + 4)
      (text (joinLines batch.sourceLines) ++ text (joinLines batch.targetLines)) := by
    have hstands := h.right
    rw [size_word] at hstands
    exact hstands
  have hsource := htexts.left.textAt_eq hfits.source
  have htarget := htexts.right.textAt_eq hfits.target
  have hsources : splitLines (joinLines batch.sourceLines) = batch.sourceLines := by
    refine splitLines_joinLines (by simpa [Batch.sourceLines] using hne) ?_
    intro line hline
    obtain ⟨p, hp, rfl⟩ := List.mem_map.mp hline
    exact (hlines p hp).1
  have htargets : splitLines (joinLines batch.targetLines) = batch.targetLines := by
    refine splitLines_joinLines (by simpa [Batch.targetLines] using hne) ?_
    intro line hline
    obtain ⟨p, hp, rfl⟩ := List.mem_map.mp hline
    exact (hlines p hp).2
  have hpos : 0 < batch.size := List.length_pos_iff.mpr hne
  have hsigned : signed batch.size = batch.size := signed_of_lt hfits.size
  have hnotEnd : ¬(batch.size : Int) = endMark := by
    unfold endMark
    omega
  have hnotBad : ¬(batch.size : Int) ≤ 0 := by omega
  have hsizes : ¬((batch.sourceLines.length : Int) ≠ batch.size ∨
      (batch.targetLines.length : Int) ≠ batch.size) := by
    simp [Batch.sourceLines, Batch.targetLines, Batch.size]
  simp only [decode, hcount, hsigned, hsource, htarget, hsources, htargets, bind, Except.bind,
    if_neg hnotEnd, if_neg hnotBad, if_neg hsizes, zipWith_lines]
  show Except.ok _ = _
  simp only [bytes, ByteArray.size_append, size_word, Nat.add_assoc]

/-- The end mark reads as the end. -/
theorem decode_endBytes (h : StandsAt file position endBytes) :
    decode file position = .ok none := by
  have hcount : wordAt file position = .ok (wordRange - 1) := h.wordAt_eq (by decide)
  have hsigned : signed (wordRange - 1) = endMark := by decide
  simp only [decode, hcount, hsigned, bind, Except.bind]
  rfl

end StandsAt

end BatchRecord

end Bitext
