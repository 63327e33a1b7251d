/-
Only what was written is read.

A record has one written form.  Whatever a decoder accepts at a position stands there as its
encoder writes it, because the numbers, the texts and the lines that come out leave no choice
for the bytes that they came from: a length pins a text, a text pins its bytes, and the lines of
a side pin the side.  Reading and writing are thus the two directions of one equivalence, which
each part has and from which the records have it.

What makes this true of batches is what the decoder refuses.  A count below one has no batch, and
a side that falls into fewer or more lines than there are pairs would lose some of them.
-/
import Bitext.Proofs.Record.BatchRecord
import Bitext.Proofs.Record.PairRecord
import Bitext.Proofs.Text.Line

namespace Bitext

/-! ### Parts -/

namespace Bytes

variable {file part first second : ByteArray} {position count n next : Nat} {s : String}

/-- A part stands where cutting the file gives it. -/
theorem standsAt_iff :
    StandsAt file position part ↔
      position + part.size ≤ file.size ∧ file.extract position (position + part.size) = part := by
  constructor
  · intro h
    have hslice := h.slice_eq
    rw [slice, if_pos h.le_size] at hslice
    exact ⟨h.le_size, Except.ok.inj hslice⟩
  · rintro ⟨hle, hcut⟩
    refine ⟨file.extract 0 position, file.extract (position + part.size) file.size, ?_, ?_⟩
    · have hfront := file.extract_eq_extract_append_extract position (Nat.zero_le _)
        (Nat.le_add_right position part.size)
      have hwhole := file.extract_eq_extract_append_extract (position + part.size)
        (Nat.zero_le _) hle
      rw [hfront, hcut, ByteArray.extract_zero_size] at hwhole
      exact hwhole
    · rw [ByteArray.size_extract]
      omega

/-- Two parts stand side by side when the second stands where the first ends. -/
theorem StandsAt.join (hfirst : StandsAt file position first)
    (hsecond : StandsAt file (position + first.size) second) :
    StandsAt file position (first ++ second) := by
  obtain ⟨-, hcutFirst⟩ := standsAt_iff.mp hfirst
  obtain ⟨hle, hcutSecond⟩ := standsAt_iff.mp hsecond
  refine standsAt_iff.mpr ⟨?_, ?_⟩
  · rw [ByteArray.size_append]
    omega
  · rw [ByteArray.size_append, ← Nat.add_assoc,
      ByteArray.extract_eq_extract_append_extract (position + first.size) (by omega) (by omega),
      hcutFirst, hcutSecond]

theorem slice_ok_iff :
    slice file position count = .ok part ↔ part.size = count ∧ StandsAt file position part := by
  constructor
  · intro h
    unfold slice at h
    split at h
    · rename_i hle
      obtain rfl := Except.ok.inj h
      have hsize : (file.extract position (position + count)).size = count := by
        rw [ByteArray.size_extract]
        omega
      refine ⟨hsize, standsAt_iff.mpr ⟨?_, ?_⟩⟩
      · rw [hsize]
        exact hle
      · rw [hsize]
    · cases h
  · rintro ⟨rfl, h⟩
    exact h.slice_eq

theorem toNat_lt (bytes : List UInt8) : toNat bytes < 256 ^ bytes.length := by
  induction bytes with
  | nil => exact Nat.one_pos
  | cons b rest ih =>
      have hb := UInt8.toNat_lt b
      rw [toNat, List.length_cons, Nat.pow_succ]
      omega

/-- **The number at a position is the one that is written there.** -/
theorem wordAt_ok_iff :
    wordAt file position = .ok n ↔ n < wordRange ∧ StandsAt file position (word n) := by
  constructor
  · intro h
    unfold wordAt at h
    cases hslice : slice file position 4 with
    | error fault => simp [hslice, Except.map] at h
    | ok found =>
        rw [hslice] at h
        obtain rfl := Except.ok.inj h
        obtain ⟨hsize, hstands⟩ := slice_ok_iff.mp hslice
        have hlength : found.data.toList.length = 4 := hsize
        refine ⟨?_, ?_⟩
        · have hlt := toNat_lt found.data.toList
          rw [hlength] at hlt
          exact hlt
        · have hback := littleEndian_toNat found.data.toList
          rw [hlength] at hback
          have hfound : found.data.toList.toByteArray = found := by
            apply ByteArray.ext
            rw [List.data_toByteArray, Array.toArray_toList]
          rw [word, hback, hfound]
          exact hstands
  · rintro ⟨hn, h⟩
    exact h.wordAt_eq hn

/-- **The text at a position is the one that is written there.** -/
theorem textAt_ok_iff :
    textAt file position = .ok (s, next) ↔
      s.utf8ByteSize < wordRange ∧ StandsAt file position (text s) ∧
        next = position + (text s).size := by
  constructor
  · intro h
    simp only [textAt, bind, Except.bind] at h
    split at h
    · cases h
    · rename_i length hlength
      split at h
      · cases h
      · rename_i content hcontent
        split at h
        · rename_i found hfound
          obtain ⟨rfl, rfl⟩ := Prod.mk.inj (Except.ok.inj h)
          obtain ⟨hlt, hword⟩ := wordAt_ok_iff.mp hlength
          obtain ⟨hsize, hstands⟩ := slice_ok_iff.mp hcontent
          have hbytes := Utf8.toUTF8_of_decode hfound
          have hcount : found.utf8ByteSize = length := by
            rw [← hsize, ← hbytes]
            rfl
          refine ⟨by rw [hcount]; exact hlt, ?_, by rw [size_text, hcount, Nat.add_assoc]⟩
          rw [text, hcount, hbytes]
          refine hword.join ?_
          rw [size_word]
          exact hstands
        · cases h
  · rintro ⟨hs, h, rfl⟩
    exact h.textAt_eq hs

/-- A number that reads as positive is the number that was written. -/
theorem lt_signedRange_of_signed_pos (hn : n < wordRange) (h : 0 < signed n) : n < signedRange := by
  by_contra hge
  rw [signed, if_neg hge] at h
  omega

end Bytes

/-! ### Batches -/

namespace BatchRecord

open Bytes

variable {file : ByteArray} {position next : Nat} {batch : Batch}

/-- A batch of which its record keeps everything: it fits, it holds a pair, and every side is one
line. -/
structure Storable (batch : Batch) : Prop where
  fits : Fits batch
  pairs : batch.pairs ≠ []
  onOneLine : ∀ p ∈ batch.pairs, p.OnOneLine

theorem joinLines_splitLines (side : String) : joinLines (splitLines side) = side := by
  have hchars : (joinLines (splitLines side)).toList = side.toList := by
    simp [joinLines, splitLines, List.map_map, Function.comp_def, List.intercalate_splitOn]
  exact String.toList_inj.mp hchars

theorem not_mem_of_mem_splitLines (side : String) {line : String} (h : line ∈ splitLines side) :
    separator ∉ line.toList := by
  obtain ⟨chars, hchars, rfl⟩ := List.mem_map.mp h
  rw [List.splitOn_eq_splitOnP] at hchars
  rw [String.toList_ofList]
  intro hmem
  have hcut := (Text.mem_piece side.toList chars hchars hmem).2
  simp at hcut

/-- The two sides of pairs made from as many lines each are these lines. -/
theorem lines_zipWith (sources targets : List String) (h : sources.length = targets.length) :
    (⟨List.zipWith Pair.mk sources targets⟩ : Batch).sourceLines = sources ∧
      (⟨List.zipWith Pair.mk sources targets⟩ : Batch).targetLines = targets := by
  induction sources generalizing targets with
  | nil =>
      obtain rfl := List.length_eq_zero_iff.mp h.symm
      exact ⟨rfl, rfl⟩
  | cons source rest ih =>
      cases targets with
      | nil => simp at h
      | cons target others =>
          obtain ⟨hsources, htargets⟩ := ih others (Nat.succ.inj h)
          exact ⟨congrArg (source :: ·) hsources, congrArg (target :: ·) htargets⟩

/-- The batch of two sides that fall into as many lines. -/
def ofSides (source target : String) : Batch :=
  ⟨List.zipWith Pair.mk (splitLines source) (splitLines target)⟩

/-- Nothing of the two sides is lost in their batch, and no line of it can be broken. -/
theorem ofSides_spec {source target : String} {n : Nat} (hsources : (splitLines source).length = n)
    (htargets : (splitLines target).length = n) :
    (ofSides source target).size = n ∧
      joinLines (ofSides source target).sourceLines = source ∧
      joinLines (ofSides source target).targetLines = target ∧
      ∀ p ∈ (ofSides source target).pairs, p.OnOneLine := by
  have hlines := lines_zipWith (splitLines source) (splitLines target) (by omega)
  obtain ⟨hsourceLines, htargetLines⟩ :
      (ofSides source target).sourceLines = splitLines source ∧
        (ofSides source target).targetLines = splitLines target := hlines
  refine ⟨?_, ?_, ?_, fun p hp => ⟨not_mem_of_mem_splitLines source ?_,
    not_mem_of_mem_splitLines target ?_⟩⟩
  · rw [← hsources, ← hsourceLines, Batch.sourceLines, List.length_map, Batch.size]
  · rw [hsourceLines, joinLines_splitLines]
  · rw [htargetLines, joinLines_splitLines]
  · rw [← hsourceLines]
    exact List.mem_map_of_mem hp
  · rw [← htargetLines]
    exact List.mem_map_of_mem hp

/-- What a decoder has found when it refuses nothing: the end mark, or a count and two sides of as
many lines. -/
theorem of_decode_ok {found : Option (Batch × Nat)} (h : decode file position = .ok found) :
    ∃ n, wordAt file position = .ok n ∧
      (signed n = endMark ∧ found = none ∨
        ∃ source target middle next, 0 < signed n ∧
          textAt file (position + 4) = .ok (source, middle) ∧
          textAt file middle = .ok (target, next) ∧
          ((splitLines source).length : Int) = signed n ∧
          ((splitLines target).length : Int) = signed n ∧
          found = some (ofSides source target, next)) := by
  obtain ⟨n, hn, h⟩ := exists_of_bind_ok h
  refine ⟨n, hn, ?_⟩
  by_cases hend : signed n = endMark
  · rw [if_pos hend] at h
    exact .inl ⟨hend, (Except.ok.inj h).symm⟩
  rw [if_neg hend] at h
  by_cases hcount : signed n ≤ 0
  · rw [if_pos hcount] at h
    cases h
  rw [if_neg hcount] at h
  obtain ⟨⟨source, middle⟩, hsource, h⟩ := exists_of_bind_ok h
  obtain ⟨⟨target, next⟩, htarget, h⟩ := exists_of_bind_ok h
  dsimp only at h
  refine .inr ⟨source, target, middle, next, by omega, hsource, htarget, ?_⟩
  by_cases hlines : ((splitLines source).length : Int) ≠ signed n ∨
      ((splitLines target).length : Int) ≠ signed n
  · rw [if_pos hlines] at h
    cases h
  rw [if_neg hlines] at h
  refine ⟨by omega, by omega, (Except.ok.inj h).symm⟩

/-- **A batch is read exactly where its record stands.** -/
theorem decode_eq_some_iff :
    decode file position = .ok (some (batch, next)) ↔
      Storable batch ∧ StandsAt file position (bytes batch) ∧
        next = position + (bytes batch).size := by
  constructor
  · intro h
    obtain ⟨n, hcount, ⟨-, hnone⟩ | hbatch⟩ := of_decode_ok h
    · cases hnone
    obtain ⟨source, target, middle, last, hpos, hsource, htarget, hsources, htargets, hfound⟩ :=
      hbatch
    obtain ⟨rfl, rfl⟩ := Prod.mk.inj (Option.some.inj hfound)
    obtain ⟨hn, hword⟩ := wordAt_ok_iff.mp hcount
    obtain ⟨hsourceSize, hsourceStands, rfl⟩ := textAt_ok_iff.mp hsource
    obtain ⟨htargetSize, htargetStands, rfl⟩ := textAt_ok_iff.mp htarget
    have hsigned := lt_signedRange_of_signed_pos hn hpos
    rw [signed_of_lt hsigned] at hsources htargets hpos
    obtain ⟨hsize, hsourceSide, htargetSide, honOneLine⟩ :=
      ofSides_spec (Int.ofNat_inj.mp hsources) (Int.ofNat_inj.mp htargets)
    have hbytes : bytes (ofSides source target) = word n ++ (text source ++ text target) := by
      rw [bytes, hsize, hsourceSide, htargetSide]
    refine ⟨⟨⟨?_, ?_, ?_⟩, ?_, honOneLine⟩, ?_, ?_⟩
    · rw [hsize]
      exact hsigned
    · rw [hsourceSide]
      exact hsourceSize
    · rw [htargetSide]
      exact htargetSize
    · intro hnil
      have hzero : (ofSides source target).size = 0 := by rw [Batch.size, hnil, List.length_nil]
      omega
    · rw [hbytes]
      refine hword.join ?_
      rw [size_word]
      exact hsourceStands.join htargetStands
    · rw [hbytes]
      simp only [ByteArray.size_append, size_word]
      omega
  · rintro ⟨hbatch, h, rfl⟩
    exact decode_of_standsAt h hbatch.fits hbatch.pairs hbatch.onOneLine

/-- The bytes that were passed for a batch are its record. -/
theorem extract_of_decode (h : decode file position = .ok (some (batch, next))) :
    position < next ∧ next ≤ file.size ∧ file.extract position next = bytes batch := by
  obtain ⟨-, hstands, rfl⟩ := decode_eq_some_iff.mp h
  obtain ⟨hle, hcut⟩ := standsAt_iff.mp hstands
  have hcount : 4 ≤ (bytes batch).size := by
    rw [bytes, ByteArray.size_append, size_word]
    omega
  exact ⟨by omega, hle, hcut⟩

/-- The end is read exactly where its mark stands. -/
theorem decode_eq_none_iff :
    decode file position = .ok none ↔ StandsAt file position endBytes := by
  constructor
  · intro h
    obtain ⟨n, hcount, ⟨hend, -⟩ | ⟨_, _, _, _, _, _, _, _, _, hsome⟩⟩ := of_decode_ok h
    · obtain ⟨hn, hword⟩ := wordAt_ok_iff.mp hcount
      have hlast : n = wordRange - 1 := by
        have hrange : wordRange = 4294967296 := rfl
        unfold signed signedRange endMark at hend
        split at hend <;> omega
      rw [hlast] at hword
      exact hword
    · cases hsome
  · exact decode_endBytes

end BatchRecord

/-! ### Pairs -/

namespace PairRecord

open Bytes

variable {file : ByteArray} {offset : Nat} {record : PairRecord} {p : Admitted}

/-- **A pair is read exactly where its record stands.** -/
theorem readAt_ok_iff (hp : ofAdmitted p = record) :
    readAt file offset = .ok record ↔ Fits p ∧ StandsAt file offset (encode p) := by
  constructor
  · intro h
    obtain ⟨header, hheader, h⟩ := exists_of_bind_ok h
    obtain ⟨sourceTokens, hsourceTokens, hheader⟩ := exists_of_bind_ok hheader
    obtain ⟨targetTokens, htargetTokens, hheader⟩ := exists_of_bind_ok hheader
    obtain ⟨⟨source, middle⟩, hsource, h⟩ := exists_of_bind_ok h
    obtain ⟨⟨target, last⟩, htarget, h⟩ := exists_of_bind_ok h
    obtain rfl := Except.ok.inj hheader
    obtain rfl := Except.ok.inj h
    obtain ⟨hsourceCount, hfirst⟩ := wordAt_ok_iff.mp hsourceTokens
    obtain ⟨htargetCount, hsecond⟩ := wordAt_ok_iff.mp htargetTokens
    obtain ⟨hsourceSize, hthird, rfl⟩ := textAt_ok_iff.mp hsource
    obtain ⟨htargetSize, hfourth, -⟩ := textAt_ok_iff.mp htarget
    obtain ⟨⟨pSource, pTarget⟩, pSourceTokens, pTargetTokens, clipped, key⟩ := p
    obtain ⟨⟨rfl, rfl⟩, rfl, rfl⟩ :
        (pSourceTokens = sourceTokens ∧ pTargetTokens = targetTokens) ∧
          pSource = source ∧ pTarget = target := by
      simpa [ofAdmitted] using hp
    refine ⟨⟨hsourceCount, htargetCount, hsourceSize, htargetSize⟩, ?_⟩
    refine hfirst.join ?_
    rw [size_word]
    refine hsecond.join ?_
    rw [size_word]
    exact hthird.join hfourth
  · rintro ⟨hfits, h⟩
    rw [← hp]
    exact readAt_of_standsAt h hfits

/-- The bytes that a pair was read from are its record. -/
theorem extract_of_readAt (h : readAt file offset = .ok record) (hp : ofAdmitted p = record) :
    offset + BlobWriter.recordSize record.pair ≤ file.size ∧
      file.extract offset (offset + BlobWriter.recordSize record.pair) = encode p := by
  have hstands := standsAt_iff.mp ((readAt_ok_iff hp).mp h).2
  rw [size_encode] at hstands
  rw [← hp]
  exact hstands

/-- A record that is read lies inside its file. -/
theorem le_size_of_readAt (h : readAt file offset = .ok record) :
    offset + BlobWriter.recordSize record.pair ≤ file.size := by
  obtain ⟨hle, -⟩ := extract_of_readAt h
    (p := ⟨record.pair, record.header.sourceTokens, record.header.targetTokens, false, 0⟩) rfl
  exact hle

end PairRecord

end Bitext
