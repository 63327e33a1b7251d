/-
A blob, written pair by pair.

What a pair adds to the file is told by the pair alone: its record when it fits, and otherwise
the parts in front of the one that does not fit.  The file is therefore the pieces of all pairs
that were handed in, side by side.  The position counts whole records and nothing else; so a
record stands behind the offset that was answered for it, by as many bytes as pairs that were
refused before it have left.

Where no pair is refused nothing is left, and every offset leads to its record.  The same is true
where pairs are refused for their first part only, the number of source tokens.  A pair that is
refused later puts all records that follow it out of place.
-/
import Bitext.Proofs.Build.Index

namespace Bitext

open Bytes

/-- Parts side by side. -/
def Bytes.sideBySide (parts : List ByteArray) : ByteArray := parts.foldr (· ++ ·) .empty

theorem Bytes.sideBySide_append (first second : List ByteArray) :
    sideBySide (first ++ second) = sideBySide first ++ sideBySide second := by
  induction first with
  | nil => exact ByteArray.empty_append.symm
  | cons part rest ih =>
      show part ++ sideBySide (rest ++ second) = part ++ sideBySide rest ++ sideBySide second
      rw [ih, ByteArray.append_assoc]

/-! ### What a pair adds to the file -/

namespace PairRecord

/-- What a pair that does not fit leaves in the file: the parts in front of the first one that
does not fit. -/
def leftover (p : Admitted) : ByteArray :=
  if wordRange ≤ p.sourceTokens then .empty
  else if wordRange ≤ p.targetTokens then word p.sourceTokens
  else if wordRange ≤ p.pair.source.utf8ByteSize then word p.sourceTokens ++ word p.targetTokens
  else word p.sourceTokens ++ (word p.targetTokens ++ text p.pair.source)

/-- What a pair adds to the file. -/
def piece (p : Admitted) : ByteArray := if Fits p then encode p else leftover p

/-- How far a pair moves the position. -/
def counted (p : Admitted) : Nat := if Fits p then BlobWriter.recordSize p.pair else 0

/-- The bytes that a pair adds without moving the position. -/
def uncounted (p : Admitted) : Nat := if Fits p then 0 else (leftover p).size

variable {p : Admitted}

theorem size_piece (p : Admitted) : (piece p).size = counted p + uncounted p := by
  unfold piece counted uncounted
  by_cases h : Fits p
  · rw [if_pos h, if_pos h, if_pos h, size_encode, Nat.add_zero]
  · rw [if_neg h, if_neg h, if_neg h, Nat.zero_add]

theorem word?_of_le {n : Nat} (h : wordRange ≤ n) (what : Context) :
    word? what n = .error ⟨.numberTooLarge, [what]⟩ := by
  rw [word?, if_neg (Nat.not_lt.mpr h)]

theorem text?_of_le {s : String} (h : wordRange ≤ s.utf8ByteSize) :
    text? s = .error ⟨.numberTooLarge, [.storingText s.utf8ByteSize]⟩ := by
  rw [text?_eq, if_neg (Nat.not_lt.mpr h)]

/-- A pair that does not fit is refused with its first parts written. -/
theorem write_of_not_fits (h : ¬Fits p) (bytes : ByteArray) :
    ∃ fault, write bytes (parts p) = (bytes ++ leftover p, some fault) := by
  unfold parts leftover
  by_cases hsourceTokens : wordRange ≤ p.sourceTokens
  · rw [word?_of_le hsourceTokens, if_pos hsourceTokens, ByteArray.append_empty]
    exact ⟨_, rfl⟩
  rw [word?_of_lt (Nat.not_le.mp hsourceTokens), if_neg hsourceTokens]
  by_cases htargetTokens : wordRange ≤ p.targetTokens
  · rw [word?_of_le htargetTokens, if_pos htargetTokens]
    exact ⟨_, rfl⟩
  rw [word?_of_lt (Nat.not_le.mp htargetTokens), if_neg htargetTokens]
  by_cases hsource : wordRange ≤ p.pair.source.utf8ByteSize
  · rw [text?_of_le hsource, if_pos hsource, ← ByteArray.append_assoc]
    exact ⟨_, rfl⟩
  rw [text?_of_lt (Nat.not_le.mp hsource), if_neg hsource]
  by_cases htarget : wordRange ≤ p.pair.target.utf8ByteSize
  · rw [text?_of_le htarget, ← ByteArray.append_assoc, ← ByteArray.append_assoc]
    exact ⟨_, rfl⟩
  · exact absurd ⟨Nat.not_le.mp hsourceTokens, Nat.not_le.mp htargetTokens,
      Nat.not_le.mp hsource, Nat.not_le.mp htarget⟩ h

/-- Nothing is left exactly where the first part is the one that does not fit. -/
theorem leftover_eq_empty_iff : leftover p = .empty ↔ wordRange ≤ p.sourceTokens := by
  constructor
  · intro h
    by_contra hfits
    have hsize := congrArg ByteArray.size h
    rw [leftover, if_neg hfits] at hsize
    split at hsize
    · rw [size_word] at hsize
      cases hsize
    · split at hsize
      · rw [ByteArray.size_append, size_word] at hsize
        cases hsize
      · rw [ByteArray.size_append, size_word, ByteArray.size_empty] at hsize
        omega
  · intro h
    rw [leftover, if_pos h]

end PairRecord

/-! ### Appending one pair after another -/

namespace BlobWriter

open PairRecord

/-- Appends pairs one after another, and goes on behind a pair that is refused.  The answers come
with the writer in the end. -/
def appendEach (writer : BlobWriter) : List Admitted → List (Except Fault Nat) × BlobWriter
  | [] => ([], writer)
  | p :: rest =>
      let (answer, next) := writer.append p
      let (answers, last) := next.appendEach rest
      (answer :: answers, last)

/-- The writer with the pieces of pairs behind what it has written. -/
def withPieces (writer : BlobWriter) (pairs : List Admitted) : BlobWriter where
  file := writer.file
  bytes := writer.bytes ++ sideBySide (pairs.map piece)
  position := writer.position + (pairs.map counted).sum
  records := writer.records + pairs.countP (Fits ·)

variable {writer : BlobWriter} {p : Admitted} {pairs : List Admitted}

theorem append_of_fits (h : Fits p) (writer : BlobWriter) :
    writer.append p = (.ok writer.position, writer.withPieces [p]) := by
  have hpiece : sideBySide [piece p] = encode p := by
    rw [piece, if_pos h]
    exact ByteArray.append_empty
  have hcounted : [counted p].sum = recordSize p.pair := by
    rw [counted, if_pos h]
    exact Nat.add_zero _
  have hone : [p].countP (Fits ·) = 1 := by simp [h]
  rw [append, write_of_fits h, withPieces, List.map_singleton, List.map_singleton, hpiece, hcounted,
    hone]

/-- A pair that does not fit is refused, and nothing moves but the end of the bytes. -/
theorem append_of_not_fits (h : ¬Fits p) (writer : BlobWriter) :
    ∃ fault, writer.append p
      = (.error fault, { writer with bytes := writer.bytes ++ leftover p }) := by
  obtain ⟨fault, hwrite⟩ := write_of_not_fits h writer.bytes
  refine ⟨fault, ?_⟩
  rw [append, hwrite]

theorem append_writer (writer : BlobWriter) (p : Admitted) :
    (writer.append p).2 = writer.withPieces [p] := by
  by_cases h : Fits p
  · rw [append_of_fits h]
  · have hpiece : sideBySide [piece p] = leftover p := by
      rw [piece, if_neg h]
      exact ByteArray.append_empty
    have hcounted : [counted p].sum = 0 := by
      rw [counted, if_neg h]
      rfl
    have hnone : [p].countP (Fits ·) = 0 := by simp [h]
    obtain ⟨fault, hrefused⟩ := append_of_not_fits h writer
    rw [hrefused, withPieces, List.map_singleton, List.map_singleton, hpiece, hcounted, hnone]
    rfl

theorem withPieces_nil (writer : BlobWriter) : writer.withPieces [] = writer := by
  show { writer with bytes := writer.bytes ++ .empty } = writer
  rw [ByteArray.append_empty]

theorem withPieces_append (writer : BlobWriter) (first second : List Admitted) :
    (writer.withPieces first).withPieces second = writer.withPieces (first ++ second) := by
  simp only [withPieces, List.map_append, sideBySide_append, List.sum_append, List.countP_append,
    ByteArray.append_assoc, Nat.add_assoc]

theorem withPieces_take_succ {k : Nat} (h : pairs[k]? = some p) (writer : BlobWriter) :
    writer.withPieces (pairs.take (k + 1)) = (writer.withPieces (pairs.take k)).withPieces [p] := by
  rw [withPieces_append, List.take_add_one, h, Option.toList_some]

/-- **The file is the pieces of the pairs side by side, and the position counts the records
among them.** -/
theorem appendEach_writer (pairs : List Admitted) :
    ∀ writer : BlobWriter, (writer.appendEach pairs).2 = writer.withPieces pairs := by
  induction pairs with
  | nil => intro writer; exact writer.withPieces_nil.symm
  | cons p rest ih =>
      intro writer
      show ((writer.append p).2.appendEach rest).2 = _
      rw [append_writer, ih, withPieces_append, List.singleton_append]

theorem getElem?_answers (pairs : List Admitted) :
    ∀ (writer : BlobWriter) {k : Nat}, pairs[k]? = some p →
      (writer.appendEach pairs).1[k]? = some ((writer.withPieces (pairs.take k)).append p).1 := by
  induction pairs with
  | nil => intro writer k h; cases h
  | cons first rest ih =>
      intro writer k h
      show ((writer.append first).1 :: ((writer.append first).2.appendEach rest).1)[k]? = _
      cases k with
      | zero =>
          obtain rfl := Option.some.inj h
          rw [List.take_zero, withPieces_nil]
          rfl
      | succ k =>
          rw [List.getElem?_cons_succ, append_writer, ih _ h, withPieces_append]
          rfl

theorem length_answers (pairs : List Admitted) :
    ∀ writer : BlobWriter, (writer.appendEach pairs).1.length = pairs.length := by
  induction pairs with
  | nil => intro writer; rfl
  | cons p rest ih => intro writer; exact congrArg (· + 1) (ih (writer.append p).2)

/-- The positions of the writer before each of the pairs. -/
def positions (writer : BlobWriter) (pairs : List Admitted) : List Nat :=
  (List.range pairs.length).map fun k => (writer.withPieces (pairs.take k)).position

theorem getElem?_positions (writer : BlobWriter) {k : Nat} (h : k < pairs.length) :
    (writer.positions pairs)[k]? = some (writer.withPieces (pairs.take k)).position := by
  rw [positions, List.getElem?_map, List.getElem?_range h]
  rfl

/-- A pair that fits moves the position by its record. -/
theorem next_position {k next : Nat} (hp : pairs[k]? = some p) (hfits : Fits p)
    (hnext : (writer.positions pairs)[k + 1]? = some next) :
    next = (writer.withPieces (pairs.take k)).position + recordSize p.pair := by
  have hk : k + 1 < pairs.length := by
    obtain ⟨hlt, -⟩ := List.getElem?_eq_some_iff.mp hnext
    rwa [positions, List.length_map, List.length_range] at hlt
  rw [getElem?_positions writer hk, withPieces_take_succ hp] at hnext
  obtain rfl := Option.some.inj hnext
  show _ + (counted p + 0) = _
  rw [counted, if_pos hfits, Nat.add_zero]

/-- Pairs that fit are answered by the positions. -/
theorem answers_of_fits (h : ∀ p ∈ pairs, Fits p) (writer : BlobWriter) :
    (writer.appendEach pairs).1 = (writer.positions pairs).map .ok := by
  apply List.ext_getElem?
  intro k
  rw [List.getElem?_map]
  by_cases hk : k < pairs.length
  · rw [getElem?_answers pairs writer (List.getElem?_eq_getElem hk), getElem?_positions writer hk,
      append_of_fits (h _ (List.getElem_mem hk))]
    rfl
  · rw [List.getElem?_eq_none (by rw [length_answers]; omega), positions,
      List.getElem?_eq_none (by rw [List.length_map, List.length_range]; omega)]
    rfl

/-- A writer is as it was if nothing was added to its bytes. -/
theorem withBytes_eq_iff {part : ByteArray} :
    { writer with bytes := writer.bytes ++ part } = writer ↔ part = .empty := by
  constructor
  · intro h
    have hsize := congrArg (fun after => after.bytes.size) h
    simp only [ByteArray.size_append] at hsize
    exact ByteArray.size_eq_zero_iff.mp (by omega)
  · rintro rfl
    rw [ByteArray.append_empty]

/-! ### Where the records stand -/

/-- The bytes that refused pairs have left. -/
def lost (pairs : List Admitted) : Nat := (pairs.map uncounted).sum

theorem lost_eq_zero (h : ∀ p ∈ pairs, ¬Fits p → wordRange ≤ p.sourceTokens) : lost pairs = 0 := by
  refine List.sum_eq_zero fun n hn => ?_
  obtain ⟨p, hp, rfl⟩ := List.mem_map.mp hn
  unfold uncounted
  by_cases hfits : Fits p
  · rw [if_pos hfits]
  · rw [if_neg hfits, leftover_eq_empty_iff.mpr (h p hp hfits)]
    rfl

theorem lost_of_fits (h : ∀ p ∈ pairs, Fits p) : lost pairs = 0 :=
  lost_eq_zero fun p hp hunfit => absurd (h p hp) hunfit

theorem size_sideBySide_pieces (pairs : List Admitted) :
    (sideBySide (pairs.map piece)).size = (pairs.map counted).sum + lost pairs := by
  induction pairs with
  | nil => rfl
  | cons p rest ih =>
      show (piece p ++ sideBySide (rest.map piece)).size
        = counted p + (rest.map counted).sum + (uncounted p + lost rest)
      rw [ByteArray.size_append, size_piece, ih]
      omega

/-- What refused pairs leave comes between the position and the end of the bytes. -/
theorem size_withPieces (h : writer.position = writer.bytes.size) (pairs : List Admitted) :
    (writer.withPieces pairs).bytes.size = (writer.withPieces pairs).position + lost pairs := by
  simp only [withPieces, ByteArray.size_append, size_sideBySide_pieces, h]
  omega

/-- The piece of a pair stands where the pieces before it end. -/
theorem standsAt_piece {k : Nat} (h : pairs[k]? = some p) (writer : BlobWriter) :
    StandsAt (writer.withPieces pairs).bytes (writer.withPieces (pairs.take k)).bytes.size
      (piece p) := by
  obtain ⟨hlt, rfl⟩ := List.getElem?_eq_some_iff.mp h
  have hsplit : writer.withPieces pairs
      = (writer.withPieces (pairs.take k)).withPieces (pairs[k] :: pairs.drop (k + 1)) := by
    rw [withPieces_append, ← List.drop_eq_getElem_cons hlt, List.take_append_drop]
  rw [hsplit]
  exact (StandsAt.last _ _).left

theorem content_of_fits (h : ∀ p ∈ pairs, Fits p) (file : TemporaryFile) :
    ((ofFile file).withPieces pairs).bytes = sideBySide (pairs.map encode) ∧
      ((ofFile file).withPieces pairs).records = pairs.length := by
  constructor
  · have hpieces : pairs.map piece = pairs.map encode :=
      List.map_congr_left fun p hp => if_pos (h p hp)
    show .empty ++ sideBySide (pairs.map piece) = _
    rw [ByteArray.empty_append, hpieces]
  · show 0 + pairs.countP (Fits ·) = pairs.length
    rw [Nat.zero_add, List.countP_eq_length]
    exact fun p hp => decide_eq_true (h p hp)

/-! ### The finished blob -/

section

variable {folder : Path} {w opened : Workspace}

theorem of_create_ok (h : (create folder).run w = (.ok writer, opened)) :
    ∃ file, writer = ofFile file ∧ opened.disk.isFile file.location = true ∧
      file.location ≠ [] := by
  rw [run_create] at h
  cases hcreate : w.disk.createTemporary folder ending with
  | mk result disk =>
      rw [hcreate] at h
      cases result with
      | error reason => cases (Prod.mk.inj h).1
      | ok file =>
          obtain ⟨hwriter, rfl⟩ := Prod.mk.inj h
          obtain ⟨hdrawn, hfile, -⟩ := Disk.of_createTemporary_ok hcreate
          refine ⟨file, (Except.ok.inj hwriter).symm, ?_, hdrawn.ne_nil⟩
          show disk.isFile file.location = true
          rw [Disk.isFile, hfile]

/-- A writer that went on from a new file can be finished, and the file holds what was written. -/
theorem exists_finish (h : (create folder).run w = (.ok writer, opened)) (pairs : List Admitted) :
    ∃ blob after, (writer.withPieces pairs).finish.run opened = (.ok blob, after) ∧
      after.disk.bytesAt blob.file.location = .ok (writer.withPieces pairs).bytes ∧
      blob.records = (writer.withPieces pairs).records ∧
      blob.bytes = if (writer.withPieces pairs).position = 0 then .empty
        else (writer.withPieces pairs).bytes := by
  obtain ⟨file, rfl, hfile, hne⟩ := of_create_ok h
  refine ⟨_, _, run_finish _ hfile hne, ?_, rfl, rfl⟩
  show ((opened.disk.put file.location _).bytesAt file.location) = _
  rw [Disk.bytesAt, Disk.node?_put_self hne]

/-- A blob of which a pair is a record does not read as empty. -/
theorem position_ne_zero {k : Nat} (hp : pairs[k]? = some p) (hfits : Fits p)
    (writer : BlobWriter) : (writer.withPieces pairs).position ≠ 0 := by
  intro hzero
  have hsum : (pairs.map counted).sum = 0 := by
    have hposition : writer.position + (pairs.map counted).sum = 0 := hzero
    omega
  have hcounted := List.sum_eq_zero_iff_forall_eq_nat.mp hsum (counted p)
    (List.mem_map_of_mem (List.mem_of_getElem? hp))
  rw [counted, if_pos hfits, recordSize] at hcounted
  omega

/-- **A record is found behind the offset that was answered for it, by what was left before.** -/
theorem recordAt_of_fits (h : (create folder).run w = (.ok writer, opened)) {blob : Blob}
    (hblob : blob.bytes = if (writer.withPieces pairs).position = 0 then .empty
      else (writer.withPieces pairs).bytes)
    {k : Nat} (hp : pairs[k]? = some p) (hfits : Fits p) :
    blob.recordAt ((writer.withPieces (pairs.take k)).position + lost (pairs.take k))
      = .ok (ofAdmitted p) := by
  obtain ⟨file, rfl, -, -⟩ := of_create_ok h
  -- where the position is zero the blob reads as empty, even if refused pairs have left bytes
  rw [if_neg (position_ne_zero hp hfits _)] at hblob
  have hstands := standsAt_piece hp (ofFile file)
  rw [size_withPieces rfl, piece, if_pos hfits, ← hblob] at hstands
  exact readAt_of_standsAt hstands hfits

/-- **What is written to a blob is read from it.**  Let the pairs fit their fields.  All of them
are appended, the first one at zero and each other one behind the record before it, and the
position is always the number of bytes that are written.  When the blob is finished, the file is
the records side by side, there are as many records as pairs, and each of the offsets leads to the
counts and the texts of its pair. -/
theorem written_pairs_are_read_back (h : (create folder).run w = (.ok writer, opened))
    (hfits : ∀ p ∈ pairs, Fits p) :
    ∃ (offsets : List Nat) (blob : Blob) (after : Workspace),
      (writer.appendEach pairs).1 = offsets.map .ok ∧
      (∀ k, (writer.appendEach (pairs.take k)).2.position
        = (writer.appendEach (pairs.take k)).2.bytes.size) ∧
      (writer.appendEach pairs).2.finish.run opened = (.ok blob, after) ∧
      blob.bytes = sideBySide (pairs.map encode) ∧
      after.disk.bytesAt blob.file.location = .ok (sideBySide (pairs.map encode)) ∧
      blob.records = pairs.length ∧
      ∀ (k : Nat) (p : Admitted), pairs[k]? = some p → ∃ offset : Nat, offsets[k]? = some offset ∧
        (k = 0 → offset = 0) ∧
        (∀ next : Nat, offsets[k + 1]? = some next →
          next = offset + (16 + p.pair.source.utf8ByteSize + p.pair.target.utf8ByteSize)) ∧
        blob.recordAt offset = .ok ⟨⟨p.sourceTokens, p.targetTokens⟩, p.pair⟩ ∧
        blob.headerAt offset = .ok ⟨p.sourceTokens, p.targetTokens⟩ := by
  obtain ⟨blob, after, hfinish, hfile, hrecords, hbytes⟩ := exists_finish h pairs
  have hinStep : ∀ k, (writer.withPieces (pairs.take k)).position
      = (writer.withPieces (pairs.take k)).bytes.size := by
    intro k
    have hlost := lost_of_fits fun p hp => hfits p (List.take_subset k pairs hp)
    obtain ⟨file, rfl, -, -⟩ := of_create_ok h
    rw [size_withPieces rfl, hlost, Nat.add_zero]
  have hwhole : (writer.withPieces pairs).position = (writer.withPieces pairs).bytes.size := by
    rw [← List.take_length (l := pairs)]
    exact hinStep pairs.length
  have hcontent : (writer.withPieces pairs).bytes = sideBySide (pairs.map encode) ∧
      (writer.withPieces pairs).records = pairs.length := by
    obtain ⟨file, rfl, -, -⟩ := of_create_ok h
    exact content_of_fits hfits file
  rw [bytes_of_inStep hwhole] at hbytes
  refine ⟨writer.positions pairs, blob, after, answers_of_fits hfits writer, ?_, ?_, ?_, ?_, ?_,
    fun k p hp => ?_⟩
  · intro k
    rw [appendEach_writer]
    exact hinStep k
  · rw [appendEach_writer]
    exact hfinish
  · rw [hbytes, hcontent.1]
  · rw [hfile, hcontent.1]
  · rw [hrecords, hcontent.2]
  · obtain ⟨hk, -⟩ := List.getElem?_eq_some_iff.mp hp
    refine ⟨_, getElem?_positions writer hk, ?_, ?_, ?_⟩
    · rintro rfl
      obtain ⟨file, rfl, -, -⟩ := of_create_ok h
      rfl
    · exact fun next hnext => next_position hp (hfits p (List.mem_of_getElem? hp)) hnext
    · have hread := recordAt_of_fits h (by rw [hbytes, bytes_of_inStep hwhole]) hp
        (hfits p (List.mem_of_getElem? hp))
      rw [lost_of_fits fun p hp => hfits p (List.take_subset k pairs hp), Nat.add_zero] at hread
      exact ⟨hread, headerAt_of_readAt hread⟩

end

/-- Two pairs: tabs, a line feed, an empty text and characters of several bytes. -/
def variedPairs : List Admitted :=
  [⟨⟨"über\tgroß", "b\nc"⟩, 2, 2, false, 1⟩, ⟨⟨"", "z"⟩, 0, 1, true, 7⟩]

/-- There is room for a blob beside the two files. -/
theorem exists_create_twoFiles :
    ∃ file opened, (create ⟨"/tmp"⟩).run ⟨Build.twoFiles, #[]⟩ = (.ok (ofFile file), opened) := by
  have hroom : ∃ file disk, Build.twoFiles.createTemporary ⟨"/tmp"⟩ ending = (.ok file, disk) :=
    Disk.createTemporary_ok_iff.mpr ⟨by decide, ⟨[.given "tmp"], by cbv⟩, rfl⟩
  obtain ⟨file, disk, hcreate⟩ := hroom
  exact ⟨file, _, by rw [run_create, hcreate]⟩

/-- The two pairs are read back at zero and at thirty. -/
theorem two_pairs_are_read_back :
    ∃ (file : TemporaryFile) (opened : Workspace) (blob : Blob) (after : Workspace),
      (create ⟨"/tmp"⟩).run ⟨Build.twoFiles, #[]⟩ = (.ok (ofFile file), opened) ∧
      ((ofFile file).appendEach variedPairs).1[0]? = some (Except.ok 0) ∧
      ((ofFile file).appendEach variedPairs).1[1]? = some (Except.ok 30) ∧
      ((ofFile file).appendEach variedPairs).2.finish.run opened = (.ok blob, after) ∧
      blob.records = 2 ∧
      blob.recordAt 0 = .ok ⟨⟨2, 2⟩, ⟨"über\tgroß", "b\nc"⟩⟩ ∧
      blob.recordAt 30 = .ok ⟨⟨0, 1⟩, ⟨"", "z"⟩⟩ := by
  obtain ⟨file, opened, hcreate⟩ := exists_create_twoFiles
  have hfits : ∀ p ∈ variedPairs, Fits p := by decide
  obtain ⟨offsets, blob, after, hanswers, -, hfinish, -, -, hrecords, hread⟩ :=
    written_pairs_are_read_back hcreate hfits
  obtain ⟨first, hfirst, hzero, hnext, hreadFirst, -⟩ := hread 0 _ rfl
  obtain ⟨second, hsecond, -, -, hreadSecond, -⟩ := hread 1 _ rfl
  obtain rfl := hzero rfl
  obtain rfl : second = 30 := (hnext second hsecond).trans (by decide)
  refine ⟨file, opened, blob, after, hcreate, ?_, ?_, hfinish, hrecords, hreadFirst, hreadSecond⟩
  · rw [hanswers, List.getElem?_map, hfirst]
    rfl
  · rw [hanswers, List.getElem?_map, hsecond]
    rfl

section

variable {folder : Path} {w opened : Workspace}

/-- **A record stands behind the offset that was answered for it, by what refused pairs have
left.**  Whatever pairs are handed to the writer of a new file, it can be finished.  A pair that
does not fit is refused; position and number of records stay, and its first parts stay in the file,
so that the writer is as it was exactly if the number of source tokens is what does not fit.  A
pair that fits is answered by the position.  Its record is found that far behind what was left
before it, and at the offset itself if every pair before it that was refused left nothing. -/
theorem records_stand_behind_what_was_left (h : (create folder).run w = (.ok writer, opened))
    (pairs : List Admitted) :
    ∃ (blob : Blob) (after : Workspace),
      (writer.appendEach pairs).2.finish.run opened = (.ok blob, after) ∧
      ∀ (k : Nat) (p : Admitted), pairs[k]? = some p →
        (¬Fits p →
          (∃ fault, (writer.appendEach pairs).1[k]? = some (.error fault)) ∧
          (writer.appendEach (pairs.take (k + 1))).2
            = { (writer.appendEach (pairs.take k)).2 with
                bytes := (writer.appendEach (pairs.take k)).2.bytes ++ leftover p } ∧
          ((writer.appendEach (pairs.take (k + 1))).2 = (writer.appendEach (pairs.take k)).2 ↔
            wordRange ≤ p.sourceTokens)) ∧
        (Fits p → ∃ offset, (writer.appendEach pairs).1[k]? = some (.ok offset) ∧
          offset = (writer.appendEach (pairs.take k)).2.position ∧
          blob.recordAt (offset + lost (pairs.take k)) = .ok (ofAdmitted p) ∧
          ((∀ q ∈ pairs.take k, ¬Fits q → wordRange ≤ q.sourceTokens) →
            blob.recordAt offset = .ok (ofAdmitted p))) := by
  obtain ⟨blob, after, hfinish, -, -, hbytes⟩ := exists_finish h pairs
  refine ⟨blob, after, by rw [appendEach_writer]; exact hfinish, fun k p hp => ⟨?_, ?_⟩⟩
  · intro hunfit
    obtain ⟨fault, hrefused⟩ := append_of_not_fits hunfit (writer.withPieces (pairs.take k))
    have hnext : writer.withPieces (pairs.take (k + 1))
        = { writer.withPieces (pairs.take k) with
            bytes := (writer.withPieces (pairs.take k)).bytes ++ leftover p } := by
      rw [withPieces_take_succ hp, ← append_writer, hrefused]
    rw [getElem?_answers pairs writer hp, appendEach_writer, appendEach_writer, hrefused]
    refine ⟨⟨fault, rfl⟩, hnext, ?_⟩
    rw [hnext, ← leftover_eq_empty_iff]
    exact withBytes_eq_iff
  · intro hfits
    have hread := recordAt_of_fits h hbytes hp hfits
    refine ⟨_, ?_, ?_, hread, ?_⟩
    · rw [getElem?_answers pairs writer hp, append_of_fits hfits]
    · rw [appendEach_writer]
    · intro hfirst
      rwa [lost_eq_zero hfirst, Nat.add_zero] at hread

end

/-- The first of these pairs has too many source tokens, and the third one too many target
tokens. -/
def someUnfit : List Admitted :=
  [⟨⟨"a", "b"⟩, 4294967296, 1, false, 0⟩, ⟨⟨"c", "d"⟩, 1, 1, false, 0⟩,
    ⟨⟨"e", "f"⟩, 1, 4294967296, false, 0⟩, ⟨⟨"g", "h"⟩, 1, 1, false, 0⟩]

theorem last_of_some_unfit :
    ∃ (file : TemporaryFile) (opened : Workspace) (blob : Blob) (after : Workspace),
      (create ⟨"/tmp"⟩).run ⟨Build.twoFiles, #[]⟩ = (.ok (ofFile file), opened) ∧
      ((ofFile file).appendEach someUnfit).2.finish.run opened = (.ok blob, after) ∧
      ((ofFile file).appendEach someUnfit).1[1]? = some (Except.ok 0) ∧
      blob.recordAt 0 = .ok ⟨⟨1, 1⟩, ⟨"c", "d"⟩⟩ ∧
      ((ofFile file).appendEach someUnfit).1[3]? = some (Except.ok 18) ∧
      blob.recordAt 22 = .ok ⟨⟨1, 1⟩, ⟨"g", "h"⟩⟩ := by
  obtain ⟨file, opened, hcreate⟩ := exists_create_twoFiles
  obtain ⟨blob, after, hfinish, hpairs⟩ := records_stand_behind_what_was_left hcreate someUnfit
  obtain ⟨first, hfirst, rfl, -, hreadFirst⟩ := (hpairs 1 _ rfl).2 (by decide)
  obtain ⟨last, hlast, rfl, hreadLast, -⟩ := (hpairs 3 _ rfl).2 (by decide)
  exact ⟨file, opened, blob, after, hcreate, hfinish, hfirst, hreadFirst (by decide), hlast,
    hreadLast⟩

/-- The first of these pairs has too many target tokens, and the second one fits. -/
def unfitThenFit : List Admitted :=
  [⟨⟨"a", "b"⟩, 1, 4294967296, false, 0⟩, ⟨⟨"c", "d"⟩, 1, 1, false, 0⟩]

/-- The refused pair has written to the file, and the offset of the pair behind it leads to bytes
that are no record. -/
theorem refused_pair_puts_the_next_out_of_place :
    ∃ (file : TemporaryFile) (opened : Workspace) (fault : Fault) (blob : Blob) (after : Workspace),
      (create ⟨"/tmp"⟩).run ⟨Build.twoFiles, #[]⟩ = (.ok (ofFile file), opened) ∧
      ((ofFile file).appendEach unfitThenFit).1 = [.error fault, .ok 0] ∧
      ((ofFile file).appendEach (unfitThenFit.take 1)).2.bytes ≠ (ofFile file).bytes ∧
      ((ofFile file).appendEach unfitThenFit).2.finish.run opened = (.ok blob, after) ∧
      blob.recordAt 0 = .error ⟨17, .tooShort 1660944384 5⟩ := by
  obtain ⟨file, opened, hcreate⟩ := exists_create_twoFiles
  obtain ⟨blob, after, hfinish, -, -, hbytes⟩ := exists_finish hcreate unfitThenFit
  refine ⟨file, opened, _, blob, after, hcreate, rfl, ?_, ?_, ?_⟩
  · intro h
    have hsize : 4 = 0 := congrArg ByteArray.size h
    cases hsize
  · rw [appendEach_writer]
    exact hfinish
  · show PairRecord.readAt blob.bytes 0 = _
    rw [hbytes]
    cbv

end BlobWriter

end Bitext
