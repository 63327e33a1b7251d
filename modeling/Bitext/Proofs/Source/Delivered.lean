/-
The line pairs that a bitext delivers.

What is between two line feeds holds no line feed, and no character but the line feed has
the byte of the line feed in its encoding; so no line that is delivered holds one, whatever
the file holds.  This is why a line feed can separate the lines of a batch.
-/
import Bitext.Proofs.Record.BatchRecord
import Bitext.Proofs.Text.Line
import Bitext.Source.LinePairs

namespace Bitext

namespace TextLines

/-! ### Lines -/

theorem bytes_of_mem_ofPieces {line : RawLine} (pieces : List (List UInt8)) :
    line ∈ ofPieces pieces → line.bytes ∈ pieces := by
  induction pieces with
  | nil => intro h; simp [ofPieces] at h
  | cons piece rest ih =>
      intro h
      cases rest with
      | nil =>
          unfold ofPieces at h
          split at h
          · simp at h
          · rw [List.mem_singleton.mp h]
            simp
      | cons other others =>
          rcases List.mem_cons.mp h with rfl | h
          · simp
          · exact List.mem_cons_of_mem piece (ih h)

theorem dropReturn_subset (bytes : List UInt8) : dropReturn bytes ⊆ bytes := by
  unfold dropReturn
  split
  · exact List.dropLast_subset bytes
  · exact List.Subset.refl bytes

theorem content_subset (line : RawLine) : line.content ⊆ line.bytes := by
  unfold RawLine.content
  refine List.Subset.trans (dropReturn_subset _) ?_
  split
  · exact dropReturn_subset line.bytes
  · exact List.Subset.refl line.bytes

/-- A text with a line feed has the byte of the line feed in its encoding. -/
theorem lineFeed_mem_toUTF8 {text : String} (h : '\n' ∈ text.toList) :
    lineFeed ∈ text.toUTF8.data.toList := by
  have hbytes : text.toUTF8.data.toList = text.toList.flatMap String.utf8EncodeChar := by
    show text.toByteArray.data.toList = _
    rw [← String.utf8Encode_toList]
    simp [List.utf8Encode]
  rw [hbytes, List.mem_flatMap]
  exact ⟨'\n', h, by decide⟩

theorem toUTF8_of_text {line : RawLine} {text : String} (h : line.text = .ok text) :
    text.toUTF8.data.toList = line.content := by
  unfold RawLine.text at h
  split at h
  · rename_i found hfound
    obtain rfl := Except.ok.inj h
    rw [Utf8.fromUTF8?_eq_some_iff.mp hfound, List.data_toByteArray]
  · simp at h

/-- **No line of a file holds a line feed.** -/
theorem not_mem_of_mem_ofNode {node : Node} {text : String} (h : .ok text ∈ ofNode node) :
    '\n' ∉ text.toList := by
  cases node with
  | folder => simp [ofNode] at h
  | file bytes =>
      obtain ⟨line, hline, htext⟩ := List.mem_map.mp h
      have hpiece := bytes_of_mem_ofPieces _ hline
      rw [List.splitOn_eq_splitOnP] at hpiece
      intro hmem
      have hbyte := lineFeed_mem_toUTF8 hmem
      rw [toUTF8_of_text htext] at hbyte
      have hcut := (Text.mem_piece bytes.data.toList _ hpiece (content_subset line hbyte)).2
      simp at hcut

end TextLines

/-! ### Line pairs -/

namespace LineReader

/-- A pair that is delivered is the next line of either side, and the reader goes on behind it. -/
theorem of_step_delivered {reader rest : LineReader} {found : LinePair}
    (h : reader.step = .delivered found rest) :
    reader.source = .ok found.pair.source :: rest.source ∧
      reader.target = .ok found.pair.target :: rest.target ∧ rest.finished = false := by
  unfold step at h
  simp only at h
  split at h
  · simp at h
  · simp at h
  · simp at h
  · unfold oneSided at h; split at h <;> simp at h
  · unfold oneSided at h; split at h <;> simp at h
  · rename_i hsource htarget
    split at h
    · simp at h
    · obtain ⟨rfl, rfl⟩ := Step.delivered.inj h
      exact ⟨hsource, htarget, rfl⟩

theorem readAll_of_ended {reader : LineReader} (h : reader.step = .ended) :
    reader.readAll = ⟨[], none⟩ := by
  rw [readAll]
  split <;> simp_all

theorem readAll_of_failed {reader : LineReader} {fault : Fault} (h : reader.step = .failed fault) :
    reader.readAll = ⟨[], some fault⟩ := by
  rw [readAll]
  split <;> simp_all

theorem readAll_of_delivered {reader rest : LineReader} {found : LinePair}
    (h : reader.step = .delivered found rest) :
    reader.readAll = ⟨found :: rest.readAll.pairs, rest.readAll.fault⟩ := by
  rw [readAll]
  split <;> simp_all

/-- Both lines of a pair that is delivered are lines of their files. -/
theorem mem_readAll {found : LinePair} (reader : LineReader) :
    found ∈ reader.readAll.pairs →
      .ok found.pair.source ∈ reader.source ∧ .ok found.pair.target ∈ reader.target := by
  induction reader using readAll.induct with
  | case1 reader hstep =>
      intro h
      rw [readAll_of_ended hstep] at h
      cases h
  | case2 reader fault hstep =>
      intro h
      rw [readAll_of_failed hstep] at h
      cases h
  | case3 reader first rest hstep ih =>
      intro h
      obtain ⟨hsource, htarget, -⟩ := of_step_delivered hstep
      rw [hsource, htarget]
      rw [readAll_of_delivered hstep] at h
      rcases List.mem_cons.mp h with rfl | h
      · simp
      · exact ⟨List.mem_cons_of_mem _ (ih h).1, List.mem_cons_of_mem _ (ih h).2⟩

end LineReader

/-- The reader of a file pair has the lines of both files, and has delivered nothing. -/
theorem FilePair.of_openReader_ok {disk : Disk} {files : FilePair} {reader : LineReader}
    (h : files.openReader disk = .ok reader) :
    ∃ sources targets, openSide disk .source files.source = .ok sources ∧
      openSide disk .target files.target = .ok targets ∧ reader = ⟨sources, targets, 0, false⟩ := by
  simp only [openReader, bind, Except.bind] at h
  split at h
  · cases h
  · rename_i sources hsources
    split at h
    · cases h
    · rename_i targets htargets
      exact ⟨sources, targets, hsources, htargets, (Except.ok.inj h).symm⟩

/-- The line pairs that a file pair delivers, up to its end or to the fault that it
has. -/
def FilePair.delivered (disk : Disk) (files : FilePair) : List Pair :=
  match files.openReader disk with
  | .ok reader => reader.readAll.pairs.map (·.pair)
  | .error _ => []

theorem FilePair.mem_of_openSide {disk : Disk} {side : Side} {path : Path} {text : String}
    {lines : List (Except Cause String)} (h : openSide disk side path = .ok lines)
    (hmem : .ok text ∈ lines) : '\n' ∉ text.toList := by
  unfold openSide at h
  split at h
  · obtain rfl := Except.ok.inj h
    exact TextLines.not_mem_of_mem_ofNode hmem
  · simp at h

/-- **A delivered pair is one line on either side.** -/
theorem FilePair.onOneLine_of_delivered {disk : Disk} {files : FilePair} {pair : Pair}
    (h : pair ∈ files.delivered disk) : pair.OnOneLine := by
  unfold delivered at h
  split at h
  · rename_i reader hreader
    obtain ⟨found, hfound, rfl⟩ := List.mem_map.mp h
    obtain ⟨hsource, htarget⟩ := LineReader.mem_readAll reader hfound
    obtain ⟨sources, targets, hsources, htargets, rfl⟩ := of_openReader_ok hreader
    exact ⟨mem_of_openSide hsources hsource, mem_of_openSide htargets htarget⟩
  · simp at h

end Bitext
