/-
Sharding does not change the epoch.

A file pair may be cut in two: both of its files behind a line feed, and both behind the same
number of lines.  A line feed ends a line whatever comes next, so the lines of a file that is cut
behind one are the lines of its front and then those of its back; a carriage return that belongs to
the line feed stays with it, and a blank line stays a line of its own.

That is enough when the reader of the whole files has delivered all their lines.  Then no line is
blank on both sides and neither file ends before the other, and this is true of either part as well.
The parts deliver what the whole delivers, first the front and then the back, and they end cleanly.
Without that it fails: behind a line that is blank on both sides the whole would be read no further,
and the second part would be read from its start.

A build does not see where its files end, and an epoch sees nothing of the files but the build.
-/
import Bitext.Proofs.Build.Boundaries
import Bitext.Proofs.Replay
import Bitext.Proofs.Source.Reading

namespace Bitext

/-! ### A file that is cut -/

namespace TextLines

/-- The last byte is a line feed. -/
def IsEnded (bytes : List UInt8) : Prop := bytes.getLast? = some lineFeed

theorem isEnded_of_isEnded_append {bytes rest : List UInt8} (hrest : rest ≠ [])
    (h : IsEnded (bytes ++ lineFeed :: rest)) : IsEnded rest := by
  cases rest with
  | nil => exact absurd rfl hrest
  | cons b others =>
      rw [IsEnded, List.getLast?_append, List.getLast?_cons_cons] at h
      rw [IsEnded]
      simpa using h

/-- What stands behind a line feed is read as if it stood alone. -/
theorem Holds.append {front back : List UInt8} {lines others : List (List UInt8)}
    (h : Holds front lines) (hended : IsEnded front) (hback : Holds back others) :
    Holds (front ++ back) (lines ++ others) := by
  induction h with
  | nothing => cases hended
  | rest _ hfeed => exact absurd (List.mem_of_getLast? hended) hfeed
  | @ended bytes once line rest lines hfeed honce hoff hrest ih =>
      rw [List.append_assoc, List.cons_append]
      refine .ended hfeed honce hoff ?_
      by_cases hlast : rest = []
      · subst hlast
        obtain rfl : lines = [] := holds_iff.mp hrest
        exact hback
      · exact ih (isEnded_of_isEnded_append hlast hended)

/-- **A file that is cut behind a line feed has the lines of its front and of its back.** -/
theorem ofNode_append {front back : ByteArray} (h : IsEnded front.data.toList) :
    ofNode (.file (front ++ back)) = ofNode (.file front) ++ ofNode (.file back) := by
  have hlines := holds_iff.mp ((holds_contents front.data.toList).append h
    (holds_contents back.data.toList))
  rw [ofNode_file, ofNode_file, ofNode_file, ← List.map_append, hlines, ByteArray.data_append,
    Array.toList_append]

end TextLines

/-! ### Lines that are all delivered -/

namespace LineReader

/-- The reader of two files whose lines are those of line pairs. -/
def ofPairs (pairs : List Pair) (n : Nat) : LineReader :=
  ⟨pairs.map fun p => .ok p.source, pairs.map fun p => .ok p.target, n, false⟩

/-- No line is blank on both sides. -/
def NotBlank (pairs : List Pair) : Prop := ∀ p ∈ pairs, ¬(p.source = "" ∧ p.target = "")

instance (pairs : List Pair) : Decidable (NotBlank pairs) :=
  inferInstanceAs (Decidable (∀ p ∈ pairs, _))

/-- All lines of both files are delivered in a pair, each under its number. -/
def DeliversAll (reader : LineReader) : Prop :=
  ∀ n, n < reader.source.length ∨ n < reader.target.length →
    ∃ found ∈ reader.readAll.pairs, found.line = reader.delivered + n + 1

variable {reader rest : LineReader} {found : LinePair}

/-- **Line pairs are delivered as they stand**, when no line is blank on both sides. -/
theorem readAll_ofPairs (pairs : List Pair) : NotBlank pairs → ∀ n : Nat,
    (ofPairs pairs n).readAll.fault = none ∧
      (ofPairs pairs n).readAll.pairs.map (·.pair) = pairs := by
  induction pairs with
  | nil =>
      intro _ n
      have hstep : (ofPairs [] n).step = .ended := rfl
      rw [readAll_of_ended hstep]
      exact ⟨rfl, rfl⟩
  | cons p later ih =>
      intro hblank n
      obtain ⟨hfirst, hlater⟩ := List.forall_mem_cons.mp hblank
      have hstep : (ofPairs (p :: later) n).step
          = .delivered ⟨n + 1, p⟩ (ofPairs later (n + 1)) := if_neg hfirst
      obtain ⟨hfault, hpairs⟩ := ih hlater (n + 1)
      rw [readAll_of_delivered hstep, List.map_cons, hpairs]
      exact ⟨hfault, rfl⟩

/-- A pair that is delivered has the next number and is not blank on both sides. -/
theorem numbered_of_step_delivered (h : reader.step = .delivered found rest) :
    found.line = reader.delivered + 1 ∧ rest.delivered = reader.delivered + 1 ∧
      ¬(found.pair.source = "" ∧ found.pair.target = "") := by
  obtain ⟨hsource, htarget, -⟩ := of_step_delivered h
  simp only [step, hsource, htarget] at h
  split at h
  · cases h
  · rename_i hblank
    obtain ⟨hfound, hrest⟩ := Step.delivered.inj h
    exact ⟨congrArg LinePair.line hfound.symm, congrArg LineReader.delivered hrest.symm, hblank⟩

theorem eq_of_fields {other : LineReader} (hsource : reader.source = other.source)
    (htarget : reader.target = other.target) (hdelivered : reader.delivered = other.delivered)
    (hfinished : reader.finished = other.finished) : reader = other := by
  obtain ⟨source, target, delivered, finished⟩ := reader
  subst hsource htarget hdelivered hfinished
  rfl

/-- A reader that delivers all lines and delivers nothing has no lines. -/
theorem DeliversAll.eq_ofPairs_nil (h : reader.DeliversAll) (hfinished : reader.finished = false)
    (hnone : reader.readAll.pairs = []) : reader = ofPairs [] reader.delivered := by
  have hleft : ¬(0 < reader.source.length ∨ 0 < reader.target.length) := by
    intro hsome
    obtain ⟨found, hfound, -⟩ := h 0 hsome
    rw [hnone] at hfound
    cases hfound
  have hsource : reader.source = [] := List.length_eq_zero_iff.mp (by omega)
  have htarget : reader.target = [] := List.length_eq_zero_iff.mp (by omega)
  exact eq_of_fields hsource htarget rfl hfinished

/-- The reader behind a pair delivers all lines as well. -/
theorem DeliversAll.of_step (h : reader.DeliversAll) (hstep : reader.step = .delivered found rest) :
    rest.DeliversAll := by
  obtain ⟨hsource, htarget, -⟩ := of_step_delivered hstep
  obtain ⟨hline, hnext, -⟩ := numbered_of_step_delivered hstep
  intro n hn
  have hbehind : n + 1 < reader.source.length ∨ n + 1 < reader.target.length := by
    rw [hsource, htarget, List.length_cons, List.length_cons]
    omega
  obtain ⟨other, hother, hnumber⟩ := h (n + 1) hbehind
  rw [readAll_of_delivered hstep] at hother
  rcases List.mem_cons.mp hother with rfl | hother
  · omega
  · exact ⟨other, hother, by omega⟩

/-- **A reader that delivers all lines has the lines of the pairs that it delivers.** -/
theorem DeliversAll.eq_ofPairs (reader : LineReader) :
    reader.DeliversAll → reader.finished = false →
      reader = ofPairs (reader.readAll.pairs.map (·.pair)) reader.delivered ∧
        NotBlank (reader.readAll.pairs.map (·.pair)) := by
  induction reader using readAll.induct with
  | case1 reader hstep =>
      intro hall hfinished
      have hread := readAll_of_ended hstep
      have hlines := hall.eq_ofPairs_nil hfinished (by rw [hread])
      rw [hread]
      exact ⟨hlines, List.forall_mem_nil _⟩
  | case2 reader fault hstep =>
      intro hall hfinished
      have hread := readAll_of_failed hstep
      have hlines := hall.eq_ofPairs_nil hfinished (by rw [hread])
      rw [hread]
      exact ⟨hlines, List.forall_mem_nil _⟩
  | case3 reader found rest hstep ih =>
      intro hall hfinished
      obtain ⟨hsource, htarget, hrest⟩ := of_step_delivered hstep
      obtain ⟨-, -, hblank⟩ := numbered_of_step_delivered hstep
      obtain ⟨hlines, hblanks⟩ := ih (hall.of_step hstep) hrest
      rw [readAll_of_delivered hstep, List.map_cons]
      refine ⟨eq_of_fields ?_ ?_ rfl hfinished, List.forall_mem_cons.mpr ⟨hblank, hblanks⟩⟩
      · rw [hsource, congrArg LineReader.source hlines]
        rfl
      · rw [htarget, congrArg LineReader.target hlines]
        rfl

end LineReader

/-! ### A file pair that is cut -/

namespace FilePair

/-- Every line of both files is delivered as part of a line pair. -/
def DeliversAll (disk : Disk) (files : FilePair) : Prop :=
  ∃ reader, files.openReader disk = .ok reader ∧ reader.DeliversAll

/-- A file pair is cut in two: the contents of its files are those of the parts' files, of which
the first ones end with a line feed and have the same number of lines. -/
def CutInto (disk : Disk) (whole : FilePair) (other : Disk) (first second : FilePair) : Prop :=
  ∃ sourceFront sourceBack targetFront targetBack : ByteArray,
    whole.contents disk
      = (.ok (.file (sourceFront ++ sourceBack)), .ok (.file (targetFront ++ targetBack))) ∧
    first.contents other = (.ok (.file sourceFront), .ok (.file targetFront)) ∧
    second.contents other = (.ok (.file sourceBack), .ok (.file targetBack)) ∧
    TextLines.IsEnded sourceFront.data.toList ∧ TextLines.IsEnded targetFront.data.toList ∧
    (TextLines.ofNode (.file sourceFront)).length = (TextLines.ofNode (.file targetFront)).length

variable {disk other : Disk} {files whole first second : FilePair} {pairs : List Pair}

open LineReader (ofPairs NotBlank)
open Admission (groupsMatch)

/-- A file pair whose lines are those of line pairs delivers them. -/
theorem of_openReader_ofPairs (hopen : files.openReader disk = .ok (ofPairs pairs 0))
    (hblank : NotBlank pairs) (hgroups : ∀ p ∈ pairs, groupsMatch p = true) :
    files.delivered disk = pairs ∧ files.EndsCleanly disk := by
  obtain ⟨hfault, hpairs⟩ := LineReader.readAll_ofPairs pairs hblank 0
  refine ⟨?_, endsCleanly_iff.mpr ⟨_, hopen, hfault, fun found hfound => ?_⟩⟩
  · rw [delivered, hopen]
    exact hpairs
  · refine hgroups found.pair ?_
    rw [← hpairs]
    exact List.mem_map_of_mem hfound

/-- A clean file pair that delivers all its lines has the lines of the pairs it delivers. -/
theorem DeliversAll.openReader_eq (hall : whole.DeliversAll disk)
    (hclean : whole.EndsCleanly disk) :
    whole.openReader disk = .ok (ofPairs (whole.delivered disk) 0) ∧
      NotBlank (whole.delivered disk) ∧ ∀ p ∈ whole.delivered disk, groupsMatch p = true := by
  obtain ⟨reader, hopen, hlines⟩ := hall
  obtain ⟨_, hsame, -, hgroups⟩ := endsCleanly_iff.mp hclean
  obtain rfl := Except.ok.inj (hopen.symm.trans hsame)
  obtain ⟨_, _, -, -, hfresh⟩ := of_openReader_ok hopen
  have hdelivered : whole.delivered disk = reader.readAll.pairs.map (·.pair) := by
    rw [delivered, hopen]
  have hstart : reader.delivered = 0 := by rw [hfresh]
  obtain ⟨heq, hblank⟩ := LineReader.DeliversAll.eq_ofPairs reader hlines (by rw [hfresh])
  rw [hstart] at heq
  rw [hdelivered]
  refine ⟨hopen.trans (congrArg Except.ok heq), hblank, fun p hp => ?_⟩
  obtain ⟨found, hfound, rfl⟩ := List.mem_map.mp hp
  exact hgroups found hfound

/-- **The parts deliver what the whole delivers**, and they end cleanly. -/
theorem CutInto.delivered_eq (hcut : whole.CutInto disk other first second)
    (hall : whole.DeliversAll disk) (hclean : whole.EndsCleanly disk) :
    whole.delivered disk = first.delivered other ++ second.delivered other ∧
      first.EndsCleanly other ∧ second.EndsCleanly other := by
  obtain ⟨sourceFront, sourceBack, targetFront, targetBack, hwhole, hfirst, hsecond, hsourceEnded,
    htargetEnded, hlength⟩ := hcut
  obtain ⟨hopen, hblank, hgroups⟩ := hall.openReader_eq hclean
  obtain ⟨hsource, htarget⟩ := Prod.mk.inj hwhole
  obtain ⟨hfirstSource, hfirstTarget⟩ := Prod.mk.inj hfirst
  obtain ⟨hsecondSource, hsecondTarget⟩ := Prod.mk.inj hsecond
  -- the lines of either side fall into those of the front and those of the back
  rw [openReader_of_found hsource htarget] at hopen
  have hreader := Except.ok.inj hopen
  have hsources := (TextLines.ofNode_append hsourceEnded).symm.trans
    (congrArg LineReader.source hreader)
  have htargets := (TextLines.ofNode_append htargetEnded).symm.trans
    (congrArg LineReader.target hreader)
  obtain ⟨front, back, hpairs, hsourceFront, hsourceBack⟩ := List.map_eq_append_iff.mp hsources.symm
  obtain ⟨others, rest, hothers, htargetFront, htargetBack⟩ :=
    List.map_eq_append_iff.mp htargets.symm
  have hsameLength : front.length = others.length := by
    rw [← hsourceFront, ← htargetFront, List.length_map, List.length_map] at hlength
    exact hlength
  obtain ⟨rfl, rfl⟩ := List.append_inj (hpairs.symm.trans hothers) hsameLength
  have hopenFirst : first.openReader other = .ok (ofPairs front 0) := by
    rw [openReader_of_found hfirstSource hfirstTarget, ← hsourceFront, ← htargetFront]
    rfl
  have hopenSecond : second.openReader other = .ok (ofPairs back 0) := by
    rw [openReader_of_found hsecondSource hsecondTarget, ← hsourceBack, ← htargetBack]
    rfl
  rw [hpairs] at hblank hgroups ⊢
  obtain ⟨hdeliveredFirst, hcleanFirst⟩ := of_openReader_ofPairs hopenFirst
    (fun p hp => hblank p (List.mem_append_left _ hp))
    (fun p hp => hgroups p (List.mem_append_left _ hp))
  obtain ⟨hdeliveredSecond, hcleanSecond⟩ := of_openReader_ofPairs hopenSecond
    (fun p hp => hblank p (List.mem_append_right _ hp))
    (fun p hp => hgroups p (List.mem_append_right _ hp))
  rw [hdeliveredFirst, hdeliveredSecond]
  exact ⟨rfl, hcleanFirst, hcleanSecond⟩

end FilePair

/-! ### File pairs that are cut -/

/-- Some of the file pairs are cut in two, and the others have the same contents. -/
inductive Sharded (disk other : Disk) : List FilePair → List FilePair → Prop
  | nil : Sharded disk other [] []
  | same {files copy : FilePair} {rest copies : List FilePair} :
      files.contents disk = copy.contents other → Sharded disk other rest copies →
      Sharded disk other (files :: rest) (copy :: copies)
  | cut {whole first second : FilePair} {rest copies : List FilePair} :
      whole.DeliversAll disk → whole.CutInto disk other first second →
      Sharded disk other rest copies →
      Sharded disk other (whole :: rest) (first :: second :: copies)

/-- **Shards deliver what their files deliver**, and they end cleanly when their files do. -/
theorem Sharded.delivered_eq {disk other : Disk} {pairs shards : List FilePair}
    (h : Sharded disk other pairs shards) (hclean : ∀ files ∈ pairs, files.EndsCleanly disk) :
    Build.delivered other shards = Build.delivered disk pairs ∧
      ∀ files ∈ shards, files.EndsCleanly other := by
  induction h with
  | nil => exact ⟨rfl, fun files hfiles => by cases hfiles⟩
  | same hsame _ ih =>
      obtain ⟨hfiles, hrest⟩ := List.forall_mem_cons.mp hclean
      obtain ⟨hdelivered, hcopies⟩ := ih hrest
      refine ⟨?_, List.forall_mem_cons.mpr ⟨hfiles.of_contents hsame, hcopies⟩⟩
      rw [Build.delivered, Build.delivered, List.flatMap_cons, List.flatMap_cons,
        hfiles.delivered_eq hsame]
      exact congrArg (_ ++ ·) hdelivered
  | cut hall hcut _ ih =>
      obtain ⟨hwhole, hrest⟩ := List.forall_mem_cons.mp hclean
      obtain ⟨hdelivered, hcopies⟩ := ih hrest
      obtain ⟨hparts, hfirst, hsecond⟩ := hcut.delivered_eq hall hwhole
      refine ⟨?_, List.forall_mem_cons.mpr ⟨hfirst, List.forall_mem_cons.mpr ⟨hsecond, hcopies⟩⟩⟩
      rw [Build.delivered, Build.delivered, List.flatMap_cons, List.flatMap_cons,
        List.flatMap_cons, hparts, ← List.append_assoc]
      exact congrArg (_ ++ ·) hdelivered

/-- What can be made in a folder of one disk for a build and for an epoch can be made on the
other. -/
structure Disk.AsMuchRoom (disk other : Disk) (folder : Path) : Prop where
  forBlob : (∃ file after, disk.createTemporary folder BlobWriter.ending = (.ok file, after)) →
    ∃ file after, other.createTemporary folder BlobWriter.ending = (.ok file, after)
  forEpoch : disk.HasRoom folder → other.HasRoom folder

theorem Disk.AsMuchRoom.refl (disk : Disk) (folder : Path) : disk.AsMuchRoom disk folder := ⟨id, id⟩

/-- **Sharding does not change the epoch.**  Let an index be built of file pairs, and let some of
these be cut in two whose lines are all delivered.  On any disk with as much room, for instance on
the same one, the index of the shards can be built.  Its blob has the same bytes and records, it
holds the same offsets in the same buckets, and its tally is the same.  So every generator draws the
same batches from it, and what a call for an epoch of the files yields, the same call yields of
the shards. -/
theorem sharding_does_not_change_the_epoch {settings : Settings} {files shards : FileSet}
    {w v after : Workspace} {built : BuiltIndex}
    (hbuilt : (Build.index settings files).run w = (.ok built, after))
    (hshards : Sharded w.disk v.disk files.pairs shards.pairs)
    (hroom : w.disk.AsMuchRoom v.disk settings.tempDir) :
    ∃ twin last, (Build.index settings shards).run v = (.ok twin, last) ∧
      twin.blob.bytes = built.blob.bytes ∧ twin.blob.records = built.blob.records ∧
      twin.index = built.index ∧ twin.tally = built.tally ∧
      ∀ {σ : Type} (corpus : Corpus σ), corpus.files = files → corpus.settings = settings →
        (∀ epoch, ({ corpus with files := shards } : Corpus σ).packing epoch twin
          = corpus.packing epoch built) ∧
        ∀ call results, ((corpus.serve call).run w).1 = .ok results →
          ((({ corpus with files := shards } : Corpus σ).serve call).run v).1 = .ok results := by
  obtain ⟨hcreate, hclean, -⟩ := Build.index_ok_iff.mp ⟨built, after, hbuilt⟩
  obtain ⟨hdelivered, hcleanShards⟩ := hshards.delivered_eq hclean
  obtain ⟨twin, last, htwin, hbytes, hrecords, hindex, htally⟩ :=
    Build.exists_index_of_delivered hbuilt hcleanShards hdelivered (hroom.forBlob hcreate)
  refine ⟨twin, last, htwin, hbytes, hrecords, hindex, htally, ?_⟩
  rintro σ corpus rfl rfl
  have halike : corpus.Alike w.disk { corpus with files := shards } v.disk := {
    tokenBudget := rfl
    admitted := by
      rw [(Build.admitted_eq_of_clean corpus.settings hclean).1,
        (Build.admitted_eq_of_clean corpus.settings hcleanShards).1, hdelivered]
    endsCleanly := fun _ => hcleanShards }
  refine ⟨fun epoch => ?_, fun call results hserve => ?_⟩
  · rw [Corpus.packing, Corpus.packing, hindex]
    exact Packing.all_congr corpus.generator.dice hbytes built.index _
  · have hseed : corpus.SameSeed (call.epoch corpus.nextEpoch) { corpus with files := shards }
        (call.epoch corpus.nextEpoch) := ⟨rfl, rfl⟩
    exact halike.serve_replayed hseed hserve (hroom.forEpoch (Corpus.hasRoom_of_serve_ok hserve))

/-- A disk with two files of two lines and their parts, a file of one line, and a folder for
temporary files. -/
def cutFiles : Disk where
  entries := [([.given "c"], .file "z".toUTF8),
    ([.given "a"], .file "x\r\ny".toUTF8), ([.given "b"], .file "u\n\r\n".toUTF8),
    ([.given "a1"], .file "x\r\n".toUTF8), ([.given "b1"], .file "u\n".toUTF8),
    ([.given "a2"], .file "y".toUTF8), ([.given "b2"], .file "\r\n".toUTF8),
    ([.given "tmp"], .folder)]

/-- The whole files, behind another file pair. -/
def wholeFiles : FileSet := ⟨⟨""⟩, [⟨⟨"/c"⟩, ⟨"/c"⟩⟩, ⟨⟨"/a"⟩, ⟨"/b"⟩⟩]⟩

/-- The parts in place of the whole files. -/
def partFiles : FileSet :=
  ⟨⟨""⟩, [⟨⟨"/c"⟩, ⟨"/c"⟩⟩, ⟨⟨"/a1"⟩, ⟨"/b1"⟩⟩, ⟨⟨"/a2"⟩, ⟨"/b2"⟩⟩]⟩

/-- The reader of the two whole files. -/
theorem openReader_cutFiles : (⟨⟨"/a"⟩, ⟨"/b"⟩⟩ : FilePair).openReader cutFiles
    = .ok (.ofPairs [⟨"x", "u"⟩, ⟨"y", ""⟩] 0) := by
  cbv

theorem endsCleanly_wholeFiles : ∀ files ∈ wholeFiles.pairs, files.EndsCleanly cutFiles := by
  intro files hfiles
  rcases List.mem_pair.mp hfiles with rfl | rfl
  · have hopen : (⟨⟨"/c"⟩, ⟨"/c"⟩⟩ : FilePair).openReader cutFiles
        = .ok (.ofPairs [⟨"z", "z"⟩] 0) := by cbv
    exact (FilePair.of_openReader_ofPairs hopen (by decide) (by decide)).2
  · exact (FilePair.of_openReader_ofPairs openReader_cutFiles (by decide) (by decide)).2

theorem exists_index_wholeFiles : ∃ built after,
    (Build.index Build.inTurn wholeFiles).run ⟨cutFiles, #[]⟩ = (.ok built, after) := by
  have hcreate : ∃ file disk, cutFiles.createTemporary Build.inTurn.tempDir BlobWriter.ending
      = (.ok file, disk) :=
    Disk.createTemporary_ok_iff.mpr ⟨by decide, ⟨[.given "tmp"], by cbv⟩, rfl⟩
  have hadmitted : Build.admitted Build.inTurn cutFiles wholeFiles.pairs
      = [⟨⟨"z", "z"⟩, 1, 1, false, 1⟩, ⟨⟨"x", "u"⟩, 1, 1, false, 1⟩,
          ⟨⟨"y", ""⟩, 1, 0, false, 1⟩] := by cbv
  refine Build.index_ok_iff.mpr ⟨hcreate, endsCleanly_wholeFiles, ?_⟩
  rw [hadmitted]
  decide

theorem sharded_partFiles : Sharded cutFiles cutFiles wholeFiles.pairs partFiles.pairs := by
  have hpairs : (LineReader.ofPairs [⟨"x", "u"⟩, ⟨"y", ""⟩] 0).readAll.pairs
      = [⟨1, ⟨"x", "u"⟩⟩, ⟨2, ⟨"y", ""⟩⟩] := by cbv
  refine .same rfl (.cut ⟨_, openReader_cutFiles, fun n hn => ?_⟩ ?_ .nil)
  · have hlength : n < 2 ∨ n < 2 := hn
    rw [hpairs]
    obtain rfl | rfl : n = 0 ∨ n = 1 := by omega
    · exact ⟨⟨1, ⟨"x", "u"⟩⟩, by simp, rfl⟩
    · exact ⟨⟨2, ⟨"y", ""⟩⟩, by simp, rfl⟩
  · exact ⟨"x\r\n".toUTF8, "y".toUTF8, "u\n".toUTF8, "\r\n".toUTF8,
      by cbv, by cbv, by cbv, by cbv, by cbv, by cbv⟩

/-- Cut behind their first lines, the files make the same index. -/
theorem parts_are_indexed_as_the_whole :
    ∃ built after twin last,
      (Build.index Build.inTurn wholeFiles).run ⟨cutFiles, #[]⟩ = (.ok built, after) ∧
      (Build.index Build.inTurn partFiles).run ⟨cutFiles, #[]⟩ = (.ok twin, last) ∧
      twin.blob.bytes = built.blob.bytes ∧ twin.index = built.index ∧
      twin.tally = built.tally := by
  obtain ⟨built, after, hbuilt⟩ := exists_index_wholeFiles
  obtain ⟨twin, last, htwin, hbytes, -, hindex, htally, -⟩ :=
    sharding_does_not_change_the_epoch (v := ⟨cutFiles, #[]⟩) hbuilt sharded_partFiles
      (.refl cutFiles _)
  exact ⟨built, after, twin, last, hbuilt, htwin, hbytes, hindex, htally⟩

end Bitext
