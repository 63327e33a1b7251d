/-
The first fault decides a build that reads in turn.

Reading in turn stops at the first file pair that fails, and there at the first line that
is at fault.  So a build of this kind succeeds exactly when every file pair ends cleanly,
and otherwise it fails with the one fault that comes first in corpus order; nothing that
stands behind it, in the same files or in later ones, has a say.

What a file pair comes to is found from the place that decides it: a line that goes on hands
over to the next one, whatever it adds to the tally.
-/
import Bitext.Proofs.Build.Index
import Bitext.Proofs.Source.FirstFault

namespace Bitext

/-! ### One file pair -/

namespace FilePair

/-- The reading of a file pair fails with a fault: a file cannot be opened, the source file
first; or the lines fail. -/
inductive FailsWith (disk : Disk) (files : FilePair) : Fault → Prop where
  | sourceUnopened {reason : OsError} :
      disk.find files.source = .error reason →
      FailsWith disk files ⟨.system reason, [.opening .source files.source.text]⟩
  | targetUnopened {source : Node} {reason : OsError} :
      disk.find files.source = .ok source → disk.find files.target = .error reason →
      FailsWith disk files ⟨.system reason, [.opening .target files.target.text]⟩
  | stopped {source target : Node} {fault : Fault} :
      disk.find files.source = .ok source → disk.find files.target = .ok target →
      Lines.Fail (TextLines.ofNode source) (TextLines.ofNode target) fault →
      FailsWith disk files (fault.within (.readingPair files.text))

/-- Both files can be opened, and their lines end. -/
def EndsCleanly (disk : Disk) (files : FilePair) : Prop :=
  ∃ source target, disk.find files.source = .ok source ∧ disk.find files.target = .ok target ∧
    Lines.End (TextLines.ofNode source) (TextLines.ofNode target)

variable {disk : Disk} {files : FilePair}

theorem openReader_of_found {source target : Node} (hsource : disk.find files.source = .ok source)
    (htarget : disk.find files.target = .ok target) :
    files.openReader disk
      = .ok (.standing (TextLines.ofNode source) (TextLines.ofNode target) 0) := by
  rw [openReader, openSide, openSide, hsource, htarget]
  rfl

theorem openReader_of_sourceUnopened {reason : OsError}
    (hsource : disk.find files.source = .error reason) :
    files.openReader disk = .error ⟨.system reason, [.opening .source files.source.text]⟩ := by
  rw [openReader, openSide, hsource]
  rfl

theorem openReader_of_targetUnopened {source : Node} {reason : OsError}
    (hsource : disk.find files.source = .ok source)
    (htarget : disk.find files.target = .error reason) :
    files.openReader disk = .error ⟨.system reason, [.opening .target files.target.text]⟩ := by
  rw [openReader, openSide, openSide, hsource, htarget]
  rfl

theorem endsCleanly_or_failsWith (disk : Disk) (files : FilePair) :
    files.EndsCleanly disk ∨ ∃ fault, files.FailsWith disk fault := by
  cases hsource : disk.find files.source with
  | error reason => exact .inr ⟨_, .sourceUnopened hsource⟩
  | ok source =>
      cases htarget : disk.find files.target with
      | error reason => exact .inr ⟨_, .targetUnopened hsource htarget⟩
      | ok target =>
          rcases Lines.end_or_fail (TextLines.ofNode source) (TextLines.ofNode target)
            with hend | ⟨fault, hfail⟩
          · exact .inl ⟨source, target, hsource, htarget, hend⟩
          · exact .inr ⟨_, .stopped hsource htarget hfail⟩

end FilePair

namespace Harvest

/-- The fault in which a harvest has ended, if it has. -/
def fault? (harvest : Harvest) : Option Fault :=
  match harvest.outcome with
  | .ok _ => none
  | .error fault => some fault

theorem fault?_eq_some_iff {harvest : Harvest} {fault : Fault} :
    harvest.fault? = some fault ↔ harvest.outcome = .error fault := by
  unfold fault?
  cases harvest.outcome <;> simp

theorem fault?_eq_none_iff {harvest : Harvest} :
    harvest.fault? = none ↔ ∃ t, harvest.outcome = .ok t := by
  unfold fault?
  cases harvest.outcome <;> simp

/-- A line pair whose groups match changes nothing but the tally. -/
theorem fault?_ofLines_cons {settings : Settings} {fault : Option Fault} {found : LinePair}
    (h : Admission.groupsMatch found.pair = true) (rest : List LinePair) (tally : Tally) :
    (ofLines settings fault tally (found :: rest)).fault?
      = (ofLines settings fault (Admission.count settings found.pair tally) rest).fault? := by
  cases hverdict : Admission.verdict settings found.pair with
  | rejected sourceTooLong targetTooLong => rw [ofLines_cons_of_rejected h hverdict]
  | accepted p =>
      rw [ofLines_cons_of_accepted h hverdict]
      rfl

theorem fault?_ofLines_cons_of_mismatch {settings : Settings} {fault : Option Fault}
    {found : LinePair} {rest : List LinePair} (h : Admission.groupsMatch found.pair = false)
    (tally : Tally) : (ofLines settings fault tally (found :: rest)).fault?
      = some (Admission.mismatch found.line found.pair) := by
  rw [ofLines_cons_of_mismatch h]
  rfl

section lines

variable {settings : Settings} {source target : Lines} {n : Nat} {result : Option Fault}

/-- What the lines from a place on come to, whatever was counted before. -/
def ComesTo (settings : Settings) (source target : Lines) (n : Nat) (result : Option Fault) :
    Prop :=
  ∀ tally, (ofLines settings (LineReader.standing source target n).readAll.fault tally
    (LineReader.standing source target n).readAll.pairs).fault? = result

/-- A line that goes on hands over to the next one. -/
theorem comesTo_of_goOn (h : Lines.GoOn source target n)
    (hrest : ComesTo settings source target (n + 1) result) :
    ComesTo settings source target n result := by
  obtain ⟨left, right, hsource, htarget, hblank, hgroups⟩ := h
  have hstep := LineReader.step_of_text hsource htarget hblank
  intro tally
  rw [LineReader.readAll_of_delivered hstep]
  refine (fault?_ofLines_cons ?_ _ _).trans (hrest _)
  exact beq_iff_eq.mpr hgroups

theorem comesTo_of_endAt (h : Lines.EndAt source target n) :
    ComesTo settings source target n none := by
  intro tally
  rw [LineReader.readAll_of_ended (LineReader.step_of_endAt h)]
  rfl

theorem comesTo_of_failAt {fault : Fault} (h : Lines.FailAt source target n fault) :
    ComesTo settings source target n (some fault) := by
  intro tally
  rcases LineReader.step_of_failAt h with hstep | ⟨left, right, hgroups, rfl, hstep⟩
  · rw [LineReader.readAll_of_failed hstep]
    rfl
  · rw [LineReader.readAll_of_delivered hstep]
    apply fault?_ofLines_cons_of_mismatch
    rw [Admission.groupsMatch, beq_eq_false_iff_ne]
    exact hgroups

/-- The first place that does not go on decides what the lines come to. -/
theorem comesTo_of_before (n : Nat) (hbefore : ∀ i < n, Lines.GoOn source target i)
    (h : ComesTo settings source target n result) : ComesTo settings source target 0 result := by
  induction n with
  | zero => exact h
  | succ n ih =>
      have hlast := comesTo_of_goOn (hbefore n (Nat.lt_succ_self n)) h
      exact ih (fun i hi => hbefore i (Nat.lt_succ_of_lt hi)) hlast

theorem comesTo_of_end (h : Lines.End source target) : ComesTo settings source target 0 none := by
  obtain ⟨n, hbefore, hend⟩ := h
  exact comesTo_of_before n hbefore (comesTo_of_endAt hend)

theorem comesTo_of_fail {fault : Fault} (h : Lines.Fail source target fault) :
    ComesTo settings source target 0 (some fault) := by
  obtain ⟨n, hbefore, hfail⟩ := h
  exact comesTo_of_before n hbefore (comesTo_of_failAt hfail)

end lines

section files

variable {settings : Settings} {disk : Disk} {files : FilePair} {fault : Fault}

theorem fault?_ofFiles_of_found {source target : Node} {result : Option Fault}
    (hsource : disk.find files.source = .ok source)
    (htarget : disk.find files.target = .ok target)
    (h : ComesTo settings (TextLines.ofNode source) (TextLines.ofNode target) 0 result) :
    (ofFiles settings disk .empty files).fault?
      = result.map (·.within (.readingPair files.text)) := by
  rw [ofFiles_of_opened (FilePair.openReader_of_found hsource htarget), ← h .empty]
  unfold fault?
  cases (ofLines settings (LineReader.standing (TextLines.ofNode source)
    (TextLines.ofNode target) 0).readAll.fault .empty (LineReader.standing
      (TextLines.ofNode source) (TextLines.ofNode target) 0).readAll.pairs).outcome <;> rfl

theorem fault?_of_failsWith (settings : Settings) (h : files.FailsWith disk fault) :
    (ofFiles settings disk .empty files).fault? = some fault := by
  cases h with
  | sourceUnopened hsource =>
      rw [ofFiles_of_unopened (FilePair.openReader_of_sourceUnopened hsource)]
      rfl
  | targetUnopened hsource htarget =>
      rw [ofFiles_of_unopened (FilePair.openReader_of_targetUnopened hsource htarget)]
      rfl
  | stopped hsource htarget hfail =>
      rw [fault?_ofFiles_of_found hsource htarget (comesTo_of_fail hfail)]
      rfl

theorem fault?_of_endsCleanly (settings : Settings) (h : files.EndsCleanly disk) :
    (ofFiles settings disk .empty files).fault? = none := by
  obtain ⟨source, target, hsource, htarget, hend⟩ := h
  rw [fault?_ofFiles_of_found hsource htarget (comesTo_of_end hend)]
  rfl

/-- **The reading of a file pair fails with the fault of its first line at fault.** -/
theorem outcome_ofFiles_error_iff :
    (ofFiles settings disk .empty files).outcome = .error fault ↔ files.FailsWith disk fault := by
  rw [← fault?_eq_some_iff]
  constructor
  · intro h
    rcases FilePair.endsCleanly_or_failsWith disk files with hend | ⟨other, hfail⟩
    · rw [fault?_of_endsCleanly settings hend] at h
      cases h
    · rw [fault?_of_failsWith settings hfail] at h
      exact Option.some.inj h ▸ hfail
  · exact fault?_of_failsWith settings

/-- **A file pair is faulty unless it ends cleanly.** -/
theorem not_faulty_iff_endsCleanly (settings : Settings) : ¬files.Faulty disk ↔ files.EndsCleanly disk := by
  have hsound : ¬files.Faulty disk ↔ (ofFiles settings disk .empty files).fault? = none := by
    rw [fault?_eq_none_iff, ofFiles_ok_iff]
  rw [hsound]
  constructor
  · intro h
    rcases FilePair.endsCleanly_or_failsWith disk files with hend | ⟨other, hfail⟩
    · exact hend
    · rw [fault?_of_failsWith settings hfail] at h
      cases h
  · exact fault?_of_endsCleanly settings

end files

end Harvest

/-! ### All file pairs -/

namespace FilePair

section

variable {disk other : Disk} {files : FilePair} {fault : Fault}

theorem EndsCleanly.of_agreesOnGiven (h : files.EndsCleanly disk)
    (hagrees : disk.AgreesOnGiven other) : files.EndsCleanly other := by
  obtain ⟨source, target, hsource, htarget, hend⟩ := h
  rw [Disk.find_eq hagrees] at hsource htarget
  exact ⟨source, target, hsource, htarget, hend⟩

theorem FailsWith.of_agreesOnGiven (h : files.FailsWith disk fault)
    (hagrees : disk.AgreesOnGiven other) : files.FailsWith other fault := by
  cases h with
  | sourceUnopened hsource =>
      rw [Disk.find_eq hagrees] at hsource
      exact .sourceUnopened hsource
  | targetUnopened hsource htarget =>
      rw [Disk.find_eq hagrees] at hsource htarget
      exact .targetUnopened hsource htarget
  | stopped hsource htarget hfail =>
      rw [Disk.find_eq hagrees] at hsource htarget
      exact .stopped hsource htarget hfail

theorem EndsCleanly.not_failsWith (h : files.EndsCleanly disk) :
    ¬files.FailsWith disk fault := by
  intro hfail
  have hnone := Harvest.fault?_of_endsCleanly {} h
  rw [Harvest.fault?_of_failsWith {} hfail] at hnone
  cases hnone

end

end FilePair

namespace Build

/-- The first file pair that does not end cleanly fails with a fault, after others that do. -/
def FirstFails (disk : Disk) (pairs : List FilePair) (fault : Fault) : Prop :=
  ∃ before files after, pairs = before ++ files :: after ∧
    (∀ other ∈ before, other.EndsCleanly disk) ∧ files.FailsWith disk fault

/-- The pairs that come to be written fit their records: those of the file pairs that end
cleanly, and those of the first one that does not. -/
def Writable (settings : Settings) (disk : Disk) (pairs : List FilePair) : Prop :=
  ∀ before files after, pairs = before ++ files :: after →
    (∀ other ∈ before, other.EndsCleanly disk) →
    ∀ p ∈ (Harvest.ofFiles settings disk .empty files).admitted, PairRecord.Fits p

section

variable {settings : Settings} {disk other : Disk} {pairs : List FilePair} {fault : Fault}

theorem firstFails_or_all_endCleanly (disk : Disk) (pairs : List FilePair) :
    (∀ files ∈ pairs, files.EndsCleanly disk) ∨ ∃ fault, FirstFails disk pairs fault := by
  by_cases hsome : ∃ files ∈ pairs, ¬files.EndsCleanly disk
  · right
    obtain ⟨before, files, after, hsplit, hfails, hbefore⟩ := exists_first pairs hsome
    obtain ⟨fault, hfault⟩ := (files.endsCleanly_or_failsWith disk).resolve_left hfails
    refine ⟨fault, before, files, after, hsplit, ?_, hfault⟩
    intro earlier hearlier
    exact not_not.mp (hbefore earlier hearlier)
  · left
    intro files hfiles
    by_contra hfails
    exact hsome ⟨files, hfiles, hfails⟩

theorem all_endCleanly_iff :
    (∀ files ∈ pairs, files.EndsCleanly disk) ↔
      ∀ files ∈ pairs, ∀ fault, ¬files.FailsWith disk fault := by
  constructor
  · intro h files hfiles fault
    exact (h files hfiles).not_failsWith
  · intro h files hfiles
    refine (files.endsCleanly_or_failsWith disk).resolve_right ?_
    rintro ⟨fault, hfault⟩
    exact h files hfiles fault hfault

theorem FirstFails.of_agreesOnGiven (h : FirstFails disk pairs fault)
    (hagrees : disk.AgreesOnGiven other) : FirstFails other pairs fault := by
  obtain ⟨before, files, after, hsplit, hbefore, hfault⟩ := h
  refine ⟨before, files, after, hsplit, ?_, hfault.of_agreesOnGiven hagrees⟩
  intro earlier hearlier
  exact (hbefore earlier hearlier).of_agreesOnGiven hagrees

theorem Writable.of_agreesOnGiven (h : Writable settings disk pairs)
    (hagrees : other.AgreesOnGiven disk) : Writable settings other pairs := by
  intro before files after hsplit hbefore
  rw [ofFiles_eq hagrees]
  refine h before files after hsplit ?_
  intro earlier hearlier
  exact (hbefore earlier hearlier).of_agreesOnGiven hagrees

theorem Writable.of_all_endCleanly (h : Writable settings disk pairs)
    (hall : ∀ files ∈ pairs, files.EndsCleanly disk) :
    ∀ p ∈ admitted settings disk pairs, PairRecord.Fits p := by
  intro p hp
  obtain ⟨files, hfiles, hown⟩ := mem_admitted_iff.mp hp
  obtain ⟨before, after, rfl⟩ := List.append_of_mem hfiles
  refine h before files after rfl ?_ p hown
  intro earlier hearlier
  exact hall earlier (List.mem_append_left _ hearlier)

/-- It is enough that all admitted pairs fit. -/
theorem writable_of_fits (h : ∀ p ∈ admitted settings disk pairs, PairRecord.Fits p) :
    Writable settings disk pairs := by
  rintro before files after rfl - p hp
  exact h p (mem_admitted_iff.mpr ⟨files, by simp, hp⟩)

/-- What is written before the first file pair that fails is writable itself. -/
theorem Writable.before {before after : List FilePair}
    (h : Writable settings disk (before ++ after)) : Writable settings disk before := by
  rintro first files rest rfl hfirst
  exact h first files (rest ++ after) (by simp) hfirst

/-- Reading in turn ends with the first fault. -/
theorem oneByOne_of_firstFails (hwritable : Writable settings disk pairs)
    (hfails : FirstFails disk pairs fault) (store : Store) (t : Tally) {w : Workspace}
    (hdisk : w.disk = disk) : ((oneByOne settings pairs store t).run w).1 = .error fault := by
  obtain ⟨before, files, after, rfl, hbefore, hfault⟩ := hfails
  have houtcome : (Harvest.ofFiles settings disk .empty files).outcome = .error fault :=
    Harvest.outcome_ofFiles_error_iff.mpr hfault
  have hsound : ∀ other ∈ before, ¬other.Faulty disk := by
    intro other hother
    exact (Harvest.not_faulty_iff_endsCleanly settings).mpr (hbefore other hother)
  have hfits : ∀ p ∈ admitted settings disk before
      ++ (Harvest.ofFiles settings disk .empty files).admitted, PairRecord.Fits p := by
    intro p hp
    rcases List.mem_append.mp hp with hp | hp
    · exact hwritable.before.of_all_endCleanly hbefore p hp
    · exact hwritable before files after rfl hbefore p hp
  obtain ⟨full, hfull⟩ := Store.appendAll_of_fits _ store hfits
  rw [oneByOne_of_fault houtcome before store t hdisk hsound, hfull]
  rfl

end

section

variable {settings : Settings} {files : FileSet} {w : Workspace} {fault : Fault}

/-- A build that reads in turn ends with the first fault. -/
theorem run_index_of_firstFails (hturn : isShared settings files = false)
    (hcreate : ∃ file disk, w.disk.createTemporary settings.tempDir BlobWriter.ending
      = (.ok file, disk))
    (hwritable : Writable settings w.disk files.pairs)
    (hfails : FirstFails w.disk files.pairs fault) :
    ((index settings files).run w).1 = .error fault := by
  obtain ⟨file, disk, hcreate⟩ := hcreate
  have hagrees := Disk.agreesOnGiven_of_createTemporary hcreate
  cases hgather : (gather settings files (.ofWriter (.ofFile file))).run
      (opened settings files w disk) with
  | mk result read =>
      have hread := oneByOne_of_firstFails (hwritable.of_agreesOnGiven hagrees)
        (hfails.of_agreesOnGiven hagrees.symm) (.ofWriter (.ofFile file)) .empty
        (w := opened settings files w disk) rfl
      have hsame : gather settings files (.ofWriter (.ofFile file))
          = oneByOne settings files.pairs (.ofWriter (.ofFile file)) .empty := by
        rw [gather, hturn]
        rfl
      rw [← hsame, hgather] at hread
      obtain rfl : result = .error fault := hread
      obtain ⟨after, hrun, -⟩ := run_index_of_unread hcreate hgather
      rw [hrun]

/-- **The first fault decides a build that reads in turn.**  Let there be no workers, or only
one file pair, and let the blob's file be made and the pairs be written that come to be
written.  The build succeeds exactly when no file pair fails, which is when all of them end
cleanly; and it fails with a fault exactly when that is the fault of the first file pair that
fails, at its first line at fault. -/
theorem first_fault_decides (hturn : settings.workers = 0 ∨ files.size = 1)
    (hcreate : ∃ file disk, w.disk.createTemporary settings.tempDir BlobWriter.ending
      = (.ok file, disk))
    (hwritable : Writable settings w.disk files.pairs) :
    ((∃ built, ((index settings files).run w).1 = .ok built) ↔
      ∀ pair ∈ files.pairs, ∀ fault, ¬pair.FailsWith w.disk fault) ∧
    ((∃ built, ((index settings files).run w).1 = .ok built) ↔
      ∀ pair ∈ files.pairs, pair.EndsCleanly w.disk) ∧
    ∀ fault, ((index settings files).run w).1 = .error fault ↔
      FirstFails w.disk files.pairs fault := by
  have hunshared := not_isShared hturn
  have hfails : ∀ fault, FirstFails w.disk files.pairs fault →
      ((index settings files).run w).1 = .error fault := by
    intro fault hfirst
    exact run_index_of_firstFails hunshared hcreate hwritable hfirst
  have hsucceeds : (∀ pair ∈ files.pairs, pair.EndsCleanly w.disk) →
      ∃ built, ((index settings files).run w).1 = .ok built := by
    intro hall
    have hsound : ∀ pair ∈ files.pairs, ¬pair.Faulty w.disk := by
      intro pair hpair
      exact (Harvest.not_faulty_iff_endsCleanly settings).mpr (hall pair hpair)
    obtain ⟨built, after, hrun⟩ :=
      exists_index_ok hcreate hsound (hwritable.of_all_endCleanly hall)
    exact ⟨built, by rw [hrun]⟩
  have hcases := firstFails_or_all_endCleanly w.disk files.pairs
  have hok : (∃ built, ((index settings files).run w).1 = .ok built) ↔
      ∀ pair ∈ files.pairs, pair.EndsCleanly w.disk := by
    refine ⟨?_, hsucceeds⟩
    rintro ⟨built, hbuilt⟩
    rcases hcases with hall | ⟨first, hfirst⟩
    · exact hall
    · rw [hfails first hfirst] at hbuilt
      cases hbuilt
  refine ⟨hok.trans all_endCleanly_iff, hok, fun fault => ⟨?_, hfails fault⟩⟩
  intro hfault
  rcases hcases with hall | ⟨first, hfirst⟩
  · obtain ⟨built, hbuilt⟩ := hsucceeds hall
    rw [hfault] at hbuilt
    cases hbuilt
  · rw [hfails first hfirst] at hfault
    exact Except.error.inj hfault ▸ hfirst

end

/-- A disk with three files of text, and a folder for temporary files. -/
def unmatched : Disk where
  entries := [([.given "a"], .file "x\n".toUTF8), ([.given "b"], .file "u\nv\tw\n".toUTF8),
    ([.given "c"], .file "u\nv\n\n".toUTF8), ([.given "tmp"], .folder)]

/-- The second of these file pairs differs in the groups of its second line, and the third one
cannot be opened. -/
def unmatchedFiles : FileSet where
  folder := ⟨""⟩
  pairs := [⟨⟨"/a"⟩, ⟨"/a"⟩⟩, ⟨⟨"/b"⟩, ⟨"/c"⟩⟩, ⟨⟨"/d"⟩, ⟨"/a"⟩⟩]

/-- Settings without workers. -/
def inTurn : Settings := { twoAtOnce with workers := 0 }

theorem firstFails_unmatchedFiles :
    FirstFails unmatched unmatchedFiles.pairs
      ⟨.groupMismatch 2 2 1, [.readingPair "'/b' / '/c'"]⟩ := by
  refine ⟨[⟨⟨"/a"⟩, ⟨"/a"⟩⟩], ⟨⟨"/b"⟩, ⟨"/c"⟩⟩, [⟨⟨"/d"⟩, ⟨"/a"⟩⟩], rfl, ?_, ?_⟩
  · intro other hother
    rw [List.mem_singleton.mp hother]
    have hfound : unmatched.find ⟨"/a"⟩ = .ok (.file "x\n".toUTF8) := by cbv
    have hlines : TextLines.ofNode (.file "x\n".toUTF8) = [.ok "x"] := by cbv
    refine ⟨_, _, hfound, hfound, 1, ?_, ?_⟩
    · intro i hi
      obtain rfl : i = 0 := by omega
      rw [hlines]
      exact ⟨"x", "x", rfl, rfl, by decide, rfl⟩
    · rw [hlines]
      exact .together rfl rfl
  · have hfirst : TextLines.ofNode (.file "u\nv\tw\n".toUTF8) = [.ok "u", .ok "v\tw"] := by cbv
    have hsecond : TextLines.ofNode (.file "u\nv\n\n".toUTF8)
        = [.ok "u", .ok "v", .ok ""] := by cbv
    have hlines : Lines.Fail (TextLines.ofNode (.file "u\nv\tw\n".toUTF8))
        (TextLines.ofNode (.file "u\nv\n\n".toUTF8)) ⟨.groupMismatch 2 2 1, []⟩ := by
      have hgroups : Line.groupCount "v\tw" ≠ Line.groupCount "v" := by decide
      rw [hfirst, hsecond]
      refine ⟨1, ?_, .mismatched rfl rfl hgroups⟩
      intro i hi
      obtain rfl : i = 0 := by omega
      exact ⟨"u", "u", rfl, rfl, by decide, rfl⟩
    exact .stopped (by cbv) (by cbv) hlines

/-- The build of the three file pairs fails with the fault of the second one. -/
theorem second_pair_decides :
    ((index inTurn unmatchedFiles).run ⟨unmatched, #[]⟩).1
      = .error ⟨.groupMismatch 2 2 1, [.readingPair "'/b' / '/c'"]⟩ := by
  have hcreate : ∃ file disk, unmatched.createTemporary inTurn.tempDir BlobWriter.ending
      = (.ok file, disk) := by
    refine Disk.createTemporary_ok_iff.mpr ⟨by decide, ?_, rfl⟩
    exact ⟨[.given "tmp"], by cbv⟩
  have hwritable : Writable inTurn unmatched unmatchedFiles.pairs := by
    have hadmitted : admitted inTurn unmatched unmatchedFiles.pairs
        = [⟨⟨"x", "x"⟩, 1, 1, false, 1⟩, ⟨⟨"u", "u"⟩, 1, 1, false, 1⟩] := by cbv
    refine writable_of_fits ?_
    rw [hadmitted]
    decide
  obtain ⟨-, -, hfault⟩ :=
    first_fault_decides (w := ⟨unmatched, #[]⟩) (.inl rfl) hcreate hwritable
  exact (hfault _).mpr firstFails_unmatchedFiles

end Build

end Bitext
