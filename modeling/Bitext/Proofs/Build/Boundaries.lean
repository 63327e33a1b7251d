/-
A build does not see where its files end.

Of a file pair that can be read to its end, each line pair adds what it adds by itself: the pair
that is admitted of it, if one is, and the tally of this one pair.  The number of its line shows in
faults only.  So all that clean file pairs contribute is a list and a sum over the line pairs that
they deliver, one file pair after another, and neither has a place in it where a file ended.

Builds of the same line pairs have therefore written the same records at the same offsets, with the
same tally, however the pairs are spread over files.
-/
import Bitext.Proofs.Build.Contents

namespace Bitext

namespace Admission

/-- The pair that is admitted of a line pair whose groups match, if one is. -/
def admitted? (settings : Settings) (pair : Pair) : Option Admitted :=
  match verdict settings pair with
  | .accepted p => some p
  | .rejected _ _ => none

/-- The tally of one line pair. -/
def counted (settings : Settings) (pair : Pair) : Tally := count settings pair .empty

/-- The tally of line pairs. -/
def countedAll (settings : Settings) (pairs : List Pair) : Tally :=
  (pairs.map (counted settings)).sum

variable {settings : Settings} {pair : Pair}

theorem admitted?_of_accepted {p : Admitted} (h : verdict settings pair = .accepted p) :
    admitted? settings pair = some p := by
  rw [admitted?, h]

theorem admitted?_of_rejected {source target : Bool}
    (h : verdict settings pair = .rejected source target) : admitted? settings pair = none := by
  rw [admitted?, h]

theorem countedAll_cons (settings : Settings) (pair : Pair) (rest : List Pair) :
    countedAll settings (pair :: rest) = counted settings pair + countedAll settings rest := by
  rw [countedAll, List.map_cons, List.sum_cons, ← countedAll]

theorem countedAll_append (settings : Settings) (first second : List Pair) :
    countedAll settings (first ++ second)
      = countedAll settings first + countedAll settings second := by
  rw [countedAll, List.map_append, List.sum_append, ← countedAll, ← countedAll]

end Admission

open Admission (admitted? countedAll groupsMatch)

/-! ### A file pair -/

/-- A file pair is read to its end when both files can be opened, their reading comes to no fault,
and the groups of all its line pairs match. -/
theorem FilePair.endsCleanly_iff {disk : Disk} {files : FilePair} :
    files.EndsCleanly disk ↔ ∃ reader,
      files.openReader disk = .ok reader ∧ reader.readAll.fault = none ∧
        ∀ found ∈ reader.readAll.pairs, groupsMatch found.pair = true := by
  rw [← Harvest.not_faulty_iff_endsCleanly {}]
  constructor
  · intro hsound
    cases hopen : files.openReader disk with
    | error fault => exact absurd (.unopened hopen) hsound
    | ok reader =>
        refine ⟨reader, rfl, ?_, fun found hfound => ?_⟩
        · cases hunread : reader.readAll.fault with
          | none => rfl
          | some fault => exact absurd (.unread hopen hunread) hsound
        · by_contra hmismatch
          exact hsound (.mismatched hopen hfound (Bool.eq_false_iff.mpr hmismatch))
  · rintro ⟨reader, hopen, hfault, hgroups⟩ hfaulty
    cases hfaulty with
    | unopened hother =>
        rw [hopen] at hother
        cases hother
    | unread hother hunread =>
        rw [hopen] at hother
        cases hother
        rw [hfault] at hunread
        cases hunread
    | mismatched hother hfound hmismatch =>
        rw [hopen] at hother
        cases hother
        rw [hgroups _ hfound] at hmismatch
        cases hmismatch

namespace Harvest

variable {settings : Settings} {disk : Disk} {files : FilePair}

/-- **A reading without a fault is a list and a sum over its line pairs.** -/
theorem ofLines_of_groupsMatch (found : List LinePair) :
    (∀ one ∈ found, groupsMatch one.pair = true) → ∀ tally : Tally,
      ofLines settings none tally found
        = ⟨(found.map (·.pair)).filterMap (admitted? settings),
          .ok (tally + countedAll settings (found.map (·.pair)))⟩ := by
  induction found with
  | nil =>
      intro _ tally
      exact congrArg (fun t => Harvest.mk [] (.ok t)) (add_zero tally).symm
  | cons one rest ih =>
      intro hgroups tally
      obtain ⟨hone, hrest⟩ := List.forall_mem_cons.mp hgroups
      have hcount : Admission.count settings one.pair tally
            + countedAll settings (rest.map (·.pair))
          = tally + countedAll settings ((one :: rest).map (·.pair)) := by
        rw [Admission.count_eq_merge, ← Tally.add_eq_merge, add_assoc, List.map_cons,
          Admission.countedAll_cons]
        rfl
      cases hverdict : Admission.verdict settings one.pair with
      | rejected source target =>
          rw [ofLines_cons_of_rejected hone hverdict, ih hrest, hcount, List.map_cons,
            List.filterMap_cons_none (Admission.admitted?_of_rejected hverdict)]
      | accepted p =>
          rw [ofLines_cons_of_accepted hone hverdict, ih hrest, hcount, List.map_cons,
            List.filterMap_cons_some (Admission.admitted?_of_accepted hverdict)]

theorem ofFiles_of_endsCleanly (h : files.EndsCleanly disk) :
    ofFiles settings disk .empty files
      = ⟨(files.delivered disk).filterMap (admitted? settings),
        .ok (countedAll settings (files.delivered disk))⟩ := by
  obtain ⟨reader, hopen, hfault, hgroups⟩ := FilePair.endsCleanly_iff.mp h
  rw [ofFiles_of_opened hopen, hfault, ofLines_of_groupsMatch _ hgroups, FilePair.delivered, hopen]
  exact congrArg (fun t => Harvest.mk _ (.ok t)) (zero_add _)

end Harvest

/-- File pairs with the same contents that end cleanly deliver the same. -/
theorem FilePair.EndsCleanly.delivered_eq {disk other : Disk} {files others : FilePair}
    (h : files.EndsCleanly disk) (hsame : files.contents disk = others.contents other) :
    files.delivered disk = others.delivered other := by
  obtain ⟨hsource, htarget⟩ := Prod.mk.inj hsame
  obtain ⟨source, target, hfirst, hsecond, -⟩ := h
  rw [delivered, delivered, openReader_of_found hfirst hsecond,
    openReader_of_found (hsource.symm.trans hfirst) (htarget.symm.trans hsecond)]

/-! ### All file pairs -/

namespace Build

variable {settings : Settings} {disk : Disk} {pairs : List FilePair}

/-- The line pairs that file pairs deliver, one file pair after another. -/
def delivered (disk : Disk) (pairs : List FilePair) : List Pair :=
  pairs.flatMap (·.delivered disk)

/-- **What clean file pairs contribute is a list and a sum over the line pairs they deliver.** -/
theorem admitted_eq_of_clean (settings : Settings)
    (hclean : ∀ files ∈ pairs, files.EndsCleanly disk) :
    admitted settings disk pairs = (delivered disk pairs).filterMap (admitted? settings) ∧
      tally settings disk pairs = countedAll settings (delivered disk pairs) := by
  induction pairs with
  | nil => exact ⟨rfl, rfl⟩
  | cons files rest ih =>
      obtain ⟨hfiles, hrest⟩ := List.forall_mem_cons.mp hclean
      obtain ⟨hadmitted, htally⟩ := ih hrest
      have hfirst : Harvest.ofFiles settings disk .empty files = _ :=
        Harvest.ofFiles_of_endsCleanly hfiles
      have hdelivered : delivered disk (files :: rest)
          = files.delivered disk ++ delivered disk rest := List.flatMap_cons
      refine ⟨?_, ?_⟩
      · rw [admitted_cons, hfirst, hadmitted, hdelivered, List.filterMap_append]
      · rw [tally_cons, hfirst, htally, hdelivered, Admission.countedAll_append]
        rfl

/-- **The same line pairs make the same build**, from any file pairs that deliver them and end
cleanly, wherever the blob's file can be made. -/
theorem exists_index_of_delivered {files copies : FileSet} {w v after : Workspace}
    {built : BuiltIndex} (h : (index settings files).run w = (.ok built, after))
    (hclean : ∀ pair ∈ copies.pairs, pair.EndsCleanly v.disk)
    (hsame : delivered v.disk copies.pairs = delivered w.disk files.pairs)
    (hcreate : ∃ file disk, v.disk.createTemporary settings.tempDir BlobWriter.ending
      = (.ok file, disk)) :
    ∃ twin last, (index settings copies).run v = (.ok twin, last) ∧
      twin.blob.bytes = built.blob.bytes ∧ twin.blob.records = built.blob.records ∧
      twin.index = built.index ∧ twin.tally = built.tally := by
  obtain ⟨-, horiginal, hfits⟩ := index_ok_iff.mp ⟨built, after, h⟩
  obtain ⟨hadmitted, htally⟩ := admitted_eq_of_clean settings horiginal
  obtain ⟨hadmittedTwin, htallyTwin⟩ := admitted_eq_of_clean settings hclean
  have hpairs : admitted settings v.disk copies.pairs = admitted settings w.disk files.pairs := by
    rw [hadmittedTwin, hsame, hadmitted]
  obtain ⟨twin, last, htwin⟩ := index_ok_iff.mpr ⟨hcreate, hclean, hpairs.symm ▸ hfits⟩
  have hmade := (madeOf_admitted_of_index_ok h).1
  have hmadeTwin := (madeOf_admitted_of_index_ok htwin).1
  rw [hpairs] at hmadeTwin
  obtain ⟨hindex, hbytes⟩ := hmadeTwin.same hmade
  refine ⟨twin, last, htwin, hbytes, ?_, hindex, ?_⟩
  · rw [hmadeTwin.records, hmade.records]
  · rw [tally_of_index_ok htwin, tally_of_index_ok h, htallyTwin, hsame, htally]

end Build

end Bitext
