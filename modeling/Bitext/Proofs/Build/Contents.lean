/-
What a build depends on.

Of the disk a build reads what the paths of its files lead to, and it asks for a file for the
blob; of the settings it makes no use of the seed.  Files of the same contents are therefore
admitted alike, under whatever paths they stand, and two builds of them that succeed have
written the same records at the same offsets.

Whether a build succeeds depends on the same things and, besides, on whether the blob's file
can be made.
-/
import Bitext.Proofs.Build.FirstFault

namespace Bitext

/-! ### The contents of files -/

namespace FilePair

/-- What the paths of a file pair lead to. -/
def contents (disk : Disk) (files : FilePair) : Except OsError Node × Except OsError Node :=
  (disk.find files.source, disk.find files.target)

variable {disk other : Disk} {files others : FilePair}

theorem EndsCleanly.of_contents (h : files.EndsCleanly disk)
    (hsame : files.contents disk = others.contents other) : others.EndsCleanly other := by
  obtain ⟨hsource, htarget⟩ := Prod.mk.inj hsame
  obtain ⟨source, target, hfound, hother, hend⟩ := h
  exact ⟨source, target, hsource.symm.trans hfound, htarget.symm.trans hother, hend⟩

end FilePair

/-- What the paths of a bitext lead to, in corpus order. -/
def FileSet.contents (disk : Disk) (files : FileSet) :
    List (Except OsError Node × Except OsError Node) :=
  files.pairs.map (·.contents disk)

theorem FileSet.endsCleanly_of_contents {disk other : Disk} {files copies : FileSet}
    (h : files.contents disk = copies.contents other)
    (hclean : ∀ pair ∈ files.pairs, pair.EndsCleanly disk) :
    ∀ pair ∈ copies.pairs, pair.EndsCleanly other := by
  intro pair hpair
  have hmem : pair.contents other ∈ files.contents disk := by
    rw [h]
    exact List.mem_map_of_mem hpair
  obtain ⟨original, horiginal, hsame⟩ := List.mem_map.mp hmem
  exact (hclean original horiginal).of_contents hsame

namespace Harvest

variable {settings : Settings} {disk other : Disk} {files others : FilePair}

/-- Of file pairs with the same contents the same pairs are admitted. -/
theorem admitted_congr (h : files.contents disk = others.contents other) :
    (ofFiles settings disk .empty files).admitted
      = (ofFiles settings other .empty others).admitted := by
  obtain ⟨hsource, htarget⟩ := Prod.mk.inj h
  cases hfound : disk.find files.source with
  | error reason =>
      rw [ofFiles_of_unopened (FilePair.openReader_of_sourceUnopened hfound),
        ofFiles_of_unopened (FilePair.openReader_of_sourceUnopened (hsource.symm.trans hfound))]
  | ok source =>
      have hsourceFound := hsource.symm.trans hfound
      cases hother : disk.find files.target with
      | error reason =>
          rw [ofFiles_of_unopened (FilePair.openReader_of_targetUnopened hfound hother),
            ofFiles_of_unopened (FilePair.openReader_of_targetUnopened hsourceFound
              (htarget.symm.trans hother))]
      | ok target =>
          rw [ofFiles_of_opened (FilePair.openReader_of_found hfound hother),
            ofFiles_of_opened (FilePair.openReader_of_found hsourceFound
              (htarget.symm.trans hother))]

/-! ### The settings without the seed -/

theorem ofLines_withSeed (seed : Option Nat) {fault : Option Fault} (pairs : List LinePair) :
    ∀ tally, ofLines { settings with seed } fault tally pairs
      = ofLines settings fault tally pairs := by
  induction pairs with
  | nil => intro tally; rfl
  | cons found rest ih =>
      intro tally
      have hreceive : Admission.receive { settings with seed } found.line found.pair tally
          = Admission.receive settings found.line found.pair tally := rfl
      simp only [ofLines, hreceive, ih]

theorem ofFiles_withSeed (seed : Option Nat) :
    ofFiles { settings with seed } disk .empty files = ofFiles settings disk .empty files := by
  simp only [ofFiles, ofLines_withSeed]

end Harvest

namespace Build

theorem admitted_congr {settings : Settings} {disk other : Disk} (pairs : List FilePair) :
    ∀ others : List FilePair, pairs.map (·.contents disk) = others.map (·.contents other) →
      admitted settings disk pairs = admitted settings other others := by
  induction pairs with
  | nil =>
      intro others h
      obtain rfl : others = [] := List.map_eq_nil_iff.mp h.symm
      rfl
  | cons files rest ih =>
      intro others h
      cases others with
      | nil => cases h
      | cons first later =>
          obtain ⟨hfirst, hrest⟩ := List.cons.inj h
          rw [admitted_cons, admitted_cons, Harvest.admitted_congr hfirst, ih later hrest]

theorem admitted_withSeed (settings : Settings) (seed : Option Nat) (disk : Disk)
    (pairs : List FilePair) :
    admitted { settings with seed } disk pairs = admitted settings disk pairs := by
  have hsame : Harvest.ofFiles { settings with seed } disk .empty
      = Harvest.ofFiles settings disk .empty := funext fun _ => Harvest.ofFiles_withSeed seed
  rw [admitted, admitted, harvests, harvests, hsame]

/-- Settings that differ in the seed alone admit the same pairs of files with the same
contents. -/
theorem admitted_eq_of_contents {settings others : Settings} {disk other : Disk}
    {files copies : FileSet}
    (hsettings : { settings with seed := none } = { others with seed := none })
    (hfiles : files.contents disk = copies.contents other) :
    admitted settings disk files.pairs = admitted others other copies.pairs := by
  rw [← admitted_withSeed settings none, hsettings, admitted_withSeed others none,
    admitted_congr files.pairs copies.pairs hfiles]

/-! ### When a build succeeds -/

section

variable {settings : Settings} {files : FileSet} {w : Workspace}

/-- **A build succeeds when the blob's file can be made, all file pairs end cleanly and the
admitted pairs fit, and only then.** -/
theorem index_ok_iff :
    (∃ built after, (index settings files).run w = (.ok built, after)) ↔
      (∃ file disk, w.disk.createTemporary settings.tempDir BlobWriter.ending
        = (.ok file, disk)) ∧
      (∀ pair ∈ files.pairs, pair.EndsCleanly w.disk) ∧
      ∀ p ∈ admitted settings w.disk files.pairs, PairRecord.Fits p := by
  constructor
  · rintro ⟨built, after, h⟩
    obtain ⟨file, disk, -, hcreate, hsound, -⟩ := exists_of_index_ok h
    have hagrees := Disk.agreesOnGiven_of_createTemporary hcreate
    refine ⟨⟨file, disk, hcreate⟩, ?_, (madeOf_admitted_of_index_ok h).1.fits⟩
    intro pair hpair
    have hclean := (Harvest.not_faulty_iff_endsCleanly settings).mp (hsound pair hpair)
    exact hclean.of_agreesOnGiven hagrees
  · rintro ⟨hcreate, hclean, hfits⟩
    refine exists_index_ok hcreate ?_ hfits
    intro pair hpair
    exact (Harvest.not_faulty_iff_endsCleanly settings).mpr (hclean pair hpair)

/-- The tally of a build that succeeds is that of its files. -/
theorem tally_of_index_ok {built : BuiltIndex} {after : Workspace}
    (h : (index settings files).run w = (.ok built, after)) :
    built.tally = tally settings w.disk files.pairs := by
  obtain ⟨file, disk, full, hcreate, -, -, rfl, -⟩ := exists_of_index_ok h
  have hagrees := Disk.agreesOnGiven_of_createTemporary hcreate
  have hsame : Harvest.ofFiles settings disk .empty = Harvest.ofFiles settings w.disk .empty :=
    funext (ofFiles_eq hagrees)
  show tally settings disk files.pairs = _
  rw [tally, tally, harvests, harvests, hsame]

end

/-- The tally of a build, if the build succeeds. -/
def tally? (settings : Settings) (files : FileSet) (w : Workspace) : Option Tally :=
  match ((index settings files).run w).1 with
  | .ok built => some built.tally
  | .error _ => none

section

variable {settings : Settings} {files : FileSet} {w other after : Workspace}

theorem tally?_of_index_ok {built : BuiltIndex}
    (h : (index settings files).run w = (.ok built, after)) :
    tally? settings files w = some built.tally := by
  rw [tally?, h]

theorem tally?_of_index_error {fault : Fault}
    (h : (index settings files).run w = (.error fault, after)) :
    tally? settings files w = none := by
  rw [tally?, h]

/-- Whether a build succeeds is not changed by what has been logged. -/
theorem index_ok_congr (h : w.disk = other.disk) :
    (∃ built after, (index settings files).run w = (.ok built, after)) ↔
      ∃ built after, (index settings files).run other = (.ok built, after) := by
  rw [index_ok_iff, index_ok_iff, h]

/-- What has been logged has no influence on the tally of a build. -/
theorem tally?_eq_of_disk (h : w.disk = other.disk) :
    tally? settings files w = tally? settings files other := by
  cases hindex : (index settings files).run w with
  | mk result after =>
      cases result with
      | ok built =>
          obtain ⟨copy, last, hcopy⟩ := (index_ok_congr h).mp ⟨built, after, hindex⟩
          rw [tally?_of_index_ok hindex, tally?_of_index_ok hcopy, tally_of_index_ok hindex,
            tally_of_index_ok hcopy, h]
      | error fault =>
          cases hother : (index settings files).run other with
          | mk found left =>
              cases found with
              | error reason => rw [tally?_of_index_error hindex, tally?_of_index_error hother]
              | ok built =>
                  obtain ⟨copy, last, hcopy⟩ := (index_ok_congr h).mpr ⟨built, left, hother⟩
                  rw [hindex] at hcopy
                  cases hcopy

end

end Build

/-! ### What a build has written -/

namespace Store

/-- The file that is written to has no influence on what is written and how it is filed. -/
theorem grownAll_congr (pairs : List Admitted) :
    ∀ store other : Store, store.writer.bytes = other.writer.bytes →
      store.writer.position = other.writer.position → store.index = other.index →
      (store.grownAll pairs).writer.bytes = (other.grownAll pairs).writer.bytes ∧
        (store.grownAll pairs).index = (other.grownAll pairs).index := by
  induction pairs with
  | nil =>
      intro store other hbytes _ hindex
      exact ⟨hbytes, hindex⟩
  | cons p rest ih =>
      intro store other hbytes hposition hindex
      refine ih (store.grown p) (other.grown p) ?_ ?_ ?_
      · rw [grown, grown, hbytes]
      · rw [grown, grown, hposition]
      · rw [grown, grown, hposition, hindex]

end Store

/-- **Builds that were made of the same pairs have the same records at the same offsets.** -/
theorem BuiltIndex.MadeOf.same {settings others : Settings} {built other : BuiltIndex}
    {pairs : List Admitted} (h : built.MadeOf settings pairs) (hother : other.MadeOf others pairs) :
    built.index = other.index ∧ built.blob.bytes = other.blob.bytes := by
  obtain ⟨hbytes, hindex⟩ := Store.grownAll_congr pairs
    (.ofWriter (.ofFile built.blob.file)) (.ofWriter (.ofFile other.blob.file)) rfl rfl rfl
  rw [h.index, h.bytes, hother.index, hother.bytes]
  exact ⟨hindex, hbytes⟩

end Bitext
