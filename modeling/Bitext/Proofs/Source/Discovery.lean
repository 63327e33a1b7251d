/-
Discovery: which pairs a folder holds, and what is said when it holds none.

The names with the source suffix have their keys and those with the target suffix have theirs.
The files can be paired when these are the same keys and there are any.  Otherwise there is a
smallest key that one side lacks, or no key at all, and the fault says so; a key that the source
lacks comes first.

All of this is about the names and not about their order, except that names with the same key
compete.  Where none do, the folder may be listed in any order.  The names are those of the entries
in the folder of which the paths lead to files.
-/
import Bitext.Proofs.Source.Keys

namespace Bitext.FileSet

variable {disk : Disk} {folder : Path} {source target sourceSuffix targetSuffix : String}
  {names : List String}

/-! ### What is alone -/

/-- A name is alone when its key is missing on the other side; the smallest such key counts. -/
theorem exists_firstAlone {one other : String} (h : ¬keys one names ⊆ keys other names) :
    ∃ key name, firstAlone? (withSuffix one names) (withSuffix other names) = some name ∧
      name ∈ names ∧ IsNamed one key name ∧ IsLeast (keys one names \ keys other names) key := by
  cases hfirst : firstAlone? (withSuffix one names) (withSuffix other names) with
  | none =>
      refine absurd ?_ h
      intro key hkey
      exact mem_withSuffix_iff.mp
        (firstAlone?_eq_none_iff.mp hfirst key (mem_withSuffix_iff.mpr hkey))
  | some name =>
      obtain ⟨key, hname, hleast⟩ := isLeast_of_firstAlone? hfirst
      obtain ⟨hmem, hnamed⟩ := isNamed_of_withSuffix hname
      simp only [mem_withSuffix_iff] at hleast
      exact ⟨key, name, rfl, hmem, hnamed, hleast⟩

theorem firstAlone?_of_subset {one other : String} (h : keys one names ⊆ keys other names) :
    firstAlone? (withSuffix one names) (withSuffix other names) = none := by
  rw [firstAlone?_eq_none_iff]
  intro key hkey
  exact mem_withSuffix_iff.mpr (h (mem_withSuffix_iff.mp hkey))

/-! ### What is paired -/

/-- The files of a key in a folder. -/
def Match.files (folder : Path) (m : Match) : FilePair :=
  ⟨folder.child m.source, folder.child m.target⟩

/-- Every key with a source and a target name, from the smallest key on. -/
structure Matching (sourceSuffix targetSuffix : String) (names : List String)
    (found : List Match) : Prop where
  ordered : found.Pairwise fun m later => m.key < later.key
  sources : ∀ m ∈ found, m.source ∈ names ∧ IsNamed sourceSuffix m.key m.source
  targets : ∀ m ∈ found, m.target ∈ names ∧ IsNamed targetSuffix m.key m.target
  complete : ∀ key ∈ keys sourceSuffix names, ∃ m ∈ found, m.key = key

/-- All keys are paired when both sides have the same ones. -/
theorem exists_matching (h : keys sourceSuffix names = keys targetSuffix names) :
    ∃ found, pairNames (withSuffix sourceSuffix names) (withSuffix targetSuffix names)
        = found.map (fun m : Match => (m.source, m.target)) ∧
      Matching sourceSuffix targetSuffix names found := by
  obtain ⟨found, hpairs, hordered, hfound⟩ :=
    exists_matches (withSuffix sourceSuffix names) (withSuffix targetSuffix names)
  refine ⟨found, hpairs, hordered, ?_, ?_, ?_⟩
  · intro m hm
    exact isNamed_of_withSuffix ((hfound m).mp hm).1
  · intro m hm
    exact isNamed_of_withSuffix ((hfound m).mp hm).2
  · intro key hkey
    obtain ⟨first, hfirst⟩ := exists_of_mem (mem_withSuffix_iff.mpr hkey)
    rw [h] at hkey
    obtain ⟨second, hsecond⟩ := exists_of_mem (mem_withSuffix_iff.mpr hkey)
    exact ⟨⟨key, first, second⟩, (hfound _).mpr ⟨hfirst, hsecond⟩, rfl⟩

/-! ### What a folder comes to -/

theorem match?_of_target_alone (folder : Path)
    (h : ¬keys targetSuffix names ⊆ keys sourceSuffix names) :
    ∃ key name, name ∈ names ∧ IsNamed targetSuffix key name ∧
      IsLeast (keys targetSuffix names \ keys sourceSuffix names) key ∧
      match? folder sourceSuffix targetSuffix names
        = .error ⟨.missingCounterpart (folder.child name).text sourceSuffix, []⟩ := by
  obtain ⟨key, name, hfirst, hmem, hnamed, hleast⟩ := exists_firstAlone h
  refine ⟨key, name, hmem, hnamed, hleast, ?_⟩
  simp only [match?, hfirst]

theorem match?_of_source_alone (folder : Path)
    (htargets : keys targetSuffix names ⊆ keys sourceSuffix names)
    (h : ¬keys sourceSuffix names ⊆ keys targetSuffix names) :
    ∃ key name, name ∈ names ∧ IsNamed sourceSuffix key name ∧
      IsLeast (keys sourceSuffix names \ keys targetSuffix names) key ∧
      match? folder sourceSuffix targetSuffix names
        = .error ⟨.missingCounterpart (folder.child name).text targetSuffix, []⟩ := by
  obtain ⟨key, name, hfirst, hmem, hnamed, hleast⟩ := exists_firstAlone h
  refine ⟨key, name, hmem, hnamed, hleast, ?_⟩
  simp only [match?, firstAlone?_of_subset htargets, hfirst]

theorem match?_of_same_keys (folder : Path)
    (h : keys sourceSuffix names = keys targetSuffix names) :
    ∃ found, Matching sourceSuffix targetSuffix names found ∧
      match? folder sourceSuffix targetSuffix names
        = if found = [] then .error ⟨.noPairsFound folder.text sourceSuffix targetSuffix, []⟩
          else .ok (found.map fun m => (m.source, m.target)) := by
  obtain ⟨found, hpairs, hmatching⟩ := exists_matching h
  refine ⟨found, hmatching, ?_⟩
  simp only [match?, firstAlone?_of_subset h.subset, firstAlone?_of_subset h.symm.subset, hpairs]
  cases found with
  | nil => rfl
  | cons first rest => rfl

/-- The matching is empty exactly when there are no keys. -/
theorem Matching.eq_nil_iff {found : List Match}
    (h : Matching sourceSuffix targetSuffix names found) :
    found = [] ↔ keys sourceSuffix names = ∅ := by
  constructor
  · rintro rfl
    refine Set.eq_empty_iff_forall_notMem.mpr fun key hkey => ?_
    obtain ⟨m, hm, -⟩ := h.complete key hkey
    cases hm
  · intro hempty
    refine List.eq_nil_iff_forall_not_mem.mpr fun m hm => ?_
    have hkey : m.key ∈ keys sourceSuffix names := ⟨m.source, h.sources m hm⟩
    rw [hempty] at hkey
    exact hkey

theorem discover_eq (hdiffer : ¬SameUpToCase (suffix source) (suffix target))
    (hnames : disk.fileNames folder = .ok names) :
    discover disk folder source target
      = (match? folder (suffix source) (suffix target) names).map fun pairs =>
          ⟨folder, pairs.map fun names => ⟨folder.child names.1, folder.child names.2⟩⟩ := by
  rw [← sameLetters_iff] at hdiffer
  simp only [discover, if_neg hdiffer, hnames]
  cases match? folder (suffix source) (suffix target) names <;> rfl

theorem discover_of_error {fault : Fault}
    (hdiffer : ¬SameUpToCase (suffix source) (suffix target))
    (hnames : disk.fileNames folder = .ok names)
    (h : match? folder (suffix source) (suffix target) names = .error fault) :
    discover disk folder source target = .error fault := by
  rw [discover_eq hdiffer hnames, h]
  rfl

theorem discover_of_same_keys (hdiffer : ¬SameUpToCase (suffix source) (suffix target))
    (hnames : disk.fileNames folder = .ok names)
    (h : keys (suffix source) names = keys (suffix target) names) :
    ∃ found, Matching (suffix source) (suffix target) names found ∧
      discover disk folder source target
        = if found = [] then .error ⟨.noPairsFound folder.text (suffix source) (suffix target), []⟩
          else .ok ⟨folder, found.map (·.files folder)⟩ := by
  obtain ⟨found, hmatching, hmatch⟩ := match?_of_same_keys folder h
  refine ⟨found, hmatching, ?_⟩
  rw [discover_eq hdiffer hnames, hmatch]
  by_cases hempty : found = []
  · rw [if_pos hempty, if_pos hempty]
    rfl
  · rw [if_neg hempty, if_neg hempty, Except.map, List.map_map]
    rfl

/-- Two languages with the same files are refused. -/
theorem differ_of_discover {files : FileSet}
    (h : discover disk folder source target = .ok files) :
    ¬SameUpToCase (suffix source) (suffix target) := by
  intro hsame
  rw [← sameLetters_iff] at hsame
  simp only [discover, if_pos hsame] at h
  cases h

/-- Files are found only where every key has both of them. -/
theorem matching_of_discover {files : FileSet} (hnames : disk.fileNames folder = .ok names)
    (h : discover disk folder source target = .ok files) :
    keys (suffix source) names = keys (suffix target) names ∧
      (keys (suffix source) names).Nonempty ∧
      ∃ found, files = ⟨folder, found.map (·.files folder)⟩ ∧
        Matching (suffix source) (suffix target) names found := by
  have hdiffer := differ_of_discover h
  have hsame : keys (suffix source) names = keys (suffix target) names := by
    -- where the keys differ, one of the two complaints comes up
    by_contra hdistinct
    by_cases htargets : keys (suffix target) names ⊆ keys (suffix source) names
    · obtain ⟨_, _, -, -, -, hmatch⟩ := match?_of_source_alone folder htargets
        fun hsources => hdistinct (hsources.antisymm htargets)
      cases h.symm.trans (discover_of_error hdiffer hnames hmatch)
    · obtain ⟨_, _, -, -, -, hmatch⟩ := match?_of_target_alone folder htargets
      cases h.symm.trans (discover_of_error hdiffer hnames hmatch)
  obtain ⟨found, hmatching, hdiscover⟩ := discover_of_same_keys hdiffer hnames hsame
  rw [hdiscover] at h
  split at h
  · cases h
  · rename_i hsome
    refine ⟨hsame, ?_, found, (Except.ok.inj h).symm, hmatching⟩
    rw [Set.nonempty_iff_ne_empty]
    exact fun hempty => hsome (hmatching.eq_nil_iff.mpr hempty)

/-! ### The folder as a whole -/

/-- A file of this name stands in the folder: an entry of the folder has the name, and its path
leads to a file. -/
def IsFileIn (disk : Disk) (folder : Path) (name : String) : Prop :=
  (∃ place node, disk.findFolder folder = .ok place ∧
    (place ++ [Name.given name], node) ∈ disk.entries) ∧
  ∃ bytes, disk.find (folder.child name) = .ok (.file bytes)

theorem liesIn_iff {place : Location} {entry : Location × Node} {name : String}
    (hlast : entry.1.getLast? = some (.given name)) :
    Disk.liesIn place entry = true ↔ entry.1 = place ++ [.given name] := by
  obtain ⟨front, hentry⟩ := List.getLast?_eq_some_iff.mp hlast
  rw [Disk.liesIn, hentry, List.dropLast_concat, List.length_append, List.length_singleton]
  simp only [Bool.and_eq_true, beq_iff_eq, List.append_cancel_right_eq]
  constructor
  · exact And.right
  · rintro rfl
    exact ⟨rfl, rfl⟩

theorem mem_namesIn_iff {place : Location} {name : String} :
    name ∈ disk.namesIn place ↔ ∃ node, (place ++ [Name.given name], node) ∈ disk.entries := by
  rw [Disk.namesIn, List.mem_filterMap]
  constructor
  · rintro ⟨entry, hmem, hname⟩
    split at hname
    · rename_i found hlast
      split at hname
      · rename_i hlies
        obtain rfl := Option.some.inj hname
        refine ⟨entry.2, ?_⟩
        rw [← (liesIn_iff hlast).mp hlies]
        exact hmem
      · cases hname
    · cases hname
  · rintro ⟨node, hmem⟩
    have hlast : (place ++ [Name.given name]).getLast? = some (.given name) :=
      List.getLast?_concat
    refine ⟨_, hmem, ?_⟩
    simp only [hlast]
    rw [if_pos ((liesIn_iff hlast).mpr rfl)]

/-- A folder is listed with the names of the files in it. -/
theorem mem_fileNames_iff (hnames : disk.fileNames folder = .ok names) (name : String) :
    name ∈ names ↔ IsFileIn disk folder name := by
  unfold Disk.fileNames at hnames
  simp only [bind, Except.bind] at hnames
  split at hnames
  · cases hnames
  · rename_i place hplace
    obtain rfl := Except.ok.inj hnames
    rw [List.mem_filter, mem_namesIn_iff, IsFileIn, Disk.holdsFile]
    refine and_congr ?_ ?_
    · simp [hplace]
    · split
      · rename_i bytes hfind
        simp [hfind]
      · rename_i hother
        simp only [Bool.false_eq_true, false_iff, not_exists]
        exact hother

-- the empty path leads to no folder, not to the root
example (disk : Disk) : disk.fileNames ⟨""⟩ = .error .notFound := rfl

/-- What is said of a folder in which these names are found. -/
structure Discovery (disk : Disk) (folder : Path) (source target : String)
    (names : List String) : Prop where
  listed : ∀ name, name ∈ names ↔ IsFileIn disk folder name
  /-- There have to be keys, the same ones on both sides. -/
  succeeds_iff : (∃ files, discover disk folder source target = .ok files) ↔
    keys (suffix source) names = keys (suffix target) names ∧ (keys (suffix source) names).Nonempty
  /-- Then each key has its pair, in ascending order. -/
  pairs : ∀ files, discover disk folder source target = .ok files →
    ∃ found, files = ⟨folder, found.map (·.files folder)⟩ ∧
      Matching (suffix source) (suffix target) names found
  /-- The first complaint is about the smallest key that has only a target file. -/
  targetAlone : ¬keys (suffix target) names ⊆ keys (suffix source) names →
    ∃ key name, name ∈ names ∧ IsNamed (suffix target) key name ∧
      IsLeast (keys (suffix target) names \ keys (suffix source) names) key ∧
      discover disk folder source target
        = .error ⟨.missingCounterpart (folder.child name).text (suffix source), []⟩
  /-- The second one is about the smallest key that has only a source file. -/
  sourceAlone : keys (suffix target) names ⊆ keys (suffix source) names →
    ¬keys (suffix source) names ⊆ keys (suffix target) names →
    ∃ key name, name ∈ names ∧ IsNamed (suffix source) key name ∧
      IsLeast (keys (suffix source) names \ keys (suffix target) names) key ∧
      discover disk folder source target
        = .error ⟨.missingCounterpart (folder.child name).text (suffix target), []⟩
  /-- The last one is that there are no keys. -/
  noKeys : keys (suffix source) names = keys (suffix target) names →
    ¬(keys (suffix source) names).Nonempty →
    discover disk folder source target
      = .error ⟨.noPairsFound folder.text (suffix source) (suffix target), []⟩
  /-- Names that do not compete may be listed in any order. -/
  anyOrder : Unambiguous (suffix source) names → Unambiguous (suffix target) names →
    ∀ (other : Disk) (listed : List String), other.fileNames folder = .ok listed →
      names.Perm listed → discover other folder source target
        = discover disk folder source target

/-- **Discovery pairs exactly the matching files.**  Two languages whose suffixes differ, and a
folder that can be listed, which comes to the names of the files in it: the files can be paired
when the same keys, and some, have a source and a target file, and then each key has its pair.
Otherwise the first key that lacks a file is reported, a key without source file before a key
without target file, or else that there are no keys.  As long as no two names compete for a key,
none of this depends on the order in which the folder is listed. -/
theorem discovery_pairs_matching_files
    (hdiffer : ¬SameUpToCase (suffix source) (suffix target))
    (hnames : disk.fileNames folder = .ok names) :
    Discovery disk folder source target names where
  listed := mem_fileNames_iff hnames
  succeeds_iff := by
    constructor
    · rintro ⟨files, h⟩
      obtain ⟨hsame, hsome, -⟩ := matching_of_discover hnames h
      exact ⟨hsame, hsome⟩
    · rintro ⟨hsame, hsome⟩
      obtain ⟨found, hmatching, hdiscover⟩ := discover_of_same_keys hdiffer hnames hsame
      have hfound : found ≠ [] := fun hempty => hsome.ne_empty (hmatching.eq_nil_iff.mp hempty)
      rw [if_neg hfound] at hdiscover
      exact ⟨_, hdiscover⟩
  pairs := fun files h => (matching_of_discover hnames h).2.2
  targetAlone := by
    intro htargets
    obtain ⟨key, name, hmem, hnamed, hleast, hmatch⟩ := match?_of_target_alone folder htargets
    exact ⟨key, name, hmem, hnamed, hleast, discover_of_error hdiffer hnames hmatch⟩
  sourceAlone := by
    intro htargets hsources
    obtain ⟨key, name, hmem, hnamed, hleast, hmatch⟩ :=
      match?_of_source_alone folder htargets hsources
    exact ⟨key, name, hmem, hnamed, hleast, discover_of_error hdiffer hnames hmatch⟩
  noKeys := by
    intro hsame hnone
    obtain ⟨found, hmatching, hdiscover⟩ := discover_of_same_keys hdiffer hnames hsame
    rw [Set.not_nonempty_iff_eq_empty] at hnone
    rw [hdiscover, if_pos (hmatching.eq_nil_iff.mpr hnone)]
  anyOrder := by
    intro hsources htargets other listed hlisted hperm
    rw [discover_eq hdiffer hnames, discover_eq hdiffer hlisted, match?, match?,
      withSuffix_perm hsources hperm, withSuffix_perm htargets hperm]

/-- The names of two pairs and of a file that is in none, the last pair first. -/
def listing : List String :=
  ["web.en.snt", "web.de.snt", "readme.txt", "news.EN.snt", "news.de.snt"]

/-- The folder with the files. -/
def dataFolder : Path := ⟨"/data"⟩

/-- A disk with empty files of these names in the folder. -/
def filesNamed (names : List String) : Disk where
  entries := ([.given "data"], .folder)
    :: names.map fun name => ([.given "data", .given name], .file .empty)

/-- The pairs come in the order of their keys, whichever way the folder is listed. -/
theorem both_listings_are_paired :
    ¬SameUpToCase (suffix "en") (suffix "de") ∧
      (filesNamed listing).fileNames dataFolder = .ok listing ∧
      discover (filesNamed listing) dataFolder "en" "de"
        = .ok ⟨dataFolder, [⟨⟨"/data/news.EN.snt"⟩, ⟨"/data/news.de.snt"⟩⟩,
            ⟨⟨"/data/web.en.snt"⟩, ⟨"/data/web.de.snt"⟩⟩]⟩ ∧
      discover (filesNamed listing.reverse) dataFolder "en" "de"
        = discover (filesNamed listing) dataFolder "en" "de" := by
  have hdiffer : ¬SameUpToCase (suffix "en") (suffix "de") := by decide
  have hnames : (filesNamed listing).fileNames dataFolder = .ok listing := rfl
  have hdiscovery := discovery_pairs_matching_files hdiffer hnames
  refine ⟨hdiffer, hnames, rfl, ?_⟩
  exact hdiscovery.anyOrder (by decide) (by decide) _ _ rfl (List.reverse_perm _).symm

end Bitext.FileSet
