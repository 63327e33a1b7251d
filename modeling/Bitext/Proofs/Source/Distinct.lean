/-
No file is used twice.

A name has one key for each suffix, so it can only be used twice when it has both suffixes.  Then
one suffix ends in the other one, as the suffix of `bpe.en` ends in that of `en`, and whatever is
named with the longer suffix is also named with the shorter one, by a longer key.  Where both sides
have the same keys this makes every key longer again, but a folder has only so many names.  So a
folder from which pairs are made has no such name, and with such languages no pairs are ever made.
-/
import Mathlib.Data.Set.Finite.Lemmas
import Bitext.Proofs.Source.Discovery

namespace Bitext

/-- Names in a folder are told apart by their paths. -/
theorem Path.child_inj {folder : Path} {name other : String} (hname : name.toList.head? ≠ some '/')
    (hother : other.toList.head? ≠ some '/') (h : folder.child name = folder.child other) :
    name = other := by
  unfold Path.child at h
  rw [if_neg hname, if_neg hother] at h
  split at h
  · exact (String.append_right_inj _).mp (Path.mk.inj h)
  · exact (String.append_right_inj _).mp (Path.mk.inj h)

namespace FileSet

variable {disk : Disk} {folder : Path} {source target sourceSuffix targetSuffix : String}
  {suffix other key front name : String} {names : List String}

/-! ### Names with both suffixes -/

theorem IsNamed.key_unique {second : String} (h : IsNamed suffix key name)
    (hsecond : IsNamed suffix second name) : key = second := by
  rw [← keyOf?_eq_some_iff] at h hsecond
  exact String.toList_inj.mp (Option.some.inj (h.symm.trans hsecond))

/-- A text that is two texts up to case is cut where they meet. -/
theorem SameUpToCase.exists_append {text one two : String} (h : SameUpToCase text (one ++ two)) :
    ∃ first second, text = first ++ second ∧ SameUpToCase first one ∧ SameUpToCase second two := by
  unfold SameUpToCase at h
  rw [String.toList_append, List.map_append] at h
  obtain ⟨first, second, htext, hfirst, hsecond⟩ := List.map_eq_append_iff.mp h
  refine ⟨String.ofList first, String.ofList second, ?_, ?_, ?_⟩
  · rw [← String.toList_inj, String.toList_append, String.toList_ofList, String.toList_ofList,
      htext]
  · rw [SameUpToCase, String.toList_ofList, hfirst]
  · rw [SameUpToCase, String.toList_ofList, hsecond]

theorem SameUpToCase.ne_empty {a b : String} (h : SameUpToCase a b) (hb : b ≠ "") : a ≠ "" := by
  rintro rfl
  exact hb (String.length_eq_zero_iff.mp h.length_eq.symm)

/-- When a suffix ends in another one, its names have longer keys with the other one. -/
theorem IsNamed.exists_longer (h : IsNamed suffix key name) (hfront : IsNamed other front suffix) :
    ∃ longer, key.length < longer.length ∧ IsNamed other longer name := by
  obtain ⟨hkey, tail, rfl, htail⟩ := h
  obtain ⟨hnonempty, back, rfl, hback⟩ := hfront
  obtain ⟨first, second, rfl, hfirst, hsecond⟩ := htail.exists_append
  refine ⟨key ++ first, ?_, ?_, second, String.append_assoc.symm, hsecond.trans hback⟩
  · have hlength : first.length ≠ 0 := fun hzero =>
      hfirst.ne_empty hnonempty (String.length_eq_zero_iff.mp hzero)
    rw [String.length_append]
    omega
  · exact fun hempty => hkey (String.append_eq_empty_iff.mp hempty).1

theorem exists_front_of_tail {extra tail : String} (hdiffer : ¬SameUpToCase suffix other)
    (htail : SameUpToCase tail other) (hlong : SameUpToCase (extra ++ tail) suffix) :
    ∃ front, IsNamed other front suffix := by
  obtain ⟨front, back, rfl, hfront, hback⟩ := hlong.symm.exists_append
  refine ⟨front, hfront.ne_empty ?_, back, rfl, hback.trans htail⟩
  rintro rfl
  rw [String.empty_append] at hlong
  exact hdiffer (hlong.symm.trans htail)

/-- When a name has two suffixes, one suffix ends in the other. -/
theorem exists_front {second : String} (hdiffer : ¬SameUpToCase suffix other)
    (h : IsNamed suffix key name) (hsecond : IsNamed other second name) :
    (∃ front, IsNamed other front suffix) ∨ ∃ front, IsNamed suffix front other := by
  obtain ⟨-, tail, rfl, htail⟩ := h
  obtain ⟨-, ending, hname, hending⟩ := hsecond
  rw [← String.toList_inj, String.toList_append, String.toList_append,
    List.append_eq_append_iff] at hname
  rcases hname with ⟨extra, -, hlonger⟩ | ⟨extra, -, hlonger⟩
  · have hcut : tail = String.ofList extra ++ ending := by
      rw [← String.toList_inj, String.toList_append, String.toList_ofList, hlonger]
    exact .inl (exists_front_of_tail hdiffer hending (hcut ▸ htail))
  · have hcut : ending = String.ofList extra ++ tail := by
      rw [← String.toList_inj, String.toList_append, String.toList_ofList, hlonger]
    exact .inr (exists_front_of_tail (fun hsame => hdiffer hsame.symm) htail (hcut ▸ hending))

/-! ### Ever longer keys -/

theorem finite_keys (suffix : String) (names : List String) : (keys suffix names).Finite :=
  (List.finite_toSet (withSuffix suffix names).keys).subset fun _ hkey =>
    Std.ExtTreeMap.mem_keys.mpr (mem_withSuffix_iff.mpr hkey)

/-- A suffix that ends in another one has no more keys than this one only where there are none. -/
theorem no_keys_of_front (hfront : IsNamed other front suffix)
    (hsub : keys other names ⊆ keys suffix names) : keys other names = ∅ := by
  by_contra hsome
  obtain ⟨key, hkey, hlongest⟩ := Set.exists_max_image (keys other names) String.length
    (finite_keys other names) (Set.nonempty_iff_ne_empty.mpr hsome)
  -- the longest key is a key with the longer suffix too, so there is a longer one
  obtain ⟨name, hmem, hnamed⟩ := hsub hkey
  obtain ⟨longer, hless, hlonger⟩ := hnamed.exists_longer hfront
  exact Nat.not_le.mpr hless (hlongest longer ⟨name, hmem, hlonger⟩)

/-- Where both sides have the same keys, and some, no name has both suffixes. -/
theorem not_named_twice {second : String} (hdiffer : ¬SameUpToCase suffix other)
    (hsame : keys suffix names = keys other names) (hsome : (keys suffix names).Nonempty)
    (h : IsNamed suffix key name) : ¬IsNamed other second name := by
  intro hsecond
  rcases exists_front hdiffer h hsecond with ⟨front, hfront⟩ | ⟨front, hfront⟩
  · exact hsome.ne_empty (hsame.trans (no_keys_of_front hfront hsame.symm.subset))
  · exact hsome.ne_empty (no_keys_of_front hfront hsame.subset)

/-- The name of a target file has the source suffix too, with a key for which there is no target
file. -/
example : discover (filesNamed ["a.bpe.en.snt", "a.en.snt"]) dataFolder "en" "bpe.en"
    = .error ⟨.missingCounterpart "/data/a.bpe.en.snt" ".bpe.en.snt", []⟩ := rfl

/-! ### The paths of the pairs -/

/-- Names that have one suffix only are used once. -/
theorem Matching.nodup {found : List Match} (h : Matching sourceSuffix targetSuffix names found)
    (hone : ∀ name key second, IsNamed sourceSuffix key name → ¬IsNamed targetSuffix second name) :
    (found.flatMap fun m => [m.source, m.target]).Nodup := by
  rw [List.nodup_flatMap]
  constructor
  · intro m hm
    rw [List.nodup_cons, List.mem_singleton]
    refine ⟨?_, List.nodup_singleton _⟩
    intro hsame
    exact hone _ _ _ (h.sources m hm).2 (hsame ▸ (h.targets m hm).2)
  · refine h.ordered.imp_of_mem ?_
    intro m later hm hlater hless name hname hother
    simp only [List.mem_cons, List.not_mem_nil, or_false] at hname hother
    rcases hname with rfl | rfl
    · rcases hother with hsame | hsame
      · exact hless.ne ((h.sources m hm).2.key_unique (hsame ▸ (h.sources later hlater).2))
      · exact hone _ _ _ (h.sources m hm).2 (hsame ▸ (h.targets later hlater).2)
    · rcases hother with hsame | hsame
      · exact hone _ _ _ (h.sources later hlater).2 (hsame ▸ (h.targets m hm).2)
      · exact hless.ne ((h.targets m hm).2.key_unique (hsame ▸ (h.targets later hlater).2))

/-- **No file is used twice.**  Whatever two languages are given, also where the suffix of one is
a tail of that of the other, and whatever a folder holds: when its files can be paired, all source
and target files of all pairs are different.  As in any folder, no name starts with a slash. -/
theorem no_file_is_used_twice {files : FileSet} (hnames : disk.fileNames folder = .ok names)
    (hslash : ∀ name ∈ names, name.toList.head? ≠ some '/')
    (h : discover disk folder source target = .ok files) :
    (files.pairs.flatMap fun pair => [pair.source, pair.target]).Nodup := by
  obtain ⟨hsame, hsome, found, rfl, hmatching⟩ := matching_of_discover hnames h
  have hnodup := hmatching.nodup fun name key second =>
    not_named_twice (differ_of_discover h) hsame hsome
  have hpaths : (found.map (·.files folder)).flatMap (fun pair => [pair.source, pair.target])
      = (found.flatMap fun m => [m.source, m.target]).map folder.child := by
    rw [List.flatMap_map, List.map_flatMap]
    rfl
  have hlisted : ∀ name ∈ found.flatMap (fun m => [m.source, m.target]), name ∈ names := by
    intro name hname
    obtain ⟨m, hm, hside⟩ := List.mem_flatMap.mp hname
    simp only [List.mem_cons, List.not_mem_nil, or_false] at hside
    rcases hside with rfl | rfl
    · exact (hmatching.sources m hm).1
    · exact (hmatching.targets m hm).1
  show ((found.map (·.files folder)).flatMap fun pair => [pair.source, pair.target]).Nodup
  rw [hpaths]
  refine hnodup.map_on ?_
  intro name hname other hother heq
  exact Path.child_inj (hslash name (hlisted name hname)) (hslash other (hlisted other hother)) heq

/-- Four files make two pairs, and the fifth one is in none. -/
theorem listing_is_used_once :
    (filesNamed listing).fileNames dataFolder = .ok listing ∧
      (∀ name ∈ listing, name.toList.head? ≠ some '/') ∧
      ∃ files, discover (filesNamed listing) dataFolder "en" "de" = .ok files ∧ files.size = 2 ∧
        (files.pairs.flatMap fun pair => [pair.source, pair.target]).Nodup := by
  have hnames : (filesNamed listing).fileNames dataFolder = .ok listing := rfl
  have hslash : ∀ name ∈ listing, name.toList.head? ≠ some '/' := by decide
  obtain ⟨files, h, hsize⟩ : ∃ files,
      discover (filesNamed listing) dataFolder "en" "de" = .ok files ∧ files.size = 2 :=
    ⟨_, rfl, rfl⟩
  exact ⟨hnames, hslash, files, h, hsize, no_file_is_used_twice hnames hslash h⟩

end FileSet

end Bitext
