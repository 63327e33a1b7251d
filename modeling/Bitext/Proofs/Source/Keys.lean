/-
Keys: which names are found under which key.

A name is cut by length, from its end, and what is cut off is compared with the suffix.  Said
without counting: the name is a key, which is not empty, with a tail behind it that is the suffix
up to case.  Names go into a map one after another and a later one replaces an earlier one with
the same key, so the map holds the last name of each key.  As soon as no two names share a key it
no longer matters in which order they came.
-/
import Mathlib.Data.String.Basic
import Mathlib.Order.Bounds.Basic
import Bitext.Source.FileSet

namespace Bitext.FileSet

variable {suffix key name : String} {names : List String}

/-! ### The key of a name -/

/-- The texts are equal up to the case of their ASCII letters. -/
def SameUpToCase (a b : String) : Prop := a.toList.map Char.toLower = b.toList.map Char.toLower

instance (a b : String) : Decidable (SameUpToCase a b) := inferInstanceAs (Decidable (_ = _))

/-- The name is the key with the suffix behind it, in either case. -/
def IsNamed (suffix key name : String) : Prop :=
  key ≠ "" ∧ ∃ tail, name = key ++ tail ∧ SameUpToCase tail suffix

/-- The keys of the names that have the suffix. -/
def keys (suffix : String) (names : List String) : Set String :=
  {key | ∃ name ∈ names, IsNamed suffix key name}

/-- Different names that have the suffix have different keys. -/
def Unambiguous (suffix : String) (names : List String) : Prop :=
  ∀ key, ∀ first ∈ names, ∀ other ∈ names,
    IsNamed suffix key first → IsNamed suffix key other → first = other

theorem sameLetters_iff {a b : String} :
    sameLetters a.toList b.toList = true ↔ SameUpToCase a b := by
  simp [sameLetters, SameUpToCase]

theorem SameUpToCase.symm {a b : String} (h : SameUpToCase a b) : SameUpToCase b a := Eq.symm h

theorem SameUpToCase.trans {a b c : String} (h : SameUpToCase a b) (hnext : SameUpToCase b c) :
    SameUpToCase a c :=
  Eq.trans h hnext

theorem SameUpToCase.length_eq {a b : String} (h : SameUpToCase a b) : a.length = b.length := by
  have hlength := congrArg List.length h
  rwa [List.length_map, List.length_map, String.length_toList, String.length_toList] at hlength

/-- What is cut off by length is a key with the suffix behind it. -/
theorem isNamed_of_keyOf? (h : keyOf? suffix.toList name.toList = some key.toList) :
    IsNamed suffix key name := by
  unfold keyOf? at h
  simp only at h
  split at h
  · rename_i hcut
    have hfront := Option.some.inj h
    rw [hfront, Bool.and_eq_true, Bool.not_eq_true', List.isEmpty_eq_false_iff] at hcut
    obtain ⟨hkey, htail⟩ := hcut
    have hjoin : key.toList ++ name.toList.drop key.toList.length = name.toList := by
      have hlength := congrArg List.length hfront
      rw [List.length_take, Nat.min_eq_left (Nat.sub_le _ _)] at hlength
      rw [← hlength, ← hfront, List.take_append_drop]
    refine ⟨?_, String.ofList (name.toList.drop key.toList.length), ?_, ?_⟩
    · rintro rfl
      exact hkey rfl
    · rw [← String.toList_inj, String.toList_append, String.toList_ofList, hjoin]
    · rw [← sameLetters_iff, String.toList_ofList]
      exact htail
  · cases h

/-- A suffix and its tail in a name are of the same length, so the cut falls behind the key. -/
theorem keyOf?_of_isNamed (h : IsNamed suffix key name) :
    keyOf? suffix.toList name.toList = some key.toList := by
  obtain ⟨hkey, tail, rfl, htail⟩ := h
  have hcut : (key ++ tail).toList.length - suffix.toList.length = key.toList.length := by
    rw [String.toList_append, List.length_append, String.length_toList, String.length_toList,
      String.length_toList, htail.length_eq, Nat.add_sub_cancel]
  have hfront : (key ++ tail).toList.take key.toList.length = key.toList := by
    rw [String.toList_append, List.take_left]
  have hback : (key ++ tail).toList.drop key.toList.length = tail.toList := by
    rw [String.toList_append, List.drop_left]
  have hnonempty : key.toList.isEmpty = false := by
    rw [List.isEmpty_eq_false_iff, ne_eq, String.toList_eq_nil_iff]
    exact hkey
  simp only [keyOf?, hcut, hfront, hback, hnonempty, sameLetters_iff.mpr htail]
  rfl

theorem keyOf?_eq_some_iff :
    keyOf? suffix.toList name.toList = some key.toList ↔ IsNamed suffix key name :=
  ⟨isNamed_of_keyOf?, keyOf?_of_isNamed⟩

theorem unambiguous_iff : Unambiguous suffix names ↔ ∀ first ∈ names, ∀ other ∈ names,
    keyOf? suffix.toList first.toList ≠ none →
      keyOf? suffix.toList first.toList = keyOf? suffix.toList other.toList → first = other := by
  constructor
  · intro h first hfirst other hother hsome hsame
    obtain ⟨key, hkey⟩ := Option.ne_none_iff_exists'.mp hsome
    rw [← String.toList_ofList (l := key)] at hkey
    exact h _ first hfirst other hother (keyOf?_eq_some_iff.mp hkey)
      (keyOf?_eq_some_iff.mp (hsame ▸ hkey))
  · intro h key first hfirst other hother hnamed hothernamed
    rw [← keyOf?_eq_some_iff] at hnamed hothernamed
    exact h first hfirst other hother (by rw [hnamed]; nofun) (hnamed.trans hothernamed.symm)

instance (suffix : String) (names : List String) : Decidable (Unambiguous suffix names) :=
  decidable_of_iff _ unambiguous_iff.symm

/-! ### The map of keys -/

theorem exists_of_mem {found : KeyedNames} (h : key ∈ found) : ∃ name, found[key]? = some name :=
  Option.isSome_iff_exists.mp (Std.ExtTreeMap.mem_iff_isSome_getElem?.mp h)

/-- The name has the key. -/
def hasKey (suffix key name : String) : Bool :=
  keyOf? suffix.toList name.toList == some key.toList

theorem hasKey_iff : hasKey suffix key name = true ↔ IsNamed suffix key name := by
  rw [hasKey, beq_iff_eq, keyOf?_eq_some_iff]

theorem getElem?_addName (found : KeyedNames) (name key : String) :
    (addName suffix found name)[key]?
      = if hasKey suffix key name then some name else found[key]? := by
  unfold addName hasKey
  cases hkey : keyOf? suffix.toList name.toList with
  | none => rfl
  | some cut =>
      simp only [Std.ExtTreeMap.getElem?_insert, Std.compare_eq_iff_eq, beq_iff_eq,
        Option.some.injEq]
      refine if_congr ?_ rfl rfl
      rw [← String.toList_inj, String.toList_ofList]

/-- The last name with the key counts. -/
theorem getElem?_withSuffix (suffix key : String) (names : List String) :
    (withSuffix suffix names)[key]? = names.reverse.find? (hasKey suffix key) := by
  -- names still to come go before what was found, so the fold is taken from any map
  have hfold : ∀ found : KeyedNames, (names.foldl (addName suffix) found)[key]?
      = (names.reverse.find? (hasKey suffix key)).or found[key]? := by
    induction names with
    | nil => intro found; rfl
    | cons name rest ih =>
        intro found
        rw [List.foldl_cons, ih, getElem?_addName, List.reverse_cons, List.find?_append,
          Option.or_assoc, List.find?_cons, List.find?_nil]
        cases hasKey suffix key name <;> rfl
  rw [withSuffix, hfold, Std.ExtTreeMap.getElem?_empty, Option.or_none]

/-- A name in the map is one of the names, under its key. -/
theorem isNamed_of_withSuffix (h : (withSuffix suffix names)[key]? = some name) :
    name ∈ names ∧ IsNamed suffix key name := by
  rw [getElem?_withSuffix] at h
  exact ⟨List.mem_reverse.mp (List.mem_of_find?_eq_some h), hasKey_iff.mp (List.find?_some h)⟩

/-- The keys in the map are the keys of the names. -/
theorem mem_withSuffix_iff : key ∈ withSuffix suffix names ↔ key ∈ keys suffix names := by
  rw [Std.ExtTreeMap.mem_iff_isSome_getElem?, getElem?_withSuffix, List.find?_isSome]
  simp only [List.mem_reverse, hasKey_iff]
  rfl

/-- Without names that share a key, each one is in the map. -/
theorem withSuffix_eq_some_iff (h : Unambiguous suffix names) :
    (withSuffix suffix names)[key]? = some name ↔ name ∈ names ∧ IsNamed suffix key name := by
  constructor
  · exact isNamed_of_withSuffix
  · rintro ⟨hmem, hnamed⟩
    obtain ⟨other, hother⟩ := exists_of_mem (mem_withSuffix_iff.mpr ⟨name, hmem, hnamed⟩)
    obtain ⟨hothermem, hothernamed⟩ := isNamed_of_withSuffix hother
    rw [hother, h key other hothermem name hmem hothernamed hnamed]

theorem Unambiguous.perm {others : List String} (h : Unambiguous suffix names)
    (hperm : names.Perm others) : Unambiguous suffix others := by
  intro key first hfirst other hother
  exact h key first (hperm.mem_iff.mpr hfirst) other (hperm.mem_iff.mpr hother)

/-- Then it makes no difference in which order the names come. -/
theorem withSuffix_perm {others : List String} (h : Unambiguous suffix names)
    (hperm : names.Perm others) : withSuffix suffix names = withSuffix suffix others := by
  apply Std.ExtTreeMap.ext_getElem?
  intro key
  apply Option.ext
  intro name
  rw [withSuffix_eq_some_iff h, withSuffix_eq_some_iff (h.perm hperm), hperm.mem_iff]

/-! ### Two maps -/

theorem mem_iff_entry (found : KeyedNames) :
    key ∈ found ↔ ∃ name, (key, name) ∈ found.toList := by
  simp only [Std.ExtTreeMap.mem_iff_isSome_getElem?, Option.isSome_iff_exists,
    Std.ExtTreeMap.mem_toList_iff_getElem?_eq_some]

/-- The entries of a map are in the order of their keys. -/
theorem ordered_toList (found : KeyedNames) :
    found.toList.Pairwise fun entry later => entry.1 < later.1 := by
  have hkeys := Std.ExtTreeMap.ordered_keys_toList (t := found)
  exact hkeys.imp fun h => compare_lt_iff_lt.mp h

theorem not_contains_iff {others : KeyedNames} :
    (!others.contains key) = true ↔ key ∉ others := by
  rw [Bool.not_eq_true', ← Bool.not_eq_true, Std.ExtTreeMap.mem_iff_contains]

/-- Nothing is alone when the other map has all the keys. -/
theorem firstAlone?_eq_none_iff {found others : KeyedNames} :
    firstAlone? found others = none ↔ ∀ key ∈ found, key ∈ others := by
  simp only [firstAlone?, Option.map_eq_none_iff, List.find?_eq_none, not_contains_iff,
    Classical.not_not, Prod.forall, mem_iff_entry found, forall_exists_index]

/-- What is alone has the smallest of the keys that the other map does not have. -/
theorem isLeast_of_firstAlone? {found others : KeyedNames}
    (h : firstAlone? found others = some name) :
    ∃ key, found[key]? = some name ∧ IsLeast {key | key ∈ found ∧ key ∉ others} key := by
  obtain ⟨⟨key, name⟩, hfirst, rfl⟩ := Option.map_eq_some_iff.mp h
  have hentry := List.mem_of_find?_eq_some hfirst
  obtain ⟨halone, before, after, hlist, hbefore⟩ := List.find?_eq_some_iff_append.mp hfirst
  refine ⟨key, Std.ExtTreeMap.mem_toList_iff_getElem?_eq_some.mp hentry,
    ⟨(mem_iff_entry found).mpr ⟨name, hentry⟩, not_contains_iff.mp halone⟩, ?_⟩
  rintro other ⟨hother, hmissing⟩
  obtain ⟨othername, hplace⟩ := (mem_iff_entry found).mp hother
  have hordered := ordered_toList found
  rw [hlist] at hplace hordered
  rcases List.mem_append.mp hplace with hearlier | hfrom
  · -- an entry before the first one that is alone is not alone
    have hpaired := hbefore _ hearlier
    rw [not_contains_iff.mpr hmissing] at hpaired
    cases hpaired
  · rcases List.mem_cons.mp hfrom with hsame | hlater
    · cases hsame
      exact le_refl _
    · exact ((List.pairwise_cons.mp (List.pairwise_append.mp hordered).2.1).1 _ hlater).le

/-- A key with the names that it has in both maps. -/
structure Match where
  key : String
  source : String
  target : String

/-- The pairs of names are those of the keys that are in both maps, in order. -/
theorem exists_matches (sources targets : KeyedNames) :
    ∃ found : List Match, pairNames sources targets = found.map (fun m => (m.source, m.target)) ∧
      (found.Pairwise fun m later => m.key < later.key) ∧
      ∀ m : Match, m ∈ found ↔
        sources[m.key]? = some m.source ∧ targets[m.key]? = some m.target := by
  refine ⟨sources.toList.filterMap fun entry =>
    targets[entry.1]?.map fun name => ⟨entry.1, entry.2, name⟩, ?_, ?_, ?_⟩
  · rw [List.map_filterMap]
    simp only [pairNames, Option.map_map]
    rfl
  · rw [List.pairwise_filterMap]
    refine (ordered_toList sources).imp ?_
    intro entry later hless m hm n hn
    obtain ⟨-, -, rfl⟩ := Option.map_eq_some_iff.mp hm
    obtain ⟨-, -, rfl⟩ := Option.map_eq_some_iff.mp hn
    exact hless
  · intro m
    simp only [List.mem_filterMap, Prod.exists, Option.map_eq_some_iff,
      Std.ExtTreeMap.mem_toList_iff_getElem?_eq_some]
    constructor
    · rintro ⟨key, source, hsource, target, htarget, rfl⟩
      exact ⟨hsource, htarget⟩
    · rintro ⟨hsource, htarget⟩
      exact ⟨m.key, m.source, hsource, m.target, htarget, rfl⟩

end Bitext.FileSet
