/-
Tallies can be merged in any order.

A histogram is a map, and merging adds up what two maps have under the same class, so
merging is commutative and associative class by class; all other counters are numbers.
Tallies are therefore a commutative monoid, and the sum of some tallies does not depend on
the order in which they come in.

Counting a pair on top of a tally is merging the tally of that one pair into it.  So a
tally that is carried on from file to file is the sum of tallies that are begun anew for
every file.
-/
import Mathlib.Algebra.Group.Defs
import Bitext.Admission

namespace Bitext

/-! ### Histograms -/

namespace Histogram

theorem ext_getElem? {h other : Histogram} (hcounts : ∀ c : Nat, h.counts[c]? = other.counts[c]?) :
    h = other := by
  cases h
  cases other
  exact congrArg Histogram.mk (Std.ExtTreeMap.ext_getElem? hcounts)

theorem getElem?_add (h : Histogram) (c n d : Nat) :
    (h.add c n).counts[d]?
      = Option.merge (· + ·) h.counts[d]? (if c = d then some n else none) := by
  unfold add count
  rw [Std.ExtTreeMap.getElem?_insert, Std.ExtTreeMap.getD_eq_getD_getElem?]
  by_cases hc : c = d
  · subst hc
    cases hcount : h.counts[c]? with
    | none => simp
    | some m => simp
  · cases hcount : h.counts[d]? with
    | none => simp [hc]
    | some m => simp [hc]

theorem lookup_toList (counts : Std.ExtTreeMap Nat Nat) (c : Nat) :
    counts.toList.lookup c = counts[c]? := by
  cases hlookup : counts.toList.lookup c with
  | none =>
      rw [eq_comm, Option.eq_none_iff_forall_not_mem]
      intro n hn
      have hmem := Std.ExtTreeMap.mem_toList_iff_getElem?_eq_some.mpr hn
      have hne := List.lookup_eq_none_iff.mp hlookup (c, n) hmem
      simp at hne
  | some n =>
      obtain ⟨before, after, hsplit, -⟩ := List.lookup_eq_some_iff.mp hlookup
      have hmem : (c, n) ∈ counts.toList := by
        rw [hsplit]
        simp
      exact (Std.ExtTreeMap.mem_toList_iff_getElem?_eq_some.mp hmem).symm

/-- Adding entries of different classes one by one adds to each class what the entries
have for it. -/
theorem getElem?_foldl_add (entries : List (Nat × Nat)) :
    ∀ h : Histogram, entries.Pairwise (fun a b => ¬compare a.1 b.1 = .eq) → ∀ c,
      (entries.foldl (fun h entry => h.add entry.1 entry.2) h).counts[c]?
        = Option.merge (· + ·) h.counts[c]? (entries.lookup c) := by
  induction entries with
  | nil => intro h _ c; simp
  | cons entry rest ih =>
      intro h hdistinct c
      obtain ⟨d, n⟩ := entry
      obtain ⟨hfirst, hrest⟩ := List.pairwise_cons.mp hdistinct
      rw [List.foldl_cons, ih _ hrest, getElem?_add, List.lookup_cons]
      by_cases hc : d = c
      · subst hc
        have hlater : rest.lookup d = none := by
          rw [List.lookup_eq_none_iff]
          intro later hmem
          simpa using hfirst later hmem
        simp [hlater]
      · have hother : (c == d) = false := by simpa using fun h => hc h.symm
        simp [hc, hother]

/-- **Merging adds up what both histograms have of each class.** -/
theorem getElem?_merge (h other : Histogram) (c : Nat) :
    (h.merge other).counts[c]? = Option.merge (· + ·) h.counts[c]? other.counts[c]? := by
  unfold merge
  rw [getElem?_foldl_add _ _ Std.ExtTreeMap.distinct_keys_toList, lookup_toList]

theorem merge_comm (h other : Histogram) : h.merge other = other.merge h := by
  refine ext_getElem? fun c => ?_
  rw [getElem?_merge, getElem?_merge]
  exact Std.Commutative.comm _ _

theorem merge_assoc (first second third : Histogram) :
    (first.merge second).merge third = first.merge (second.merge third) := by
  refine ext_getElem? fun c => ?_
  simp only [getElem?_merge]
  exact Std.Associative.assoc _ _ _

@[simp] theorem merge_empty (h : Histogram) : h.merge empty = h := by
  refine ext_getElem? fun c => ?_
  rw [getElem?_merge]
  simp [empty]

/-- Counting a side is merging in the histogram of that one side. -/
theorem record_eq_merge (h : Histogram) (tokens : Nat) :
    h.record tokens = h.merge (empty.record tokens) := by
  refine ext_getElem? fun c => ?_
  rw [getElem?_merge]
  unfold record
  rw [getElem?_add, getElem?_add]
  simp [empty]

end Histogram

/-! ### Tallies -/

namespace Tally

theorem merge_comm (t other : Tally) : t.merge other = other.merge t := by
  unfold merge
  simp only [Nat.add_comm, Histogram.merge_comm]

theorem merge_assoc (first second third : Tally) :
    (first.merge second).merge third = first.merge (second.merge third) := by
  unfold merge
  simp only [Nat.add_assoc, Histogram.merge_assoc]

@[simp] theorem merge_empty (t : Tally) : t.merge empty = t := by
  simp [merge, empty]

@[simp] theorem empty_merge (t : Tally) : empty.merge t = t := by
  rw [merge_comm, merge_empty]

instance : Zero Tally := ⟨empty⟩

instance : Add Tally := ⟨merge⟩

/-- Tallies are added up by merging. -/
instance : AddCommMonoid Tally where
  add_assoc := merge_assoc
  zero_add := empty_merge
  add_zero := merge_empty
  add_comm := merge_comm
  nsmul := nsmulRec

theorem add_eq_merge (t other : Tally) : t + other = t.merge other := rfl

end Tally

/-- Counting a pair is merging in the tally of that one pair. -/
theorem Admission.count_eq_merge (settings : Settings) (pair : Pair) (tally : Tally) :
    count settings pair tally = tally.merge (count settings pair .empty) := by
  unfold count Tally.merge
  rw [Histogram.record_eq_merge tally.sourceLengths, Histogram.record_eq_merge tally.targetLengths]
  cases verdict settings pair with
  | accepted p => simp [Tally.empty]
  | rejected source target => simp [Tally.empty]

end Bitext
