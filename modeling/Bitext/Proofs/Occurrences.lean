/-
Maps that count occurrences.

What has been counted is a list, in whatever order it came, and the map has the number of
occurrences of each of its elements and no entry for anything else.  The list says everything
about the map: its entries, and what their numbers add up to.
-/
import Mathlib.Algebra.BigOperators.Group.List.Lemmas
import Mathlib.Algebra.Order.Ring.Nat
import Mathlib.Data.List.Dedup
import Std.Data.ExtTreeMap

namespace Bitext

variable {α : Type} [Ord α] [Std.TransOrd α] [DecidableEq α]
  {counts others : Std.ExtTreeMap α Nat} {elements copies : List α}

/-- The map has the number of occurrences of each element, and nothing that does not occur. -/
def CountsOf (counts : Std.ExtTreeMap α Nat) (elements : List α) : Prop :=
  ∀ a, counts[a]? = if a ∈ elements then some (elements.count a) else none

namespace CountsOf

theorem empty : CountsOf (∅ : Std.ExtTreeMap α Nat) [] := by
  intro a
  rw [Std.ExtTreeMap.getElem?_empty, if_neg List.not_mem_nil]

theorem getD_eq (h : CountsOf counts elements) (a : α) : counts.getD a 0 = elements.count a := by
  rw [Std.ExtTreeMap.getD_eq_getD_getElem?, h a]
  split
  · rfl
  · rename_i hmissing
    rw [List.count_eq_zero_of_not_mem hmissing, Option.getD_none]

variable [Std.LawfulEqOrd α]

/-- Counting one more. -/
theorem insert (h : CountsOf counts elements) (a : α) :
    CountsOf (counts.insert a (counts.getD a 0 + 1)) (elements ++ [a]) := by
  intro b
  rw [Std.ExtTreeMap.getElem?_insert, h.getD_eq, List.count_append, List.count_singleton]
  by_cases hab : a = b
  · subst hab
    simp
  · have hcompare : compare a b ≠ .eq := fun heq => hab (Std.compare_eq_iff_eq.mp heq)
    have hmem : b ∈ elements ++ [a] ↔ b ∈ elements := by simp [Ne.symm hab]
    rw [if_neg hcompare, h b]
    simp [hab, hmem]

/-- The order does not matter, and nothing else can have been counted. -/
theorem unique (h : CountsOf counts elements) (hothers : CountsOf others copies)
    (hperm : elements.Perm copies) : counts = others := by
  apply Std.ExtTreeMap.ext_getElem?
  intro a
  rw [h a, hothers a, hperm.count_eq]
  simp only [hperm.mem_iff]

theorem mem_toList_iff (h : CountsOf counts elements) {a : α} {n : Nat} :
    (a, n) ∈ counts.toList ↔ a ∈ elements ∧ n = elements.count a := by
  rw [Std.ExtTreeMap.mem_toList_iff_getElem?_eq_some, h a]
  constructor
  · intro hentry
    split at hentry
    · rename_i hmem
      exact ⟨hmem, (Option.some.inj hentry).symm⟩
    · cases hentry
  · rintro ⟨hmem, rfl⟩
    rw [if_pos hmem]

/-- The entries of the map are the elements with their numbers. -/
theorem toList_perm (h : CountsOf counts elements) :
    counts.toList.Perm (elements.dedup.map fun a => (a, elements.count a)) := by
  have hdistinct : counts.toList.Nodup := by
    refine (Std.ExtTreeMap.distinct_keys_toList (t := counts)).imp ?_
    rintro entry _ hless rfl
    exact hless (Std.compare_eq_iff_eq.mpr rfl)
  rw [List.perm_ext_iff_of_nodup hdistinct
    ((List.nodup_dedup _).map fun a b hab => (Prod.mk.inj hab).1)]
  rintro ⟨a, n⟩
  simp only [h.mem_toList_iff, List.mem_map, List.mem_dedup, Prod.mk.injEq]
  constructor
  · rintro ⟨hmem, rfl⟩
    exact ⟨a, hmem, rfl, rfl⟩
  · rintro ⟨b, hmem, rfl, rfl⟩
    exact ⟨hmem, rfl⟩

/-- **The numbers add up to the number of elements.** -/
theorem sum_eq (h : CountsOf counts elements) :
    (counts.toList.map (·.2)).sum = elements.length := by
  calc (counts.toList.map (·.2)).sum
      = ((elements.dedup.map fun a => (a, elements.count a)).map (·.2)).sum :=
        (h.toList_perm.map _).sum_eq
    _ = (elements.dedup.map fun a => elements.count a).sum := by
        rw [List.map_map]
        rfl
    _ = elements.length := List.sum_map_count_dedup_eq_length elements

end CountsOf

end Bitext
