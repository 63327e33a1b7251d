/-
Draws in proportion.

Counts are laid side by side, and the walk over them stops at the one on whose stretch the number
falls.  So it stops there from as many numbers below the sum as the stretch is wide, and where
nothing is counted it never stops.  The walk looks at the counts alone; where it stops is told by
the same walk when every count has its position for a key, and what it gives is the key at that
position.

The counts of an index name each key once, with the number of its offsets, and a number is drawn
below their sum.  So every key is chosen for as many numbers as it has offsets left, and no
key is chosen exactly when nothing is left.

The walk is taken in words.  Everything is shown of exact numbers first, and holds of the words
as long as the sum of the counts is one.
-/
import Mathlib.Algebra.BigOperators.Fin
import Mathlib.Order.Interval.Finset.Nat
import Mathlib.Tactic.Choose
import Bitext.Proofs.Bucket.Fifo
import Bitext.Proofs.Words.Walk

namespace Bitext

variable {counts : List (Nat × Nat)} {r i key : Nat}

/-- A stretch ends at the sum of the counts or before it. -/
theorem startOf_add_le {entry : Nat × Nat} (h : counts[i]? = some entry) :
    startOf counts i + entry.2 ≤ (counts.map (·.2)).sum := by
  induction counts generalizing i with
  | nil => simp at h
  | cons first rest ih =>
      rw [List.map_cons, List.sum_cons]
      cases i with
      | zero =>
          obtain rfl : first = entry := by simpa using h
          simp [startOf]
      | succ i =>
          have hrest := ih (by simpa using h)
          rw [startOf_cons]
          omega

/-! ### Where the walk stops -/

/-- The counts with their positions for keys. -/
def placed (counts : List (Nat × Nat)) : List (Nat × Nat) :=
  counts.zipIdx.map fun entry => (entry.2, entry.1.2)

/-- The position at which the walk over counts stops. -/
def stopsAt (counts : List (Nat × Nat)) (r : Nat) : Option Nat := chooseByCount (placed counts) r

theorem getElem?_placed (counts : List (Nat × Nat)) (i : Nat) :
    (placed counts)[i]? = counts[i]?.map fun entry => (i, entry.2) := by
  simp [placed, Function.comp_def]

theorem map_snd_placed (counts : List (Nat × Nat)) :
    (placed counts).map (·.2) = counts.map (·.2) := by
  refine List.ext_getElem? fun i => ?_
  rw [List.getElem?_map, getElem?_placed, List.getElem?_map, Option.map_map]
  rfl

/-- **The walk stops at a position exactly on its stretch.** -/
theorem stopsAt_eq_some_iff :
    stopsAt counts r = some i ↔
      ∃ entry, counts[i]? = some entry ∧ startOf counts i ≤ r ∧ r < startOf counts i + entry.2 := by
  have hstart : ∀ j, startOf (placed counts) j = startOf counts j := by
    intro j
    rw [startOf, map_snd_placed, startOf]
  rw [stopsAt, chooseByCount_eq_some_iff]
  constructor
  · rintro ⟨j, n, hj, hle, hlt⟩
    rw [getElem?_placed] at hj
    obtain ⟨entry, hentry, hsame⟩ := Option.map_eq_some_iff.mp hj
    obtain ⟨rfl, rfl⟩ := Prod.mk.inj hsame
    rw [hstart] at hle hlt
    exact ⟨entry, hentry, hle, hlt⟩
  · rintro ⟨entry, hentry, hle, hlt⟩
    refine ⟨i, entry.2, ?_, ?_, ?_⟩
    · rw [getElem?_placed, hentry]
      rfl
    · rw [hstart]
      exact hle
    · rw [hstart]
      exact hlt

-- the position tells two entries of one key apart, and no number falls on a count of zero
example : (List.range 4).map (stopsAt [(7, 2), (5, 0), (7, 1)])
    = [some 0, some 0, some 2, none] := by decide

/-- What is chosen is the key at the position where the walk stops. -/
theorem chooseByCount_eq_bind (counts : List (Nat × Nat)) (r : Nat) :
    chooseByCount counts r = (stopsAt counts r).bind fun i => counts[i]?.map (·.1) := by
  cases hstop : stopsAt counts r with
  | none =>
      rw [stopsAt, chooseByCount_eq_none_iff, map_snd_placed] at hstop
      exact chooseByCount_eq_none_iff.mpr hstop
  | some i =>
      obtain ⟨entry, hentry, hle, hlt⟩ := stopsAt_eq_some_iff.mp hstop
      rw [Option.bind_some, hentry]
      exact chooseByCount_eq_some_iff.mpr ⟨i, entry.2, hentry, hle, hlt⟩

/-! ### How many numbers lead there -/

/-- What holds exactly on the stretch of a position holds for as many numbers below the sum as the
position counts. -/
theorem card_filter_of_stretch {entry : Nat × Nat} {p : Nat → Prop} [DecidablePred p]
    (hi : counts[i]? = some entry)
    (hp : ∀ r, p r ↔ startOf counts i ≤ r ∧ r < startOf counts i + entry.2) :
    ((Finset.range (counts.map (·.2)).sum).filter p).card = entry.2 := by
  have hend := startOf_add_le hi
  have hstretch : (Finset.range (counts.map (·.2)).sum).filter p
      = Finset.Ico (startOf counts i) (startOf counts i + entry.2) := by
    ext r
    rw [Finset.mem_filter, Finset.mem_range, hp, Finset.mem_Ico]
    omega
  rw [hstretch, Nat.card_Ico]
  omega

/-- The walk stops at a position from as many numbers as the position counts. -/
theorem card_stopsAt {entry : Nat × Nat} (hi : counts[i]? = some entry) :
    ((Finset.range (counts.map (·.2)).sum).filter (stopsAt counts · = some i)).card = entry.2 := by
  refine card_filter_of_stretch hi fun r => ?_
  rw [stopsAt_eq_some_iff, hi]
  constructor
  · rintro ⟨found, hfound, hle, hlt⟩
    obtain rfl := Option.some.inj hfound
    exact ⟨hle, hlt⟩
  · rintro ⟨hle, hlt⟩
    exact ⟨entry, rfl, hle, hlt⟩

namespace Index

variable {index : Index}

/-- **A key is chosen for as many numbers as it has offsets.** -/
theorem Coherent.card_chosen (h : index.Coherent) (key : Nat) :
    ((Finset.range index.total).filter (chooseByCount index.counts · = some key)).card
      = (index.offsets key).length := by
  by_cases hlive : 0 < (index.offsets key).length
  · have hmem : (key, (index.offsets key).length) ∈ index.counts :=
      h.mem_counts_iff.mpr ⟨rfl, hlive⟩
    obtain ⟨i, hi⟩ := List.getElem?_of_mem hmem
    -- no key is named twice, so the stretch of the key is the one of its only position
    have hnodup : (index.counts.map (·.1)).Nodup :=
      (pairwise_keys_counts index).imp fun hless => Nat.ne_of_lt hless
    have honly : ∀ j m, index.counts[j]? = some (key, m) →
        i = j ∧ m = (index.offsets key).length := by
      intro j m hj
      have hkeys : (index.counts.map (·.1))[i]? = (index.counts.map (·.1))[j]? := by
        rw [List.getElem?_map, List.getElem?_map, hi, hj]
        rfl
      have hlt : i < (index.counts.map (·.1)).length := by
        rw [List.length_map]
        exact (List.getElem?_eq_some_iff.mp hi).1
      obtain rfl := (List.getElem?_inj hlt hnodup).mp hkeys
      obtain ⟨-, rfl⟩ := Prod.mk.inj (Option.some.inj (hj.symm.trans hi))
      exact ⟨rfl, rfl⟩
    rw [← h.sum_counts]
    refine card_filter_of_stretch hi fun r => ?_
    rw [chooseByCount_eq_some_iff]
    constructor
    · rintro ⟨j, m, hj, hle, hlt⟩
      obtain ⟨rfl, rfl⟩ := honly j m hj
      exact ⟨hle, hlt⟩
    · rintro ⟨hle, hlt⟩
      exact ⟨i, _, hi, hle, hlt⟩
  · have hnone : (index.offsets key).length = 0 := Nat.eq_zero_of_not_pos hlive
    rw [hnone, Finset.card_eq_zero, Finset.filter_eq_empty_iff]
    intro r _ hchosen
    obtain ⟨i, m, hi, -, -⟩ := chooseByCount_eq_some_iff.mp hchosen
    obtain ⟨hm, hpos⟩ := h.mem_counts_iff.mp (List.mem_of_getElem? hi)
    omega

/-- No key is chosen exactly when no bucket is left. -/
theorem Coherent.select_eq_none_iff (h : index.Coherent) {σ : Type} (dice : Dice σ) (s : σ) :
    (index.select dice s).1 = none ↔ index.isEmpty = true := by
  rw [h.isEmpty_iff]
  by_cases hzero : index.total = 0
  · rw [select_of_total_zero hzero]
    exact ⟨fun _ => hzero, fun _ => rfl⟩
  · obtain ⟨key, next, hselect, -⟩ := h.select (Nat.pos_of_ne_zero hzero) dice s
    rw [hselect]
    refine ⟨fun hnone => ?_, fun hempty => absurd hempty hzero⟩
    cases hnone

/-- **The number that is drawn decides on a live key, and every key has as many numbers as it has
offsets.** -/
theorem Coherent.exists_choose (h : index.Coherent) :
    ∃ choose : Fin index.total → Nat,
      (∀ r : Fin index.total, chooseByCount index.counts r = some (choose r)) ∧
      (∀ r, ∃ q, index.bucket? (choose r) = some q ∧ q.toList ≠ []) ∧
      ∀ key, (Finset.univ.filter (choose · = key)).card = (index.offsets key).length := by
  have hchosen : ∀ r : Fin index.total, ∃ key, chooseByCount index.counts r = some key ∧
      index.offsets key ≠ [] := fun r => h.exists_chosen r.isLt
  choose key hkey hlive using hchosen
  refine ⟨key, hkey, fun r => ?_, fun k => ?_⟩
  · cases hbucket : index.bucket? (key r) with
    | none => exact absurd (h.bucket?_eq_none_iff.mp hbucket) (hlive r)
    | some q => exact ⟨q, rfl, h.live hbucket⟩
  · have hsame : ∀ r : Fin index.total, key r = k ↔ chooseByCount index.counts r = some k := by
      intro r
      rw [hkey, Option.some.injEq]
    simp only [hsame]
    rw [← h.card_chosen k, Finset.card_filter, Finset.card_filter]
    exact Fin.sum_univ_eq_sum_range
      (fun r => if chooseByCount index.counts r = some k then 1 else 0) _

end Index

/-! ### The law of the draws -/

/-- The position at which the walk in words stops, if the program gets there. -/
def stopsAtIn (overflow : Overflow) (counts : List (Nat × Nat)) (r : Nat) : Option (Option Nat) :=
  chooseIn overflow 0 (placed counts) r

theorem stopsAtIn_of_lt (overflow : Overflow) (hfit : (counts.map (·.2)).sum < wordSize) (r : Nat) :
    stopsAtIn overflow counts r = some (stopsAt counts r) := by
  have hplaced : 0 + ((placed counts).map (·.2)).sum < wordSize := by
    rw [Nat.zero_add, map_snd_placed]
    exact hfit
  exact chooseIn_of_lt overflow (Nat.zero_le r) hplaced

end Bitext
