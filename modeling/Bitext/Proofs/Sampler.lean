/-
What the sampler chooses.

Buckets are laid side by side, each as wide as it is full.  A number below the sum of
the widths falls into one of them, and into one that has a width; so as long as anything
is left, a draw in range comes to a bucket with something in it, whatever the die.

What is drawn in an epoch is determined by the base seed and the number of the epoch together,
of which the sum modulo 2^64 counts.
-/
import Mathlib.Algebra.Order.Ring.Nat
import Bitext.Proofs.Bucket.Index
import Bitext.Sampler

namespace Bitext

variable {counts : List (Nat × Nat)} {r key : Nat}

/-- The number at which the stretch of a position starts. -/
def startOf (counts : List (Nat × Nat)) (i : Nat) : Nat := ((counts.map (·.2)).take i).sum

theorem startOf_cons (entry : Nat × Nat) (rest : List (Nat × Nat)) (i : Nat) :
    startOf (entry :: rest) (i + 1) = entry.2 + startOf rest i := by
  simp [startOf]

/-- **A key is chosen exactly on the stretches of its entries.** -/
theorem chooseByCount_eq_some_iff :
    chooseByCount counts r = some key ↔
      ∃ i n, counts[i]? = some (key, n) ∧ startOf counts i ≤ r ∧ r < startOf counts i + n := by
  induction counts generalizing r with
  | nil => simp [chooseByCount]
  | cons entry rest ih =>
      obtain ⟨own, count⟩ := entry
      by_cases hr : r < count
      · rw [chooseByCount, if_pos hr]
        constructor
        · intro h
          obtain rfl := Option.some.inj h
          exact ⟨0, count, rfl, Nat.zero_le r, by simpa [startOf] using hr⟩
        · rintro ⟨i, n, hi, hle, -⟩
          cases i with
          | zero =>
              obtain ⟨rfl, -⟩ : own = key ∧ count = n := by simpa using hi
              rfl
          | succ i =>
              rw [startOf_cons] at hle
              omega
      · rw [chooseByCount, if_neg hr, ih]
        constructor
        · rintro ⟨i, n, hi, hle, hlt⟩
          refine ⟨i + 1, n, by simpa using hi, ?_, ?_⟩
          · rw [startOf_cons]
            omega
          · rw [startOf_cons]
            omega
        · rintro ⟨i, n, hi, hle, hlt⟩
          cases i with
          | zero =>
              obtain ⟨-, rfl⟩ : own = key ∧ count = n := by simpa using hi
              exact absurd (by simpa [startOf] using hlt) hr
          | succ i =>
              rw [startOf_cons] at hle hlt
              exact ⟨i, n, by simpa using hi, by omega, by omega⟩

/-- Nothing is chosen exactly from the sum of the counts on. -/
theorem chooseByCount_eq_none_iff :
    chooseByCount counts r = none ↔ (counts.map (·.2)).sum ≤ r := by
  induction counts generalizing r with
  | nil => simp [chooseByCount]
  | cons entry rest ih =>
      obtain ⟨own, count⟩ := entry
      rw [List.map_cons, List.sum_cons]
      by_cases hr : r < count
      · rw [chooseByCount, if_pos hr]
        constructor
        · intro h
          cases h
        · intro hle
          omega
      · rw [chooseByCount, if_neg hr, ih]
        omega

/-- A number below the sum of the counts falls under a key that counts something. -/
theorem chooseByCount_of_lt (h : r < (counts.map (·.2)).sum) :
    ∃ key n, (key, n) ∈ counts ∧ 0 < n ∧ chooseByCount counts r = some key := by
  cases hchosen : chooseByCount counts r with
  | none =>
      have hle := chooseByCount_eq_none_iff.mp hchosen
      omega
  | some key =>
      obtain ⟨i, n, hi, hle, hlt⟩ := chooseByCount_eq_some_iff.mp hchosen
      exact ⟨key, n, List.mem_of_getElem? hi, by omega, rfl⟩

namespace Index

variable {σ : Type}

/-- A number below the total falls under a key that holds something. -/
theorem Coherent.exists_chosen {index : Index} (h : index.Coherent) (hr : r < index.total) :
    ∃ key, chooseByCount index.counts r = some key ∧ index.offsets key ≠ [] := by
  rw [← h.sum_counts] at hr
  obtain ⟨key, n, hmem, hn, hchosen⟩ := chooseByCount_of_lt hr
  obtain ⟨hlength, -⟩ := h.mem_counts_iff.mp hmem
  refine ⟨key, hchosen, fun hnil => ?_⟩
  rw [hnil, List.length_nil] at hlength
  omega

/-- As long as something is left, what is chosen is what the number that is drawn falls under. -/
theorem select_of_pos {index : Index} (hpos : 0 < index.total) (dice : Dice σ) (s : σ) :
    index.select dice s
      = (chooseByCount index.counts (dice.roll s index.total hpos).1,
          (dice.roll s index.total hpos).2) := by
  rw [select, dif_pos hpos]

/-- As long as something is left, a draw comes to a bucket that holds something. -/
theorem Coherent.select {index : Index} (h : index.Coherent) (hpos : 0 < index.total)
    (dice : Dice σ) (s : σ) :
    ∃ key next, index.select dice s = (some key, next) ∧ index.offsets key ≠ [] := by
  obtain ⟨key, hchosen, hlive⟩ := h.exists_chosen (dice.roll s index.total hpos).1.isLt
  refine ⟨key, (dice.roll s index.total hpos).2, ?_, hlive⟩
  rw [select_of_pos hpos, hchosen]

/-- With nothing left there is nothing to choose. -/
theorem select_of_total_zero {index : Index} (h : index.total = 0) (dice : Dice σ) (s : σ) :
    index.select dice s = (none, s) := by
  rw [Index.select, dif_neg (by omega)]

/-- When no key is chosen, nothing is left. -/
theorem Coherent.total_eq_zero_of_select {index : Index} (h : index.Coherent) {dice : Dice σ}
    {s s' : σ} (hselect : index.select dice s = (none, s')) : index.total = 0 := by
  by_contra hzero
  obtain ⟨key, next, hchosen, -⟩ := h.select (Nat.pos_of_ne_zero hzero) dice s
  rw [hchosen] at hselect
  cases hselect

/-- A key that is chosen holds something. -/
theorem Coherent.offsets_ne_nil_of_select {index : Index} (h : index.Coherent) {dice : Dice σ}
    {s s' : σ} {key : Nat} (hselect : index.select dice s = (some key, s')) :
    index.offsets key ≠ [] := by
  by_cases hzero : index.total = 0
  · rw [select_of_total_zero hzero] at hselect
    cases hselect
  · obtain ⟨chosen, next, hchosen, hlive⟩ := h.select (Nat.pos_of_ne_zero hzero) dice s
    rw [hchosen] at hselect
    cases hselect
    exact hlive

end Index

/-- Of seeds that are equal modulo 2^64 a generator makes the same. -/
theorem Generator.ofEpoch_congr {σ : Type} (generator : Generator σ)
    {baseSeed epoch other number : Nat}
    (h : (baseSeed + epoch) % 2 ^ 64 = (other + number) % 2 ^ 64) :
    generator.ofEpoch baseSeed epoch = generator.ofEpoch other number := by
  have hword : UInt64.ofNat (baseSeed + epoch) = UInt64.ofNat (other + number) := by
    rw [← UInt64.toNat_inj, UInt64.toNat_ofNat', UInt64.toNat_ofNat']
    exact h
  rw [ofEpoch, ofEpoch, hword]

end Bitext
