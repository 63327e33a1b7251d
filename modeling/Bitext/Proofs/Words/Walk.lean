/-
The walk over counts in words.

The walk adds up where each stretch ends, and it is these ends that have to fit a word.  While they
do, it is the exact walk, whatever becomes of numbers that do not fit.  It looks at the ends
in their order and no further than where it stops; so a program that ends at a number that does not
fit still never chooses wrongly, it only does not always get there.  Modulo 2^64 the ends do not
ascend any more, and the walk stops at the first of them above the number, whatever lies before.

Every end that is kept in a word is at most 2^64 - 1, so the walk stops nowhere for the last number
of a word.  That number alone tells whether the counts have outgrown a word.
-/
import Bitext.Proofs.Sampler

namespace Bitext

open Overflow

variable {overflow : Overflow} {counts : List (Nat × Nat)} {before r key : Nat}
  {chosen : Option Nat}

theorem chooseIn_cons (overflow : Overflow) (before : Nat) (entry : Nat × Nat)
    (rest : List (Nat × Nat)) (r : Nat) :
    chooseIn overflow before (entry :: rest) r
      = (overflow.word (before + entry.2)).bind fun stop =>
          if r < stop then some (some entry.1) else chooseIn overflow stop rest r := rfl

/-- **Where the sum of the counts fits a word, the walk in words is the exact one.** -/
theorem chooseIn_of_lt (overflow : Overflow) (hle : before ≤ r)
    (hfit : before + (counts.map (·.2)).sum < wordSize) :
    chooseIn overflow before counts r = some (chooseByCount counts (r - before)) := by
  induction counts generalizing before with
  | nil => rfl
  | cons entry rest ih =>
      obtain ⟨key, count⟩ := entry
      rw [List.map_cons, List.sum_cons] at hfit
      have hstop : overflow.word (before + count) = some (before + count) :=
        word_of_lt overflow (by omega)
      rw [chooseIn_cons, hstop, Option.bind_some, chooseByCount]
      by_cases hr : r < before + count
      · rw [if_pos hr, if_pos (by omega)]
      · rw [if_neg hr, if_neg (by omega), ih (by omega) (by omega), Nat.sub_sub]

/-- The walk stops nowhere for the last number of a word. -/
theorem eq_none_of_chooseIn_last
    (h : chooseIn overflow before counts (wordSize - 1) = some chosen) : chosen = none := by
  induction counts generalizing before with
  | nil => exact (Option.some.inj h).symm
  | cons entry rest ih =>
      rw [chooseIn_cons, Option.bind_eq_some_iff] at h
      obtain ⟨stop, hstop, hrest⟩ := h
      have hword := lt_of_word hstop
      rw [if_neg (by omega)] at hrest
      exact ih hrest

/-- **The walk in words is the exact one for every number exactly if the sum of the counts fits a
word.** -/
theorem chooseIn_exact_iff (overflow : Overflow) (counts : List (Nat × Nat)) :
    (∀ r < wordSize, chooseIn overflow 0 counts r = some (chooseByCount counts r))
      ↔ (counts.map (·.2)).sum < wordSize := by
  constructor
  · intro hexact
    have hlast : wordSize - 1 < wordSize := by decide
    have hnone := eq_none_of_chooseIn_last (hexact _ hlast)
    rw [chooseByCount_eq_none_iff] at hnone
    omega
  · intro hfit r _
    exact chooseIn_of_lt overflow (Nat.zero_le r) (by rwa [Nat.zero_add])

/-- An index whose offsets can be counted in a word is chosen from as exactly as if it were counted
without one. -/
theorem Index.Coherent.selectIn_of_lt {index : Index} (h : index.Coherent)
    (hfit : index.total < wordSize) (overflow : Overflow) {σ : Type} (dice : Dice σ) (s : σ) :
    index.selectIn overflow dice s = some (index.select dice s) := by
  by_cases hpos : 0 < index.total
  · have hsum : 0 + (index.counts.map (·.2)).sum < wordSize := by
      rw [Nat.zero_add, h.sum_counts]
      exact hfit
    rw [Index.selectIn, dif_pos hpos, Index.select_of_pos hpos]
    show ((chooseIn overflow 0 index.counts (dice.roll s index.total hpos).1).bind fun chosen =>
      some (chosen, (dice.roll s index.total hpos).2)) = _
    rw [chooseIn_of_lt overflow (Nat.zero_le _) hsum]
    rfl
  · rw [Index.selectIn, dif_neg hpos, Index.select, dif_neg hpos]

/-! ### Beyond a word -/

/-- The stretches of a list are that of its first entry and those of the rest, moved behind it. -/
theorem forall_stretch_cons {entry : Nat × Nat} {rest : List (Nat × Nat)} {p : Nat → Nat → Prop} :
    (∀ i < (entry :: rest).length,
        p (startOf (entry :: rest) i) (startOf (entry :: rest) (i + 1))) ↔
      p 0 entry.2 ∧
        ∀ i < rest.length, p (entry.2 + startOf rest i) (entry.2 + startOf rest (i + 1)) := by
  constructor
  · intro h
    refine ⟨by simpa [startOf] using h 0 (Nat.succ_pos _), fun i hi => ?_⟩
    rw [← startOf_cons, ← startOf_cons]
    exact h (i + 1) (Nat.succ_lt_succ hi)
  · rintro ⟨hfirst, hrest⟩ i hi
    cases i with
    | zero => simpa [startOf] using hfirst
    | succ i =>
        rw [startOf_cons, startOf_cons]
        exact hrest i (Nat.lt_of_succ_lt_succ hi)

/-- **A program that ends at a number that does not fit chooses what the exact walk chooses, as far
as it gets.**  It gets there exactly if every stretch that starts at the number or before it ends
in a word. -/
theorem chooseIn_ends_eq_some_iff (hle : before ≤ r) :
    chooseIn .ends before counts r = some chosen ↔
      chooseByCount counts (r - before) = chosen ∧
        ∀ i < counts.length, before + startOf counts i ≤ r →
          before + startOf counts (i + 1) < wordSize := by
  induction counts generalizing before with
  | nil => simp [chooseIn, chooseByCount]
  | cons entry rest ih =>
      obtain ⟨own, count⟩ := entry
      rw [chooseIn_cons, chooseByCount, forall_stretch_cons
        (p := fun start stop => before + start ≤ r → before + stop < wordSize)]
      simp only [Nat.add_zero, ← Nat.add_assoc]
      by_cases hword : before + count < wordSize
      · rw [word_of_lt .ends hword, Option.bind_some]
        by_cases hr : r < before + count
        · rw [if_pos hr, if_pos (by omega), Option.some.injEq]
          constructor
          · intro h
            exact ⟨h, fun _ => hword, fun i _ hstart => by omega⟩
          · rintro ⟨h, -, -⟩
            exact h
        · rw [if_neg hr, if_neg (by omega), ih (by omega), Nat.sub_sub]
          constructor
          · rintro ⟨h, hrest⟩
            exact ⟨h, fun _ => hword, hrest⟩
          · rintro ⟨h, -, hrest⟩
            exact ⟨h, hrest⟩
      · -- the first stretch is always asked for its end
        rw [word_ends_eq_none_iff.mpr (Nat.le_of_not_lt hword), Option.bind_none]
        constructor
        · intro h
          cases h
        · rintro ⟨-, hfirst, -⟩
          exact absurd (hfirst hle) hword

/-- **A program that goes on modulo 2^64 stops at the first stretch whose end, modulo 2^64, is above
the number.** -/
theorem chooseIn_wraps_eq_some_iff :
    chooseIn .wraps before counts r = some (some key) ↔
      ∃ i n, counts[i]? = some (key, n) ∧ r < (before + startOf counts (i + 1)) % wordSize ∧
        ∀ j < i, (before + startOf counts (j + 1)) % wordSize ≤ r := by
  induction counts generalizing before with
  | nil => simp [chooseIn]
  | cons entry rest ih =>
      obtain ⟨own, count⟩ := entry
      rw [chooseIn_cons, word, Option.bind_some]
      have hfirst : startOf ((own, count) :: rest) (0 + 1) = count := by simp [startOf]
      by_cases hr : r < (before + count) % wordSize
      · rw [if_pos hr, Option.some.injEq, Option.some.injEq]
        constructor
        · rintro rfl
          exact ⟨0, count, rfl, by rwa [hfirst], fun j hj => absurd hj (Nat.not_lt_zero j)⟩
        · rintro ⟨i, n, hi, -, hbefore⟩
          cases i with
          | zero => exact congrArg Prod.fst (Option.some.inj hi)
          | succ i =>
              have hpassed := hbefore 0 (Nat.succ_pos i)
              rw [hfirst] at hpassed
              omega
      · rw [if_neg hr, ih]
        simp only [Nat.mod_add_mod]
        constructor
        · rintro ⟨i, n, hi, hlt, hbefore⟩
          refine ⟨i + 1, n, hi, by rwa [startOf_cons, ← Nat.add_assoc], fun j hj => ?_⟩
          cases j with
          | zero =>
              rw [hfirst]
              omega
          | succ j =>
              rw [startOf_cons, ← Nat.add_assoc]
              exact hbefore j (Nat.lt_of_succ_lt_succ hj)
        · rintro ⟨i, n, hi, hlt, hbefore⟩
          cases i with
          | zero =>
              rw [hfirst] at hlt
              exact absurd hlt hr
          | succ i =>
              rw [startOf_cons, ← Nat.add_assoc] at hlt
              refine ⟨i, n, hi, hlt, fun j hj => ?_⟩
              have hpassed := hbefore (j + 1) (Nat.succ_lt_succ hj)
              rwa [startOf_cons, ← Nat.add_assoc] at hpassed

end Bitext
