/-
Dice: numbers drawn from a range.

What uses random numbers should not depend on where they come from.  A die is anything
that gives a number below a positive bound and the state to go on with; the bound is in
the type, so whatever is proved for all dice holds for every sequence of draws in range.
A generator is a die with a state for every seed.

A die can be made of anything that gives words, by scaling a random word to the bound: the
high half of their product is the number.  A word has fewer values than a multiple of the
bound, so the low half is used to even the numbers out: when it is so high that the product
of a finer word could have carried into the high half, a second word is drawn to see whether
it does.  The carry cannot lead out of the range, which is what `drawWith` shows.
-/
namespace Bitext

/-- A source of numbers below a bound. -/
structure Dice (σ : Type) where
  roll : σ → (bound : Nat) → 0 < bound → Fin bound × σ

/-- A source of numbers that is started from a seed. -/
structure Generator (σ : Type) where
  dice : Dice σ
  ofSeed : UInt64 → σ

/-- The high half of the product of a word with the bound is below the bound. -/
theorem scaled_lt {range word bound : Nat} (h : word < range) (hb : 0 < bound) :
    word * bound / range < bound := by
  have hr : 0 < range := by omega
  rw [Nat.div_lt_iff_lt_mul hr, Nat.mul_comm bound range]
  exact Nat.mul_lt_mul_of_pos_right h hb

/-- The low half of the product, with the carry of a second word, overflows only when
the high half can still go up. -/
theorem scaled_succ_lt {range word second bound : Nat} (h : word < range) (h2 : second < range)
    (hb : 0 < bound) (carry : range ≤ word * bound % range + second * bound / range) :
    word * bound / range + 1 < bound := by
  have hr : 0 < range := by omega
  have hsecond := scaled_lt h2 hb
  have hdiv := Nat.div_add_mod (word * bound) range
  have hprod : word * bound + bound ≤ range * bound := by
    rw [← Nat.succ_mul]
    exact Nat.mul_le_mul_right bound h
  refine Nat.lt_of_mul_lt_mul_left (a := range) ?_
  rw [Nat.mul_add]
  omega

/-- A number below the bound from a word below `range`.  When the low half of the product
is too high, `again` gives a second word. -/
def drawWith {σ : Type} (range : Nat) (next : σ → { word : Nat // word < range } × σ)
    (s : σ) (bound : Nat) (hb : 0 < bound) : Fin bound × σ :=
  match next s with
  | (⟨word, hword⟩, s) =>
      if word * bound % range ≤ range - bound then (⟨word * bound / range, scaled_lt hword hb⟩, s)
      else
        match next s with
        | (⟨second, hsecond⟩, s) =>
            if carry : range ≤ word * bound % range + second * bound / range then
              (⟨word * bound / range + 1, scaled_succ_lt hword hsecond hb carry⟩, s)
            else (⟨word * bound / range, scaled_lt hword hb⟩, s)

end Bitext
