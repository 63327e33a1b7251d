/-
Numbers in machine words.

Numbers are exact in most of what follows, because nothing there can be counted that often.
Where a number can be asked for that does not fit a word of 64 bits, what becomes of it is
decided when a program is built: either it ends at the first such number, or it goes on with
what is left of the number modulo 2^64.  Work in words is therefore done under one of the
two, and it may come to nothing.
-/
namespace Bitext

/-- What becomes of a number that does not fit a word. -/
inductive Overflow where
  /-- The program ends. -/
  | ends
  /-- The number is taken modulo the size of a word. -/
  | wraps
  deriving DecidableEq, Repr

/-- How many numbers a word can hold. -/
def wordSize : Nat := UInt64.size

namespace Overflow

/-- The number in a word, unless the program ends. -/
def word : Overflow → Nat → Option Nat
  | .ends, n => if n < wordSize then some n else none
  | .wraps, n => some (n % wordSize)

variable {overflow : Overflow} {n kept : Nat}

theorem word_of_lt (overflow : Overflow) (h : n < wordSize) : overflow.word n = some n := by
  cases overflow with
  | ends => exact if_pos h
  | wraps => exact congrArg some (Nat.mod_eq_of_lt h)

theorem lt_of_word (h : overflow.word n = some kept) : kept < wordSize := by
  cases overflow with
  | ends =>
      rw [Overflow.word] at h
      split at h
      · rename_i hfits
        exact Option.some.inj h ▸ hfits
      · cases h
  | wraps => exact Option.some.inj h ▸ Nat.mod_lt n (by decide)

/-- A program that goes on to its end has come to no number that does not fit. -/
theorem eq_of_word_ends (h : ends.word n = some kept) : kept = n := by
  rw [Overflow.word] at h
  split at h
  · exact (Option.some.inj h).symm
  · cases h

theorem word_ends_eq_none_iff : ends.word n = none ↔ wordSize ≤ n := by
  rw [Overflow.word, ite_eq_right_iff]
  constructor
  · intro h
    refine Nat.le_of_not_lt fun hlt => ?_
    cases h hlt
  · intro hle hlt
    exact absurd hlt (Nat.not_lt_of_le hle)

/-- What is done to a number in a word is done to the number, if it never makes a number smaller and
asks for no more than what is left modulo 2^64. -/
theorem word_bind {f : Nat → Nat} (hle : ∀ a, a ≤ f a)
    (hmod : ∀ a, f (a % wordSize) % wordSize = f a % wordSize) (overflow : Overflow) (a : Nat) :
    ((overflow.word a).bind fun a => overflow.word (f a)) = overflow.word (f a) := by
  cases overflow with
  | ends =>
      by_cases ha : a < wordSize
      · rw [word_of_lt ends ha, Option.bind_some]
      · have hlarge : wordSize ≤ f a := Nat.le_trans (Nat.le_of_not_lt ha) (hle a)
        rw [word_ends_eq_none_iff.mpr (Nat.le_of_not_lt ha), Option.bind_none,
          word_ends_eq_none_iff.mpr hlarge]
  | wraps => exact congrArg some (hmod a)

/-- Adding to a number in a word is adding to the number. -/
theorem word_bind_add (overflow : Overflow) (a n : Nat) :
    ((overflow.word a).bind fun a => overflow.word (a + n)) = overflow.word (a + n) :=
  word_bind (fun a => Nat.le_add_right a n) (fun a => Nat.mod_add_mod a wordSize n) overflow a

theorem word_add_eq_some_iff {a b sum : Nat} :
    (∃ kept, overflow.word a = some kept ∧ overflow.word (kept + b) = some sum)
      ↔ overflow.word (a + b) = some sum := by
  rw [← word_bind_add, Option.bind_eq_some_iff]

/-- What is put into words on one side of a sum can be put into words on both sides of it, when the
sides can be exchanged. -/
theorem bind_bind_of_comm {α : Type} {inWords : α → Option α} {add : α → α → α}
    (hcomm : ∀ a b, add a b = add b a)
    (hleft : ∀ a b, ((inWords a).bind fun a => inWords (add a b)) = inWords (add a b)) (a b : α) :
    ((inWords a).bind fun a => (inWords b).bind fun b => inWords (add a b))
      = inWords (add a b) := by
  rw [← hleft]
  refine Option.bind_congr fun kept _ => ?_
  simp only [hcomm kept]
  exact hleft b kept

/-- Adding numbers in words is adding the numbers. -/
theorem word_bind_word_add (overflow : Overflow) (a b : Nat) :
    ((overflow.word a).bind fun a => (overflow.word b).bind fun b => overflow.word (a + b))
      = overflow.word (a + b) :=
  bind_bind_of_comm Nat.add_comm (word_bind_add overflow) a b

/-- Multiplying a number in a word is multiplying the number. -/
theorem word_bind_mul (overflow : Overflow) (a : Nat) {n : Nat} (hn : 0 < n) :
    ((overflow.word a).bind fun a => overflow.word (a * n)) = overflow.word (a * n) :=
  word_bind (fun a => Nat.le_mul_of_pos_right a hn) (fun a => Nat.mod_mul_mod a n wordSize)
    overflow a

end Overflow

end Bitext
