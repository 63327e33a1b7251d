/-
Tallies in words.

A tally in words has its counters and the counts of its histograms in words.  Merging in words comes
to the exact merge put into words, as it does for histograms, so it asks neither for order nor for
brackets either: not where the program ends, and not for what is left of a number that does not fit.
-/
import Bitext.Proofs.Words.Histogram

namespace Bitext

open Overflow

namespace Tally

variable {overflow : Overflow} {t other kept : Tally}

/-- All numbers of the tally fit a word. -/
def fits (t : Tally) : Bool :=
  t.read < wordSize && t.accepted < wordSize && t.sourceTooLong < wordSize
    && t.targetTooLong < wordSize && t.rejected < wordSize && t.clipped < wordSize
    && t.sourceLengths.fits && t.targetLengths.fits

/-- The tally with its numbers in words, unless the program ends. -/
def inWords (overflow : Overflow) (t : Tally) : Option Tally := do
  return {
    read := ← overflow.word t.read
    accepted := ← overflow.word t.accepted
    sourceTooLong := ← overflow.word t.sourceTooLong
    targetTooLong := ← overflow.word t.targetTooLong
    rejected := ← overflow.word t.rejected
    clipped := ← overflow.word t.clipped
    sourceLengths := ← t.sourceLengths.inWords overflow
    targetLengths := ← t.targetLengths.inWords overflow }

theorem fits_iff :
    t.fits = true ↔ t.read < wordSize ∧ t.accepted < wordSize ∧ t.sourceTooLong < wordSize ∧
      t.targetTooLong < wordSize ∧ t.rejected < wordSize ∧ t.clipped < wordSize ∧
      t.sourceLengths.fits = true ∧ t.targetLengths.fits = true := by
  simp [fits, and_assoc]

theorem inWords_of_fits (overflow : Overflow) (hfits : t.fits = true) :
    t.inWords overflow = some t := by
  obtain ⟨h₁, h₂, h₃, h₄, h₅, h₆, h₇, h₈⟩ := fits_iff.mp hfits
  simp [inWords, word_of_lt overflow, h₁, h₂, h₃, h₄, h₅, h₆,
    Histogram.inWords_of_fits overflow h₇, Histogram.inWords_of_fits overflow h₈]

/-- What a tally in words has come from, number by number. -/
theorem inWords_eq_some_iff :
    t.inWords overflow = some kept ↔
      overflow.word t.read = some kept.read ∧
      overflow.word t.accepted = some kept.accepted ∧
      overflow.word t.sourceTooLong = some kept.sourceTooLong ∧
      overflow.word t.targetTooLong = some kept.targetTooLong ∧
      overflow.word t.rejected = some kept.rejected ∧
      overflow.word t.clipped = some kept.clipped ∧
      t.sourceLengths.inWords overflow = some kept.sourceLengths ∧
      t.targetLengths.inWords overflow = some kept.targetLengths := by
  simp only [inWords, bind, pure, Option.bind_eq_some_iff]
  constructor
  · rintro ⟨_, h₁, _, h₂, _, h₃, _, h₄, _, h₅, _, h₆, _, h₇, _, h₈, h⟩
    obtain rfl := Option.some.inj h
    exact ⟨h₁, h₂, h₃, h₄, h₅, h₆, h₇, h₈⟩
  · rintro ⟨h₁, h₂, h₃, h₄, h₅, h₆, h₇, h₈⟩
    exact ⟨_, h₁, _, h₂, _, h₃, _, h₄, _, h₅, _, h₆, _, h₇, _, h₈, rfl⟩

theorem fits_of_inWords (h : t.inWords overflow = some kept) : kept.fits = true := by
  obtain ⟨h₁, h₂, h₃, h₄, h₅, h₆, h₇, h₈⟩ := inWords_eq_some_iff.mp h
  exact fits_iff.mpr ⟨lt_of_word h₁, lt_of_word h₂, lt_of_word h₃, lt_of_word h₄, lt_of_word h₅,
    lt_of_word h₆, Histogram.fits_of_inWords h₇, Histogram.fits_of_inWords h₈⟩

/-- **Merging in words is merging**, for tallies that are in words. -/
theorem mergeIn_of_fits (hfits : t.fits = true) (overflow : Overflow) (other : Tally) :
    t.mergeIn overflow other = (t.merge other).inWords overflow := by
  obtain ⟨-, -, -, -, -, -, hsources, htargets⟩ := fits_iff.mp hfits
  rw [mergeIn, Histogram.mergeIn_of_fits hsources, Histogram.mergeIn_of_fits htargets]
  rfl

/-- Merging into a tally in words is merging into the tally. -/
theorem inWords_bind_merge (overflow : Overflow) (t other : Tally) :
    ((t.inWords overflow).bind fun t => (t.merge other).inWords overflow)
      = (t.merge other).inWords overflow := by
  refine Option.ext fun last => ?_
  simp only [Option.bind_eq_some_iff, inWords_eq_some_iff, merge]
  constructor
  · rintro ⟨kept, ⟨h₁, h₂, h₃, h₄, h₅, h₆, h₇, h₈⟩, g₁, g₂, g₃, g₄, g₅, g₆, g₇, g₈⟩
    exact ⟨word_add_eq_some_iff.mp ⟨_, h₁, g₁⟩, word_add_eq_some_iff.mp ⟨_, h₂, g₂⟩,
      word_add_eq_some_iff.mp ⟨_, h₃, g₃⟩, word_add_eq_some_iff.mp ⟨_, h₄, g₄⟩,
      word_add_eq_some_iff.mp ⟨_, h₅, g₅⟩, word_add_eq_some_iff.mp ⟨_, h₆, g₆⟩,
      Histogram.inWords_merge_eq_some_iff.mp ⟨_, h₇, g₇⟩,
      Histogram.inWords_merge_eq_some_iff.mp ⟨_, h₈, g₈⟩⟩
  · rintro ⟨h₁, h₂, h₃, h₄, h₅, h₆, h₇, h₈⟩
    obtain ⟨read, h₁, g₁⟩ := word_add_eq_some_iff.mpr h₁
    obtain ⟨accepted, h₂, g₂⟩ := word_add_eq_some_iff.mpr h₂
    obtain ⟨sourceTooLong, h₃, g₃⟩ := word_add_eq_some_iff.mpr h₃
    obtain ⟨targetTooLong, h₄, g₄⟩ := word_add_eq_some_iff.mpr h₄
    obtain ⟨rejected, h₅, g₅⟩ := word_add_eq_some_iff.mpr h₅
    obtain ⟨clipped, h₆, g₆⟩ := word_add_eq_some_iff.mpr h₆
    obtain ⟨sources, h₇, g₇⟩ := Histogram.inWords_merge_eq_some_iff.mpr h₇
    obtain ⟨targets, h₈, g₈⟩ := Histogram.inWords_merge_eq_some_iff.mpr h₈
    exact ⟨⟨read, accepted, sourceTooLong, targetTooLong, rejected, clipped, sources, targets⟩,
      ⟨h₁, h₂, h₃, h₄, h₅, h₆, h₇, h₈⟩, g₁, g₂, g₃, g₄, g₅, g₆, g₇, g₈⟩

theorem inWords_bind_mergeIn (overflow : Overflow) (t other : Tally) :
    ((t.inWords overflow).bind fun t => (other.inWords overflow).bind fun other =>
        t.mergeIn overflow other)
      = (t.merge other).inWords overflow := by
  rw [← bind_bind_of_comm merge_comm (inWords_bind_merge overflow) t other]
  refine Option.bind_congr fun kept hkept => Option.bind_congr fun others _ => ?_
  exact mergeIn_of_fits (fits_of_inWords hkept) overflow others

/-! ### Order and brackets -/

section

variable {first second third : Tally}

theorem mergeIn_comm (overflow : Overflow) (hfirst : first.fits = true)
    (hsecond : second.fits = true) :
    first.mergeIn overflow second = second.mergeIn overflow first := by
  rw [mergeIn_of_fits hfirst, mergeIn_of_fits hsecond, merge_comm]

/-- Brackets change neither the numbers nor where the program ends. -/
theorem mergeIn_assoc (overflow : Overflow) (hfirst : first.fits = true)
    (hsecond : second.fits = true) (hthird : third.fits = true) :
    ((first.mergeIn overflow second).bind fun both => both.mergeIn overflow third)
      = (second.mergeIn overflow third).bind fun both => first.mergeIn overflow both := by
  have hleft : ((first.mergeIn overflow second).bind fun both => both.mergeIn overflow third)
      = ((first.merge second).merge third).inWords overflow := by
    rw [← inWords_bind_mergeIn, inWords_of_fits overflow hthird, mergeIn_of_fits hfirst]
    rfl
  have hright : ((second.mergeIn overflow third).bind fun both => first.mergeIn overflow both)
      = (first.merge (second.merge third)).inWords overflow := by
    rw [← inWords_bind_mergeIn, inWords_of_fits overflow hfirst, mergeIn_of_fits hsecond]
    rfl
  rw [hleft, hright, merge_assoc]

theorem mergeIn_empty (overflow : Overflow) (hfirst : first.fits = true) :
    first.mergeIn overflow .empty = some first := by
  rw [mergeIn_of_fits hfirst, merge_empty, inWords_of_fits overflow hfirst]

theorem empty_mergeIn (overflow : Overflow) (hfirst : first.fits = true) :
    Tally.empty.mergeIn overflow first = some first := by
  rw [mergeIn_comm overflow (by decide) hfirst, mergeIn_empty overflow hfirst]

end

end Tally

end Bitext
