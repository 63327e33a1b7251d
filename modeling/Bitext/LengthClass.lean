/-
Length classes and bucket keys.

Pairs of similar length belong together, because a batch is padded to its longest
pair.  Lengths are cut into classes of equal width: with width ten, class one holds
one to ten tokens, class two eleven to twenty, and class zero holds the empty pairs
alone.  The key of a pair is the class of the length that the bucketing looks at.
-/
import Bitext.Settings

namespace Bitext

/-- The number of classes of the given width that a length reaches into, a width of
zero counting as one. -/
def lengthClass (tokens width : Nat) : Nat := (tokens + (max width 1 - 1)) / max width 1

/-- The length of a pair that a bucketing looks at. -/
def Bucketing.measure (bucketing : Bucketing) (sourceTokens targetTokens : Nat) : Nat :=
  match bucketing with
  | .combined => sourceTokens + targetTokens
  | .longer => max sourceTokens targetTokens
  | .source => sourceTokens

/-- The key of the bucket that a pair of the given lengths belongs to. -/
def Bucketing.key (bucketing : Bucketing) (sourceTokens targetTokens width : Nat) : Nat :=
  lengthClass (bucketing.measure sourceTokens targetTokens) width

/-- A class is the lengths above the classes before it, up to its own end. -/
theorem lengthClass_le_iff (tokens width k : Nat) :
    lengthClass tokens width ≤ k ↔ tokens ≤ k * max width 1 := by
  have hw : 0 < max width 1 := by omega
  unfold lengthClass
  rw [← Nat.lt_succ_iff, Nat.div_lt_iff_lt_mul hw, Nat.succ_mul]
  omega

end Bitext
