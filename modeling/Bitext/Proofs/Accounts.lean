/-
Partial tallies merge to the whole.

However line pairs are shared out, each share is counted on a tally of its own, and tallies are
merged into one another until one is left.  An account is the record of that: what was opened, what
was received into it, and which account was merged into which, in whatever order and with anything
received in between.  It tells how the tally came about and which line pairs are behind it.

Each call adds the same to any tally, and tallies are added up by merging.  So the tally of an
account is the sum of what its line pairs add, and a sum does not ask for the order.  In words this
is so too, whatever becomes of numbers that do not fit: the tally of an account is the sum put into
words.

A histogram that is recorded and merged shows all the lengths that went in anywhere, but it can be
given lengths and merges that no corpus would give it.  So there is a limit to what it can show.
-/
import Bitext.Proofs.Counters
import Bitext.Proofs.Words.Tally

namespace Bitext

open Admission

/-- How a tally came about. -/
inductive Account where
  | opened
  /-- A line pair was received. -/
  | received (account : Account) (found : LinePair)
  /-- Another tally was merged in. -/
  | merged (account other : Account)

namespace Account

/-- The line pairs that were received, in this tally or in one that was merged in. -/
def found : Account → List LinePair
  | opened => []
  | received account last => account.found ++ [last]
  | merged account other => account.found ++ other.found

/-- The tally that an account comes to. -/
def tally (settings : Settings) : Account → Tally
  | opened => .empty
  | received account last =>
      ((receiveInPlace settings last.line last.pair).on (account.tally settings)).2
  | merged account other => (account.tally settings).merge (other.tally settings)

/-- **An account comes to the sum of what its line pairs add.** -/
theorem tally_eq_sum (settings : Settings) (account : Account) :
    account.tally settings = (account.found.map (share settings)).sum := by
  induction account with
  | opened => rfl
  | received account last ih =>
      rw [tally, on_receiveInPlace_share, ih, ← Tally.add_eq_merge, found, List.map_append,
        List.sum_append, List.map_singleton, List.sum_singleton]
  | merged account other ih ihOther =>
      rw [tally, ih, ihOther, ← Tally.add_eq_merge, found, List.map_append, List.sum_append]

/-- One tally that receives the same line pairs in some order comes to the same. -/
theorem tally_eq_receiveEach (settings : Settings) (account : Account) {calls : List LinePair}
    (h : calls.Perm account.found) :
    account.tally settings = receiveEach settings calls .empty := by
  have hzero : receiveEach settings calls .empty = (calls.map (share settings)).sum := by
    rw [receiveEach_eq_sum]
    exact zero_add _
  rw [tally_eq_sum, hzero, (h.map (share settings)).sum_eq]

/-! ### In words -/

/-- A line pair is received into a tally in words.  No number goes up more than once, so it is
enough to look at the words when the call is over. -/
def receiveIn (overflow : Overflow) (settings : Settings) (tally : Tally) (found : LinePair) :
    Option Tally :=
  ((receiveInPlace settings found.line found.pair).on tally).2.inWords overflow

/-- The tally that an account comes to in words. -/
def tallyIn (overflow : Overflow) (settings : Settings) : Account → Option Tally
  | opened => some .empty
  | received account last => do
      receiveIn overflow settings (← account.tallyIn overflow settings) last
  | merged account other => do
      let tally ← account.tallyIn overflow settings
      tally.mergeIn overflow (← other.tallyIn overflow settings)

/-- The tally in words that receives line pairs one after the other. -/
def receiveEachIn (overflow : Overflow) (settings : Settings) (calls : List LinePair) :
    Option Tally :=
  calls.foldlM (receiveIn overflow settings) .empty

theorem inWords_bind_receiveIn (overflow : Overflow) (settings : Settings) (tally : Tally)
    (found : LinePair) :
    ((tally.inWords overflow).bind fun tally => receiveIn overflow settings tally found)
      = ((receiveInPlace settings found.line found.pair).on tally).2.inWords overflow := by
  rw [on_receiveInPlace_share, ← Tally.inWords_bind_merge]
  refine Option.bind_congr fun kept _ => ?_
  rw [receiveIn, on_receiveInPlace_share]

theorem tallyIn_eq (overflow : Overflow) (settings : Settings) (account : Account) :
    account.tallyIn overflow settings = (account.tally settings).inWords overflow := by
  induction account with
  | opened => exact (Tally.inWords_of_fits overflow (by decide)).symm
  | received account last ih =>
      rw [tallyIn, ih]
      exact inWords_bind_receiveIn overflow settings _ last
  | merged account other ih ihOther =>
      rw [tallyIn, ih, ihOther]
      exact Tally.inWords_bind_mergeIn overflow _ _

theorem receiveEachIn_eq (overflow : Overflow) (settings : Settings) (calls : List LinePair) :
    receiveEachIn overflow settings calls
      = (receiveEach settings calls .empty).inWords overflow := by
  have hfold : ∀ tally : Tally, ((tally.inWords overflow).bind fun tally =>
      calls.foldlM (receiveIn overflow settings) tally)
        = (receiveEach settings calls tally).inWords overflow := by
    induction calls with
    | nil => exact fun tally => Option.bind_fun_some _
    | cons found rest ih =>
        intro tally
        rw [receiveEach, List.foldl_cons, ← receiveEach, ← ih, ← inWords_bind_receiveIn,
          Option.bind_assoc]
        rfl
  rw [← hfold, Tally.inWords_of_fits overflow (by decide)]
  rfl

/-- The numbers of a tally fit when its line pairs can be counted. -/
theorem fits_tally (settings : Settings) {account : Account}
    (hmany : account.found.length < wordSize) : (account.tally settings).fits = true := by
  rw [account.tally_eq_receiveEach settings (List.Perm.refl _)]
  have hcounted := counted_receiveEach settings account.found
  have hpairs : (matching account.found).length < wordSize := by
    refine Nat.lt_of_le_of_lt (List.length_filter_le _ _) ?_
    rwa [List.length_map]
  have hcount : ∀ p, (matching account.found).countP p < wordSize := fun p =>
    Nat.lt_of_le_of_lt List.countP_le_length hpairs
  have hread := hcounted.read
  have haccepted := hcounted.accepted
  refine Tally.fits_iff.mpr ⟨?_, ?_, ?_, ?_, ?_, ?_, ?_, ?_⟩
  · omega
  · omega
  · exact hcounted.sourceTooLong ▸ hcount _
  · exact hcounted.targetTooLong ▸ hcount _
  · omega
  · rw [hcounted.clipped]
    split
    · exact hcount _
    · decide
  · refine Histogram.fits_of_total_lt ?_
    rwa [hcounted.sourceLengths.total, List.length_map]
  · refine Histogram.fits_of_total_lt ?_
    rwa [hcounted.targetLengths.total, List.length_map]

end Account

/-- Two tallies for three line pairs, of which the second one cannot be received. -/
def sharedOut : Account :=
  .merged (.received .opened ⟨1, ⟨"a b", "x"⟩⟩)
    (.received (.received .opened ⟨1, ⟨"c\td", "y"⟩⟩) ⟨2, ⟨"e", "z"⟩⟩)

/-- Two lengths of one class and one of another, recorded in two histograms. -/
def twoHistograms : Recording :=
  .merged (.recorded (.recorded .empty 5) 150) (.recorded .empty 99)

/-- A histogram with one length, merged with itself again and again. -/
def doubled : Nat → Recording
  | 0 => .recorded .empty 5
  | n + 1 => .merged (doubled n) (doubled n)

theorem length_doubled (n : Nat) : (doubled n).lengths.length = 2 ^ n := by
  induction n with
  | zero => rfl
  | succ n ih => rw [doubled, Recording.lengths, List.length_append, ih, Nat.pow_succ, Nat.mul_two]

end Bitext
