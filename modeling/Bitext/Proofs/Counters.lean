/-
The counters of a tally count what they say.

What a tally should count can be said without it: of the line pairs whose groups match, how many
there are, how many have a side over its maximum, and what the policy makes of these.  One call
keeps a tally in step with that: a pair whose groups do not match is neither counted nor added to
what is to be counted, and the counters of any other pair follow from whether it is too long and
what the policy is.  So a tally that is empty in the beginning is in step after any calls.

The counters are not independent.  Every pair that was read is accepted or rejected, its two lengths
stand in the two histograms, and the pairs with a side too long are those that were rejected or
clipped.
-/
import Bitext.Proofs.Histogram
import Bitext.Proofs.Receiving

namespace Bitext.Admission

/-- The line pairs of the calls whose groups match, in order. -/
def matching (calls : List LinePair) : List Pair := (calls.map (·.pair)).filter groupsMatch

/-- A tally that counts the given line pairs and nothing else. -/
structure Counted (settings : Settings) (pairs : List Pair) (tally : Tally) : Prop where
  read : tally.read = pairs.length
  sourceTooLong : tally.sourceTooLong = pairs.countP (sourceTooLong settings)
  targetTooLong : tally.targetTooLong = pairs.countP (targetTooLong settings)
  /-- A pair with a side too long is rejected under the one policy, -/
  rejected : tally.rejected = if settings.overlong = .drop then pairs.countP (tooLong settings) else 0
  /-- and clipped under the other one. -/
  clipped : tally.clipped = if settings.overlong = .clip then pairs.countP (tooLong settings) else 0
  accepted : tally.accepted + tally.rejected = tally.read
  sourceLengths : tally.sourceLengths.Shows (pairs.map (·.sourceTokens))
  targetLengths : tally.targetLengths.Shows (pairs.map (·.targetTokens))

variable {settings : Settings} {pairs : List Pair} {pair : Pair} {tally : Tally}

theorem counted_empty (settings : Settings) : Counted settings [] .empty where
  read := rfl
  sourceTooLong := rfl
  targetTooLong := rfl
  rejected := by simp [Tally.empty]
  clipped := by simp [Tally.empty]
  accepted := rfl
  sourceLengths := Histogram.shows_empty
  targetLengths := Histogram.shows_empty

/-! ### One call -/

/-- What counting a pair does to the counters that the verdict does not decide. -/
theorem count_sides (settings : Settings) (pair : Pair) (tally : Tally) :
    (count settings pair tally).read = tally.read + 1 ∧
      (count settings pair tally).sourceTooLong
        = tally.sourceTooLong + (if sourceTooLong settings pair then 1 else 0) ∧
      (count settings pair tally).targetTooLong
        = tally.targetTooLong + (if targetTooLong settings pair then 1 else 0) ∧
      (count settings pair tally).sourceLengths = tally.sourceLengths.record pair.sourceTokens ∧
      (count settings pair tally).targetLengths = tally.targetLengths.record pair.targetTokens := by
  unfold count
  cases verdict settings pair with
  | accepted p => simp [sourceTooLong, targetTooLong]
  | rejected source target => simp [sourceTooLong, targetTooLong]

/-- What counting a pair does to the counters that the verdict decides. -/
theorem count_verdict (settings : Settings) (pair : Pair) (tally : Tally) :
    (count settings pair tally).rejected
        = tally.rejected + (if settings.overlong = .drop ∧ tooLong settings pair then 1 else 0) ∧
      (count settings pair tally).clipped
        = tally.clipped + (if settings.overlong = .clip ∧ tooLong settings pair then 1 else 0) ∧
      (count settings pair tally).accepted
        = tally.accepted + (if settings.overlong = .drop ∧ tooLong settings pair then 0 else 1) := by
  cases hlong : tooLong settings pair with
  | false =>
      rw [count, verdict_of_short hlong, trimmedPair_of_short hlong]
      simp [file]
  | true =>
      cases hpolicy : settings.overlong with
      | drop =>
          rw [count, verdict_of_drop hlong hpolicy]
          simp
      | clip =>
          rw [count, verdict_of_clip hlong hpolicy, trimmedPair_of_tooLong hlong]
          simp [file]

/-- Counting a pair keeps the tally in step. -/
theorem Counted.append (h : Counted settings pairs tally) (pair : Pair) :
    Counted settings (pairs ++ [pair]) (count settings pair tally) := by
  obtain ⟨hread, hsource, htarget, hsources, htargets⟩ := count_sides settings pair tally
  obtain ⟨hrejected, hclipped, haccepted⟩ := count_verdict settings pair tally
  refine ⟨?_, ?_, ?_, ?_, ?_, ?_, ?_, ?_⟩
  · rw [hread, h.read, List.length_append, List.length_singleton]
  · rw [hsource, h.sourceTooLong, List.countP_append, List.countP_singleton]
  · rw [htarget, h.targetTooLong, List.countP_append, List.countP_singleton]
  · rw [hrejected, h.rejected, List.countP_append, List.countP_singleton]
    cases settings.overlong <;> simp
  · rw [hclipped, h.clipped, List.countP_append, List.countP_singleton]
    cases settings.overlong <;> simp
  · rw [haccepted, hrejected, hread, ← h.accepted]
    split <;> omega
  · rw [hsources, List.map_append]
    exact h.sourceLengths.record pair.sourceTokens
  · rw [htargets, List.map_append]
    exact h.targetLengths.record pair.targetTokens

/-! ### Call after call -/

theorem receiveEach_concat (settings : Settings) (calls : List LinePair) (found : LinePair)
    (tally : Tally) :
    receiveEach settings (calls ++ [found]) tally
      = ((receiveInPlace settings found.line found.pair).on (receiveEach settings calls tally)).2 := by
  rw [receiveEach, List.foldl_append]
  rfl

/-- **After any calls the tally is in step.** -/
theorem counted_receiveEach (settings : Settings) (calls : List LinePair) :
    Counted settings (matching calls) (receiveEach settings calls .empty) := by
  induction calls using List.reverseRecOn with
  | nil => exact counted_empty settings
  | append_singleton calls found ih =>
      rw [receiveEach_concat]
      cases hgroups : groupsMatch found.pair with
      | false =>
          have hsame : matching (calls ++ [found]) = matching calls := by
            simp [matching, hgroups]
          rw [on_receiveInPlace_of_mismatch hgroups, hsame]
          exact ih
      | true =>
          have hmore : matching (calls ++ [found]) = matching calls ++ [found.pair] := by
            simp [matching, hgroups]
          rw [on_receiveInPlace hgroups, hmore]
          exact ih.append found.pair

/-! ### How the counters hang together -/

/-- The pairs with a side too long are those that are rejected or clipped. -/
theorem Counted.rejected_add_clipped (h : Counted settings pairs tally) :
    tally.rejected + tally.clipped = pairs.countP (tooLong settings) := by
  rw [h.rejected, h.clipped]
  cases settings.overlong <;> simp

theorem countP_tooLong_le (settings : Settings) (pairs : List Pair) :
    pairs.countP (tooLong settings)
      ≤ pairs.countP (sourceTooLong settings) + pairs.countP (targetTooLong settings) := by
  induction pairs with
  | nil => simp
  | cons pair rest ih =>
      have hone : (if tooLong settings pair then 1 else 0)
          ≤ (if sourceTooLong settings pair then 1 else 0)
            + (if targetTooLong settings pair then 1 else 0) := by
        unfold tooLong
        cases sourceTooLong settings pair <;> cases targetTooLong settings pair <;> decide
      simp only [List.countP_cons]
      omega

/-- There are as many pairs with a side too long as the longer count says, or more, and no more than
both counts together. -/
theorem Counted.bounds (h : Counted settings pairs tally) :
    max tally.sourceTooLong tally.targetTooLong ≤ tally.rejected + tally.clipped ∧
      tally.rejected + tally.clipped ≤ tally.sourceTooLong + tally.targetTooLong := by
  rw [h.rejected_add_clipped, h.sourceTooLong, h.targetTooLong]
  refine ⟨Nat.max_le.mpr ⟨?_, ?_⟩, countP_tooLong_le settings pairs⟩
  · refine List.countP_mono_left fun pair _ hsource => ?_
    simp [tooLong, hsource]
  · refine List.countP_mono_left fun pair _ htarget => ?_
    simp [tooLong, htarget]

/-- **The counters count what they say.**  After any calls to an empty tally, those that failed left
out, it counts the line pairs, the sides over their maximum, the pairs that were dropped or clipped
for it, and the lengths that the sides had before they were clipped.  All pairs are accepted or
rejected, both histograms come to their number, and the pairs with a side too long are at least as
many as the sides of either kind and at most as many as those of both. -/
theorem counters_count_what_they_say (settings : Settings) (calls : List LinePair) :
    let tally := receiveEach settings calls .empty
    Counted settings (matching calls) tally ∧
      tally.read = tally.accepted + tally.rejected ∧
      tally.sourceLengths.total = tally.read ∧ tally.targetLengths.total = tally.read ∧
      max tally.sourceTooLong tally.targetTooLong ≤ tally.rejected + tally.clipped ∧
      tally.rejected + tally.clipped ≤ tally.sourceTooLong + tally.targetTooLong := by
  intro tally
  have h : Counted settings (matching calls) tally := counted_receiveEach settings calls
  refine ⟨h, h.accepted.symm, ?_, ?_, h.bounds.1, h.bounds.2⟩
  · rw [h.sourceLengths.total, List.length_map, h.read]
  · rw [h.targetLengths.total, List.length_map, h.read]

end Bitext.Admission
