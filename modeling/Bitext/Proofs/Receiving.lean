/-
Receiving line pairs into a tally that stays with the caller.

A caller hands its tally over with every line pair and has it back moved on, also when the pair is
a fault.  The counters are moved one by one: the pair is counted as read before its sides are
looked at, the sides before it is decided what becomes of the pair, and a pair that is rejected
leaves before it would be counted as accepted.  A fault is found before anything is counted.

Said at once, receiving in place does to the tally what `receive` says, and a fault leaves it as
it was.  Whatever the tally counts, a call adds to it what it adds to an empty one.
-/
import Bitext.Proofs.Admission
import Bitext.Proofs.Tally

namespace Bitext

/-- Work on a tally that stays with the caller: what was counted before a fault stays counted. -/
abbrev Counting := ExceptT Fault (StateM Tally)

namespace Counting

variable {α β : Type}

/-- What work on a tally comes to, and the tally as the work leaves it. -/
def on (work : Counting α) (tally : Tally) : Except Fault α × Tally := work.run.run tally

@[simp] theorem on_pure (a : α) (tally : Tally) : (pure a : Counting α).on tally = (.ok a, tally) :=
  rfl

@[simp] theorem on_throw (fault : Fault) (tally : Tally) :
    (throw fault : Counting α).on tally = (.error fault, tally) := rfl

@[simp] theorem on_modify (f : Tally → Tally) (tally : Tally) :
    (modify f : Counting PUnit).on tally = (.ok ⟨⟩, f tally) := rfl

@[simp] theorem on_bind (work : Counting α) (next : α → Counting β) (tally : Tally) :
    (work >>= next).on tally
      = match work.on tally with
        | (.ok a, counted) => (next a).on counted
        | (.error fault, counted) => (.error fault, counted) := by
  unfold on
  simp only [ExceptT.run, StateT.run, bind, ExceptT.bind, ExceptT.mk, StateT.bind,
    ExceptT.bindCont]
  obtain ⟨result, counted⟩ := work tally
  cases result <;> rfl

@[simp] theorem on_map (f : α → β) (work : Counting α) (tally : Tally) :
    (f <$> work).on tally = ((work.on tally).1.map f, (work.on tally).2) := by
  rw [map_eq_pure_bind, on_bind]
  obtain ⟨result, counted⟩ := work.on tally
  cases result <;> rfl

end Counting

namespace Admission

/-- Takes in a line pair, moving the counters of the tally on the way. -/
def receiveInPlace (settings : Settings) (line : Nat) (pair : Pair) : Counting Verdict := do
  unless groupsMatch pair do throw (mismatch line pair)
  modify fun t => { t with read := t.read + 1 }
  modify fun t => { t with sourceLengths := t.sourceLengths.record pair.sourceTokens }
  modify fun t => { t with targetLengths := t.targetLengths.record pair.targetTokens }
  let source := decide (pair.sourceTokens > settings.maxSource)
  let target := decide (pair.targetTokens > settings.maxTarget)
  modify fun t => { t with sourceTooLong := t.sourceTooLong + (if source then 1 else 0) }
  modify fun t => { t with targetTooLong := t.targetTooLong + (if target then 1 else 0) }
  let p ← match settings.overlong, source || target with
    | _, false =>
        pure (file settings (pair.source, pair.sourceTokens) (pair.target, pair.targetTokens) false)
    | .drop, true =>
        modify fun t => { t with rejected := t.rejected + 1 }
        return .rejected source target
    | .clip, true =>
        modify fun t => { t with clipped := t.clipped + 1 }
        pure (file settings (fit pair.source pair.sourceTokens settings.maxSource)
          (fit pair.target pair.targetTokens settings.maxTarget) true)
  modify fun t => { t with accepted := t.accepted + 1 }
  return .accepted p

/-! ### One call -/

section call

variable {settings : Settings} {pair : Pair}

theorem groupsMatch_iff :
    groupsMatch pair = true ↔ Line.groupCount pair.source = Line.groupCount pair.target := by
  simp [groupsMatch]

theorem on_receiveInPlace_of_mismatch (h : groupsMatch pair = false) (line : Nat) (tally : Tally) :
    (receiveInPlace settings line pair).on tally = (.error (mismatch line pair), tally) := by
  simp [receiveInPlace, h]

/-- The counters that are moved on the way are those of the verdict. -/
theorem on_receiveInPlace (h : groupsMatch pair = true) (line : Nat) (tally : Tally) :
    (receiveInPlace settings line pair).on tally
      = (.ok (verdict settings pair), count settings pair tally) := by
  cases hlong : tooLong settings pair with
  | false =>
      rw [count, verdict_of_short hlong, trimmedPair_of_short hlong]
      unfold tooLong sourceTooLong targetTooLong at hlong
      simp [receiveInPlace, h, hlong, file, Except.map]
  | true =>
      have hany := hlong
      unfold tooLong sourceTooLong targetTooLong at hany
      cases hpolicy : settings.overlong with
      | drop =>
          rw [count, verdict_of_drop hlong hpolicy, sourceTooLong, targetTooLong]
          simp [receiveInPlace, h, hany, hpolicy, Except.map]
      | clip =>
          rw [count, verdict_of_clip hlong hpolicy, trimmedPair_of_tooLong hlong]
          simp [receiveInPlace, h, hany, hpolicy, file, Except.map]

/-- **Receiving in place is receiving**, and a fault leaves the tally as it was. -/
theorem on_receiveInPlace_eq (settings : Settings) (line : Nat) (pair : Pair) (tally : Tally) :
    (receiveInPlace settings line pair).on tally
      = match receive settings line pair tally with
        | .ok (verdict, counted) => (.ok verdict, counted)
        | .error fault => (.error fault, tally) := by
  cases hgroups : groupsMatch pair with
  | false =>
      rw [on_receiveInPlace_of_mismatch hgroups]
      simp [receive, hgroups]
  | true =>
      rw [on_receiveInPlace hgroups]
      simp [receive, hgroups]

end call

/-! ### Call after call -/

/-- The tally after line pairs have been received one after the other, faults included. -/
def receiveEach (settings : Settings) (calls : List LinePair) (tally : Tally) : Tally :=
  calls.foldl (fun tally found => ((receiveInPlace settings found.line found.pair).on tally).2)
    tally

/-- What a call adds to a tally. -/
def share (settings : Settings) (found : LinePair) : Tally :=
  ((receiveInPlace settings found.line found.pair).on .empty).2

/-- A call adds its share to whatever was counted before. -/
theorem on_receiveInPlace_share (settings : Settings) (found : LinePair) (tally : Tally) :
    ((receiveInPlace settings found.line found.pair).on tally).2
      = tally.merge (share settings found) := by
  unfold share
  cases hgroups : groupsMatch found.pair with
  | false =>
      rw [on_receiveInPlace_of_mismatch hgroups, on_receiveInPlace_of_mismatch hgroups,
        Tally.merge_empty]
  | true =>
      rw [on_receiveInPlace hgroups, on_receiveInPlace hgroups]
      exact count_eq_merge settings found.pair tally

/-- Calls add the sum of their shares. -/
theorem receiveEach_eq_sum (settings : Settings) (calls : List LinePair) (tally : Tally) :
    receiveEach settings calls tally = tally + (calls.map (share settings)).sum := by
  induction calls generalizing tally with
  | nil => exact (add_zero tally).symm
  | cons found rest ih =>
      have hfirst : receiveEach settings (found :: rest) tally
          = receiveEach settings rest (tally.merge (share settings found)) := by
        rw [← on_receiveInPlace_share]
        rfl
      rw [hfirst, ih, ← Tally.add_eq_merge, List.map_cons, List.sum_cons, add_assoc]

end Admission

end Bitext
