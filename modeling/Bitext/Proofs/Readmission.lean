/-
What is admitted would be admitted again.

The token counts and the key of an admitted pair are never counted on the stored text: which branch
was taken says what they are.  They agree with the text all the same, because clipping a side that is
too long leaves exactly as many tokens as its maximum allows.  So no side of an admitted pair is too
long, its groups still match, and a pair of the same texts is taken as it is.
-/
import Bitext.Proofs.Receiving

namespace Bitext.Admission

/-- What is left of a side that may have the given number of tokens. -/
structure SideLeft (text : String) (most : Nat) (left : String) (tokens : Nat) : Prop where
  counted : tokens = Line.tokenCount left
  within : tokens ≤ most
  sameGroups : Line.groupCount left = Line.groupCount text
  /-- A side that is not too long is left as it is. -/
  whole : Line.tokenCount text ≤ most → left = text
  /-- Of a side that is too long exactly the allowed tokens are left. -/
  cut : most < Line.tokenCount text → tokens = most ∧ left = Line.clip text most

/-- What an admitted pair is to the line pair that it was made of. -/
structure Leaves (settings : Settings) (pair : Pair) (p : Admitted) : Prop where
  source : SideLeft pair.source settings.maxSource p.pair.source p.sourceTokens
  target : SideLeft pair.target settings.maxTarget p.pair.target p.targetTokens
  key : p.key = settings.bucketing.key p.sourceTokens p.targetTokens settings.classWidth
  clipped : p.clipped = true ↔
    settings.maxSource < pair.sourceTokens ∨ settings.maxTarget < pair.targetTokens

theorem sideLeft_trimmed (text : String) (most : Nat) :
    SideLeft text most (trimmed text most) (Line.tokenCount (trimmed text most)) := by
  by_cases h : Line.tokenCount text ≤ most
  · have hwhole : trimmed text most = text := if_pos h
    rw [hwhole]
    refine ⟨rfl, h, rfl, fun _ => rfl, ?_⟩
    intro hlong
    exact absurd h (Nat.not_le.mpr hlong)
  · have hcut : trimmed text most = Line.clip text most := if_neg h
    have htokens : Line.tokenCount (Line.clip text most) = most := by
      rw [Line.tokenCount_clip]
      omega
    rw [hcut]
    refine ⟨rfl, Nat.le_of_eq htokens, Line.groupCount_clip text most, ?_, fun _ => ⟨htokens, rfl⟩⟩
    intro hshort
    exact absurd hshort h

variable {settings : Settings} {pair : Pair} {p : Admitted}

theorem leaves_trimmedPair (settings : Settings) (pair : Pair) :
    Leaves settings pair (trimmedPair settings pair) where
  source := by
    simp only [trimmedPair, file]
    exact sideLeft_trimmed pair.source settings.maxSource
  target := by
    simp only [trimmedPair, file]
    exact sideLeft_trimmed pair.target settings.maxTarget
  key := by simp only [trimmedPair, file]
  clipped := by simp [trimmedPair, file, tooLong, sourceTooLong, targetTooLong]

theorem Leaves.groupsMatch (h : Leaves settings pair p) (hpair : groupsMatch pair = true) :
    groupsMatch p.pair = true := by
  rw [groupsMatch_iff] at hpair ⊢
  rw [h.source.sameGroups, h.target.sameGroups, hpair]

/-- A pair of what was left is not too long, so it is accepted as it is. -/
theorem Leaves.verdict (h : Leaves settings pair p) :
    verdict settings p.pair = .accepted { p with clipped := false } := by
  have hsource : p.pair.sourceTokens = p.sourceTokens := h.source.counted.symm
  have htarget : p.pair.targetTokens = p.targetTokens := h.target.counted.symm
  have hshort : tooLong settings p.pair = false := by
    rw [tooLong_eq_false_iff, hsource, htarget]
    exact ⟨h.source.within, h.target.within⟩
  rw [verdict_of_short hshort, trimmedPair_of_short hshort, file, hsource, htarget, ← h.key]

theorem sourceTooLong_iff :
    sourceTooLong settings pair = true ↔ settings.maxSource < pair.sourceTokens := by
  simp [sourceTooLong]

theorem targetTooLong_iff :
    targetTooLong settings pair = true ↔ settings.maxTarget < pair.targetTokens := by
  simp [targetTooLong]

theorem tooLong_iff : tooLong settings pair = true ↔
    settings.maxSource < pair.sourceTokens ∨ settings.maxTarget < pair.targetTokens := by
  rw [tooLong, Bool.or_eq_true, sourceTooLong_iff, targetTooLong_iff]

/-- A rejected pair has a side that is too long, and every such side is named. -/
theorem verdict_rejected_iff_named {source target : Bool} :
    verdict settings pair = .rejected source target ↔
      settings.overlong = .drop ∧
        (settings.maxSource < pair.sourceTokens ∨ settings.maxTarget < pair.targetTokens) ∧
        (source = true ↔ settings.maxSource < pair.sourceTokens) ∧
        (target = true ↔ settings.maxTarget < pair.targetTokens) := by
  rw [verdict_eq_rejected_iff, tooLong_iff, ← sourceTooLong_iff, ← targetTooLong_iff,
    ← Bool.eq_iff_iff, ← Bool.eq_iff_iff]
  constructor
  · rintro ⟨hsource, htarget, hlong, hdrop⟩
    exact ⟨hdrop, hlong, hsource, htarget⟩
  · rintro ⟨hdrop, hlong, hsource, htarget⟩
    exact ⟨hsource, htarget, hlong, hdrop⟩

/-! ### The answer to a call -/

section answer

variable {line : Nat} {tally : Tally}

/-- A call fails exactly when the sides differ in their groups, and then nothing is counted. -/
theorem on_receiveInPlace_error_iff {fault : Fault} :
    ((receiveInPlace settings line pair).on tally).1 = .error fault ↔
      groupsMatch pair = false ∧ fault = mismatch line pair := by
  cases hgroups : groupsMatch pair with
  | false => simp [on_receiveInPlace_of_mismatch hgroups, eq_comm]
  | true => simp [on_receiveInPlace hgroups]

theorem on_receiveInPlace_ok_iff {answer : Verdict} :
    ((receiveInPlace settings line pair).on tally).1 = .ok answer ↔
      groupsMatch pair = true ∧ verdict settings pair = answer := by
  cases hgroups : groupsMatch pair with
  | false => simp [on_receiveInPlace_of_mismatch hgroups]
  | true => simp [on_receiveInPlace hgroups]

/-- An accepted pair is what trimming leaves, and is accepted again. -/
theorem of_on_receiveInPlace_accepted
    (h : ((receiveInPlace settings line pair).on tally).1 = .ok (.accepted p)) :
    Leaves settings pair p ∧ ∀ (other : Nat) (before : Tally),
      ((receiveInPlace settings other p.pair).on before).1
        = .ok (.accepted { p with clipped := false }) := by
  obtain ⟨hgroups, hverdict⟩ := on_receiveInPlace_ok_iff.mp h
  obtain ⟨rfl, -⟩ := verdict_eq_accepted_iff.mp hverdict
  have hleaves := leaves_trimmedPair settings pair
  refine ⟨hleaves, ?_⟩
  intro other before
  exact on_receiveInPlace_ok_iff.mpr ⟨hleaves.groupsMatch hgroups, hleaves.verdict⟩

end answer

/-- **What is admitted is the trimmed pair, and it would be admitted again.**  Receiving a line pair
in place gives what `receive` gives.  It fails exactly when the sides differ in their groups, and
then nothing has been counted.  A pair is rejected exactly when some side is too long and the policy
is to drop it, and the sides that are too long are named.  An accepted pair is what trimming leaves,
counts and key are those of its text, and its text is accepted again without being changed, on any
line and whatever was counted before. -/
theorem admitted_pairs_are_admitted_again (settings : Settings) (line : Nat) (pair : Pair)
    (tally : Tally) :
    let answer := ((receiveInPlace settings line pair).on tally).1
    let left := ((receiveInPlace settings line pair).on tally).2
    receive settings line pair tally = answer.map (fun verdict => (verdict, left)) ∧
    ((∃ fault, answer = .error fault) ↔
      Line.groupCount pair.source ≠ Line.groupCount pair.target) ∧
    (∀ fault, answer = .error fault → left = tally) ∧
    (∀ source target, answer = .ok (.rejected source target) ↔
      Line.groupCount pair.source = Line.groupCount pair.target ∧ settings.overlong = .drop ∧
        (settings.maxSource < pair.sourceTokens ∨ settings.maxTarget < pair.targetTokens) ∧
        (source = true ↔ settings.maxSource < pair.sourceTokens) ∧
        (target = true ↔ settings.maxTarget < pair.targetTokens)) ∧
    ∀ p, answer = .ok (.accepted p) → Leaves settings pair p ∧
      ∀ (other : Nat) (before : Tally),
        ((receiveInPlace settings other p.pair).on before).1
          = .ok (.accepted { p with clipped := false }) := by
  refine ⟨?_, ?_, ?_, ?_, fun p hp => of_on_receiveInPlace_accepted hp⟩
  · rw [on_receiveInPlace_eq]
    cases receive settings line pair tally <;> rfl
  · simp only [on_receiveInPlace_error_iff, exists_and_left, exists_eq, and_true]
    rw [ne_eq, ← groupsMatch_iff, Bool.not_eq_true]
  · intro fault hfault
    obtain ⟨hgroups, -⟩ := on_receiveInPlace_error_iff.mp hfault
    rw [on_receiveInPlace_of_mismatch hgroups]
  · intro source target
    rw [on_receiveInPlace_ok_iff, groupsMatch_iff, verdict_rejected_iff_named]

/-- A side that is too long is clipped, and the key is that of the clipped pair. -/
example :
    verdict
        { maxSource := 5, maxTarget := 3, overlong := .clip, bucketing := .longer, classWidth := 2 }
        ⟨"a b c\td  e f", "w\tx y"⟩
      = .accepted ⟨⟨"a b c\td e", "w\tx y"⟩, 5, 3, true, 3⟩ := by
  decide +kernel

end Bitext.Admission
