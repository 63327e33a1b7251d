/-
What admission makes of a line pair.

`kept` says it without counting and filing: a pair that is not too long is kept as it is,
and of one that is too long the overlong policy leaves nothing or the clipped sides.
Admission accepts what is kept and rejects the rest.  What it notes beside an accepted
pair can be recomputed from the pair alone; for a clipped side this needs that clipping
leaves exactly as many tokens as the maximum allows.
-/
import Bitext.Proofs.Source.Delivered
import Bitext.Admission

namespace Bitext

/-- The counts and the key of an admitted pair are those of its text. -/
structure Admitted.Accurate (settings : Settings) (p : Admitted) : Prop where
  sourceTokens : p.sourceTokens = p.pair.sourceTokens
  targetTokens : p.targetTokens = p.pair.targetTokens
  key : p.key = settings.bucketing.key p.pair.sourceTokens p.pair.targetTokens settings.classWidth

theorem Admitted.Accurate.tokenCount {settings : Settings} {p : Admitted}
    (h : p.Accurate settings) : p.tokenCount = p.pair.tokenCount := by
  rw [Admitted.tokenCount, Pair.tokenCount, h.sourceTokens, h.targetTokens]

namespace Admission

/-- A side, clipped when it has more tokens than allowed. -/
def trimmed (text : String) (most : Nat) : String :=
  if Line.tokenCount text ≤ most then text else Line.clip text most

/-- What the overlong policy leaves of a pair. -/
def kept (settings : Settings) (pair : Pair) : Option Pair :=
  if pair.sourceTokens ≤ settings.maxSource ∧ pair.targetTokens ≤ settings.maxTarget then some pair
  else
    match settings.overlong with
    | .drop => none
    | .clip =>
        some ⟨trimmed pair.source settings.maxSource, trimmed pair.target settings.maxTarget⟩

/-- A side is fitted by trimming it and counting what is left. -/
theorem fit_eq (text : String) (most : Nat) :
    fit text (Line.tokenCount text) most
      = (trimmed text most, Line.tokenCount (trimmed text most)) := by
  unfold fit trimmed
  by_cases h : Line.tokenCount text ≤ most
  · rw [if_neg (Nat.not_lt.mpr h), if_pos h]
  · have hmin : min most (Line.tokenCount text) = most := Nat.min_eq_left (by omega)
    rw [if_pos (Nat.not_le.mp h), if_neg h, Line.tokenCount_clip, hmin]

theorem accurate_file (settings : Settings) (source target : String) (clipped : Bool) :
    (file settings (source, Line.tokenCount source) (target, Line.tokenCount target)
      clipped).Accurate settings := ⟨rfl, rfl, rfl⟩

/-- The source side of a pair is over its maximum. -/
def sourceTooLong (settings : Settings) (pair : Pair) : Bool :=
  decide (settings.maxSource < pair.sourceTokens)

/-- The target side of a pair is over its maximum. -/
def targetTooLong (settings : Settings) (pair : Pair) : Bool :=
  decide (settings.maxTarget < pair.targetTokens)

/-- Some side of a pair is over its maximum. -/
def tooLong (settings : Settings) (pair : Pair) : Bool :=
  sourceTooLong settings pair || targetTooLong settings pair

/-- A pair with its sides trimmed, as it is filed. -/
def trimmedPair (settings : Settings) (pair : Pair) : Admitted :=
  let source := trimmed pair.source settings.maxSource
  let target := trimmed pair.target settings.maxTarget
  file settings (source, Line.tokenCount source) (target, Line.tokenCount target)
    (tooLong settings pair)

section verdict

variable {settings : Settings} {pair : Pair}

theorem tooLong_eq_false_iff : tooLong settings pair = false ↔
    pair.sourceTokens ≤ settings.maxSource ∧ pair.targetTokens ≤ settings.maxTarget := by
  simp [tooLong, sourceTooLong, targetTooLong]

theorem not_short_of_tooLong (h : tooLong settings pair = true) :
    ¬(pair.sourceTokens ≤ settings.maxSource ∧ pair.targetTokens ≤ settings.maxTarget) := by
  rw [← tooLong_eq_false_iff, h]
  simp

/-- The pair itself is what trimming leaves of a pair that is not too long. -/
theorem trimmedPair_of_short (h : tooLong settings pair = false) :
    trimmedPair settings pair
      = file settings (pair.source, pair.sourceTokens) (pair.target, pair.targetTokens) false := by
  obtain ⟨hsource, htarget⟩ := tooLong_eq_false_iff.mp h
  have hleft : trimmed pair.source settings.maxSource = pair.source := if_pos hsource
  have hright : trimmed pair.target settings.maxTarget = pair.target := if_pos htarget
  rw [trimmedPair, h, hleft, hright, Pair.sourceTokens, Pair.targetTokens]

/-- What is filed of a pair that is too long is its fitted sides. -/
theorem trimmedPair_of_tooLong (h : tooLong settings pair = true) :
    trimmedPair settings pair
      = file settings (fit pair.source pair.sourceTokens settings.maxSource)
        (fit pair.target pair.targetTokens settings.maxTarget) true := by
  rw [trimmedPair, h, Pair.sourceTokens, Pair.targetTokens, fit_eq, fit_eq]

theorem verdict_of_short (h : tooLong settings pair = false) :
    verdict settings pair = .accepted (trimmedPair settings pair) := by
  rw [trimmedPair_of_short h]
  unfold tooLong sourceTooLong targetTooLong at h
  simp only [verdict, gt_iff_lt, h]

theorem verdict_of_drop (h : tooLong settings pair = true) (hdrop : settings.overlong = .drop) :
    verdict settings pair
      = .rejected (sourceTooLong settings pair) (targetTooLong settings pair) := by
  unfold tooLong at h
  unfold sourceTooLong targetTooLong at h ⊢
  simp only [verdict, gt_iff_lt, h, hdrop]

theorem verdict_of_clip (h : tooLong settings pair = true) (hclip : settings.overlong = .clip) :
    verdict settings pair = .accepted (trimmedPair settings pair) := by
  rw [trimmedPair_of_tooLong h]
  unfold tooLong sourceTooLong targetTooLong at h
  simp only [verdict, gt_iff_lt, h, hclip]

theorem verdict_eq_accepted_iff {p : Admitted} : verdict settings pair = .accepted p ↔
    p = trimmedPair settings pair ∧ (tooLong settings pair = false ∨ settings.overlong = .clip) := by
  cases hlong : tooLong settings pair with
  | false => simp [verdict_of_short hlong, eq_comm]
  | true =>
      cases hpolicy : settings.overlong with
      | drop => simp [verdict_of_drop hlong hpolicy]
      | clip => simp [verdict_of_clip hlong hpolicy, eq_comm]

theorem verdict_eq_rejected_iff {source target : Bool} :
    verdict settings pair = .rejected source target ↔
      source = sourceTooLong settings pair ∧ target = targetTooLong settings pair ∧
        tooLong settings pair = true ∧ settings.overlong = .drop := by
  cases hlong : tooLong settings pair with
  | false => simp [verdict_of_short hlong]
  | true =>
      cases hpolicy : settings.overlong with
      | drop => simp [verdict_of_drop hlong hpolicy, eq_comm]
      | clip => simp [verdict_of_clip hlong hpolicy]

/-- What is kept of a pair is its trimmed sides, unless it is dropped. -/
theorem kept_eq_trimmed (h : tooLong settings pair = false ∨ settings.overlong = .clip) :
    kept settings pair = some (trimmedPair settings pair).pair := by
  cases hlong : tooLong settings pair with
  | false => rw [kept, if_pos (tooLong_eq_false_iff.mp hlong), trimmedPair_of_short hlong]; rfl
  | true =>
      have hclip : settings.overlong = .clip := h.resolve_left (by simp [hlong])
      rw [kept, if_neg (not_short_of_tooLong hlong), hclip]
      rfl

theorem kept_of_drop (h : tooLong settings pair = true) (hdrop : settings.overlong = .drop) :
    kept settings pair = none := by
  rw [kept, if_neg (not_short_of_tooLong h), hdrop]

end verdict

/-- **A pair is accepted as what is kept of it, and rejected when nothing is.** -/
theorem verdict_spec (settings : Settings) (pair : Pair) :
    match verdict settings pair with
    | .accepted p => kept settings pair = some p.pair ∧ p.Accurate settings
    | .rejected _ _ => kept settings pair = none := by
  cases hverdict : verdict settings pair with
  | accepted p =>
      obtain ⟨rfl, hkeeps⟩ := verdict_eq_accepted_iff.mp hverdict
      exact ⟨kept_eq_trimmed hkeeps, accurate_file settings _ _ _⟩
  | rejected source target =>
      obtain ⟨-, -, hlong, hdrop⟩ := verdict_eq_rejected_iff.mp hverdict
      exact kept_of_drop hlong hdrop

theorem kept_of_accepted {settings : Settings} {pair : Pair} {p : Admitted}
    (h : verdict settings pair = .accepted p) :
    kept settings pair = some p.pair ∧ p.Accurate settings := by
  have hspec := verdict_spec settings pair
  rw [h] at hspec
  exact hspec

theorem kept_of_rejected {settings : Settings} {pair : Pair} {source target : Bool}
    (h : verdict settings pair = .rejected source target) : kept settings pair = none := by
  have hspec := verdict_spec settings pair
  rw [h] at hspec
  exact hspec

theorem groupCount_trimmed (text : String) (most : Nat) :
    Line.groupCount (trimmed text most) = Line.groupCount text := by
  unfold trimmed
  split
  · rfl
  · exact Line.groupCount_clip text most

/-- What is left of a pair whose groups match has groups that match. -/
theorem groupsMatch_of_kept {settings : Settings} {pair left : Pair}
    (hpair : groupsMatch pair = true) (h : kept settings pair = some left) :
    groupsMatch left = true := by
  unfold kept at h
  split at h
  · obtain rfl := Option.some.inj h
    exact hpair
  · split at h
    · simp at h
    · obtain rfl := Option.some.inj h
      rw [groupsMatch, groupCount_trimmed, groupCount_trimmed]
      exact hpair

/-- Trimming a line does not break it. -/
theorem not_mem_trimmed {text : String} {most : Nat} (h : '\n' ∉ text.toList) :
    '\n' ∉ (trimmed text most).toList := by
  unfold trimmed
  split
  · exact h
  · intro hmem
    rcases Line.mem_clip hmem with hfeed | hfeed | hfeed
    · exact absurd hfeed (by decide)
    · exact absurd hfeed (by decide)
    · exact h hfeed

theorem onOneLine_of_kept {settings : Settings} {pair left : Pair} (hpair : pair.OnOneLine)
    (h : kept settings pair = some left) : left.OnOneLine := by
  unfold kept at h
  split at h
  · obtain rfl := Option.some.inj h
    exact hpair
  · split at h
    · simp at h
    · obtain rfl := Option.some.inj h
      exact ⟨not_mem_trimmed hpair.1, not_mem_trimmed hpair.2⟩

end Admission

end Bitext
