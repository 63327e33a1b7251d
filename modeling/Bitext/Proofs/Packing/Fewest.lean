/-
Greedy cuts have the fewest segments.

A segment is admissible when it is one element, or when it is within the budget and was below it
before its last element came.  That is to say that its elements were let in one after the other,
and so admissibility passes from a segment to what is left of it when some of its front is gone.

Hence a greedy segment is the longest admissible one that starts where it starts, and no other
cut can get ahead of the greedy one: if what the greedy cut has left is no more than what another
cut has left, then it is still so when each has taken one more segment.  Nothing is left to the
greedy cut when the other is at its end.
-/
import Bitext.Proofs.EpochFile
import Bitext.Proofs.Packing.Rounds
import Bitext.Random.Keystream

namespace Bitext.Packing

section cuts

variable {α : Type} {cost : α → Nat} {budget : Nat} {segment longer following front back l : List α}
  {segments others : List (List α)}

/-- A segment is admissible when it is one element, or when it is within the budget and without
its last element below it. -/
def Admissible (cost : α → Nat) (budget : Nat) (segment : List α) : Prop :=
  segment.length = 1 ∨ weigh cost segment ≤ budget ∧ weigh cost segment.dropLast < budget

instance (cost : α → Nat) (budget : Nat) (segment : List α) :
    Decidable (Admissible cost budget segment) :=
  inferInstanceAs (Decidable (_ ∨ _ ∧ _))

-- an element alone may exceed the budget, and one that costs nothing does not join a full segment
example : Admissible id 3 [5] ∧ Admissible id 3 [0, 1, 2] ∧ ¬Admissible id 3 [1, 2, 0] := by decide

/-! ### What is let in -/

/-- What was let in is let in without what stands in front of it. -/
theorem LetsIn.of_append_right (h : LetsIn cost budget (front ++ back)) :
    LetsIn cost budget back := by
  intro before a after hsplit hne
  have hlets := h (front ++ before) a after (by rw [hsplit, List.append_assoc]) (by simp [hne])
  rw [weigh_append] at hlets
  omega

theorem LetsIn.admissible (hne : segment ≠ []) (h : LetsIn cost budget segment) :
    Admissible cost budget segment := by
  by_cases hmany : 2 ≤ segment.length
  · exact .inr (h.within_budget hmany)
  · have hpos := List.length_pos_iff.mpr hne
    exact .inl (by omega)

/-- What is admissible was let in, element by element. -/
theorem Admissible.letsIn (h : Admissible cost budget segment) : LetsIn cost budget segment := by
  intro before a after hsplit hne
  rw [hsplit] at h
  have hpos := List.length_pos_iff.mpr hne
  rcases h with hone | ⟨hwithin, hbelow⟩
  · rw [List.length_append, List.length_cons] at hone
    omega
  · rw [List.dropLast_append_cons, weigh_append] at hbelow
    rw [weigh_append, weigh_cons] at hwithin
    omega

/-! ### Greedy cuts against all others -/

/-- A segment that stops for a reason is the longest that is let in. -/
theorem length_le_of_stops (hne : segment ≠ []) (hstops : Stops cost budget segment following)
    (hlonger : longer <+: segment ++ following) (hlets : LetsIn cost budget longer) :
    longer.length ≤ segment.length := by
  by_contra hless
  obtain ⟨more, rfl⟩ : segment <+: longer :=
    List.prefix_of_prefix_length_le (List.prefix_append segment following) hlonger (by omega)
  cases more with
  | nil => simp at hless
  | cons a after =>
      -- the element behind the segment was let in, and the segment stops in front of it
      obtain ⟨behind, hbehind⟩ := (List.prefix_append_right_inj segment).mp hlonger
      have hletsIn := hlets segment a after rfl hne
      have hstop := hstops a (after ++ behind) hbehind.symm
      omega

namespace GreedyCut

/-- **Each greedy segment is the longest that starts where it starts.** -/
theorem longest (h : GreedyCut cost budget l segments) :
    ∀ before segment after, segments = before ++ segment :: after →
      ∀ longer, longer <+: segment ++ after.flatten → LetsIn cost budget longer →
        longer.length ≤ segment.length := by
  induction h with
  | nil => intro before segment after hsplit; simp at hsplit
  | cons hne _ hstops hrest ih =>
      intro before segment after hsplit longer hlonger hlets
      cases before with
      | nil =>
          obtain ⟨rfl, rfl⟩ := List.cons.inj hsplit
          rw [hrest.flatten_eq] at hlonger
          exact length_le_of_stops hne hstops hlonger hlets
      | cons first before =>
          exact ih before segment after (List.cons.inj hsplit).2 longer hlonger hlets

/-- **No cut has fewer segments than the greedy one.**  It need not even be a cut of the same
list, as long as the list is the end of what it cuts. -/
theorem length_le_of_suffix (hothers : ∀ other ∈ others, LetsIn cost budget other)
    (h : GreedyCut cost budget l segments) (hsuffix : l <:+ others.flatten) :
    segments.length ≤ others.length := by
  induction others generalizing l segments with
  | nil =>
      obtain rfl := List.suffix_nil.mp hsuffix
      rw [h.eq_cut, cut_nil]
  | cons other rest ih =>
      have hrest : ∀ later ∈ rest, LetsIn cost budget later :=
        fun later hlater => hothers later (List.mem_cons_of_mem other hlater)
      rw [List.flatten_cons] at hsuffix
      rcases List.suffix_or_suffix_of_suffix hsuffix (List.suffix_append other rest.flatten) with
        hbehind | ⟨back, rfl⟩
      · exact Nat.le_succ_of_le (ih hrest h hbehind)
      · -- what the list has of the other segment is the end of it
        obtain ⟨front, hfront⟩ := hsuffix
        rw [← List.append_assoc] at hfront
        have hback : LetsIn cost budget back := by
          have hwhole : LetsIn cost budget (front ++ back) := by
            rw [List.append_cancel_right hfront]
            exact hothers other (List.mem_cons_self ..)
          exact hwhole.of_append_right
        generalize hlist : back ++ rest.flatten = l at h
        cases h with
        | nil => exact Nat.zero_le _
        | @cons segment following segments hne _ hstops hgreedy =>
            have hlength : back.length ≤ segment.length :=
              length_le_of_stops hne hstops ⟨rest.flatten, hlist⟩ hback
            have hsum := congrArg List.length hlist
            rw [List.length_append, List.length_append] at hsum
            have hend : following <:+ rest.flatten :=
              List.suffix_of_suffix_length_le (List.suffix_append segment following)
                ⟨back, hlist⟩ (by omega)
            exact Nat.succ_le_succ (ih hrest hgreedy hend)

end GreedyCut

end cuts

/-! ### Buckets -/

/-- **A bucket is packed into the fewest batches.**  Whatever was filed in an index, and whatever
tokens its pairs have, every bucket falls into segments that are admissible, each the longest
admissible one that starts where it starts, and no other cut of the bucket into admissible
segments has fewer.  Whatever is drawn, the batches that come from the bucket are these
segments in order, from the first one on and, when nothing stops the packing, all of them; and
nothing stops it when all records can be read and all segments fit theirs. -/
theorem buckets_are_packed_into_the_fewest_batches (blob : Blob) (budget : Nat) {index : Index}
    (hindex : index.Made) :
    (∀ key, ∃ segments : List (List Nat), segments.flatten = index.offsets key ∧
      (∀ segment ∈ segments, segment ≠ [] ∧ Admissible (tokensAt blob) budget segment) ∧
      (∀ before segment after, segments = before ++ segment :: after →
        ∀ longer, longer <+: segment ++ after.flatten →
          Admissible (tokensAt blob) budget longer → longer.length ≤ segment.length) ∧
      (∀ others : List (List Nat), others.flatten = index.offsets key →
        (∀ other ∈ others, Admissible (tokensAt blob) budget other) →
        segments.length ≤ others.length) ∧
      ∀ {σ : Type} (dice : Dice σ) (s : σ),
        (all dice blob budget index s).batches.filter (·.key = key)
          <+: segments.map (packedAt blob key) ∧
        ((all dice blob budget index s).fault = none →
          (all dice blob budget index s).batches.filter (·.key = key)
            = segments.map (packedAt blob key))) ∧
    (Readable blob index →
      (∀ key segments, GreedyCut (tokensAt blob) budget (index.offsets key) segments →
        ∀ segment ∈ segments, BatchRecord.Fits (batchAt blob segment)) →
      ∀ {σ : Type} (dice : Dice σ) (s : σ), (all dice blob budget index s).fault = none) := by
  have hcoherent := hindex.coherent
  refine ⟨fun key => ?_, fun hread hfits {σ} dice s => ?_⟩
  · have hcut : GreedyCut (tokensAt blob) budget (index.offsets key) _ := cut_greedy _
    refine ⟨_, hcut.flatten_eq, fun segment hsegment => ?_, ?_, ?_, fun {σ} dice s => ⟨?_, ?_⟩⟩
    · obtain ⟨hne, hlets⟩ := hcut.letsIn segment hsegment
      exact ⟨hne, hlets.admissible hne⟩
    · intro before segment after hsplit longer hlonger hadmissible
      exact hcut.longest before segment after hsplit longer hlonger hadmissible.letsIn
    · intro others hflatten hadmissible
      have hend : index.offsets key <:+ others.flatten := ⟨[], by rw [List.nil_append, hflatten]⟩
      exact hcut.length_le_of_suffix (fun other hother => (hadmissible other hother).letsIn) hend
    · obtain ⟨last, hends⟩ := exists_ends dice blob budget index.total index s hcoherent
        (Nat.le_refl _)
      exact ⟨_, (hends.cut_eq hcoherent key).symm⟩
    · exact fun hfault => rounds_filter index.total index s hcoherent (Nat.le_refl _) hfault key
  · exact rounds_fault index.total index s hcoherent hread (Nat.le_refl _)
      fun key => hfits key _ (cut_greedy (index.offsets key))

/-- A bucket that holds one offset three times. -/
def thrice : Index := ((Index.empty.insert 5 0).insert 5 0).insert 5 0

theorem offsets_thrice (key : Nat) : thrice.offsets key = if 5 = key then [0, 0, 0] else [] := by
  simp only [thrice, Index.offsets_insert, Index.offsets_empty]
  by_cases hkey : 5 = key
  · simp [hkey]
  · simp [hkey]

/-- Three pairs of a token each need no more than two batches of two tokens, whatever the seed. -/
theorem three_pairs_in_two_batches :
    thrice.Made ∧ thrice.offsets 5 = [0, 0, 0] ∧ ∀ seed,
      ((all Keystream.dice onePairBlob 2 thrice (Keystream.ofSeed seed)).batches.filter
        (·.key = 5)).length ≤ 2 := by
  have hmade : thrice.Made := .insert 5 0 (.insert 5 0 (.insert 5 0 .empty))
  refine ⟨hmade, by rw [offsets_thrice, if_pos rfl], fun seed => ?_⟩
  obtain ⟨segments, -, -, -, hfewest, hbatches⟩ :=
    (buckets_are_packed_into_the_fewest_batches onePairBlob 2 hmade).1 5
  have hlength := (hbatches Keystream.dice (Keystream.ofSeed seed)).1.length_le
  have htwo : segments.length ≤ [[0, 0], [0]].length := by
    refine hfewest _ ?_ ?_
    · rw [offsets_thrice]
      rfl
    · have htokens : tokensAt onePairBlob 0 = 1 := rfl
      simp [Admissible, htokens]
  rw [List.length_map] at hlength
  exact hlength.trans htwo

end Bitext.Packing
