/-
Words are the longest runs without a blank.

The words of a text are found by cutting it at every blank and leaving out the empty pieces.  Said
from the other side, a text is words and gaps in turn: the gaps are blanks, the words hold none,
and behind a word there is a blank or the end, so that a word goes as far as it can.  Every text can
be taken apart like that and in one way only, and cutting finds that way.
-/
import Bitext.Proofs.Text.Line

namespace Bitext.Text

/-! ### Blanks -/

/-- The code points that Unicode gives the property White_Space. -/
def whiteSpace : List Nat :=
  [0x0009, 0x000A, 0x000B, 0x000C, 0x000D, 0x0020, 0x0085, 0x00A0, 0x1680,
   0x2000, 0x2001, 0x2002, 0x2003, 0x2004, 0x2005, 0x2006, 0x2007, 0x2008, 0x2009, 0x200A,
   0x2028, 0x2029, 0x202F, 0x205F, 0x3000]

/-- A blank is a character of White_Space. -/
theorem isBlank_iff_mem_whiteSpace (c : Char) : isBlank c = true ↔ c.toNat ∈ whiteSpace := by
  simp only [isBlank, blankRanges, Ranges.has, whiteSpace, List.any_cons, List.any_nil,
    Bool.or_eq_true, Bool.and_eq_true, decide_eq_true_eq, Bool.or_false, List.mem_cons,
    List.not_mem_nil, or_false]
  omega

/-! ### Gaps -/

/-- Nothing but blanks. -/
def IsGap (gap : List Char) : Prop := ∀ c ∈ gap, isBlank c = true

theorem isGap_cons {c : Char} {gap : List Char} (hblank : isBlank c = true) (h : IsGap gap) :
    IsGap (c :: gap) := by
  intro d hd
  rcases List.mem_cons.mp hd with rfl | hd
  · exact hblank
  · exact h d hd

theorem words_cons_of_isBlank {c : Char} (h : isBlank c = true) (text : List Char) :
    words (c :: text) = words text := by
  have hparted := words_append_cons h [] text
  simpa [words] using hparted

theorem words_gap_append {gap : List Char} (h : IsGap gap) (text : List Char) :
    words (gap ++ text) = words text := by
  induction gap with
  | nil => rfl
  | cons c rest ih =>
      rw [List.cons_append, words_cons_of_isBlank (h c (by simp)),
        ih fun d hd => h d (List.mem_cons_of_mem c hd)]

theorem words_of_isGap {gap : List Char} (h : IsGap gap) : words gap = [] := by
  have hbefore := words_gap_append h []
  rw [List.append_nil] at hbefore
  rw [hbefore]
  simp [words]

/-! ### Words and gaps in turn -/

/-- A text in which the given words stand, with gaps before, between and behind them. -/
inductive Spaced : List Char → List (List Char) → Prop
  | gap {gap : List Char} (hgap : IsGap gap) : Spaced gap []
  | word {gap word rest : List Char} {found : List (List Char)} (hgap : IsGap gap)
      (hword : IsWord word) (hends : ∀ c ∈ rest.head?, isBlank c = true)
      (hrest : Spaced rest found) : Spaced (gap ++ (word ++ rest)) (word :: found)

/-- Cutting a text finds the words that stand in it. -/
theorem Spaced.words_eq {text : List Char} {found : List (List Char)} (h : Spaced text found) :
    words text = found := by
  induction h with
  | gap hgap => exact words_of_isGap hgap
  | @word gap word rest found hgap hword hends _ ih =>
      rw [words_gap_append hgap]
      cases rest with
      | nil =>
          rw [List.append_nil, words_of_isWord hword, ← ih]
          simp [words]
      | cons c behind =>
          have hblank : isBlank c = true := hends c (by simp)
          rw [words_append_cons hblank, words_of_isWord hword, ← ih,
            words_cons_of_isBlank hblank, List.singleton_append]

/-- A blank in front only makes the first gap longer. -/
theorem Spaced.cons_blank {c : Char} {text : List Char} {found : List (List Char)}
    (hblank : isBlank c = true) (h : Spaced text found) : Spaced (c :: text) found := by
  cases h with
  | gap hgap => exact .gap (isGap_cons hblank hgap)
  | word hgap hword hends hrest => exact .word (isGap_cons hblank hgap) hword hends hrest

/-- A character in front that is not blank makes the first word longer, or is a word of its own
when the text begins with a gap. -/
theorem Spaced.cons_letter {c : Char} {text : List Char} {found : List (List Char)}
    (hletter : isBlank c = false) (h : Spaced text found) :
    ∃ longer, Spaced (c :: text) longer := by
  have hself : IsWord [c] := ⟨by simp, by simpa using hletter⟩
  have hnone : IsGap [] := by simp [IsGap]
  cases h with
  | gap hgap =>
      have hends : ∀ d ∈ text.head?, isBlank d = true := fun d hd =>
        hgap d (List.mem_of_mem_head? hd)
      exact ⟨_, .word hnone hself hends (.gap hgap)⟩
  | @word gap word rest found hgap hword hends hrest =>
      cases gap with
      | nil =>
          have hlonger : IsWord (c :: word) :=
            ⟨by simp, by simpa [hletter] using hword.2⟩
          exact ⟨_, .word hnone hlonger hends hrest⟩
      | cons d gap =>
          have hstart : ∀ b ∈ (d :: gap ++ (word ++ rest)).head?, isBlank b = true := by
            intro b hb
            obtain rfl : d = b := by simpa using hb
            exact hgap d (by simp)
          exact ⟨_, .word hnone hself hstart (.word hgap hword hends hrest)⟩

/-- Every text is words and gaps in turn. -/
theorem exists_spaced (text : List Char) : ∃ found, Spaced text found := by
  induction text with
  | nil => exact ⟨[], .gap (by simp [IsGap])⟩
  | cons c rest ih =>
      obtain ⟨found, hfound⟩ := ih
      cases hblank : isBlank c with
      | true => exact ⟨found, hfound.cons_blank hblank⟩
      | false => exact hfound.cons_letter hblank

/-- **The words of a text are the longest runs without a blank.** -/
theorem words_eq_iff {text : List Char} {found : List (List Char)} :
    words text = found ↔ Spaced text found := by
  constructor
  · rintro rfl
    obtain ⟨found, hfound⟩ := exists_spaced text
    rw [hfound.words_eq]
    exact hfound
  · exact Spaced.words_eq

end Bitext.Text
