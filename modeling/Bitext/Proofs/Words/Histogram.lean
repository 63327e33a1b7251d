/-
Histograms in words.

Whatever a histogram does in words comes to what it does with exact numbers, put into words
afterwards.  This is so because a number never goes down on the way: one that does not fit stays a
number that does not fit, and one that has been taken modulo 2^64 gives the same word with whatever
is added to it.  So counting in words ends the program exactly if an exact count does not fit, and
reading off the rows exactly if a number in an exact row does not.

The rows in words therefore show the lengths that were recorded as long as their number and the ends
of their classes fit a word.  Beyond that they never do: either there are no rows, or a total that
is too small, or the interval of some length has lost its end.
-/
import Mathlib.Algebra.Order.BigOperators.Group.List
import Mathlib.Data.List.Forall2
import Bitext.Proofs.Histogram

namespace Bitext

open Overflow

variable {overflow : Overflow}

namespace Histogram

variable {h other kept : Histogram}

/-! ### A histogram with its counts in words -/

/-- All counts of the histogram fit a word. -/
def fits (h : Histogram) : Bool := h.counts.toList.all fun entry => entry.2 < wordSize

/-- The histogram with its counts modulo the size of a word. -/
def wrapped (h : Histogram) : Histogram := ⟨h.counts.map fun _ n => n % wordSize⟩

/-- The histogram with its counts in words, unless the program ends. -/
def inWords : Overflow → Histogram → Option Histogram
  | .ends, h => if h.fits then some h else none
  | .wraps, h => some h.wrapped

theorem fits_iff : h.fits = true ↔ ∀ c n : Nat, h.counts[c]? = some n → n < wordSize := by
  rw [fits, List.all_eq_true]
  constructor
  · intro hall c n hn
    simpa using hall (c, n) (Std.ExtTreeMap.mem_toList_iff_getElem?_eq_some.mpr hn)
  · intro hall entry hentry
    simpa using hall entry.1 entry.2 (Std.ExtTreeMap.mem_toList_iff_getElem?_eq_some.mp hentry)

theorem getElem?_wrapped (h : Histogram) (c : Nat) :
    h.wrapped.counts[c]? = h.counts[c]?.map (· % wordSize) :=
  Std.ExtTreeMap.getElem?_map

theorem wrapped_of_fits (hfits : h.fits = true) : h.wrapped = h := by
  refine ext_getElem? fun c => ?_
  rw [getElem?_wrapped]
  cases hn : h.counts[c]? with
  | none => rfl
  | some n => exact congrArg some (Nat.mod_eq_of_lt (fits_iff.mp hfits c n hn))

theorem inWords_of_fits (overflow : Overflow) (hfits : h.fits = true) :
    h.inWords overflow = some h := by
  cases overflow with
  | ends => exact if_pos hfits
  | wraps => exact congrArg some (wrapped_of_fits hfits)

theorem fits_of_inWords (hkept : h.inWords overflow = some kept) : kept.fits = true := by
  cases overflow with
  | ends =>
      rw [inWords] at hkept
      split at hkept
      · rename_i hfits
        exact Option.some.inj hkept ▸ hfits
      · cases hkept
  | wraps =>
      obtain rfl := Option.some.inj hkept
      rw [fits_iff]
      intro c n hn
      rw [getElem?_wrapped] at hn
      obtain ⟨m, -, rfl⟩ := Option.map_eq_some_iff.mp hn
      exact Nat.mod_lt m (by decide)

/-- A program that goes on to its end has counted exactly. -/
theorem eq_of_inWords_ends (hkept : h.inWords .ends = some kept) : kept = h := by
  rw [inWords] at hkept
  split at hkept
  · exact (Option.some.inj hkept).symm
  · cases hkept

theorem inWords_ends_of_not_fits (hfits : h.fits ≠ true) : h.inWords .ends = none := if_neg hfits

/-! ### Counting -/

/-- No count goes down when more is merged in. -/
theorem fits_of_merge (hfits : (h.merge other).fits = true) : h.fits = true := by
  rw [fits_iff] at hfits ⊢
  intro c n hn
  cases hother : other.counts[c]? with
  | none => exact hfits c n (by rw [getElem?_merge, hn, hother]; rfl)
  | some m =>
      have hsum := hfits c (n + m) (by rw [getElem?_merge, hn, hother]; rfl)
      omega

theorem wrapped_merge (h other : Histogram) :
    (h.wrapped.merge other).wrapped = (h.merge other).wrapped := by
  refine ext_getElem? fun c => ?_
  simp only [getElem?_wrapped, getElem?_merge]
  cases h.counts[c]? <;> cases other.counts[c]? <;> simp

/-- **Merging into a histogram in words is merging into the histogram.** -/
theorem inWords_bind_merge (overflow : Overflow) (h other : Histogram) :
    ((h.inWords overflow).bind fun h => (h.merge other).inWords overflow)
      = (h.merge other).inWords overflow := by
  cases overflow with
  | ends =>
      by_cases hfits : h.fits = true
      · rw [inWords_of_fits .ends hfits, Option.bind_some]
      · rw [inWords_ends_of_not_fits hfits, Option.bind_none,
          inWords_ends_of_not_fits fun hmerge => hfits (fits_of_merge hmerge)]
  | wraps => exact congrArg some (wrapped_merge h other)

theorem inWords_merge_eq_some_iff {last : Histogram} :
    (∃ kept, h.inWords overflow = some kept ∧ (kept.merge other).inWords overflow = some last)
      ↔ (h.merge other).inWords overflow = some last := by
  rw [← inWords_bind_merge, Option.bind_eq_some_iff]

/-- A class with a count, as a histogram. -/
theorem add_eq_merge (h : Histogram) (c n : Nat) : h.add c n = h.merge (empty.add c n) := by
  refine ext_getElem? fun d => ?_
  rw [getElem?_merge, getElem?_add, getElem?_add]
  simp [empty]

theorem addIn_of_fits (hfits : h.fits = true) (overflow : Overflow) (c n : Nat) :
    h.addIn overflow c n = (h.add c n).inWords overflow := by
  have hcount : ∀ d, d ≠ c → ∀ m, (h.add c n).counts[d]? = some m → m < wordSize := by
    intro d hd m hm
    rw [getElem?_add, if_neg (Ne.symm hd), Option.merge_none_right] at hm
    exact fits_iff.mp hfits d m hm
  have hown : (h.add c n).counts[c]? = some (h.count c + n) := by
    simp [add]
  cases overflow with
  | ends =>
      by_cases hword : h.count c + n < wordSize
      · have hsum : (h.add c n).fits = true := by
          rw [fits_iff]
          intro d m hm
          by_cases hd : d = c
          · subst hd
            exact Option.some.inj (hown.symm.trans hm) ▸ hword
          · exact hcount d hd m hm
        rw [addIn, word_of_lt _ hword, inWords_of_fits .ends hsum]
        rfl
      · have hsum : (h.add c n).fits ≠ true := fun hsum => hword (fits_iff.mp hsum c _ hown)
        rw [addIn, word_ends_eq_none_iff.mpr (Nat.le_of_not_lt hword),
          inWords_ends_of_not_fits hsum]
        rfl
  | wraps =>
      refine congrArg some (ext_getElem? fun d => ?_)
      rw [getElem?_wrapped]
      by_cases hd : d = c
      · subst hd
        simp [hown]
      · have hsame : (h.add c n).counts[d]? = h.counts[d]? := by
          simp [add, Std.ExtTreeMap.getElem?_insert, Ne.symm hd]
        rw [hsame, ← getElem?_wrapped, wrapped_of_fits hfits]
        simp [Std.ExtTreeMap.getElem?_insert, Ne.symm hd]

/-- Counting on top of a histogram in words is counting on top of the histogram. -/
theorem inWords_bind_addIn (overflow : Overflow) (h : Histogram) (c n : Nat) :
    ((h.inWords overflow).bind fun h => h.addIn overflow c n) = (h.add c n).inWords overflow := by
  rw [add_eq_merge, ← inWords_bind_merge]
  refine Option.bind_congr fun kept hkept => ?_
  rw [addIn_of_fits (fits_of_inWords hkept), add_eq_merge]

theorem inWords_bind_foldlM (overflow : Overflow) (entries : List (Nat × Nat)) (h : Histogram) :
    ((h.inWords overflow).bind fun h =>
        entries.foldlM (fun h entry => h.addIn overflow entry.1 entry.2) h)
      = (entries.foldl (fun h entry => h.add entry.1 entry.2) h).inWords overflow := by
  induction entries generalizing h with
  | nil => exact Option.bind_fun_some _
  | cons entry rest ih =>
      rw [List.foldl_cons, ← ih, ← inWords_bind_addIn, Option.bind_assoc]
      rfl

/-- **Merging in words is merging.** -/
theorem mergeIn_of_fits (hfits : h.fits = true) (overflow : Overflow) (other : Histogram) :
    h.mergeIn overflow other = (h.merge other).inWords overflow := by
  rw [merge, ← inWords_bind_foldlM, inWords_of_fits overflow hfits]
  rfl

theorem inWords_bind_mergeIn (overflow : Overflow) (h other : Histogram) :
    ((h.inWords overflow).bind fun h => (other.inWords overflow).bind fun other =>
        h.mergeIn overflow other)
      = (h.merge other).inWords overflow := by
  rw [← bind_bind_of_comm merge_comm (inWords_bind_merge overflow) h other]
  refine Option.bind_congr fun kept hkept => Option.bind_congr fun others _ => ?_
  exact mergeIn_of_fits (fits_of_inWords hkept) overflow others

/-! ### The total -/

/-- **Numbers that are added up in words come to their sum in a word.** -/
theorem foldlM_word (overflow : Overflow) (numbers : List Nat) (a : Nat) :
    ((overflow.word a).bind fun a => numbers.foldlM (fun a n => overflow.word (a + n)) a)
      = overflow.word (a + numbers.sum) := by
  induction numbers generalizing a with
  | nil =>
      rw [List.sum_nil, Nat.add_zero]
      exact Option.bind_fun_some _
  | cons n rest ih =>
      rw [List.sum_cons, ← Nat.add_assoc, ← ih, ← word_bind_add, Option.bind_assoc]
      rfl

theorem total_eq_sum (h : Histogram) : h.total = (h.counts.toList.map (·.2)).sum := rfl

theorem totalIn_eq (overflow : Overflow) (h : Histogram) :
    h.totalIn overflow = overflow.word h.total := by
  have hsum := foldlM_word overflow (h.counts.toList.map (·.2)) 0
  rw [word_of_lt overflow (by decide), Option.bind_some, Nat.zero_add] at hsum
  exact hsum

theorem le_total {entry : Nat × Nat} (hentry : entry ∈ h.counts.toList) : entry.2 ≤ h.total :=
  List.le_sum_of_mem (List.mem_map_of_mem hentry)

theorem fits_of_total_lt (htotal : h.total < wordSize) : h.fits = true := by
  rw [fits, List.all_eq_true]
  intro entry hentry
  have hle := le_total hentry
  exact decide_eq_true (Nat.lt_of_le_of_lt hle htotal)

theorem counts_wrapped (h : Histogram) :
    h.wrapped.counts.toList = h.counts.toList.map fun entry => (entry.1, entry.2 % wordSize) :=
  Std.ExtTreeMap.toList_map

/-- An entry and what is left of it in words. -/
def KeptEntry (overflow : Overflow) (entry kept : Nat × Nat) : Prop :=
  kept.1 = entry.1 ∧ overflow.word entry.2 = some kept.2

/-- When the total can be kept in a word, so can the counts, and they add up to it. -/
theorem exists_inWords {total : Nat} (htotal : overflow.word h.total = some total) :
    ∃ kept, h.inWords overflow = some kept ∧ kept.totalIn overflow = some total ∧
      List.Forall₂ (KeptEntry overflow) h.counts.toList kept.counts.toList := by
  cases overflow with
  | ends =>
      have hfits : h.total < wordSize := eq_of_word_ends htotal ▸ lt_of_word htotal
      refine ⟨h, inWords_of_fits .ends (fits_of_total_lt hfits), ?_, List.forall₂_same.mpr ?_⟩
      · rw [totalIn_eq, htotal]
      · intro entry hentry
        exact ⟨rfl, word_of_lt .ends (Nat.lt_of_le_of_lt (le_total hentry) hfits)⟩
  | wraps =>
      refine ⟨h.wrapped, rfl, ?_, ?_⟩
      · rw [totalIn_eq, ← htotal]
        refine congrArg some ?_
        rw [total_eq_sum, counts_wrapped, List.map_map, total_eq_sum, List.sum_nat_mod,
          List.sum_nat_mod (h.counts.toList.map (·.2)), List.map_map, List.map_map]
        simp [Function.comp_def]
      · rw [counts_wrapped, List.forall₂_map_right_iff, List.forall₂_same]
        intro entry _
        exact ⟨rfl, rfl⟩

/-- The total in words is that of the exact histogram. -/
theorem inWords_bind_totalIn (overflow : Overflow) (h : Histogram) :
    ((h.inWords overflow).bind fun h => h.totalIn overflow) = overflow.word h.total := by
  cases htotal : overflow.word h.total with
  | some total =>
      obtain ⟨kept, hkept, hsum, -⟩ := exists_inWords htotal
      rw [hkept, Option.bind_some, hsum]
  | none =>
      cases overflow with
      | ends =>
          rw [Option.bind_eq_none_iff]
          intro kept hkept
          rw [eq_of_inWords_ends hkept, totalIn_eq, htotal]
      | wraps => cases htotal

/-! ### The rows -/

end Histogram

/-- The row with its numbers in words, unless the program ends. -/
def HistogramRow.inWords (overflow : Overflow) (row : HistogramRow) : Option HistogramRow := do
  let start ← overflow.word row.start
  let stop ← overflow.word row.stop
  let count ← overflow.word row.count
  let accumulated ← overflow.word row.accumulated
  let total ← overflow.word row.total
  return ⟨start, stop, count, accumulated, total⟩

namespace Histogram

/-- The rows of entries in words are the rows of the entries, in words. -/
theorem rowsFromIn_eq {total before keptTotal keptBefore : Nat} {entries kept : List (Nat × Nat)}
    (htotal : overflow.word total = some keptTotal)
    (hbefore : overflow.word before = some keptBefore)
    (hentries : List.Forall₂ (KeptEntry overflow) entries kept) :
    rowsFromIn overflow keptTotal keptBefore kept
      = (rowsFrom total before entries).mapM (HistogramRow.inWords overflow) := by
  induction hentries generalizing before keptBefore with
  | nil => rfl
  | @cons entry keptEntry rest keptRest hentry _ ih =>
      obtain ⟨c, n⟩ := entry
      obtain ⟨d, m⟩ := keptEntry
      obtain ⟨rfl, hn⟩ : d = c ∧ overflow.word n = some m := hentry
      have hsum : overflow.word (keptBefore + m) = overflow.word (before + n) := by
        have hadd := word_bind_word_add overflow before n
        rwa [hbefore, hn] at hadd
      have hstop : ((overflow.word (d + 1)).bind fun next => overflow.word (next * classWidth))
          = overflow.word ((d + 1) * classWidth) :=
        word_bind_mul overflow (d + 1) (by decide)
      rw [rowsFromIn, rowsFrom, List.mapM_cons, HistogramRow.inWords]
      simp only [hsum, hn, htotal, ← hstop, bind, Option.bind_some]
      cases hacc : overflow.word (before + n) with
      | none => simp
      | some accumulated =>
          rw [Option.bind_some, ← ih hacc]
          simp [Option.bind_assoc]

theorem word_total_of_inWords {row kept : HistogramRow} (h : row.inWords overflow = some kept) :
    overflow.word row.total = some kept.total := by
  simp only [HistogramRow.inWords, bind, Option.bind_eq_some_iff] at h
  obtain ⟨_, _, _, _, _, _, _, _, total, htotal, hrow⟩ := h
  obtain rfl := Option.some.inj hrow
  exact htotal

/-- **The rows in words are the rows of the exact histogram, put into words.** -/
theorem inWords_bind_rowsIn (overflow : Overflow) (h : Histogram) :
    ((h.inWords overflow).bind (rowsIn overflow))
      = h.rows.mapM (HistogramRow.inWords overflow) := by
  cases htotal : overflow.word h.total with
  | some total =>
      obtain ⟨kept, hkept, hsum, hentries⟩ := exists_inWords htotal
      rw [hkept, Option.bind_some, rowsIn, hsum]
      exact rowsFromIn_eq htotal (word_of_lt overflow (by decide)) hentries
  | none =>
      -- the total is too large to be added up, and it is a part of every row
      have hleft : (h.inWords overflow).bind (rowsIn overflow) = none := by
        rw [Option.bind_eq_none_iff]
        intro kept hkept
        cases overflow with
        | ends =>
            rw [eq_of_inWords_ends hkept, rowsIn, totalIn_eq, htotal]
            rfl
        | wraps => cases htotal
      rw [hleft, rows]
      cases hentries : h.counts.toList with
      | nil =>
          rw [total_eq_sum, hentries, word_of_lt overflow (by decide)] at htotal
          cases htotal
      | cons entry rest =>
          rw [rowsFrom, List.mapM_cons]
          cases hrow : HistogramRow.inWords overflow _ with
          | none => rfl
          | some row =>
              rw [word_total_of_inWords hrow] at htotal
              cases htotal

end Histogram

/-! ### Histograms that are reached -/

/-- How a histogram came about. -/
inductive Recording where
  | empty
  /-- A length was recorded. -/
  | recorded (recording : Recording) (length : Nat)
  /-- Another histogram was merged in. -/
  | merged (recording other : Recording)

namespace Recording

/-- The lengths that were recorded, in this histogram or in one that was merged in. -/
def lengths : Recording → List Nat
  | empty => []
  | recorded recording length => recording.lengths ++ [length]
  | merged recording other => recording.lengths ++ other.lengths

/-- The histogram that a recording comes to. -/
def histogram : Recording → Histogram
  | empty => .empty
  | recorded recording length => recording.histogram.record length
  | merged recording other => recording.histogram.merge other.histogram

/-- The histogram that a recording comes to in words. -/
def histogramIn (overflow : Overflow) : Recording → Option Histogram
  | empty => some .empty
  | recorded recording length => do (← recording.histogramIn overflow).recordIn overflow length
  | merged recording other => do
      let histogram ← recording.histogramIn overflow
      histogram.mergeIn overflow (← other.histogramIn overflow)

/-- The total of the histogram, in words. -/
def totalIn (overflow : Overflow) (recording : Recording) : Option Nat := do
  (← recording.histogramIn overflow).totalIn overflow

/-- The rows of the histogram, in words. -/
def rowsIn (overflow : Overflow) (recording : Recording) : Option (List HistogramRow) := do
  (← recording.histogramIn overflow).rowsIn overflow

theorem shows (recording : Recording) : recording.histogram.Shows recording.lengths := by
  induction recording with
  | empty => exact Histogram.shows_empty
  | recorded _ length ih => exact ih.record length
  | merged _ _ ih ihOther => exact ih.merge ihOther

/-- **Counting in words is counting.** -/
theorem histogramIn_eq (overflow : Overflow) (recording : Recording) :
    recording.histogramIn overflow = recording.histogram.inWords overflow := by
  induction recording with
  | empty => exact (Histogram.inWords_of_fits overflow (by decide)).symm
  | recorded recording length ih =>
      rw [histogramIn, ih]
      exact Histogram.inWords_bind_addIn overflow recording.histogram _ 1
  | merged recording other ih ihOther =>
      rw [histogramIn, ih, ihOther]
      exact Histogram.inWords_bind_mergeIn overflow recording.histogram other.histogram

theorem totalIn_eq (overflow : Overflow) (recording : Recording) :
    recording.totalIn overflow = overflow.word recording.lengths.length := by
  rw [totalIn, histogramIn_eq, ← recording.shows.total]
  exact Histogram.inWords_bind_totalIn overflow recording.histogram

theorem rowsIn_eq (overflow : Overflow) (recording : Recording) :
    recording.rowsIn overflow
      = recording.histogram.rows.mapM (HistogramRow.inWords overflow) := by
  rw [rowsIn, histogramIn_eq]
  exact Histogram.inWords_bind_rowsIn overflow recording.histogram

/-! ### When the rows in words are right -/

end Recording

/-- All numbers of the row fit a word. -/
def HistogramRow.Fits (row : HistogramRow) : Prop :=
  row.start < wordSize ∧ row.stop < wordSize ∧ row.count < wordSize ∧
    row.accumulated < wordSize ∧ row.total < wordSize

theorem HistogramRow.Fits.inWords {row : HistogramRow} (hfits : row.Fits) (overflow : Overflow) :
    row.inWords overflow = some row := by
  obtain ⟨hstart, hstop, hcount, haccumulated, htotal⟩ := hfits
  simp [HistogramRow.inWords, word_of_lt overflow, hstart, hstop, hcount, haccumulated, htotal]

theorem HistogramRow.mapM_inWords {rows : List HistogramRow} (hfits : ∀ row ∈ rows, row.Fits)
    (overflow : Overflow) : rows.mapM (HistogramRow.inWords overflow) = some rows := by
  induction rows with
  | nil => rfl
  | cons row rest ih =>
      obtain ⟨hrow, hrest⟩ := List.forall_mem_cons.mp hfits
      rw [List.mapM_cons, hrow.inWords, ih hrest]
      rfl

/-- The end of a row in words fits a word, whatever has become of it. -/
theorem HistogramRow.stop_lt_of_mapM {rows kept : List HistogramRow}
    (h : rows.mapM (HistogramRow.inWords overflow) = some kept) :
    ∀ row ∈ kept, row.stop < wordSize := by
  induction rows generalizing kept with
  | nil =>
      obtain rfl := Option.some.inj h
      simp
  | cons first rest ih =>
      simp only [List.mapM_cons, bind, Option.bind_eq_some_iff] at h
      obtain ⟨row, hrow, later, hlater, hkept⟩ := h
      obtain rfl := Option.some.inj hkept
      simp only [HistogramRow.inWords, bind, Option.bind_eq_some_iff] at hrow
      obtain ⟨_, _, stop, hstop, _, _, _, _, _, _, hrow⟩ := hrow
      obtain rfl := Option.some.inj hrow
      exact List.forall_mem_cons.mpr ⟨lt_of_word hstop, ih hlater⟩

namespace Recording

variable {recording : Recording}

/-- The numbers of the exact rows fit when there are not too many lengths and their classes end in
time. -/
theorem fits_rows (hmany : recording.lengths.length < wordSize)
    (hlong : ∀ n ∈ recording.lengths, 100 * (n / 100) + 100 < wordSize) :
    ∀ row ∈ recording.histogram.rows, row.Fits := by
  intro row hrow
  obtain ⟨hcount, haccumulated, htotal⟩ := Histogram.le_of_mem_rowsFrom hrow
  rw [← Histogram.total_eq_sum, Nat.zero_add, recording.shows.total] at haccumulated
  rw [recording.shows.total] at htotal
  obtain ⟨entry, hentry, hstart, hstop, -⟩ := Histogram.mem_rowsFrom hrow
  have hclass : entry.1 ∈ recording.lengths.map Histogram.classOf :=
    (recording.shows.mem_iff entry.1).mp (List.mem_map_of_mem hentry)
  obtain ⟨n, hn, hown⟩ := List.mem_map.mp hclass
  have hend := hlong n hn
  have hlast : row.stop = 100 * (n / 100) + 100 := by
    rw [hstop, ← hown]
    rfl
  have hfirst : row.start ≤ row.stop := by
    rw [hstart, hstop]
    exact Nat.le_add_right _ _
  exact ⟨by omega, by omega, by omega, by omega, by omega⟩

/-- **The rows in words show the lengths exactly as long as they can.**  There are a total and rows
that show the lengths if and only if the number of lengths fits a word and the end of the class of
every length does; and then the total is that number. -/
theorem rowsOf_iff (overflow : Overflow) (recording : Recording) :
    (∃ total rows, recording.totalIn overflow = some total ∧
        recording.rowsIn overflow = some rows ∧
        Histogram.RowsOf recording.lengths total rows) ↔
      recording.lengths.length < wordSize ∧
        ∀ n ∈ recording.lengths, 100 * (n / 100) + 100 < wordSize := by
  constructor
  · rintro ⟨total, rows, htotal, hrows, hshown⟩
    rw [totalIn_eq] at htotal
    rw [rowsIn_eq] at hrows
    refine ⟨hshown.total_eq ▸ lt_of_word htotal, fun n hn => ?_⟩
    obtain ⟨row, ⟨hrow, hin⟩, -⟩ := hshown.found n hn
    obtain ⟨c, hstart, hstop⟩ := hshown.interval row hrow
    have hend := HistogramRow.stop_lt_of_mapM hrows row hrow
    omega
  · rintro ⟨hmany, hlong⟩
    refine ⟨recording.lengths.length, recording.histogram.rows, ?_, ?_, ?_⟩
    · rw [totalIn_eq, word_of_lt overflow hmany]
    · rw [rowsIn_eq, HistogramRow.mapM_inWords (fits_rows hmany hlong)]
    · have hrows := recording.shows.rowsOf
      rwa [recording.shows.total] at hrows

end Recording

end Bitext
