/-
What the rows of a histogram show.

A histogram can be made by recording lengths and by merging in other histograms, and either way it
is a histogram of some lengths: the count of a class is the number of lengths in it, and there are
no classes without lengths.  This settles what the rows are.  They stand in class order, so the
intervals ascend and do not meet; each length lies in one of them, and a row counts the lengths
that lie in its own.  What is counted up to a row is carried from row to row, so that the last one
comes to the total.
-/
import Bitext.Proofs.Occurrences
import Bitext.Proofs.Tally

namespace Bitext

namespace Histogram

/-! ### Histograms of lengths -/

/-- The class of a length. -/
def classOf (length : Nat) : Nat := length / classWidth

/-- A histogram in which the given lengths are counted and nothing else. -/
structure Shows (h : Histogram) (lengths : List Nat) : Prop where
  count : ∀ c, h.count c = (lengths.map classOf).count c
  /-- A class that nothing was counted in is not there. -/
  positive : ∀ c n : Nat, h.counts[c]? = some n → 0 < n

variable {h other : Histogram} {lengths others : List Nat}

theorem count_eq_getD (h : Histogram) (c : Nat) : h.count c = h.counts[c]?.getD 0 := by
  rw [count, Std.ExtTreeMap.getD_eq_getD_getElem?]

theorem count_merge (h other : Histogram) (c : Nat) :
    (h.merge other).count c = h.count c + other.count c := by
  simp only [count_eq_getD, getElem?_merge]
  cases h.counts[c]? <;> cases other.counts[c]? <;> simp

theorem getElem?_record_empty (length c : Nat) :
    (empty.record length).counts[c]? = if classOf length = c then some 1 else none := by
  unfold record
  rw [getElem?_add]
  by_cases hc : classOf length = c
  · have hin : length / classWidth = c := hc
    simp [empty, hc, hin]
  · have hout : ¬length / classWidth = c := hc
    simp [empty, hc, hout]

theorem shows_empty : Shows empty [] := by
  refine ⟨?_, ?_⟩
  · intro c
    simp [count_eq_getD, empty]
  · intro c n hn
    simp [empty] at hn

theorem shows_single (length : Nat) : Shows (empty.record length) [length] := by
  refine ⟨?_, ?_⟩
  · intro c
    rw [count_eq_getD, getElem?_record_empty]
    by_cases hc : classOf length = c <;> simp [hc]
  · intro c n hn
    rw [getElem?_record_empty] at hn
    split at hn
    · obtain rfl := Option.some.inj hn
      exact Nat.one_pos
    · simp at hn

/-- Merging shows the lengths of both histograms. -/
theorem Shows.merge (h₁ : Shows h lengths) (h₂ : Shows other others) :
    Shows (h.merge other) (lengths ++ others) := by
  refine ⟨?_, ?_⟩
  · intro c
    rw [count_merge, h₁.count, h₂.count, List.map_append, List.count_append]
  · intro c n hn
    rw [getElem?_merge] at hn
    cases hleft : h.counts[c]? with
    | none =>
        have hright : other.counts[c]? = some n := by simpa [hleft] using hn
        exact h₂.positive c n hright
    | some m =>
        have hm := h₁.positive c m hleft
        cases hright : other.counts[c]? with
        | none =>
            obtain rfl : m = n := by simpa [hleft, hright] using hn
            exact hm
        | some k =>
            obtain rfl : m + k = n := by simpa [hleft, hright] using hn
            omega

theorem Shows.record (hshows : Shows h lengths) (length : Nat) :
    Shows (h.record length) (lengths ++ [length]) := by
  rw [record_eq_merge]
  exact hshows.merge (shows_single length)

/-! ### The classes -/

theorem Shows.countsOf (hshows : Shows h lengths) : CountsOf h.counts (lengths.map classOf) := by
  intro c
  have hcount := hshows.count c
  rw [count_eq_getD] at hcount
  cases hn : h.counts[c]? with
  | none =>
      rw [hn, Option.getD_none] at hcount
      rw [if_neg (List.count_eq_zero.mp hcount.symm)]
  | some n =>
      rw [hn, Option.getD_some] at hcount
      have hmem : c ∈ lengths.map classOf := by
        rw [← List.count_pos_iff, ← hcount]
        exact hshows.positive c n hn
      rw [if_pos hmem, hcount]

/-- Exactly the classes of the lengths are there. -/
theorem Shows.mem_iff (hshows : Shows h lengths) (c : Nat) :
    c ∈ h.counts.toList.map (·.1) ↔ c ∈ lengths.map classOf := by
  rw [List.mem_map]
  constructor
  · rintro ⟨⟨d, n⟩, hmem, rfl⟩
    exact (hshows.countsOf.mem_toList_iff.mp hmem).1
  · intro hmem
    exact ⟨(c, _), hshows.countsOf.mem_toList_iff.mpr ⟨hmem, rfl⟩, rfl⟩

theorem Shows.of_mem (hshows : Shows h lengths) {c n : Nat} (hmem : (c, n) ∈ h.counts.toList) :
    n = (lengths.map classOf).count c ∧ 0 < n := by
  obtain ⟨hclass, rfl⟩ := hshows.countsOf.mem_toList_iff.mp hmem
  exact ⟨rfl, List.count_pos_iff.mpr hclass⟩

/-- Classes come in ascending order. -/
theorem pairwise_entries (h : Histogram) : h.counts.toList.Pairwise (fun a b => a.1 < b.1) :=
  h.counts.ordered_keys_toList.imp fun hless => Nat.compare_eq_lt.mp hless

/-- **The total is the number of lengths.** -/
theorem Shows.total (hshows : Shows h lengths) : h.total = lengths.length := by
  rw [← List.length_map (f := classOf), ← hshows.countsOf.sum_eq, Histogram.total]
  rfl

/-! ### The rows -/

section rows

variable {total before : Nat} {entries : List (Nat × Nat)}

theorem mem_rowsFrom {row : HistogramRow} (hrow : row ∈ rowsFrom total before entries) :
    ∃ entry ∈ entries, row.start = classWidth * entry.1 ∧
      row.stop = classWidth * entry.1 + classWidth ∧ row.count = entry.2 := by
  induction entries generalizing before with
  | nil => simp [rowsFrom] at hrow
  | cons entry rest ih =>
      rcases List.mem_cons.mp hrow with rfl | hrow
      · refine ⟨entry, by simp, Nat.mul_comm _ _, ?_, rfl⟩
        show (entry.1 + 1) * classWidth = _
        rw [Nat.succ_mul, Nat.mul_comm]
      · obtain ⟨later, hlater, hfields⟩ := ih hrow
        exact ⟨later, List.mem_cons_of_mem entry hlater, hfields⟩

theorem exists_mem_rowsFrom {entry : Nat × Nat} (hentry : entry ∈ entries) :
    ∃ row ∈ rowsFrom total before entries, row.start = classWidth * entry.1 := by
  induction entries generalizing before with
  | nil => simp at hentry
  | cons first rest ih =>
      rcases List.mem_cons.mp hentry with rfl | hentry
      · exact ⟨_, List.mem_cons_self, Nat.mul_comm _ _⟩
      · obtain ⟨row, hrow, hstart⟩ :
            ∃ row ∈ rowsFrom total (before + first.2) rest, row.start = classWidth * entry.1 :=
          ih hentry
        exact ⟨row, List.mem_cons_of_mem _ hrow, hstart⟩

theorem counts_rowsFrom : (rowsFrom total before entries).map (·.count) = entries.map (·.2) := by
  induction entries generalizing before with
  | nil => rfl
  | cons entry rest ih => rw [rowsFrom, List.map_cons, ih, List.map_cons]

/-- A row counts no more than is counted up to it, and that is no more than everything. -/
theorem le_of_mem_rowsFrom {row : HistogramRow} (hrow : row ∈ rowsFrom total before entries) :
    row.count ≤ row.accumulated ∧ row.accumulated ≤ before + (entries.map (·.2)).sum ∧
      row.total = total := by
  induction entries generalizing before with
  | nil => simp [rowsFrom] at hrow
  | cons entry rest ih =>
      rw [List.map_cons, List.sum_cons, ← Nat.add_assoc]
      rcases List.mem_cons.mp hrow with rfl | hrow
      · exact ⟨Nat.le_add_left _ _, Nat.le_add_right _ _, rfl⟩
      · exact ih hrow

/-- Rows of ascending classes do not meet. -/
theorem pairwise_rowsFrom (hascend : entries.Pairwise (fun a b => a.1 < b.1)) :
    (rowsFrom total before entries).Pairwise (fun row next => row.stop ≤ next.start) := by
  induction entries generalizing before with
  | nil => exact .nil
  | cons entry rest ih =>
      obtain ⟨hfirst, hrest⟩ := List.pairwise_cons.mp hascend
      refine .cons ?_ (ih hrest)
      intro next hnext
      obtain ⟨later, hlater, hstart, -⟩ := mem_rowsFrom hnext
      rw [hstart, Nat.mul_comm classWidth]
      exact Nat.mul_le_mul_right classWidth (hfirst later hlater)

/-- What the last row has counted is what was counted before the rows and all their counts. -/
theorem accumulated_of_getLast? {row : HistogramRow}
    (hlast : (rowsFrom total before entries).getLast? = some row) :
    row.accumulated = before + (entries.map (·.2)).sum := by
  induction entries generalizing before with
  | nil => simp [rowsFrom] at hlast
  | cons entry rest ih =>
      rw [List.map_cons, List.sum_cons, ← Nat.add_assoc]
      cases rest with
      | nil =>
          obtain rfl := Option.some.inj hlast
          rfl
      | cons next later => exact ih hlast

end rows

theorem disjoint_rows (h : Histogram) :
    h.rows.Pairwise (fun row next => row.stop ≤ next.start) :=
  pairwise_rowsFrom (pairwise_entries h)

/-- The rows of a histogram of the given lengths. -/
structure RowsOf (lengths : List Nat) (total : Nat) (rows : List HistogramRow) : Prop where
  /-- The interval of a row is a class of a hundred lengths. -/
  interval : ∀ row ∈ rows, ∃ c, row.start = 100 * c ∧ row.stop = 100 * c + 100
  ascending : rows.Pairwise (fun row next => row.start < next.start)
  disjoint : rows.Pairwise (fun row next => row.stop ≤ next.start)
  positive : ∀ row ∈ rows, 0 < row.count
  sum : (rows.map (·.count)).sum = total
  /-- A row counts the lengths in its interval, -/
  counted : ∀ row ∈ rows, row.count = lengths.countP fun n => row.start ≤ n ∧ n < row.stop
  /-- and every length lies in the interval of one row. -/
  found : ∀ n ∈ lengths, ∃! row, row ∈ rows ∧ row.start ≤ n ∧ n < row.stop
  /-- What is counted up to the last row is the total. -/
  last : ∀ row, rows.getLast? = some row → row.accumulated = total

theorem classOf_eq_iff {length c : Nat} :
    classOf length = c ↔ classWidth * c ≤ length ∧ length < classWidth * c + classWidth := by
  unfold classOf classWidth
  omega

/-- Of rows that do not meet, only one holds a length. -/
theorem eq_of_disjoint {rows : List HistogramRow} {n : Nat}
    (hdisjoint : rows.Pairwise (fun row next => row.stop ≤ next.start)) {row next : HistogramRow}
    (hrow : row ∈ rows) (hnext : next ∈ rows) (hin : row.start ≤ n ∧ n < row.stop)
    (hother : next.start ≤ n ∧ n < next.stop) : row = next := by
  induction rows with
  | nil => simp at hrow
  | cons first rest ih =>
      obtain ⟨hfirst, hrest⟩ := List.pairwise_cons.mp hdisjoint
      rcases List.mem_cons.mp hrow with heq | hlater
      · rcases List.mem_cons.mp hnext with hsame | hbehind
        · rw [heq, hsame]
        · have hapart := hfirst next hbehind
          rw [heq] at hin
          omega
      · rcases List.mem_cons.mp hnext with hsame | hbehind
        · have hapart := hfirst row hlater
          rw [hsame] at hother
          omega
        · exact ih hrest hlater hbehind

/-- **The rows of a histogram show its lengths.** -/
theorem Shows.rowsOf (hshows : Shows h lengths) : RowsOf lengths h.total h.rows where
  interval := by
    intro row hrow
    obtain ⟨entry, -, hstart, hstop, -⟩ := mem_rowsFrom hrow
    exact ⟨entry.1, hstart, hstop⟩
  ascending := by
    refine (disjoint_rows h).imp_of_mem fun hrow _ hle => ?_
    obtain ⟨entry, -, hstart, hstop, -⟩ := mem_rowsFrom hrow
    unfold classWidth at hstart hstop
    omega
  disjoint := disjoint_rows h
  positive := by
    intro row hrow
    obtain ⟨entry, hentry, -, -, hcount⟩ := mem_rowsFrom hrow
    rw [hcount]
    exact (hshows.of_mem hentry).2
  sum := by
    rw [rows, counts_rowsFrom]
    rfl
  counted := by
    intro row hrow
    obtain ⟨entry, hentry, hstart, hstop, hcount⟩ := mem_rowsFrom hrow
    rw [hcount, (hshows.of_mem hentry).1, List.count_eq_countP, List.countP_map]
    refine List.countP_congr fun n _ => ?_
    simp only [Function.comp_apply, beq_iff_eq, decide_eq_true_eq]
    rw [classOf_eq_iff, hstart, hstop]
  found := by
    intro n hn
    have hclass : classOf n ∈ h.counts.toList.map (·.1) :=
      (hshows.mem_iff _).mpr (List.mem_map_of_mem hn)
    obtain ⟨entry, hentry, heq⟩ := List.mem_map.mp hclass
    obtain ⟨row, hrow, hstart⟩ : ∃ row ∈ h.rows, row.start = classWidth * entry.1 :=
      exists_mem_rowsFrom hentry
    have hin : row.start ≤ n ∧ n < row.stop := by
      obtain ⟨own, -, hown, hstop, -⟩ := mem_rowsFrom hrow
      rw [hstop, ← hown, hstart]
      exact classOf_eq_iff.mp heq.symm
    refine ⟨row, ⟨hrow, hin⟩, ?_⟩
    rintro next ⟨hnext, hother⟩
    exact eq_of_disjoint (disjoint_rows h) hnext hrow hother hin
  last := by
    intro row hlast
    rw [accumulated_of_getLast? hlast, Nat.zero_add]
    rfl

/-- A number that lies in one of several rows lies in no other. -/
theorem countP_rows {rows : List HistogramRow} {n : Nat}
    (hdisjoint : rows.Pairwise (fun row next => row.stop ≤ next.start)) {row : HistogramRow}
    (hrow : row ∈ rows) (hin : row.start ≤ n ∧ n < row.stop) :
    rows.countP (fun row => row.start ≤ n ∧ n < row.stop) = 1 := by
  induction rows with
  | nil => simp at hrow
  | cons first rest ih =>
      obtain ⟨hfirst, hrest⟩ := List.pairwise_cons.mp hdisjoint
      rw [List.countP_cons]
      by_cases hown : first.start ≤ n ∧ n < first.stop
      · have hlater : rest.countP (fun row => row.start ≤ n ∧ n < row.stop) = 0 := by
          rw [List.countP_eq_zero]
          intro next hnext
          have hapart := hfirst next hnext
          simp only [decide_eq_true_eq]
          omega
        rw [hlater]
        simp [hown]
      · rcases List.mem_cons.mp hrow with rfl | hbehind
        · exact absurd hin hown
        · rw [ih hrest hbehind]
          simp [hown]

theorem sum_countP_cons (rows : List HistogramRow) (n : Nat) (rest : List Nat) :
    (rows.map fun row => (n :: rest).countP fun n => row.start ≤ n ∧ n < row.stop).sum
      = (rows.map fun row => rest.countP fun n => row.start ≤ n ∧ n < row.stop).sum
        + rows.countP (fun row => row.start ≤ n ∧ n < row.stop) := by
  induction rows with
  | nil => rfl
  | cons row later ih =>
      rw [List.map_cons, List.sum_cons, ih, List.map_cons, List.sum_cons, List.countP_cons,
        List.countP_cons]
      omega

/-- Rows in which every length is counted once add up to the number of lengths. -/
theorem sum_countP_rows {rows : List HistogramRow}
    (hdisjoint : rows.Pairwise (fun row next => row.stop ≤ next.start))
    (hfound : ∀ n ∈ lengths, ∃ row ∈ rows, row.start ≤ n ∧ n < row.stop) :
    (rows.map fun row => lengths.countP fun n => row.start ≤ n ∧ n < row.stop).sum
      = lengths.length := by
  induction lengths with
  | nil => simp
  | cons n rest ih =>
      obtain ⟨row, hrow, hin⟩ := hfound n List.mem_cons_self
      rw [sum_countP_cons, countP_rows hdisjoint hrow hin,
        ih fun later hlater => hfound later (List.mem_cons_of_mem n hlater), List.length_cons]

/-- **The total of the rows is the number of lengths.** -/
theorem RowsOf.total_eq {total : Nat} {rows : List HistogramRow}
    (hrows : RowsOf lengths total rows) : total = lengths.length := by
  rw [← hrows.sum, ← sum_countP_rows hrows.disjoint fun n hn => (hrows.found n hn).exists]
  exact congrArg List.sum (List.map_congr_left hrows.counted)

/-- Three lengths that were recorded, and one that was merged in. -/
example : (([5, 50, 150].foldl record empty).merge (empty.record 99)).rows
    = [⟨0, 100, 3, 3, 4⟩, ⟨100, 200, 1, 4, 4⟩] := by
  decide

end Histogram

end Bitext
