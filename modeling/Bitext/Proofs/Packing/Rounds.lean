/-
The rounds of a packing.

A packing draws a key, takes a batch from its bucket and goes on, until no key is drawn or
something is in the way.  `Ends` is this loop, without a bound on its rounds.  Every batch takes
something away, so the loop comes to an end, and as many rounds as there are offsets show it.

While the packing goes on, the batches that are still to come from a bucket are the cut of what
the bucket still holds.  So wherever it ends, the batches that have come from a bucket and the
cut of what is left there are together the cut of what the bucket held in the beginning, and the
pairs that were packed and the offsets that are left are together the offsets that there were.
-/
import Bitext.Proofs.Packing.Buckets

namespace Bitext.Packing

section rounds

variable {σ : Type} {dice : Dice σ} {blob : Blob} {budget : Nat} {index last : Index} {s : σ}
  {packed : Packed}

/-- A packing ends when no key is drawn, or when something is in the way of the batch that was
drawn; what was left by then is its last index. -/
inductive Ends (dice : Dice σ) (blob : Blob) (budget : Nat) :
    Index → σ → Packed → Index → Prop where
  | drained {index : Index} {s s' : σ} : index.select dice s = (none, s') →
      Ends dice blob budget index s ⟨[], none⟩ index
  | stopped {index : Index} {s s' : σ} {key : Nat} {fault : Fault} :
      index.select dice s = (some key, s') → next blob budget index key = .error fault →
      Ends dice blob budget index s ⟨[], some fault⟩ index
  | packed {index left last : Index} {s s' : σ} {key : Nat} {first : PackedBatch}
      {others : Packed} :
      index.select dice s = (some key, s') → next blob budget index key = .ok (first, left) →
      Ends dice blob budget left s' others last →
      Ends dice blob budget index s ⟨first :: others.batches, others.fault⟩ last

/-- A batch that comes next was taken from the bucket that was drawn. -/
theorem exists_takesFrom {left : Index} {s' : σ} {key : Nat} {first : PackedBatch}
    (hindex : index.Coherent) (hselect : index.select dice s = (some key, s'))
    (hnext : next blob budget index key = .ok (first, left)) :
    ∃ segment, TakesFrom blob budget key segment index left ∧
      first = packedAt blob key segment := by
  have hspec := next_spec blob budget hindex (hindex.offsets_ne_nil_of_select hselect)
  rw [hnext] at hspec
  exact hspec

/-- An index without offsets packs to nothing. -/
theorem rounds_of_total_zero (h : index.total = 0) (n : Nat) (s : σ) :
    rounds dice blob budget n index s = ⟨[], none⟩ := by
  cases n with
  | zero => rfl
  | succ n => rw [rounds, Index.select_of_total_zero h]

/-- **A packing ends**, and as many rounds as there are offsets show what it comes to. -/
theorem exists_ends (dice : Dice σ) (blob : Blob) (budget n : Nat) :
    ∀ (index : Index) (s : σ), index.Coherent → index.total ≤ n →
      ∃ last, Ends dice blob budget index s (rounds dice blob budget n index s) last := by
  induction n with
  | zero =>
      intro index s _ htotal
      exact ⟨index, .drained (Index.select_of_total_zero (Nat.le_zero.mp htotal) dice s)⟩
  | succ n ih =>
      intro index s hindex htotal
      by_cases hzero : index.total = 0
      · rw [rounds_of_total_zero hzero]
        exact ⟨index, .drained (Index.select_of_total_zero hzero dice s)⟩
      · obtain ⟨key, s', hselect, -⟩ := hindex.select (Nat.pos_of_ne_zero hzero) dice s
        rw [rounds, hselect]
        simp only
        cases hnext : next blob budget index key with
        | error fault => exact ⟨index, .stopped hselect hnext⟩
        | ok found =>
            obtain ⟨first, left⟩ := found
            obtain ⟨segment, htakes, -⟩ := exists_takesFrom hindex hselect hnext
            have hpos := List.length_pos_iff.mpr htakes.ne_nil
            have hsum := htakes.total
            obtain ⟨last, hends⟩ := ih left s' htakes.coherent (by omega)
            exact ⟨last, .packed hselect hnext hends⟩

/-- A packing has one end. -/
theorem Ends.unique {other : Packed} {otherLast : Index}
    (h : Ends dice blob budget index s packed last)
    (hother : Ends dice blob budget index s other otherLast) :
    packed = other ∧ last = otherLast := by
  induction h generalizing other with
  | drained hselect =>
      cases hother with
      | drained => exact ⟨rfl, rfl⟩
      | stopped hdrawn => cases hselect.symm.trans hdrawn
      | packed hdrawn => cases hselect.symm.trans hdrawn
  | stopped hselect hnext =>
      cases hother with
      | drained hdrawn => cases hselect.symm.trans hdrawn
      | stopped hdrawn htaken =>
          cases hselect.symm.trans hdrawn
          cases hnext.symm.trans htaken
          exact ⟨rfl, rfl⟩
      | packed hdrawn htaken =>
          cases hselect.symm.trans hdrawn
          cases hnext.symm.trans htaken
  | packed hselect hnext _ ih =>
      cases hother with
      | drained hdrawn => cases hselect.symm.trans hdrawn
      | stopped hdrawn htaken =>
          cases hselect.symm.trans hdrawn
          cases hnext.symm.trans htaken
      | packed hdrawn htaken hrest =>
          cases hselect.symm.trans hdrawn
          cases hnext.symm.trans htaken
          obtain ⟨rfl, rfl⟩ := ih hrest
          exact ⟨rfl, rfl⟩

/-! ### What holds wherever it ends -/

theorem Ends.coherent (h : Ends dice blob budget index s packed last) (hindex : index.Coherent) :
    last.Coherent := by
  induction h with
  | drained => exact hindex
  | stopped => exact hindex
  | packed hselect hnext _ ih =>
      obtain ⟨segment, htakes, -⟩ := exists_takesFrom hindex hselect hnext
      exact ih htakes.coherent

/-- **The batches of a bucket, then the cut of what is left there, are the cut of what it held.** -/
theorem Ends.cut_eq (h : Ends dice blob budget index s packed last) (hindex : index.Coherent)
    (key : Nat) :
    (cut (tokensAt blob) budget (index.offsets key)).map (packedAt blob key)
      = packed.batches.filter (·.key = key)
        ++ (cut (tokensAt blob) budget (last.offsets key)).map (packedAt blob key) := by
  induction h with
  | drained => rfl
  | stopped => rfl
  | @packed index left last _ _ drawn _ _ hselect hnext _ ih =>
      obtain ⟨segment, htakes, rfl⟩ := exists_takesFrom hindex hselect hnext
      have hothers := ih htakes.coherent
      by_cases hkey : drawn = key
      · subst hkey
        rw [htakes.cut, List.map_cons, hothers, List.filter_cons_of_pos (by simp [packedAt]),
          List.cons_append]
      · rw [← htakes.others key hkey, hothers,
          List.filter_cons_of_neg (by simp [packedAt, hkey])]

@[simp] theorem pairCount_cons (first : PackedBatch) (others : List PackedBatch) :
    pairCount (first :: others) = first.batch.size + pairCount others := rfl

@[simp] theorem size_packedAt (blob : Blob) (key : Nat) (segment : List Nat) :
    (packedAt blob key segment).batch.size = segment.length := List.length_map ..

/-- Every offset has become a pair or is left. -/
theorem Ends.pairCount_add_total (h : Ends dice blob budget index s packed last)
    (hindex : index.Coherent) : pairCount packed.batches + last.total = index.total := by
  induction h with
  | drained => exact Nat.zero_add _
  | stopped => exact Nat.zero_add _
  | packed hselect hnext _ ih =>
      obtain ⟨segment, htakes, rfl⟩ := exists_takesFrom hindex hselect hnext
      have hothers := ih htakes.coherent
      have hsum := htakes.total
      rw [pairCount_cons, size_packedAt]
      omega

/-- Every batch holds a pair. -/
theorem Ends.length_le_pairCount (h : Ends dice blob budget index s packed last)
    (hindex : index.Coherent) : packed.batches.length ≤ pairCount packed.batches := by
  induction h with
  | drained => exact Nat.le_refl 0
  | stopped => exact Nat.le_refl 0
  | packed hselect hnext _ ih =>
      obtain ⟨segment, htakes, rfl⟩ := exists_takesFrom hindex hselect hnext
      have hothers := ih htakes.coherent
      have hpos := List.length_pos_iff.mpr htakes.ne_nil
      rw [pairCount_cons, size_packedAt, List.length_cons]
      omega

/-- A packing that nothing stopped has left nothing. -/
theorem Ends.total_eq_zero (h : Ends dice blob budget index s packed last)
    (hindex : index.Coherent) (hfault : packed.fault = none) : last.total = 0 := by
  induction h with
  | drained hselect => exact hindex.total_eq_zero_of_select hselect
  | stopped => cases hfault
  | packed hselect hnext _ ih =>
      obtain ⟨segment, htakes, -⟩ := exists_takesFrom hindex hselect hnext
      exact ih htakes.coherent hfault

/-- A packing that nothing stopped has read all records. -/
theorem Ends.readable (h : Ends dice blob budget index s packed last) (hindex : index.Coherent)
    (hfault : packed.fault = none) : Readable blob index := by
  induction h with
  | drained hselect =>
      intro key offset hmem
      rw [hindex.offsets_of_total_zero (hindex.total_eq_zero_of_select hselect)] at hmem
      cases hmem
  | stopped => cases hfault
  | @packed index left last _ _ drawn _ _ hselect hnext _ ih =>
      obtain ⟨segment, htakes, -⟩ := exists_takesFrom hindex hselect hnext
      have hothers := ih htakes.coherent hfault
      intro key offset hmem
      by_cases hkey : drawn = key
      · subst hkey
        rw [htakes.split] at hmem
        rcases List.mem_append.mp hmem with hfirst | hrest
        · exact htakes.readable offset hfirst
        · exact hothers drawn offset hrest
      · rw [← htakes.others key hkey] at hmem
        exact hothers key offset hmem

/-- What has stopped a packing was in the way of a bucket in the beginning. -/
theorem Ends.obstacle {fault : Fault} (h : Ends dice blob budget index s packed last)
    (hindex : index.Coherent) (hfault : packed.fault = some fault) :
    ∃ key, Obstacle blob budget (index.offsets key) fault := by
  induction h with
  | drained => cases hfault
  | @stopped index _ _ key _ hselect hnext =>
      obtain rfl := Option.some.inj hfault
      have hspec := next_spec blob budget hindex (hindex.offsets_ne_nil_of_select hselect)
      rw [hnext] at hspec
      exact ⟨key, hspec⟩
  | packed hselect hnext _ ih =>
      obtain ⟨segment, htakes, -⟩ := exists_takesFrom hindex hselect hnext
      obtain ⟨key, hleft⟩ := ih htakes.coherent hfault
      exact ⟨key, htakes.obstacle hleft⟩

/-! ### What the rounds come to -/

/-- **The batches of a bucket are the cut of what it held, whatever was drawn.** -/
theorem rounds_filter (n : Nat) (index : Index) (s : σ) (hindex : index.Coherent)
    (htotal : index.total ≤ n) (hfault : (rounds dice blob budget n index s).fault = none)
    (key : Nat) :
    (rounds dice blob budget n index s).batches.filter (·.key = key)
      = (cut (tokensAt blob) budget (index.offsets key)).map (packedAt blob key) := by
  obtain ⟨last, hends⟩ := exists_ends dice blob budget n index s hindex htotal
  have hzero := hends.total_eq_zero hindex hfault
  have hleft := (hends.coherent hindex).offsets_of_total_zero hzero key
  rw [hends.cut_eq hindex key, hleft, cut_nil, List.map_nil, List.append_nil]

/-- Nothing stops a packing whose offsets can be read and whose segments fit. -/
theorem rounds_fault (n : Nat) (index : Index) (s : σ) (hindex : index.Coherent)
    (hread : Readable blob index) (htotal : index.total ≤ n)
    (hfits : ∀ key, ∀ segment ∈ cut (tokensAt blob) budget (index.offsets key),
      BatchRecord.Fits (batchAt blob segment)) :
    (rounds dice blob budget n index s).fault = none := by
  obtain ⟨last, hends⟩ := exists_ends dice blob budget n index s hindex htotal
  cases hfault : (rounds dice blob budget n index s).fault with
  | none => rfl
  | some fault =>
      obtain ⟨key, hobstacle⟩ := hends.obstacle hindex hfault
      cases hobstacle with
      | damaged hmem hdamaged =>
          obtain ⟨record, hrecord⟩ := hread key _ hmem
          cases hdamaged.symm.trans hrecord
      | tooLarge hmem _ hencode =>
          have hok := BatchRecord.encode_ok_iff.mpr ⟨hfits key _ hmem, rfl⟩
          cases hencode.symm.trans hok

/-- Every batch of a packing fits its record and stands beside it. -/
theorem encode_of_mem_rounds (n : Nat) :
    ∀ (index : Index) (s : σ), ∀ packed ∈ (rounds dice blob budget n index s).batches,
      BatchRecord.encode packed.batch = .ok packed.bytes := by
  induction n with
  | zero => intro index s packed hmem; simp [rounds] at hmem
  | succ n ih =>
      intro index s packed hmem
      rw [rounds] at hmem
      split at hmem
      · simp at hmem
      · split at hmem
        · simp at hmem
        · rename_i first index' hnext
          rcases List.mem_cons.mp hmem with rfl | hmem
          · exact encode_of_next hnext
          · exact ih index' _ packed hmem

end rounds

/-- Lists that agree in what they have of each key are permutations of each other. -/
theorem perm_of_filter_key {α : Type} (key : α → Nat) {first second : List α}
    (h : ∀ k, first.filter (key · = k) = second.filter (key · = k)) : first.Perm second := by
  classical
  refine List.perm_iff_count.mpr fun a => ?_
  have hown : ∀ l : List α, (l.filter (key · = key a)).count a = l.count a :=
    fun l => List.count_filter (by simp)
  rw [← hown first, ← hown second, h]

end Bitext.Packing
