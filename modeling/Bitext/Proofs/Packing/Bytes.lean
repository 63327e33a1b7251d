/-
A packing sees nothing of a blob but its bytes.

Where the blob's file stands, and how many records were counted into it, makes no difference
to what is read at an offset.  So neither does it to a batch, to the index that is left after
it, or to all batches together.
-/
import Bitext.Proofs.Packing.Buckets

namespace Bitext.Packing

variable {blob other : Blob} {budget : Nat}

theorem headerAt_congr (h : blob.bytes = other.bytes) (offset : Nat) :
    blob.headerAt offset = other.headerAt offset := by
  rw [Blob.headerAt, Blob.headerAt, h]

theorem recordAt_congr (h : blob.bytes = other.bytes) (offset : Nat) :
    blob.recordAt offset = other.recordAt offset := by
  rw [Blob.recordAt, Blob.recordAt, h]

theorem fillUp_congr (h : blob.bytes = other.bytes) (tokens : Nat) (queue : Queue Nat) :
    fillUp blob budget tokens queue = fillUp other budget tokens queue := by
  induction tokens, queue using fillUp.induct with
  | case1 tokens queue hpop => rw [fillUp_of_empty hpop, fillUp_of_empty hpop]
  | case2 tokens queue offset rest hpop ih =>
      rw [fillUp, fillUp]
      split
      · rfl
      · rename_i first others hsome
        obtain ⟨rfl, rfl⟩ : offset = first ∧ rest = others := by simpa [hpop] using hsome
        simp only [headerAt_congr h, recordAt_congr h, ih]

theorem fill_congr (h : blob.bytes = other.bytes) (queue : Queue Nat) :
    fill blob budget queue = fill other budget queue := by
  simp only [fill, recordAt_congr h, fillUp_congr h]

theorem next_congr (h : blob.bytes = other.bytes) (index : Index) (key : Nat) :
    next blob budget index key = next other budget index key := by
  rw [next, next, fill_congr h]

theorem rounds_congr {σ : Type} {dice : Dice σ} (h : blob.bytes = other.bytes) (n : Nat) :
    ∀ (index : Index) (s : σ),
      rounds dice blob budget n index s = rounds dice other budget n index s := by
  induction n with
  | zero => intro index s; rfl
  | succ n ih =>
      intro index s
      simp only [rounds, next_congr h, ih]

/-- **Blobs of the same bytes are packed into the same batches.** -/
theorem all_congr {σ : Type} (dice : Dice σ) (h : blob.bytes = other.bytes) (index : Index)
    (s : σ) : all dice blob budget index s = all dice other budget index s :=
  rounds_congr h index.total index s

end Bitext.Packing
