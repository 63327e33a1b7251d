/-
What a store holds after pairs were written to it.

The writer's position is the number of bytes that it has written whole, so the offset under
which a pair is filed is where its record stands; and what is written later stands behind
it.  A store therefore holds its pairs: the index leads to them by key, in the order in
which they came, and each of them can be read back at its offset.

Pairs that do not fit their fields are the only ones that cannot be written.
-/
import Bitext.Build.Harvest
import Bitext.Proofs.Bucket.Index
import Bitext.Proofs.Record.PairRecord

namespace Bitext

/-- A position of zero tells that nothing is written, if the position is the number of bytes. -/
theorem BlobWriter.bytes_of_inStep {writer : BlobWriter}
    (h : writer.position = writer.bytes.size) :
    (if writer.position = 0 then .empty else writer.bytes) = writer.bytes := by
  by_cases hzero : writer.position = 0
  · rw [if_pos hzero, ByteArray.size_eq_zero_iff.mp (h.symm.trans hzero)]
  · rw [if_neg hzero]

namespace Store

open Bytes (StandsAt)

/-- The store with a pair written behind the others. -/
def grown (store : Store) (p : Admitted) : Store where
  writer :=
    { store.writer with
      bytes := store.writer.bytes ++ PairRecord.encode p
      position := store.writer.position + BlobWriter.recordSize p.pair
      records := store.writer.records + 1 }
  index := store.index.insert p.key store.writer.position

/-- A pair that fits its fields is written. -/
theorem append_of_fits {p : Admitted} (h : PairRecord.Fits p) (store : Store) :
    store.append p = .ok (store.grown p) := by
  simp only [append, BlobWriter.append, PairRecord.write_of_fits h]
  rfl

/-- A pair that was written fits its fields. -/
theorem of_append_ok {p : Admitted} {store after : Store} (h : store.append p = .ok after) :
    PairRecord.Fits p ∧ after = store.grown p := by
  have hfits : PairRecord.Fits p := by
    cases hwrite : PairRecord.write store.writer.bytes (PairRecord.parts p) with
    | mk bytes fault =>
        cases fault with
        | none => exact PairRecord.fits_of_write (congrArg Prod.snd hwrite)
        | some fault => simp [append, BlobWriter.append, hwrite] at h
  rw [append_of_fits hfits] at h
  exact ⟨hfits, (Except.ok.inj h).symm⟩

theorem appendAll_append (store : Store) (first second : List Admitted) :
    store.appendAll (first ++ second)
      = (store.appendAll first).bind fun after => after.appendAll second :=
  List.foldlM_append

theorem appendAll_cons (store : Store) (p : Admitted) (rest : List Admitted) :
    store.appendAll (p :: rest) = (store.append p).bind fun after => after.appendAll rest :=
  List.foldlM_cons

/-- When pairs could be written, so could the first of them. -/
theorem of_appendAll_append {store full : Store} {first second : List Admitted}
    (h : store.appendAll (first ++ second) = .ok full) :
    ∃ written, store.appendAll first = .ok written ∧ written.appendAll second = .ok full := by
  rw [appendAll_append] at h
  cases hfirst : store.appendAll first with
  | error fault => simp [hfirst, Except.bind] at h
  | ok written => exact ⟨written, rfl, by simpa [hfirst, Except.bind] using h⟩

/-! ### What is in a store -/

/-- The store holds pairs at offsets, in the order in which they were written. -/
structure Holds (store : Store) (entries : List (Nat × Admitted)) : Prop where
  /-- The index was made by filing. -/
  made : store.index.Made
  /-- The index leads to the pairs of a key in order. -/
  offsets : ∀ key, store.index.offsets key = (entries.filter (·.2.key = key)).map (·.1)
  /-- The record of a pair stands at its offset. -/
  stands : ∀ entry ∈ entries, StandsAt store.writer.bytes entry.1 (PairRecord.encode entry.2)
  /-- The pairs fit their fields. -/
  fits : ∀ entry ∈ entries, PairRecord.Fits entry.2
  /-- The next record will stand where the bytes end. -/
  position : store.writer.position = store.writer.bytes.size

theorem holds_ofFile (file : TemporaryFile) : (ofWriter (.ofFile file)).Holds [] where
  made := .empty
  offsets key := Index.offsets_empty key
  stands := by simp
  fits := by simp
  position := rfl

/-- A writer that never moved has nothing written, so its blob may as well read as empty. -/
theorem Holds.bytes_eq {store : Store} {entries : List (Nat × Admitted)} (h : store.Holds entries) :
    (if store.writer.position = 0 then .empty else store.writer.bytes) = store.writer.bytes :=
  BlobWriter.bytes_of_inStep h.position

/-- Writing a pair adds it to what the store holds. -/
theorem Holds.grown {store : Store} {entries : List (Nat × Admitted)} {p : Admitted}
    (h : store.Holds entries) (hp : PairRecord.Fits p) :
    (store.grown p).Holds (entries ++ [(store.writer.position, p)]) where
  made := h.made.insert p.key store.writer.position
  offsets key := by
    show (store.index.insert p.key store.writer.position).offsets key = _
    rw [Index.offsets_insert, h.offsets]
    by_cases hkey : p.key = key
    · simp [hkey]
    · simp [hkey]
  stands entry hentry := by
    rcases List.mem_append.mp hentry with hbefore | hlast
    · exact (h.stands entry hbefore).append _
    · obtain rfl := List.mem_singleton.mp hlast
      show StandsAt (store.writer.bytes ++ _) store.writer.position _
      rw [h.position]
      exact StandsAt.last _ _
  fits entry hentry := by
    rcases List.mem_append.mp hentry with hbefore | hlast
    · exact h.fits entry hbefore
    · obtain rfl := List.mem_singleton.mp hlast
      exact hp
  position := by
    show store.writer.position + BlobWriter.recordSize p.pair = (store.writer.bytes ++ _).size
    rw [ByteArray.size_append, PairRecord.size_encode, h.position]

/-! ### Writing several pairs

When all of them fit, what becomes of the store is told by `grownAll`, and where each record
comes to stand by `placed`: it depends on nothing but the sizes of the records before it.
-/

/-- The store with pairs written behind the others, one after another. -/
def grownAll (store : Store) (pairs : List Admitted) : Store := pairs.foldl Store.grown store

/-- Pairs with the offsets of their records, which stand side by side from an offset on. -/
def placed : Nat → List Admitted → List (Nat × Admitted)
  | _, [] => []
  | offset, p :: rest => (offset, p) :: placed (offset + BlobWriter.recordSize p.pair) rest

theorem map_placed (pairs : List Admitted) :
    ∀ offset, (placed offset pairs).map (·.2) = pairs := by
  induction pairs with
  | nil => intro offset; rfl
  | cons p rest ih => intro offset; rw [placed, List.map_cons, ih]

theorem length_placed (pairs : List Admitted) (offset : Nat) :
    (placed offset pairs).length = pairs.length := by
  rw [← List.length_map (·.2), map_placed]

theorem mem_of_mem_placed {pairs : List Admitted} {offset : Nat} {entry : Nat × Admitted}
    (h : entry ∈ placed offset pairs) : entry.2 ∈ pairs := by
  rw [← map_placed pairs offset]
  exact List.mem_map_of_mem h

/-- **Pairs can be written when they fit, and only then.** -/
theorem appendAll_ok_iff (pairs : List Admitted) :
    ∀ {store after : Store}, store.appendAll pairs = .ok after ↔
      (∀ p ∈ pairs, PairRecord.Fits p) ∧ after = store.grownAll pairs := by
  induction pairs with
  | nil =>
      intro store after
      show Except.ok store = Except.ok after ↔ _
      simp [grownAll, eq_comm]
  | cons p rest ih =>
      intro store after
      rw [appendAll_cons, List.forall_mem_cons]
      constructor
      · intro h
        cases hfirst : store.append p with
        | error fault => simp [hfirst, Except.bind] at h
        | ok grown =>
            obtain ⟨hfits, rfl⟩ := of_append_ok hfirst
            rw [hfirst] at h
            obtain ⟨hrest, rfl⟩ := ih.mp h
            exact ⟨⟨hfits, hrest⟩, rfl⟩
      · rintro ⟨⟨hfits, hrest⟩, rfl⟩
        rw [append_of_fits hfits]
        exact ih.mpr ⟨hrest, rfl⟩

/-- Pairs that fit can be written to any store. -/
theorem appendAll_of_fits (pairs : List Admitted) (store : Store)
    (hfits : ∀ p ∈ pairs, PairRecord.Fits p) : ∃ after, store.appendAll pairs = .ok after :=
  ⟨_, (appendAll_ok_iff pairs).mpr ⟨hfits, rfl⟩⟩

/-- Writing pairs does not exchange the file that is written to. -/
theorem file_grownAll (pairs : List Admitted) :
    ∀ store : Store, (store.grownAll pairs).writer.file = store.writer.file := by
  induction pairs with
  | nil => intro store; rfl
  | cons p rest ih => intro store; exact ih (store.grown p)

theorem records_grownAll (pairs : List Admitted) :
    ∀ store : Store, (store.grownAll pairs).writer.records = store.writer.records + pairs.length := by
  induction pairs with
  | nil => intro store; rfl
  | cons p rest ih =>
      intro store
      have hrest : (store.grownAll (p :: rest)).writer.records
          = store.writer.records + 1 + rest.length := ih (store.grown p)
      rw [hrest, List.length_cons]
      omega

theorem position_grownAll (pairs : List Admitted) :
    ∀ store : Store, (store.grownAll pairs).writer.position
      = store.writer.position + (pairs.map fun p => BlobWriter.recordSize p.pair).sum := by
  induction pairs with
  | nil => intro store; rfl
  | cons p rest ih =>
      intro store
      have hrest : (store.grownAll (p :: rest)).writer.position
          = store.writer.position + BlobWriter.recordSize p.pair
            + (rest.map fun p => BlobWriter.recordSize p.pair).sum := ih (store.grown p)
      rw [hrest, List.map_cons, List.sum_cons, Nat.add_assoc]

/-- The offsets of all records that were written are filed, each of them once. -/
theorem allOffsets_grownAll (pairs : List Admitted) :
    ∀ store : Store, (store.grownAll pairs).index.allOffsets.Perm
      (store.index.allOffsets
        ++ (placed store.writer.position pairs).map fun entry => (entry.2.key, entry.1)) := by
  induction pairs with
  | nil => intro store; simp [grownAll, placed]
  | cons p rest ih =>
      intro store
      have hfirst : (store.grown p).index.allOffsets.Perm
          ((p.key, store.writer.position) :: store.index.allOffsets) :=
        Index.allOffsets_insert store.index p.key store.writer.position
      refine (ih (store.grown p)).trans ((hfirst.append_right _).trans ?_)
      exact List.perm_middle.symm

/-- **Pairs that fit are held where they were placed, behind what the store held.** -/
theorem Holds.grownAll (pairs : List Admitted) :
    ∀ {store : Store} {entries : List (Nat × Admitted)}, store.Holds entries →
      (∀ p ∈ pairs, PairRecord.Fits p) →
      (store.grownAll pairs).Holds (entries ++ placed store.writer.position pairs) := by
  induction pairs with
  | nil =>
      intro store entries h _
      rwa [placed, List.append_nil]
  | cons p rest ih =>
      intro store entries h hfits
      obtain ⟨hp, hrest⟩ := List.forall_mem_cons.mp hfits
      have hall := ih (h.grown hp) hrest
      rwa [List.append_assoc, List.singleton_append] at hall

/-- A store to which pairs could be written holds them, behind what it held. -/
theorem Holds.appendAll {store after : Store} {entries : List (Nat × Admitted)}
    (h : store.Holds entries) (pairs : List Admitted) (hok : store.appendAll pairs = .ok after) :
    ∃ more, more.map (·.2) = pairs ∧ after.Holds (entries ++ more) := by
  obtain ⟨hfits, rfl⟩ := (appendAll_ok_iff pairs).mp hok
  exact ⟨_, map_placed pairs store.writer.position, h.grownAll pairs hfits⟩

/-! ### A store that was begun empty -/

/-- The store that has come of writing pairs to a new file. -/
def filled (file : TemporaryFile) (pairs : List Admitted) : Store :=
  (ofWriter (.ofFile file)).grownAll pairs

section

variable (file : TemporaryFile)

theorem holds_filled {pairs : List Admitted} (hfits : ∀ p ∈ pairs, PairRecord.Fits p) :
    (filled file pairs).Holds (placed 0 pairs) :=
  (holds_ofFile file).grownAll pairs hfits

theorem records_filled (pairs : List Admitted) :
    (filled file pairs).writer.records = pairs.length := by
  rw [filled, records_grownAll]
  exact Nat.zero_add _

theorem position_filled (pairs : List Admitted) :
    (filled file pairs).writer.position
      = 0 + (pairs.map fun p => BlobWriter.recordSize p.pair).sum :=
  position_grownAll pairs _

theorem allOffsets_filled (pairs : List Admitted) :
    (filled file pairs).index.allOffsets.Perm
      ((placed 0 pairs).map fun entry => (entry.2.key, entry.1)) :=
  allOffsets_grownAll pairs _

end

end Store

end Bitext
