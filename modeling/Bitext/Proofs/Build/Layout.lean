/-
What a finished blob looks like from the outside, and how its index goes with it.

Nothing in a blob says where its records start: each record only says, by its two lengths,
where it ends.  So the records of a blob are found by reading one where the last one ended,
from the start to the end of its bytes; `Spans` is this walk.  It can be taken in one way
only, so it describes the file without knowing how the file came to be.

The index of a build has the starts from the writer instead, and files them by what
admission found out about the pairs.  The main theorem says that the two agree: the walk
meets every offset of the index, each of them once, and what stands there is what the index
says it is.
-/
import Bitext.Proofs.Build.Index
import Bitext.Proofs.Record.Canonical

namespace Bitext

/-! ### The records of a blob -/

/-- Records stand side by side in a blob, from a position up to its end. -/
inductive Blob.Spans (blob : Blob) : Nat → List (Nat × PairRecord) → Prop
  /-- Nothing is left. -/
  | done : Spans blob blob.bytes.size []
  /-- A record is read, and the others behind it. -/
  | record {position : Nat} {record : PairRecord} {rest : List (Nat × PairRecord)} :
      blob.recordAt position = .ok record →
      Spans blob (position + BlobWriter.recordSize record.pair) rest →
      Spans blob position ((position, record) :: rest)

theorem BlobWriter.recordSize_pos (pair : Pair) : 0 < recordSize pair := by
  unfold recordSize
  omega

namespace Blob.Spans

variable {blob : Blob} {position : Nat} {records others : List (Nat × PairRecord)}

theorem recordAt_of_mem (h : blob.Spans position records) {found : Nat × PairRecord}
    (hfound : found ∈ records) : blob.recordAt found.1 = .ok found.2 := by
  induction h with
  | done => cases hfound
  | record hread _ ih =>
      rcases List.mem_cons.mp hfound with rfl | hlater
      · exact hread
      · exact ih hlater

theorem le_of_mem (h : blob.Spans position records) {found : Nat × PairRecord}
    (hfound : found ∈ records) : position ≤ found.1 := by
  induction h with
  | done => cases hfound
  | record _ _ ih =>
      rcases List.mem_cons.mp hfound with rfl | hlater
      · exact Nat.le_refl _
      · exact Nat.le_trans (Nat.le_add_right _ _) (ih hlater)

/-- The records start one behind the other. -/
theorem pairwise (h : blob.Spans position records) : (records.map (·.1)).Pairwise (· < ·) := by
  induction h with
  | done => exact List.Pairwise.nil
  | @record position first rest _ hrest ih =>
      refine List.Pairwise.cons ?_ ih
      intro offset hoffset
      obtain ⟨found, hfound, rfl⟩ := List.mem_map.mp hoffset
      have hbehind := hrest.le_of_mem hfound
      have hsize := BlobWriter.recordSize_pos first.pair
      show position < found.1
      omega

/-- Where the blob ends there is no record. -/
theorem eq_nil_of_end (h : blob.Spans blob.bytes.size records) : records = [] := by
  generalize hend : blob.bytes.size = position at h
  cases h with
  | done => rfl
  | @record _ first _ hread _ =>
      have hle := PairRecord.le_size_of_readAt hread
      have hsize := BlobWriter.recordSize_pos first.pair
      omega

/-- **There is only one way to tell the records of a blob apart.** -/
theorem unique (h : blob.Spans position records) (hothers : blob.Spans position others) :
    records = others := by
  induction h generalizing others with
  | done => exact hothers.eq_nil_of_end.symm
  | record hread hrest ih =>
      cases hothers with
      | done => exact (Blob.Spans.record hread hrest).eq_nil_of_end
      | record hsame hlater =>
          obtain rfl := Except.ok.inj (hread.symm.trans hsame)
          rw [ih hlater]

end Blob.Spans

/-! ### The records of a store -/

/-- A record of which the parts agree: the header counts the tokens of the two texts, and the
texts are single lines with as many groups on either side. -/
structure PairRecord.Consistent (record : PairRecord) : Prop where
  sourceTokens : record.header.sourceTokens = record.pair.sourceTokens
  targetTokens : record.header.targetTokens = record.pair.targetTokens
  groups : Line.groupCount record.pair.source = Line.groupCount record.pair.target
  onOneLine : record.pair.OnOneLine

/-- The key under which a record has to be filed, by its header. -/
def PairRecord.key (settings : Settings) (record : PairRecord) : Nat :=
  settings.bucketing.key record.header.sourceTokens record.header.targetTokens settings.classWidth

theorem PairRecord.consistent_ofAdmitted {settings : Settings} {p : Admitted}
    (h : p.Accurate settings) (honOneLine : p.pair.OnOneLine)
    (hgroups : Admission.groupsMatch p.pair = true) : (ofAdmitted p).Consistent where
  sourceTokens := h.sourceTokens
  targetTokens := h.targetTokens
  groups := beq_iff_eq.mp hgroups
  onOneLine := honOneLine

theorem PairRecord.key_ofAdmitted {settings : Settings} {p : Admitted} (h : p.Accurate settings) :
    (ofAdmitted p).key settings = p.key := by
  rw [h.key, ← h.sourceTokens, ← h.targetTokens]
  rfl

namespace Store

/-- The records of pairs, which stand side by side from an offset on. -/
def recordsFrom (offset : Nat) (pairs : List Admitted) : List (Nat × PairRecord) :=
  (placed offset pairs).map fun entry => (entry.1, PairRecord.ofAdmitted entry.2)

section

variable {pairs : List Admitted}

theorem length_recordsFrom (offset : Nat) (pairs : List Admitted) :
    (recordsFrom offset pairs).length = pairs.length := by
  rw [recordsFrom, List.length_map, length_placed]

theorem starts_recordsFrom (offset : Nat) (pairs : List Admitted) :
    (recordsFrom offset pairs).map (·.1) = (placed offset pairs).map (·.1) := List.map_map

theorem pairs_recordsFrom (offset : Nat) (pairs : List Admitted) :
    (recordsFrom offset pairs).map (·.2.pair) = pairs.map (·.pair) := by
  conv_rhs => rw [← map_placed pairs offset, List.map_map]
  exact List.map_map

theorem exists_of_mem_recordsFrom {offset : Nat} {found : Nat × PairRecord}
    (h : found ∈ recordsFrom offset pairs) : ∃ p ∈ pairs, found.2 = PairRecord.ofAdmitted p := by
  obtain ⟨entry, hentry, rfl⟩ := List.mem_map.mp h
  exact ⟨entry.2, mem_of_mem_placed hentry, rfl⟩

/-- The pairs that were filed under a key are those of which the header has that key. -/
theorem starts_filter_recordsFrom {settings : Settings} (offset : Nat)
    (h : ∀ p ∈ pairs, p.Accurate settings) (key : Nat) :
    ((recordsFrom offset pairs).filter fun found => found.2.key settings = key).map (·.1)
      = ((placed offset pairs).filter (·.2.key = key)).map (·.1) := by
  have hkey : ∀ entry ∈ placed offset pairs,
      decide ((PairRecord.ofAdmitted entry.2).key settings = key) = decide (entry.2.key = key) := by
    intro entry hentry
    rw [PairRecord.key_ofAdmitted (h _ (mem_of_mem_placed hentry))]
  rw [recordsFrom, List.filter_map, List.map_map]
  exact congrArg (List.map fun entry : Nat × Admitted => entry.1) (List.filter_congr hkey)

/-- Pairs that can be read where they were placed span the blob, if that is where they end. -/
theorem spans_recordsFrom {blob : Blob} (pairs : List Admitted) :
    ∀ offset, (∀ entry ∈ placed offset pairs,
        blob.recordAt entry.1 = .ok (PairRecord.ofAdmitted entry.2)) →
      offset + (pairs.map fun p => BlobWriter.recordSize p.pair).sum = blob.bytes.size →
      blob.Spans offset (recordsFrom offset pairs) := by
  induction pairs with
  | nil =>
      intro offset _ hend
      obtain rfl : offset = blob.bytes.size := hend
      exact .done
  | cons p rest ih =>
      intro offset hread hend
      obtain ⟨hfirst, hrest⟩ := List.forall_mem_cons.mp hread
      rw [List.map_cons, List.sum_cons, ← Nat.add_assoc] at hend
      exact .record hfirst (ih _ hrest hend)

end

end Store

/-! ### The records of a built index -/

namespace BuiltIndex.MadeOf

variable {settings : Settings} {built : BuiltIndex} {pairs : List Admitted}

theorem spans (h : built.MadeOf settings pairs) :
    built.blob.Spans 0 (Store.recordsFrom 0 pairs) := by
  have hholds := Store.holds_filled built.blob.file h.fits
  refine Store.spans_recordsFrom pairs 0 (fun entry hentry => hholds.recordAt h.bytes hentry) ?_
  rw [h.bytes, ← hholds.position, Store.position_filled]

/-- All starts are in the index, and nothing else is. -/
theorem perm_starts (h : built.MadeOf settings pairs) :
    (built.index.allOffsets.map (·.2)).Perm ((Store.recordsFrom 0 pairs).map (·.1)) := by
  have hperm := (Store.allOffsets_filled built.blob.file pairs).map (·.2)
  rw [← h.index, List.map_map] at hperm
  rw [Store.starts_recordsFrom]
  exact hperm

theorem total (h : built.MadeOf settings pairs) : built.index.total = pairs.length := by
  have hcount := h.perm_starts.length_eq
  have hmade : built.index.Made := h.index ▸ (Store.holds_filled built.blob.file h.fits).made
  rw [List.length_map, List.length_map, Store.length_recordsFrom] at hcount
  rw [hmade.coherent.total, hcount]

/-- A bucket has the starts of the records of its key, in the order of the records. -/
theorem offsets (h : built.MadeOf settings pairs) (key : Nat) :
    built.index.offsets key
      = ((Store.recordsFrom 0 pairs).filter fun found => found.2.key settings = key).map (·.1) := by
  rw [h.index, (Store.holds_filled built.blob.file h.fits).offsets,
    Store.starts_filter_recordsFrom 0 h.accurate]

theorem consistent (h : built.MadeOf settings pairs) {found : Nat × PairRecord}
    (hfound : found ∈ Store.recordsFrom 0 pairs) : found.2.Consistent := by
  obtain ⟨p, hp, hrecord⟩ := Store.exists_of_mem_recordsFrom hfound
  rw [hrecord]
  exact PairRecord.consistent_ofAdmitted (h.accurate p hp) (h.onOneLine p hp) (h.groupsMatch p hp)

end BuiltIndex.MadeOf

namespace Build

variable {settings : Settings} {files : FileSet} {w after : Workspace} {built : BuiltIndex}

/-- **The index of a build and its blob are two views of the same records.**  The blob of a
build that succeeds consists of records side by side; in their order, they hold what is kept of
the line pairs that the files deliver.  The index has the starts of these records and nothing
else, each of them once, and blob, index and tally count the same number.  Under each key it
has, in ascending order, the starts of the records of that key, and whoever goes there finds a
record of which header and texts agree. -/
theorem index_leads_to_the_records (h : (index settings files).run w = (.ok built, after)) :
    ∃ records : List (Nat × PairRecord),
      built.blob.Spans 0 records ∧
      records.map (·.2.pair) = kept settings w.disk files.pairs ∧
      (built.index.allOffsets.map (·.2)).Perm (records.map (·.1)) ∧
      (records.map (·.1)).Pairwise (· < ·) ∧
      built.blob.records = records.length ∧
      built.index.total = records.length ∧
      built.tally.accepted = records.length ∧
      ∀ key,
        built.index.offsets key
          = (records.filter fun found => found.2.key settings = key).map (·.1) ∧
        (built.index.offsets key).Pairwise (· < ·) ∧
        ∀ offset ∈ built.index.offsets key, ∃ record, built.blob.recordAt offset = .ok record ∧
          record.Consistent ∧ record.key settings = key := by
  obtain ⟨pairs, hmade, hpairs⟩ := madeOf_of_index_ok h
  have hspans := hmade.spans
  have hlength := Store.length_recordsFrom 0 pairs
  refine ⟨Store.recordsFrom 0 pairs, hspans, ?_, hmade.perm_starts, hspans.pairwise, ?_, ?_, ?_,
    fun key => ⟨hmade.offsets key, ?_, fun offset hoffset => ?_⟩⟩
  · rw [Store.pairs_recordsFrom, hpairs]
  · rw [hmade.records, hlength]
  · rw [hmade.total, hlength]
  · rw [hmade.accepted, hlength]
  · rw [hmade.offsets key]
    exact hspans.pairwise.sublist (List.filter_sublist.map _)
  · rw [hmade.offsets key] at hoffset
    obtain ⟨found, hfound, rfl⟩ := List.mem_map.mp hoffset
    obtain ⟨hmem, hkey⟩ := List.mem_filter.mp hfound
    exact ⟨found.2, hspans.recordAt_of_mem hmem, hmade.consistent hmem, of_decide_eq_true hkey⟩

/-- The index of the two files counts three records, and so do its blob and its tally. -/
theorem three_records_of_doubled :
    ∃ built after records,
      (index twoAtOnce ⟨⟨""⟩, doubled⟩).run ⟨twoFiles, #[]⟩ = (.ok built, after) ∧
      built.blob.Spans 0 records ∧
      records.map (·.2.pair) = [⟨"x", "x"⟩, ⟨"u", "u"⟩, ⟨"v", "v"⟩] ∧
      built.blob.records = 3 ∧ built.index.total = 3 ∧ built.tally.accepted = 3 := by
  obtain ⟨built, after, hindex⟩ := exists_index_doubled #[]
  obtain ⟨records, hspans, hpairs, -, -, hrecords, htotal, haccepted, -⟩ :=
    index_leads_to_the_records hindex
  have hkept := hpairs.trans kept_doubled
  have hthree : records.length = 3 := by
    have hlength := congrArg List.length hkept
    rwa [List.length_map] at hlength
  rw [hthree] at hrecords htotal haccepted
  exact ⟨built, after, records, hindex, hspans, hkept, hrecords, htotal, haccepted⟩

end Build

end Bitext
