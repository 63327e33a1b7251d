/-
Packing takes the segments of a bucket one by one.

A draw decides from which bucket the next batch comes, and nothing else: the batch is the
first segment of that bucket's greedy cut, and what is left of the bucket falls into the
segments that come after it.  Nothing is assumed of the blob.  A record that cannot be read
stops the batch that comes to it, and a batch that was taken has come to none.
-/
import Mathlib.Tactic.Set
import Bitext.Proofs.Packing.Greedy
import Bitext.Proofs.Record.BatchRecord
import Bitext.Proofs.Record.PairRecord
import Bitext.Proofs.Sampler

namespace Bitext.Packing

/-- The tokens that the header at an offset tells. -/
def tokensAt (blob : Blob) (offset : Nat) : Nat :=
  match blob.headerAt offset with
  | .ok header => header.tokenCount
  | .error _ => 0

/-- The pair at an offset. -/
def pairAt (blob : Blob) (offset : Nat) : Pair :=
  match blob.recordAt offset with
  | .ok record => record.pair
  | .error _ => ⟨"", ""⟩

/-- The pairs of a segment of offsets as a batch. -/
def batchAt (blob : Blob) (segment : List Nat) : Batch := ⟨segment.map (pairAt blob)⟩

/-- A segment of a bucket as a packed batch. -/
def packedAt (blob : Blob) (key : Nat) (segment : List Nat) : PackedBatch where
  key := key
  batch := batchAt blob segment
  tokens := weigh (tokensAt blob) segment
  bytes := BatchRecord.bytes (batchAt blob segment)

/-- All offsets of an index lead to records. -/
def Readable (blob : Blob) (index : Index) : Prop :=
  ∀ key, ∀ offset ∈ index.offsets key, ∃ record, blob.recordAt offset = .ok record

section records

variable {blob : Blob} {offset : Nat} {header : Header} {record : PairRecord}
  {damaged : RecordFault}

theorem headerAt_of_recordAt (h : blob.recordAt offset = .ok record) :
    blob.headerAt offset = .ok record.header :=
  PairRecord.headerAt_of_readAt h

theorem recordAt_of_headerAt (h : blob.headerAt offset = .error damaged) :
    blob.recordAt offset = .error damaged :=
  PairRecord.readAt_of_headerAt h

theorem tokensAt_of_headerAt (h : blob.headerAt offset = .ok header) :
    tokensAt blob offset = header.tokenCount := by
  rw [tokensAt, h]

theorem tokensAt_of_recordAt (h : blob.recordAt offset = .ok record) :
    tokensAt blob offset = record.header.tokenCount :=
  tokensAt_of_headerAt (headerAt_of_recordAt h)

theorem pairAt_of_recordAt (h : blob.recordAt offset = .ok record) :
    pairAt blob offset = record.pair := by
  rw [pairAt, h]

end records

/-! ### One batch

A record that cannot be read may be noticed by its header, when it is the next one, or by its
texts, when it was let in already.  Either way the fault is the one of the record, so it does
not matter which.
-/

/-- A batch that held `tokens` tokens was filled with a segment of a bucket, whose records can be
read, and the bucket is left with what follows. -/
structure Filled.Takes (blob : Blob) (tokens : Nat) (segment following : List Nat)
    (filled : Filled) : Prop where
  pairs : filled.pairs = segment.map (pairAt blob)
  tokens : filled.tokens = tokens + weigh (tokensAt blob) segment
  rest : filled.rest.toList = following
  counted : filled.rest.Counted
  readable : ∀ offset ∈ segment, ∃ record, blob.recordAt offset = .ok record

theorem Filled.Takes.cons {blob : Blob} {tokens offset : Nat} {record : PairRecord}
    {segment following : List Nat} {filled : Filled}
    (h : filled.Takes blob (tokens + record.header.tokenCount) segment following)
    (hrecord : blob.recordAt offset = .ok record) :
    Filled.Takes blob tokens (offset :: segment) following
      { filled with pairs := record.pair :: filled.pairs } where
  pairs := by rw [h.pairs, List.map_cons, pairAt_of_recordAt hrecord]
  tokens := by rw [h.tokens, weigh_cons, tokensAt_of_recordAt hrecord, Nat.add_assoc]
  rest := h.rest
  counted := h.counted
  readable := List.forall_mem_cons.mpr ⟨⟨record, hrecord⟩, h.readable⟩

section fillUp

variable {blob : Blob} {budget tokens offset : Nat} {queue left : Queue Nat}

theorem fillUp_of_empty (hpop : queue.pop? = none) :
    fillUp blob budget tokens queue = .ok ⟨[], tokens, queue⟩ := by
  rw [fillUp]
  split
  · rfl
  · rename_i hsome
    simp [hpop] at hsome

theorem fillUp_of_pop (hpop : queue.pop? = some (offset, left)) :
    fillUp blob budget tokens queue = (do
      let next ← blob.headerAt offset
      if isFull budget tokens next.tokenCount then
        return ⟨[], tokens, queue⟩
      let record ← blob.recordAt offset
      let filled ← fillUp blob budget (tokens + record.header.tokenCount) left
      return { filled with pairs := record.pair :: filled.pairs }) := by
  rw [fillUp]
  split
  · rename_i hnone
    simp [hpop] at hnone
  · rename_i first others hsome
    obtain ⟨rfl, rfl⟩ : offset = first ∧ left = others := by simpa [hpop] using hsome
    rfl

end fillUp

/-- Filling up takes what the greedy cut takes and leaves what it leaves, or it has come to a
record that cannot be read. -/
theorem fillUp_spec (blob : Blob) (budget : Nat) (l : List Nat) :
    ∀ (queue : Queue Nat) (tokens : Nat), queue.toList = l → queue.Counted →
      match fillUp blob budget tokens queue with
      | .ok filled => filled.Takes blob tokens (goOn (tokensAt blob) budget tokens l).1
          (goOn (tokensAt blob) budget tokens l).2
      | .error damaged => ∃ offset ∈ l, blob.recordAt offset = .error damaged := by
  induction l with
  | nil =>
      intro queue tokens hlist hcounted
      rw [fillUp_of_empty (Queue.pop?_eq_none_iff.mpr hlist)]
      exact ⟨rfl, rfl, hlist, hcounted, by simp [goOn]⟩
  | cons offset later ih =>
      intro queue tokens hlist hcounted
      obtain ⟨left, hpop, hleft⟩ := Queue.pop?_of_toList_cons hlist
      rw [fillUp_of_pop hpop]
      cases hheader : blob.headerAt offset with
      | error damaged => exact ⟨offset, by simp, recordAt_of_headerAt hheader⟩
      | ok header =>
          simp only [bind, Except.bind, goOn, tokensAt_of_headerAt hheader]
          by_cases hfull : isFull budget tokens header.tokenCount = true
          · simp only [if_pos hfull]
            exact ⟨rfl, rfl, hlist, hcounted, by simp⟩
          · simp only [if_neg hfull]
            cases hrecord : blob.recordAt offset with
            | error damaged => exact ⟨offset, by simp, hrecord⟩
            | ok record =>
                obtain rfl : record.header = header :=
                  Except.ok.inj ((headerAt_of_recordAt hrecord).symm.trans hheader)
                have hlater := ih left (tokens + record.header.tokenCount) hleft
                  (Queue.counted_of_pop? hcounted hpop)
                simp only
                cases hfill : fillUp blob budget (tokens + record.header.tokenCount) left with
                | error damaged =>
                    rw [hfill] at hlater
                    obtain ⟨bad, hbad, hdamaged⟩ := hlater
                    exact ⟨bad, List.mem_cons_of_mem offset hbad, hdamaged⟩
                | ok filled =>
                    rw [hfill] at hlater
                    exact hlater.cons hrecord

/-- A batch is the first segment of its bucket's cut, unless the bucket has a record that cannot
be read. -/
theorem fill_spec (blob : Blob) (budget : Nat) {offset : Nat} {later : List Nat}
    {queue : Queue Nat} (hlist : queue.toList = offset :: later) (hcounted : queue.Counted) :
    match fill blob budget queue with
    | .ok filled => filled.Takes blob 0
        (offset :: (goOn (tokensAt blob) budget (tokensAt blob offset) later).1)
        (goOn (tokensAt blob) budget (tokensAt blob offset) later).2
    | .error damaged => ∃ o ∈ offset :: later, blob.recordAt o = .error damaged := by
  obtain ⟨left, hpop, hleft⟩ := Queue.pop?_of_toList_cons hlist
  rw [fill, hpop]
  simp only
  cases hrecord : blob.recordAt offset with
  | error damaged => exact ⟨offset, by simp, hrecord⟩
  | ok record =>
      have hlater := fillUp_spec blob budget later left record.header.tokenCount hleft
        (Queue.counted_of_pop? hcounted hpop)
      rw [tokensAt_of_recordAt hrecord]
      simp only [bind, Except.bind]
      cases hfill : fillUp blob budget record.header.tokenCount left with
      | error damaged =>
          rw [hfill] at hlater
          obtain ⟨bad, hbad, hdamaged⟩ := hlater
          exact ⟨bad, List.mem_cons_of_mem offset hbad, hdamaged⟩
      | ok filled =>
          rw [hfill, ← Nat.zero_add record.header.tokenCount] at hlater
          rw [← Nat.zero_add record.header.tokenCount]
          exact hlater.cons hrecord

/-! ### One batch out of an index -/

/-- A batch is taken out of the bucket of a key: it is the first segment of the bucket's cut, its
records can be read and it fits its own record.  The bucket is left with the rest, and every
other bucket with what it held. -/
structure TakesFrom (blob : Blob) (budget key : Nat) (segment : List Nat) (index left : Index) :
    Prop where
  cut : cut (tokensAt blob) budget (index.offsets key)
    = segment :: cut (tokensAt blob) budget (left.offsets key)
  ne_nil : segment ≠ []
  split : index.offsets key = segment ++ left.offsets key
  others : ∀ k, key ≠ k → left.offsets k = index.offsets k
  readable : ∀ offset ∈ segment, ∃ record, blob.recordAt offset = .ok record
  fits : BatchRecord.Fits (batchAt blob segment)
  coherent : left.Coherent
  total : left.total + segment.length = index.total

/-- What can be in the way of packing a bucket: a record that cannot be read, or a segment of
readable records that does not fit one record. -/
inductive Obstacle (blob : Blob) (budget : Nat) (offsets : List Nat) : Fault → Prop where
  | damaged {offset : Nat} {fault : RecordFault} : offset ∈ offsets →
      blob.recordAt offset = .error fault → Obstacle blob budget offsets (Cause.record fault)
  | tooLarge {segment : List Nat} {fault : Fault} :
      segment ∈ cut (tokensAt blob) budget offsets →
      (∀ offset ∈ segment, ∃ record, blob.recordAt offset = .ok record) →
      BatchRecord.encode (batchAt blob segment) = .error fault → Obstacle blob budget offsets fault

section next

variable {blob : Blob} {budget key : Nat} {index left : Index} {segment : List Nat}

/-- What is in the way of the rest was in the way before. -/
theorem TakesFrom.obstacle {fault : Fault} (h : TakesFrom blob budget key segment index left)
    {k : Nat} (hleft : Obstacle blob budget (left.offsets k) fault) :
    Obstacle blob budget (index.offsets k) fault := by
  by_cases hkey : key = k
  · subst hkey
    cases hleft with
    | damaged hmem hdamaged =>
        refine .damaged ?_ hdamaged
        rw [h.split]
        exact List.mem_append_right segment hmem
    | tooLarge hmem hread hencode =>
        refine .tooLarge ?_ hread hencode
        rw [h.cut]
        exact List.mem_cons_of_mem segment hmem
  · rw [← h.others k hkey]
    exact hleft

/-- Putting back what is left of a bucket takes its first segment out of it. -/
theorem takesFrom_setBucket {rest : Queue Nat} (hindex : index.Coherent)
    (hcut : cut (tokensAt blob) budget (index.offsets key)
      = segment :: cut (tokensAt blob) budget rest.toList)
    (hne : segment ≠ []) (hsplit : index.offsets key = segment ++ rest.toList)
    (hcounted : rest.Counted)
    (hread : ∀ offset ∈ segment, ∃ record, blob.recordAt offset = .ok record)
    (hfits : BatchRecord.Fits (batchAt blob segment)) :
    TakesFrom blob budget key segment index
      (index.setBucket key rest (index.total - segment.length)) := by
  have hleft := Index.offsets_setBucket index key (index.total - segment.length) hcounted
  have hown : (index.setBucket key rest (index.total - segment.length)).offsets key
      = rest.toList := by rw [hleft, if_pos rfl]
  refine ⟨by rw [hcut, hown], hne, by rw [hsplit, hown], fun k hk => ?_, hread, hfits,
    hindex.setBucket hcounted hsplit, ?_⟩
  · rw [hleft, if_neg hk]
  · have hle := hindex.length_offsets_le key
    rw [hsplit, List.length_append] at hle
    show index.total - segment.length + segment.length = index.total
    omega

/-- **A bucket that holds something gives its first segment, or something is in the way.** -/
theorem next_spec (blob : Blob) (budget : Nat) (hindex : index.Coherent)
    (hlive : index.offsets key ≠ []) :
    match next blob budget index key with
    | .ok (packed, left) => ∃ segment, TakesFrom blob budget key segment index left ∧
        packed = packedAt blob key segment
    | .error fault => Obstacle blob budget (index.offsets key) fault := by
  obtain ⟨offset, later, hoffsets⟩ := List.exists_cons_of_ne_nil hlive
  have hqueue : ((index.bucket? key).getD .empty).toList = offset :: later := by
    rw [Index.toList_getD_empty, hoffsets]
  have hcounted : ((index.bucket? key).getD .empty).Counted := by
    cases hq : index.bucket? key with
    | none => exact Queue.counted_empty
    | some q => exact hindex.counted hq
  have hspec := fill_spec blob budget hqueue hcounted
  rw [next]
  cases hfill : fill blob budget ((index.bucket? key).getD .empty) with
  | error damaged =>
      rw [hfill] at hspec
      obtain ⟨bad, hbad, hdamaged⟩ := hspec
      rw [hoffsets]
      exact .damaged hbad hdamaged
  | ok filled =>
      rw [hfill] at hspec
      set more := goOn (tokensAt blob) budget (tokensAt blob offset) later with hmore
      have hcut : cut (tokensAt blob) budget (index.offsets key)
          = (offset :: more.1) :: cut (tokensAt blob) budget more.2 := by
        rw [hoffsets, cut_cons]
      have hsplit : index.offsets key = (offset :: more.1) ++ filled.rest.toList := by
        rw [hoffsets, hspec.rest, List.cons_append, hmore, goOn_append]
      have hpairs : (⟨filled.pairs⟩ : Batch) = batchAt blob (offset :: more.1) :=
        congrArg Batch.mk hspec.pairs
      simp only [hpairs]
      cases hencode : BatchRecord.encode (batchAt blob (offset :: more.1)) with
      | error fault =>
          exact .tooLarge (by rw [hcut]; exact List.mem_cons_self ..) hspec.readable hencode
      | ok bytes =>
          obtain ⟨hfits, rfl⟩ := BatchRecord.encode_ok_iff.mp hencode
          have hlength : filled.pairs.length = (offset :: more.1).length := by
            rw [hspec.pairs, List.length_map]
          refine ⟨offset :: more.1, ?_, ?_⟩
          · rw [hlength]
            rw [← hspec.rest] at hcut
            exact takesFrom_setBucket hindex hcut (by simp) hsplit hspec.counted hspec.readable
              hfits
          · rw [packedAt, ← Nat.zero_add (weigh _ _), ← hspec.tokens]

end next

/-- A batch that was taken fits its record and stands beside it. -/
theorem encode_of_next {blob : Blob} {budget key : Nat} {index index' : Index}
    {packed : PackedBatch} (h : next blob budget index key = .ok (packed, index')) :
    BatchRecord.encode packed.batch = .ok packed.bytes := by
  unfold next at h
  split at h
  · simp at h
  · split at h
    · simp at h
    · rename_i bytes hencode
      obtain ⟨rfl, -⟩ := Prod.mk.inj (Except.ok.inj h)
      exact hencode

end Bitext.Packing
