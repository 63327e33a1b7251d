/-
Reading at any position is safe.

The decoders are stated with exact numbers, so no position in them can wrap, and cutting bytes out
of a file cannot fail.  A machine has neither.  Its numbers have 64 bits, its sum of two of them
wraps, and it stops when it is told to take bytes from outside of a buffer.  It reads with a cursor,
which moves over the buffer, and lengths that come from the file are added to where it stands.

Here the decoders are written once more for such a machine, and they come to the same.  What makes
it so is that the cursor moves by one checked sum, which is compared with the size of the buffer
before any byte is taken.  So wherever it stands, even outside of the buffer, and however large the
lengths in the file are, either it goes on to a position inside or the reading ends with a fault.

Which bytes an answer has used follows from what the decoders are known to read: a record is read
exactly where it stands, so the same answer is read from whatever has the bytes of the record there.
-/
import Bitext.Proofs.Record.Canonical

namespace Bitext

/-! ### A machine -/

/-- Bytes in the memory of a machine. -/
structure Buffer where
  bytes : ByteArray
  fits : bytes.size < UInt64.size

/-- Why a reading has no result. -/
inductive Stop where
  /-- A fault of the record, which is reported. -/
  | fault (fault : RecordFault)
  /-- Bytes were taken from outside of the buffer, which ends the program. -/
  | outside
  deriving DecidableEq, Repr

/-- A decoding moves a position. -/
abbrev Decoding := StateT UInt64 (Except Stop)

/-- The sum of two numbers, if it has not wrapped. -/
def checkedAdd (first second : UInt64) : Option UInt64 :=
  if first + second < first then none else some (first + second)

/-- The difference of two numbers, or zero. -/
def saturatingSub (first second : UInt64) : UInt64 :=
  if first < second then 0 else first - second

namespace Buffer

variable (buffer : Buffer)

/-- The number of bytes. -/
def size : UInt64 := UInt64.ofNat buffer.bytes.size

/-- The bytes from one position to another. -/
def range (start stop : UInt64) : Except Stop ByteArray :=
  if start ≤ stop ∧ stop ≤ buffer.size then .ok (buffer.bytes.extract start.toNat stop.toNat)
  else .error .outside

/-- The next bytes. -/
def take (count : UInt64) : Decoding ByteArray := fun position =>
  match (checkedAdd position count).filter (· ≤ buffer.size) with
  | some stop => (buffer.range position stop).map (·, stop)
  | none =>
      .error (.fault ⟨position.toNat,
        .tooShort count.toNat (saturatingSub buffer.size position).toNat⟩)

/-- A byte of bytes that were taken. -/
def byteOf (taken : ByteArray) (i : Nat) : Except Stop UInt8 :=
  match taken.data[i]? with
  | some b => .ok b
  | none => .error .outside

/-- The number in the next four bytes. -/
def word : Decoding UInt32 := do
  let taken ← buffer.take 4
  let bytes : List UInt8 :=
    [← byteOf taken 0, ← byteOf taken 1, ← byteOf taken 2, ← byteOf taken 3]
  return UInt32.ofNat (Bytes.toNat bytes)

/-- The text whose length comes next. -/
def text : Decoding String := do
  let start ← get
  let length ← buffer.word
  let content ← buffer.take length.toUInt64
  match Utf8.decode content with
  | .ok s => return s
  | .error defect => throw (.fault ⟨start.toNat, .notText defect⟩)

/-- The token counts that come next. -/
def header : Decoding Header := do
  let sourceTokens ← buffer.word
  let targetTokens ← buffer.word
  return ⟨sourceTokens.toNat, targetTokens.toNat⟩

/-- The record of a pair that comes next. -/
def record : Decoding PairRecord := do
  let header ← buffer.header
  let source ← buffer.text
  let target ← buffer.text
  return ⟨header, ⟨source, target⟩⟩

/-- The record of a batch that comes next, and the position behind it. -/
def batch : Decoding (Option (Batch × UInt64)) := do
  let start ← get
  let count := Bytes.signed (← buffer.word).toNat
  if count = BatchRecord.endMark then
    return none
  if count ≤ 0 then
    throw (.fault ⟨start.toNat, .pairCount count⟩)
  let source ← buffer.text
  let target ← buffer.text
  let sources := BatchRecord.splitLines source
  let targets := BatchRecord.splitLines target
  if (sources.length : Int) ≠ count ∨ (targets.length : Int) ≠ count then
    throw (.fault ⟨start.toNat, .lineCounts count.toNat sources.length targets.length⟩)
  return some (⟨List.zipWith Pair.mk sources targets⟩, ← get)

/-- The token counts of the record at an offset. -/
def headerAt (offset : UInt64) : Except Stop Header := buffer.header.run' offset

/-- The record of a pair at an offset. -/
def recordAt (offset : UInt64) : Except Stop PairRecord := buffer.record.run' offset

/-- The record of a batch at an offset. -/
def batchAt (offset : UInt64) : Except Stop (Option (Batch × UInt64)) := buffer.batch.run' offset

end Buffer

/-! ### Machine numbers -/

theorem Buffer.toNat_size (buffer : Buffer) : buffer.size.toNat = buffer.bytes.size :=
  UInt64.toNat_ofNat_of_lt' buffer.fits

/-- A sum is checked to be exact. -/
theorem checkedAdd_eq_some_iff {first second sum : UInt64} :
    checkedAdd first second = some sum ↔ sum.toNat = first.toNat + second.toNat := by
  have hfirst := first.toNat_lt
  have hsecond := second.toNat_lt
  have hsum : (first + second).toNat = (first.toNat + second.toNat) % 2 ^ 64 :=
    UInt64.toNat_add first second
  unfold checkedAdd
  by_cases hwraps : first + second < first
  · rw [if_pos hwraps]
    have hless : (first + second).toNat < first.toNat := UInt64.lt_iff_toNat_lt.mp hwraps
    have hrange := sum.toNat_lt
    constructor
    · intro h
      cases h
    · intro h
      omega
  · rw [if_neg hwraps]
    have hkept : ¬(first + second).toNat < first.toNat := mt UInt64.lt_iff_toNat_lt.mpr hwraps
    have hexact : (first + second).toNat = first.toNat + second.toNat := by omega
    constructor
    · intro h
      obtain rfl := Option.some.inj h
      exact hexact
    · intro h
      rw [← UInt64.toNat_inj.mp (hexact.trans h.symm)]

theorem toNat_saturatingSub (first second : UInt64) :
    (saturatingSub first second).toNat = first.toNat - second.toNat := by
  unfold saturatingSub
  by_cases hless : first < second
  · have hnat : first.toNat < second.toNat := UInt64.lt_iff_toNat_lt.mp hless
    rw [if_pos hless, Nat.sub_eq_zero_of_le hnat.le]
    rfl
  · have hnat : second ≤ first := UInt64.not_lt.mp hless
    rw [if_neg hless, UInt64.toNat_sub_of_le _ _ hnat]

/-! ### A reading and a decoder -/

/-- A reading from a position comes to what a decoder answers: to the same fault, or to a result and
a position that the decoder means by its answer.  It cannot have taken bytes from outside. -/
inductive ComesTo {α β : Type} (means : β → α → UInt64 → Prop) (reading : Decoding α)
    (position : UInt64) : Except RecordFault β → Prop where
  | fault {fault : RecordFault} : reading.run position = .error (.fault fault) →
      ComesTo means reading position (.error fault)
  | found {a : α} {next : UInt64} {b : β} : reading.run position = .ok (a, next) →
      means b a next → ComesTo means reading position (.ok b)

namespace ComesTo

variable {α β γ δ : Type} {means : β → α → UInt64 → Prop} {intends : δ → γ → UInt64 → Prop}
  {first : Decoding α} {rest : α → Decoding γ} {position next : UInt64}
  {expected : Except RecordFault β}

/-- Only the run counts. -/
theorem of_run {other : Decoding α} (h : ComesTo means other next expected)
    (hrun : first.run position = other.run next) : ComesTo means first position expected := by
  cases h with
  | fault hfault => exact .fault (hrun.trans hfault)
  | found hfound hmeans => exact .found (hrun.trans hfound) hmeans

/-- A reading may look at where it starts. -/
theorem of_get {reading : UInt64 → Decoding α}
    (h : ComesTo means (reading position) position expected) :
    ComesTo means (get >>= reading) position expected :=
  h.of_run rfl

/-- Readings one after another come to decoders one after another. -/
theorem bind {further : β → Except RecordFault δ} (h : ComesTo means first position expected)
    (hrest : ∀ b a next, expected = .ok b → means b a next →
      ComesTo intends (rest a) next (further b)) :
    ComesTo intends (first >>= rest) position (expected >>= further) := by
  cases h with
  | fault hrun =>
      refine .fault ?_
      rw [StateT.run_bind, hrun]
      rfl
  | found hrun hmeans =>
      refine (hrest _ _ _ rfl hmeans).of_run ?_
      rw [StateT.run_bind, hrun]
      rfl

/-- The answer of a reading, as far as the decoder tells it. -/
theorem run'_eq {view : α → β} (h : ComesTo means first position expected)
    (hview : ∀ b a next, means b a next → view a = b) :
    (first.run' position).map view = expected.mapError .fault := by
  show ((·.1) <$> first.run position).map view = _
  cases h with
  | fault hrun =>
      rw [hrun]
      rfl
  | found hrun hmeans =>
      rw [hrun, ← hview _ _ _ hmeans]
      rfl

end ComesTo

namespace Buffer

variable (buffer : Buffer) (position : UInt64)

/-- The cursor is told to go where the sum is exact and inside of the buffer. -/
theorem destination_eq_some_iff {count stop : UInt64} :
    (checkedAdd position count).filter (· ≤ buffer.size) = some stop ↔
      stop.toNat = position.toNat + count.toNat ∧
        position.toNat + count.toNat ≤ buffer.bytes.size := by
  rw [Option.filter_eq_some_iff, checkedAdd_eq_some_iff, decide_eq_true_eq,
    UInt64.le_iff_toNat_le, toNat_size]
  constructor
  · rintro ⟨hsum, hle⟩
    exact ⟨hsum, hsum ▸ hle⟩
  · rintro ⟨hsum, hle⟩
    exact ⟨hsum, hsum ▸ hle⟩

/-- **The cursor moves on inside of the buffer, or it stays.** -/
theorem take_comesTo (count : UInt64) :
    ComesTo (fun found taken next => taken = found ∧ next.toNat = position.toNat + count.toNat)
      (buffer.take count) position (Bytes.slice buffer.bytes position.toNat count.toNat) := by
  unfold Bytes.slice
  by_cases hinside : position.toNat + count.toNat ≤ buffer.bytes.size
  · -- a sum that lies inside of the buffer is a machine number
    obtain ⟨stop, hsum⟩ : ∃ stop : UInt64, stop.toNat = position.toNat + count.toNat :=
      ⟨_, UInt64.toNat_ofNat_of_lt' (hinside.trans_lt buffer.fits)⟩
    have hstop := (buffer.destination_eq_some_iff position).mpr ⟨hsum, hinside⟩
    have hrange : position ≤ stop ∧ stop ≤ buffer.size := by
      rw [UInt64.le_iff_toNat_le, UInt64.le_iff_toNat_le, toNat_size]
      omega
    rw [if_pos hinside, ← hsum]
    refine .found ?_ ⟨rfl, rfl⟩
    simp only [StateT.run, take, hstop, range, if_pos hrange, Except.map]
  · have hstop : (checkedAdd position count).filter (· ≤ buffer.size) = none := by
      rw [Option.eq_none_iff_forall_ne_some]
      intro stop hsome
      exact hinside ((buffer.destination_eq_some_iff position).mp hsome).2
    rw [if_neg hinside, ← toNat_size, ← toNat_saturatingSub]
    refine .fault ?_
    simp only [StateT.run, take, hstop]

/-- The four bytes of a number are there when they were taken. -/
theorem word_comesTo :
    ComesTo (fun n found next => found.toNat = n ∧ next.toNat = position.toNat + 4)
      buffer.word position (Bytes.wordAt buffer.bytes position.toNat) := by
  show ComesTo _ _ _ (Bytes.slice buffer.bytes position.toNat 4
    >>= fun found => .ok (Bytes.toNat found.data.toList))
  refine (buffer.take_comesTo position 4).bind fun _ taken next hslice hmeans => ?_
  obtain ⟨rfl, hnext⟩ := hmeans
  have hsize : taken.data.toList.length = 4 := (Bytes.slice_ok_iff.mp hslice).1
  have hfits := Bytes.toNat_lt taken.data.toList
  rw [hsize] at hfits
  -- with four bytes taken, none of the four indexes is outside
  obtain ⟨⟨bytes⟩⟩ := taken
  match bytes, hsize with
  | [_, _, _, _], _ => exact .found rfl ⟨UInt32.toNat_ofNat_of_lt' hfits, hnext⟩

/-- A text is read up to its end, and a fault in it is told at its length. -/
theorem text_comesTo :
    ComesTo (fun found s next => found = (s, next.toNat))
      buffer.text position (Bytes.textAt buffer.bytes position.toNat) := by
  refine .of_get ((buffer.word_comesTo position).bind fun length found next _ hlength => ?_)
  obtain ⟨rfl, hnext⟩ := hlength
  have hcount : found.toUInt64.toNat = found.toNat := UInt32.toNat_toUInt64 found
  rw [← hnext, ← hcount]
  refine (buffer.take_comesTo next found.toUInt64).bind fun content taken last _ hcontent => ?_
  obtain ⟨rfl, hlast⟩ := hcontent
  rw [← hlast]
  cases Utf8.decode taken with
  | error defect => exact .fault rfl
  | ok s => exact .found rfl rfl

/-- Token counts are read as the decoder reads them. -/
theorem header_comesTo :
    ComesTo (fun found header next => header = found ∧ next.toNat = position.toNat + 8)
      buffer.header position (PairRecord.headerAt buffer.bytes position.toNat) := by
  refine (buffer.word_comesTo position).bind fun _ source next _ hsource => ?_
  obtain ⟨rfl, hnext⟩ := hsource
  rw [← hnext]
  refine (buffer.word_comesTo next).bind fun _ target last _ htarget => ?_
  obtain ⟨rfl, hlast⟩ := htarget
  exact .found rfl ⟨rfl, by omega⟩

/-- The record of a pair is read as the decoder reads it. -/
theorem record_comesTo :
    ComesTo (fun found record _ => record = found) buffer.record position
      (PairRecord.readAt buffer.bytes position.toNat) := by
  refine (buffer.header_comesTo position).bind fun header _ next _ hheader => ?_
  obtain ⟨rfl, hnext⟩ := hheader
  rw [← hnext]
  refine (buffer.text_comesTo next).bind fun _ source middle _ hsource => ?_
  obtain rfl := hsource
  refine (buffer.text_comesTo middle).bind fun _ target last _ htarget => ?_
  obtain rfl := htarget
  exact .found rfl rfl

/-- The record of a batch is read as the decoder reads it. -/
theorem batch_comesTo :
    ComesTo (fun found batch _ => batch.map (Prod.map id UInt64.toNat) = found)
      buffer.batch position (BatchRecord.decode buffer.bytes position.toNat) := by
  refine .of_get ((buffer.word_comesTo position).bind fun _ count next _ hcount => ?_)
  obtain ⟨rfl, hnext⟩ := hcount
  dsimp only
  rw [← hnext]
  by_cases hend : Bytes.signed count.toNat = BatchRecord.endMark
  · rw [if_pos hend, if_pos hend]
    exact .found rfl rfl
  rw [if_neg hend, if_neg hend]
  by_cases hcount : Bytes.signed count.toNat ≤ 0
  · rw [if_pos hcount, if_pos hcount]
    exact .fault rfl
  rw [if_neg hcount, if_neg hcount]
  refine (buffer.text_comesTo next).bind fun _ source middle _ hsource => ?_
  obtain rfl := hsource
  refine (buffer.text_comesTo middle).bind fun _ target last _ htarget => ?_
  obtain rfl := htarget
  dsimp only
  split
  · exact .fault rfl
  · exact .found rfl rfl

end Buffer

/-! ### Parts inside of a file -/

namespace Bytes

variable {file other part : ByteArray} {position n : Nat} {found : String × Nat}

theorem le_size_of_wordAt (h : wordAt file position = .ok n) : position + 4 ≤ file.size := by
  have hle := (wordAt_ok_iff.mp h).2.le_size
  rw [size_word] at hle
  exact hle

theorem bounds_of_textAt (h : textAt file position = .ok found) :
    position < found.2 ∧ found.2 ≤ file.size := by
  obtain ⟨-, hstands, hnext⟩ := textAt_ok_iff.mp h
  have hle := hstands.le_size
  rw [size_text] at hle hnext
  omega

/-- A part stands wherever the same bytes are. -/
theorem StandsAt.of_same (h : StandsAt file position part)
    (hle : position + part.size ≤ other.size)
    (hsame : other.extract position (position + part.size)
      = file.extract position (position + part.size)) :
    StandsAt other position part :=
  standsAt_iff.mpr ⟨hle, hsame.trans (standsAt_iff.mp h).2⟩

end Bytes

theorem PairRecord.headerAt_ok_iff {file : ByteArray} {offset : Nat} {header : Header} :
    PairRecord.headerAt file offset = .ok header ↔
      (header.sourceTokens < Bytes.wordRange ∧ header.targetTokens < Bytes.wordRange) ∧
        Bytes.StandsAt file offset
          (Bytes.word header.sourceTokens ++ Bytes.word header.targetTokens) := by
  constructor
  · intro h
    obtain ⟨source, hsource, h⟩ := exists_of_bind_ok h
    obtain ⟨target, htarget, h⟩ := exists_of_bind_ok h
    obtain rfl := Except.ok.inj h
    obtain ⟨hsourceFits, hsourceStands⟩ := Bytes.wordAt_ok_iff.mp hsource
    obtain ⟨htargetFits, htargetStands⟩ := Bytes.wordAt_ok_iff.mp htarget
    refine ⟨⟨hsourceFits, htargetFits⟩, hsourceStands.join ?_⟩
    rw [Bytes.size_word]
    exact htargetStands
  · rintro ⟨⟨hsourceFits, htargetFits⟩, hstands⟩
    have htarget := hstands.right
    rw [Bytes.size_word] at htarget
    simp only [PairRecord.headerAt, hstands.left.wordAt_eq hsourceFits,
      htarget.wordAt_eq htargetFits, bind, Except.bind]

/-! ### Where a decoder looks -/

/-- A fault is named between the position and the end of the file, or at the position. -/
def FaultsBehind {α : Type} (file : ByteArray) (position : Nat) (answer : Except RecordFault α) :
    Prop :=
  ∀ fault, answer = .error fault →
    position ≤ fault.offset ∧ fault.offset ≤ max position file.size

/-- What is to be said of a decoder at an offset of a file. -/
structure Safe {α : Type} (decoder : ByteArray → Nat → Except RecordFault α) (file : ByteArray)
    (offset : Nat) : Prop where
  faults : FaultsBehind file offset (decoder file offset)
  /-- An answer is told by the bytes from the offset to a stop inside the file: whatever else has
  these bytes there is read in the same way. -/
  inside : ∀ found, decoder file offset = .ok found → ∃ stop, offset < stop ∧ stop ≤ file.size ∧
    ∀ other : ByteArray, stop ≤ other.size → other.extract offset stop = file.extract offset stop →
      decoder other offset = .ok found

namespace FaultsBehind

variable {α β : Type} {file : ByteArray} {position next : Nat} {first answer : Except RecordFault α}

theorem ok (file : ByteArray) (position : Nat) (a : α) :
    FaultsBehind file position (.ok a : Except RecordFault α) := by
  intro fault h
  cases h

/-- A fault may be told at the position itself. -/
theorem here (file : ByteArray) (position : Nat) (defect : RecordDefect) :
    FaultsBehind file position (.error ⟨position, defect⟩ : Except RecordFault α) := by
  rintro fault ⟨⟩
  exact ⟨Nat.le_refl position, Nat.le_max_left position file.size⟩

/-- What is read further on is read inside of the file. -/
theorem later (h : FaultsBehind file next answer) (hle : position ≤ next)
    (hinside : next ≤ file.size) : FaultsBehind file position answer := by
  intro fault hfault
  have hbounds := h fault hfault
  omega

theorem bind {rest : α → Except RecordFault β} (h : FaultsBehind file position first)
    (hrest : ∀ a, first = .ok a → FaultsBehind file position (rest a)) :
    FaultsBehind file position (first >>= rest) := by
  cases first with
  | error fault =>
      rintro _ ⟨⟩
      exact h fault rfl
  | ok a => exact hrest a rfl

theorem slice (file : ByteArray) (position count : Nat) :
    FaultsBehind file position (Bytes.slice file position count) := by
  unfold Bytes.slice
  split
  · exact .ok file position _
  · exact .here file position _

theorem wordAt (file : ByteArray) (position : Nat) :
    FaultsBehind file position (Bytes.wordAt file position) := by
  show FaultsBehind file position
    (Bytes.slice file position 4 >>= fun found => .ok (Bytes.toNat found.data.toList))
  exact (slice file position 4).bind fun _ _ => .ok file position _

theorem textAt (file : ByteArray) (position : Nat) :
    FaultsBehind file position (Bytes.textAt file position) := by
  refine (wordAt file position).bind fun length hlength => ?_
  have hword := Bytes.le_size_of_wordAt hlength
  refine ((slice file (position + 4) length).later (by omega) hword).bind fun content _ => ?_
  split
  · exact .ok file position _
  · exact .here file position _

theorem headerAt (file : ByteArray) (offset : Nat) :
    FaultsBehind file offset (PairRecord.headerAt file offset) := by
  refine (wordAt file offset).bind fun source hsource => ?_
  have hword := Bytes.le_size_of_wordAt hsource
  exact ((wordAt file (offset + 4)).later (by omega) hword).bind fun _ _ => .ok file offset _

/-- Two texts are read one behind the other. -/
theorem twoTexts {rest : String × Nat → String × Nat → Except RecordFault β} (file : ByteArray)
    (hle : position ≤ next) (hinside : next ≤ file.size)
    (hrest : ∀ source target, FaultsBehind file position (rest source target)) :
    FaultsBehind file position (do
      let source ← Bytes.textAt file next
      let target ← Bytes.textAt file source.2
      rest source target) := by
  refine ((textAt file next).later hle hinside).bind fun source hsource => ?_
  obtain ⟨hpassed, hsourceEnd⟩ := Bytes.bounds_of_textAt hsource
  have hfurther : position ≤ source.2 := by omega
  exact ((textAt file source.2).later hfurther hsourceEnd).bind fun target _ => hrest source target

theorem readAt (file : ByteArray) (offset : Nat) :
    FaultsBehind file offset (PairRecord.readAt file offset) := by
  refine (headerAt file offset).bind fun header hheader => ?_
  have hle := (PairRecord.headerAt_ok_iff.mp hheader).2.le_size
  rw [ByteArray.size_append, Bytes.size_word, Bytes.size_word] at hle
  exact .twoTexts file (by omega) hle fun source target => .ok file offset _

theorem decode (file : ByteArray) (position : Nat) :
    FaultsBehind file position (BatchRecord.decode file position) := by
  refine (wordAt file position).bind fun count hcount => ?_
  have hword := Bytes.le_size_of_wordAt hcount
  dsimp only
  split
  · exact .ok file position _
  split
  · exact .here file position _
  refine .twoTexts file (by omega) hword fun source target => ?_
  split
  · exact .here file position _
  · exact .ok file position _

end FaultsBehind

/-! ### Any position -/

section

variable {file : ByteArray} {offset : Nat}

/-- What is read wherever a part stands uses no bytes but those of the part. -/
theorem Bytes.StandsAt.inside {α : Type} {decoder : ByteArray → Nat → Except RecordFault α}
    {part : ByteArray} {found : α} (h : StandsAt file offset part) (hpart : 0 < part.size)
    (hreads : ∀ other, StandsAt other offset part → decoder other offset = .ok found) :
    ∃ stop, offset < stop ∧ stop ≤ file.size ∧
      ∀ other : ByteArray, stop ≤ other.size →
        other.extract offset stop = file.extract offset stop →
          decoder other offset = .ok found := by
  refine ⟨offset + part.size, by omega, h.le_size, fun other hle hsame => ?_⟩
  exact hreads other (h.of_same hle hsame)

theorem safe_headerAt (file : ByteArray) (offset : Nat) :
    Safe PairRecord.headerAt file offset where
  faults := .headerAt file offset
  inside := by
    intro header h
    obtain ⟨hfits, hstands⟩ := PairRecord.headerAt_ok_iff.mp h
    refine hstands.inside ?_ fun other hother => PairRecord.headerAt_ok_iff.mpr ⟨hfits, hother⟩
    rw [ByteArray.size_append, Bytes.size_word, Bytes.size_word]
    omega

theorem safe_readAt (file : ByteArray) (offset : Nat) : Safe PairRecord.readAt file offset where
  faults := .readAt file offset
  inside := by
    intro record h
    have hrecord : PairRecord.ofAdmitted
        ⟨record.pair, record.header.sourceTokens, record.header.targetTokens, false, 0⟩
          = record := rfl
    obtain ⟨hfits, hstands⟩ := (PairRecord.readAt_ok_iff hrecord).mp h
    refine hstands.inside ?_ fun other hother =>
      (PairRecord.readAt_ok_iff hrecord).mpr ⟨hfits, hother⟩
    rw [PairRecord.size_encode, BlobWriter.recordSize]
    omega

theorem safe_decode (file : ByteArray) (offset : Nat) : Safe BatchRecord.decode file offset where
  faults := .decode file offset
  inside := by
    rintro (_ | ⟨batch, next⟩) h
    · have hstands := BatchRecord.decode_eq_none_iff.mp h
      exact hstands.inside (by decide) fun other => BatchRecord.decode_eq_none_iff.mpr
    · obtain ⟨hbatch, hstands, hnext⟩ := BatchRecord.decode_eq_some_iff.mp h
      refine hstands.inside ?_ fun other hother =>
        BatchRecord.decode_eq_some_iff.mpr ⟨hbatch, hother, hnext⟩
      obtain ⟨hless, -, -⟩ := BatchRecord.extract_of_decode h
      omega

end

namespace Buffer

variable {buffer : Buffer} {offset next : UInt64} {batch : Batch}

/-- The position behind a batch lies behind the offset and not outside. -/
theorem bounds_of_batchAt
    (hsame : (buffer.batchAt offset).map (Option.map (Prod.map id UInt64.toNat))
      = (BatchRecord.decode buffer.bytes offset.toNat).mapError .fault)
    (h : buffer.batchAt offset = .ok (some (batch, next))) :
    offset.toNat < next.toNat ∧ next.toNat ≤ buffer.bytes.size := by
  rw [h] at hsame
  cases hdecode : BatchRecord.decode buffer.bytes offset.toNat with
  | error fault =>
      rw [hdecode] at hsame
      cases hsame
  | ok found =>
      rw [hdecode] at hsame
      obtain rfl := Except.ok.inj hsame
      obtain ⟨hless, hle, -⟩ := BatchRecord.extract_of_decode hdecode
      exact ⟨hless, hle⟩

/-- **Reading is safe at any position.**  A machine with 64 bits may be told to read a header, the
record of a pair or the record of a batch at any of its numbers, from any bytes in its memory.  It
answers as the decoder does whose numbers are exact, so no position wraps and no bytes are taken
from outside.  A fault is named between the offset and the end of the bytes, or at the offset; an
answer is told by bytes from the offset on that lie inside, and a batch comes with a position that
lies behind the offset and not outside. -/
theorem reading_is_safe_at_any_position (buffer : Buffer) (offset : UInt64) :
    (buffer.headerAt offset = (PairRecord.headerAt buffer.bytes offset.toNat).mapError .fault ∧
      Safe PairRecord.headerAt buffer.bytes offset.toNat) ∧
    (buffer.recordAt offset = (PairRecord.readAt buffer.bytes offset.toNat).mapError .fault ∧
      Safe PairRecord.readAt buffer.bytes offset.toNat) ∧
    (buffer.batchAt offset).map (Option.map (Prod.map id UInt64.toNat))
        = (BatchRecord.decode buffer.bytes offset.toNat).mapError .fault ∧
      Safe BatchRecord.decode buffer.bytes offset.toNat ∧
      ∀ batch next, buffer.batchAt offset = .ok (some (batch, next)) →
        offset < next ∧ next ≤ buffer.size := by
  have hheader : (buffer.headerAt offset).map id = _ :=
    (buffer.header_comesTo offset).run'_eq fun _ _ _ h => h.1
  have hrecord : (buffer.recordAt offset).map id = _ :=
    (buffer.record_comesTo offset).run'_eq fun _ _ _ h => h
  have hbatch := (buffer.batch_comesTo offset).run'_eq fun _ _ _ h => h
  rw [Except.map_id, id_eq] at hheader hrecord
  refine ⟨⟨hheader, safe_headerAt _ _⟩, ⟨hrecord, safe_readAt _ _⟩, hbatch, safe_decode _ _,
    fun batch next h => ?_⟩
  obtain ⟨hless, hle⟩ := bounds_of_batchAt hbatch h
  rw [UInt64.lt_iff_toNat_lt, UInt64.le_iff_toNat_le, toNat_size]
  exact ⟨hless, hle⟩

/-- A sum that would wrap is told as a fault, far outside of the bytes. -/
example : (⟨⟨#[1, 0, 0, 0]⟩, by decide⟩ : Buffer).headerAt 18446744073709551614
    = .error (.fault ⟨18446744073709551614, .tooShort 4 0⟩) := by
  decide

end Buffer

end Bitext
