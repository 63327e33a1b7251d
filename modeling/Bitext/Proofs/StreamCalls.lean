/-
A stream under any calls.

A stream is asked for its next batch in two ways, for the batch alone or for its number as well,
and its file may hold anything.  Whatever it holds, it reads as some batches and then comes to an
end mark or to a record that cannot be read.  A record takes at least twelve bytes, so the size of
the file bounds the number of these batches.  They settle what a stream answers to any calls: the
way of asking decides only whether a batch comes with its number.

The disk is left alone by the calls that hand out a batch.  The first call that does not deletes
the file, and whoever gives the stream up afterwards has nothing left to delete.
-/
import Bitext.Proofs.Cleanup
import Bitext.Proofs.EpochFile

namespace Bitext

/-! ### What a file reads as -/

namespace BatchRecord

variable {file : ByteArray} {position : Nat} {batches : List Batch} {fault : Option RecordFault}

/-- The bytes of a record that has no text: the number of pairs and the two lengths. -/
def leastSize : Nat := 12

theorem leastSize_le (batch : Batch) : leastSize ≤ (bytes batch).size := by
  rw [bytes, ByteArray.size_append, ByteArray.size_append, Bytes.size_word, Bytes.size_text,
    Bytes.size_text, leastSize]
  omega

/-- Whatever a file holds, it reads as some batches, and then it ends or breaks. -/
theorem exists_reads (file : ByteArray) (position : Nat) :
    ∃ batches fault, Reads file position batches fault := by
  -- each record that is read leaves less of the file
  induction hleft : file.size - position using Nat.strong_induction_on generalizing position with
  | _ left ih =>
      cases hdecode : decode file position with
      | error damaged => exact ⟨[], some damaged, .breaks hdecode⟩
      | ok found =>
          cases found with
          | none => exact ⟨[], none, .ends hdecode⟩
          | some found =>
              obtain ⟨batch, next⟩ := found
              obtain ⟨hless, hle, -⟩ := extract_of_decode hdecode
              obtain ⟨batches, fault, hrest⟩ := ih (file.size - next) (by omega) next rfl
              exact ⟨batch :: batches, fault, .batch hdecode hrest⟩

/-- There is room in the file for every batch that it reads as. -/
theorem Reads.length_mul_le (h : Reads file position batches fault) :
    batches.length * leastSize ≤ file.size - position := by
  induction h with
  | ends => simp
  | breaks => simp
  | @batch position next batch rest fault hdecode _ ih =>
      obtain ⟨-, hstands, rfl⟩ := decode_eq_some_iff.mp hdecode
      have hinside := hstands.le_size
      have hroom := leastSize_le batch
      rw [List.length_cons, Nat.succ_mul]
      omega

end BatchRecord

namespace BatchStream

variable {stream last : BatchStream} {w after : Workspace}

/-! ### Calls and answers -/

/-- A way of asking for the next batch. -/
inductive Call where
  | plain
  | numbered
  deriving DecidableEq, Repr

/-- The number that comes with a batch. -/
def Call.number : Call → Nat → Option Nat
  | .plain, _ => none
  | .numbered, n => some n

/-- The answer to a call: a batch and, if the call was for it, its number; or a fault; or
nothing. -/
abbrev Answer := Option (Except Fault (Option Nat × Batch))

/-- The answer to a call when this is the next batch, if there is one. -/
def Call.answer (call : Call) (found : Option (Except Fault (Nat × Batch))) : Answer :=
  found.map fun result => result.map fun numbered => (call.number numbered.1, numbered.2)

/-- Asks a stream for its next batch. -/
def ask (stream : BatchStream) : Call → Work (Answer × BatchStream)
  | .plain => do
      let (result, stream) ← stream.next
      return (result.map fun found => found.map (none, ·), stream)
  | .numbered => do
      let (result, stream) ← stream.nextNumbered
      return (result.map fun found => found.map fun numbered => (some numbered.1, numbered.2),
        stream)

/-- Asks a stream again and again. -/
def askAll (stream : BatchStream) : List Call → Work (List Answer × BatchStream)
  | [] => return ([], stream)
  | call :: rest => do
      let (answer, stream) ← stream.ask call
      let (answers, stream) ← stream.askAll rest
      return (answer :: answers, stream)

/-- The answer is a batch. -/
def isBatch : Answer → Bool
  | some (.ok _) => true
  | _ => false

/-- The number of batches among answers. -/
def handedOut (answers : List Answer) : Nat := answers.countP isBatch

/-- Both ways of asking take the same step. -/
theorem run_ask {result : Option (Except Fault Batch)}
    (h : stream.next.run w = ((result, last), after)) (call : Call) :
    (stream.ask call).run w
      = ((call.answer (result.map fun found => found.map (last.read, ·)), last), after) := by
  cases call with
  | plain =>
      simp only [ask, Work.run_bind, h]
      cases result with
      | none => rfl
      | some found => cases found <;> rfl
  | numbered =>
      simp only [ask, Work.run_bind, run_nextNumbered h]
      rfl

theorem run_askAll_cons {call : Call} {answer : Answer}
    (h : (stream.ask call).run w = ((answer, last), after)) (rest : List Call) :
    (stream.askAll (call :: rest)).run w
      = ((answer :: ((last.askAll rest).run after).1.1, ((last.askAll rest).run after).1.2),
          ((last.askAll rest).run after).2) := by
  simp only [askAll, Work.run_bind, h]
  rfl

/-! ### One call -/

/-- A call that hands out a batch leaves the disk alone. -/
theorem goesOn_of_batch (h : stream.HasFile w.disk) {batch : Batch}
    (hnext : stream.next.run w = ((some (.ok batch), last), after)) :
    stream.GoesOn last w after := by
  obtain ⟨result, later, left, hrun, ⟨-, hgoes⟩ | ⟨hresult, -⟩⟩ := next_goesOn_or_hasEnded h
  · cases hnext.symm.trans hrun
    exact hgoes
  · cases hnext.symm.trans hrun
    exact absurd rfl (hresult batch)

/-- A call that hands out none lets go of the file. -/
theorem hasEnded_of_no_batch (h : stream.HasFile w.disk) {result : Option (Except Fault Batch)}
    (hnext : stream.next.run w = ((result, last), after))
    (hresult : ∀ batch, result ≠ some (.ok batch)) : stream.HasEnded last w after := by
  obtain ⟨found, later, left, hrun, ⟨⟨batch, hbatch⟩, -⟩ | ⟨-, hended⟩⟩ :=
    next_goesOn_or_hasEnded h
  · cases hnext.symm.trans hrun
    exact absurd hbatch (hresult batch)
  · cases hnext.symm.trans hrun
    exact hended

/-! ### All calls -/

/-- A stream that has ended answers no call. -/
theorem askAll_of_finished (h : stream.finished = true) (calls : List Call) (w : Workspace) :
    (stream.askAll calls).run w = ((calls.map fun _ => none, stream), w) := by
  induction calls with
  | nil => rfl
  | cons call rest ih =>
      rw [run_askAll_cons (run_ask (next_of_finished h w) call), ih]
      rfl

/-- What calls are answered when these results are ahead. -/
def answersTo (calls : List Call) (results : List (Except Fault (Nat × Batch))) : List Answer :=
  calls.mapIdx fun i call => call.answer results[i]?

theorem answersTo_cons (call : Call) (rest : List Call)
    (results : List (Except Fault (Nat × Batch))) :
    answersTo (call :: rest) results
      = call.answer results.head? :: answersTo rest results.tail := by
  rw [answersTo, List.mapIdx_cons, answersTo, List.head?_eq_getElem?]
  simp only [List.getElem?_tail]

theorem answersTo_nil (calls : List Call) : answersTo calls [] = calls.map fun _ => none := by
  induction calls with
  | nil => rfl
  | cons call rest ih =>
      rw [answersTo_cons, List.tail_nil, ih]
      rfl

theorem handedOut_cons (answer : Answer) (answers : List Answer) :
    handedOut (answer :: answers) = handedOut answers + if isBatch answer then 1 else 0 :=
  List.countP_cons

theorem handedOut_map_none (calls : List Call) : handedOut (calls.map fun _ => none) = 0 := by
  rw [handedOut, List.countP_eq_zero]
  intro answer hanswer
  obtain ⟨call, -, rfl⟩ := List.mem_map.mp hanswer
  exact Bool.false_ne_true

theorem none_ne_batch (batch : Batch) :
    (none : Option (Except Fault Batch)) ≠ some (.ok batch) := by
  intro h
  cases h

theorem fault_ne_batch (fault : Fault) (batch : Batch) :
    (some (.error fault) : Option (Except Fault Batch)) ≠ some (.ok batch) := by
  intro h
  cases h

/-- A stream that hands out no batch has answered its last call. -/
theorem run_askAll_of_last {result : Option (Except Fault Batch)}
    (hfinished : stream.finished = false) (hfile : stream.HasFile w.disk)
    (hnext : stream.next.run w = ((result, { stream with finished := true }), after))
    (hresult : ∀ batch, result ≠ some (.ok batch)) (call : Call) (rest : List Call) :
    (stream.askAll (call :: rest)).run w
        = ((call.answer (result.map fun found => found.map (stream.read, ·))
            :: rest.map fun _ => none, { stream with finished := true }), after) ∧
      after.disk = w.disk.erase stream.file.location := by
  obtain ⟨-, hdisk⟩ := hasEnded_of_no_batch hfile hnext hresult
  refine ⟨?_, ?_⟩
  · rw [run_askAll_cons (run_ask hnext call), askAll_of_finished rfl]
  · rw [hdisk, released, hfinished]
    rfl

/-- **What a file reads as decides all answers.**  A stream that has not ended hands out, call by
call, what its file reads as; it counts the batches, and it lets go of its file when it is asked
for more than there are. -/
theorem run_askAll (calls : List Call) :
    ∀ {stream : BatchStream} {w : Workspace} {batches : List Batch} {fault : Option RecordFault},
      stream.finished = false → stream.HasFile w.disk →
      BatchRecord.Reads stream.bytes stream.position batches fault →
      ∃ last after, (stream.askAll calls).run w
          = ((answersTo calls (answersOf stream.file stream.read batches fault), last), after) ∧
        last.file = stream.file ∧
        last.read
          = stream.read
            + handedOut (answersTo calls (answersOf stream.file stream.read batches fault)) ∧
        last.finished = decide (batches.length < calls.length) ∧
        after.disk
          = if batches.length < calls.length then w.disk.erase stream.file.location
            else w.disk := by
  induction calls with
  | nil =>
      intro stream w batches fault hfinished _ _
      exact ⟨stream, w, rfl, rfl, rfl, hfinished, rfl⟩
  | cons call rest ih =>
      intro stream w batches fault hfinished hfile hreads
      cases hreads with
      | ends hdecode =>
          obtain ⟨after, hnext⟩ := next_of_end hfinished hdecode w
          obtain ⟨hrun, hdisk⟩ :=
            run_askAll_of_last hfinished hfile hnext none_ne_batch call rest
          refine ⟨{ stream with finished := true }, after, ?_, rfl, ?_, by simp, ?_⟩
          · rw [hrun, answersOf, answersTo_nil]
            rfl
          · rw [answersOf, answersTo_nil, handedOut_map_none]
            rfl
          · simpa using hdisk
      | breaks hdecode =>
          obtain ⟨after, hnext⟩ := next_of_fault hfinished hdecode w
          obtain ⟨hrun, hdisk⟩ :=
            run_askAll_of_last hfinished hfile hnext (fault_ne_batch _) call rest
          refine ⟨{ stream with finished := true }, after, ?_, rfl, ?_, by simp, ?_⟩
          · rw [hrun, answersOf, answersTo_cons, List.tail_cons, answersTo_nil]
            rfl
          · rw [answersOf, answersTo_cons, List.tail_cons, answersTo_nil, handedOut_cons,
              handedOut_map_none]
            rfl
          · simpa using hdisk
      | @batch _ next batch others _ hdecode hlater =>
          obtain ⟨middle, hnext⟩ := next_of_batch hfinished hdecode w
          have hgoes := goesOn_of_batch hfile hnext
          have hkept := hgoes.hasFile hfile
          obtain ⟨-, -, -, hdisk⟩ := hgoes
          obtain ⟨reportAt, hadvance⟩ := advance_eq stream next
          rw [hadvance] at hnext hkept
          obtain ⟨last, after, hrun, hsame, hread, hended, hafter⟩ := @ih
            { stream with position := next, read := stream.read + 1, reportAt := reportAt }
            middle others fault hfinished hkept hlater
          refine ⟨last, after, ?_, hsame, ?_, ?_, ?_⟩
          · rw [run_askAll_cons (run_ask hnext call), hrun, answersOf, answersTo_cons]
            rfl
          · rw [hread, answersOf, answersTo_cons, handedOut_cons, List.tail_cons,
              Nat.add_assoc, Nat.add_comm 1]
            rfl
          · rw [hended, List.length_cons, List.length_cons]
            simp
          · rw [hafter, hdisk, List.length_cons, List.length_cons]
            simp

/-! ### What is to be seen of a stream -/

section

variable {calls : List Call} {file : TemporaryFile} {read : Nat} {batches : List Batch}
  {fault : Option RecordFault} {answer : Answer} {i : Nat}

theorem getElem?_answersTo (calls : List Call) (results : List (Except Fault (Nat × Batch)))
    (i : Nat) :
    (answersTo calls results)[i]? = calls[i]?.map fun call => call.answer results[i]? :=
  List.getElem?_mapIdx

theorem length_answersTo (calls : List Call) (results : List (Except Fault (Nat × Batch))) :
    (answersTo calls results).length = calls.length :=
  List.length_mapIdx

/-- The answers are batches as long as there are batches. -/
theorem isBatch_iff
    (h : (answersTo calls (answersOf file read batches fault))[i]? = some answer) :
    isBatch answer = true ↔ i < batches.length := by
  rw [getElem?_answersTo, getElem?_answersOf] at h
  obtain ⟨call, -, rfl⟩ := Option.map_eq_some_iff.mp h
  by_cases hi : i < batches.length
  · simp [hi, Call.answer, isBatch, Except.map]
  · by_cases hend : i = batches.length
    · cases fault <;> simp [hend, Call.answer, isBatch, Except.map]
    · simp [hi, hend, Call.answer, isBatch]

/-- All answers before the last batch is handed out are batches. -/
theorem handedOut_take (hi : i ≤ batches.length) (hcalls : i ≤ calls.length) :
    handedOut ((answersTo calls (answersOf file read batches fault)).take i) = i := by
  have hall : ∀ answer ∈ (answersTo calls (answersOf file read batches fault)).take i,
      isBatch answer = true := by
    intro answer hanswer
    obtain ⟨j, hj, rfl⟩ := List.mem_take_iff_getElem.mp hanswer
    have hless : j < batches.length := by omega
    exact (isBatch_iff (List.getElem?_eq_getElem _)).mpr hless
  rw [handedOut, List.countP_eq_length.mpr hall, List.length_take, length_answersTo]
  omega

theorem lt_of_answered
    (h : (answersTo calls (answersOf file read batches fault))[i]? = some answer) :
    i < calls.length := by
  obtain ⟨hi, -⟩ := List.getElem?_eq_some_iff.mp h
  rwa [length_answersTo] at hi

theorem number_of_batch {call : Call} {number : Option Nat} {batch : Batch}
    (hcall : calls[i]? = some call)
    (h : (answersTo calls (answersOf file read batches fault))[i]?
      = some (some (.ok (number, batch)))) :
    i < batches.length ∧ number = call.number (read + (i + 1)) := by
  have hi : i < batches.length := (isBatch_iff h).mp rfl
  rw [getElem?_answersTo, hcall, getElem?_answersOf, if_pos hi, List.getElem?_eq_getElem hi] at h
  cases h
  exact ⟨hi, rfl⟩

theorem place_of_fault {found : Fault}
    (h : (answersTo calls (answersOf file read batches fault))[i]? = some (some (.error found))) :
    i = batches.length ∧ ∃ damaged,
      found = ⟨.record damaged, [.readingBatch (read + (i + 1)) file.text]⟩ := by
  have hi : ¬i < batches.length := fun hless => Bool.false_ne_true ((isBatch_iff h).mpr hless)
  rw [getElem?_answersTo, getElem?_answersOf, if_neg hi] at h
  obtain ⟨call, -, hanswer⟩ := Option.map_eq_some_iff.mp h
  by_cases hend : i = batches.length
  · rw [if_pos hend] at hanswer
    cases fault with
    | none => cases hanswer
    | some damaged =>
        cases hanswer
        exact ⟨hend, damaged, rfl⟩
  · rw [if_neg hend] at hanswer
    cases hanswer

/-- Behind the fault, or behind the last batch when there is none, nothing is answered. -/
theorem getElem?_answersTo_of_lt (hi : batches.length < i) (hcalls : i < calls.length) :
    (answersTo calls (answersOf file read batches fault))[i]? = some none := by
  have hpast : ¬i < batches.length := by omega
  have hend : ¬i = batches.length := by omega
  rw [getElem?_answersTo, getElem?_answersOf, if_neg hpast, if_neg hend,
    List.getElem?_eq_getElem hcalls]
  rfl

/-- All answers are batches exactly when there are enough of them. -/
theorem all_batches_iff :
    (∀ answer ∈ answersTo calls (answersOf file read batches fault), isBatch answer = true) ↔
      calls.length ≤ batches.length := by
  constructor
  · intro hall
    by_contra hmore
    have hi : batches.length
        < (answersTo calls (answersOf file read batches fault)).length := by
      rw [length_answersTo]
      omega
    have hbatch := hall _ (List.getElem_mem hi)
    exact Nat.lt_irrefl _ ((isBatch_iff (List.getElem?_eq_getElem hi)).mp hbatch)
  · intro hle answer hanswer
    obtain ⟨i, hi⟩ := List.getElem?_of_mem hanswer
    have hless := lt_of_answered hi
    exact (isBatch_iff hi).mpr (by omega)

theorem lt_of_not_batch (hanswer : answer ∈ answersTo calls (answersOf file read batches fault))
    (hbatch : isBatch answer = false) : batches.length < calls.length := by
  by_contra hle
  rw [all_batches_iff.mpr (Nat.le_of_not_lt hle) answer hanswer] at hbatch
  cases hbatch

end

/-- What a caller sees of a stream over some bytes who has asked it so many times. -/
structure Conduct (file : TemporaryFile) (bytes : ByteArray) (before : Workspace)
    (calls : List Call) (answers : List Answer) (last : BatchStream) (after : Workspace) :
    Prop where
  answered : answers.length = calls.length
  /-- The stream has counted the batches that it has handed out. -/
  counted : last.read = handedOut answers
  /-- A batch comes with its number, counted from one, if the call was for it. -/
  numbers : ∀ (i : Nat) (call : Call) (number : Option Nat) (batch : Batch),
    calls[i]? = some call → answers[i]? = some (some (.ok (number, batch))) →
    number = call.number (handedOut (answers.take i) + 1)
  /-- A fault is that of a record, and it names the batch that would have come next. -/
  faults : ∀ (i : Nat) (fault : Fault), answers[i]? = some (some (.error fault)) →
    ∃ damaged, fault
      = ⟨.record damaged, [.readingBatch (handedOut (answers.take i) + 1) file.text]⟩
  /-- There is one fault at most. -/
  oneFault : ∀ (i j : Nat) (fault other : Fault), answers[i]? = some (some (.error fault)) →
    answers[j]? = some (some (.error other)) → i = j
  /-- When no batch was handed out, there is nothing more. -/
  closed : ∀ (i j : Nat) (answer : Answer), answers[i]? = some answer → isBatch answer = false →
    i < j → j < calls.length → answers[j]? = some none
  /-- This comes after as many calls as there is room for records, and one more. -/
  bounded : bytes.size / BatchRecord.leastSize + 1 ≤ calls.length →
    ∃ i < bytes.size / BatchRecord.leastSize + 1, ∃ answer, answers[i]? = some answer ∧
      isBatch answer = false
  /-- Until then the file is there, and nothing has happened to the disk. -/
  kept : (∀ answer ∈ answers, isBatch answer = true) →
    after.disk = before.disk ∧ after.disk.bytesAt file.location = .ok bytes
  /-- From then on the file is gone, and nothing else has happened to the disk. -/
  deleted : ∀ answer ∈ answers, isBatch answer = false →
    after.disk = before.disk.erase file.location ∧ after.disk.node? file.location = none
  /-- A stream that is given up has deleted its file, now or before. -/
  dropped : last.drop.run after = ((), { after with disk := before.disk.erase file.location })
  /-- A stream that has deleted its file does nothing more, whenever it is finished or given
  up. -/
  idle : ∀ answer ∈ answers, isBatch answer = false →
    ∀ w, last.finish.run w = (last, w) ∧ last.drop.run w = ((), w)

theorem run_finish_of_finished (h : stream.finished = true) (w : Workspace) :
    stream.finish.run w = (stream, w) := by
  simp only [finish, h, if_true]
  rfl

theorem run_drop_of_finished (h : stream.finished = true) (w : Workspace) :
    stream.drop.run w = ((), w) := by
  simp only [drop, Work.run_bind, run_finish_of_finished h]
  rfl

/-- Giving a stream up deletes its file, unless the stream has ended and deleted it before. -/
theorem run_drop_of_held {ended : Prop} [Decidable ended] (hsame : last.file = stream.file)
    (hfile : w.disk.isFile stream.file.location = true) (hfinished : last.finished = decide ended)
    (hdisk : after.disk = if ended then w.disk.erase stream.file.location else w.disk) :
    last.drop.run after = ((), { after with disk := w.disk.erase stream.file.location }) := by
  by_cases hended : ended
  · rw [if_pos hended] at hdisk
    rw [run_drop_of_finished (by rw [hfinished, decide_eq_true hended]), ← hdisk]
  · rw [if_neg hended] at hdisk
    rw [decide_eq_false hended] at hfinished
    have hheld : last.HasFile after.disk := by
      intro _
      rw [hsame, hdisk]
      exact hfile
    simp only [drop, Work.run_bind, run_finish hheld, released, hfinished, hsame, hdisk]
    rfl

theorem location_ne_nil_of_bytesAt {disk : Disk} {place : Location} {bytes : ByteArray}
    (h : disk.bytesAt place = .ok bytes) : place ≠ [] := by
  rintro rfl
  cases h

theorem hasFile_of_bytesAt {file : TemporaryFile} {bytes : ByteArray} {total : Nat}
    (h : w.disk.bytesAt file.location = .ok bytes) :
    (ofBytes file bytes total).HasFile w.disk := by
  intro _
  unfold Disk.bytesAt at h
  show w.disk.isFile file.location = true
  unfold Disk.isFile
  split at h
  · rename_i found hnode
    rw [hnode]
  · cases h
  · cases h

/-- **A stream goes through any file once.**  An epoch file may hold any bytes and be said to hold
any number of batches.  It opens as a stream that may be asked for its next batch any number of
times, each time in either way.  The stream counts and numbers the batches that it hands out; at
the latest when the file has no room left for a record it answers with a fault, which names the
batch that would have come next, or with nothing, and then with nothing for ever.  Its file is
there until then, and this answer deletes it; a stream that is given up before deletes its file
all the same, and one that has deleted it does nothing more. -/
theorem streams_go_through_any_file_once {file : TemporaryFile} {bytes : ByteArray}
    {w : Workspace} (hfile : w.disk.bytesAt file.location = .ok bytes) (total : Nat) :
    ∃ stream, (openFile file total).run w = (.ok stream, w) ∧
      ∀ calls, ∃ answers last after, (stream.askAll calls).run w = ((answers, last), after) ∧
        Conduct file bytes w calls answers last after := by
  refine ⟨ofBytes file bytes total, run_openFile hfile total, fun calls => ?_⟩
  obtain ⟨batches, fault, hreads⟩ := BatchRecord.exists_reads bytes 0
  have hroom : batches.length ≤ bytes.size / BatchRecord.leastSize := by
    rw [Nat.le_div_iff_mul_le (by decide)]
    exact hreads.length_mul_le
  have hunfinished : (ofBytes file bytes total).finished = false := rfl
  have hheld : (ofBytes file bytes total).HasFile w.disk := hasFile_of_bytesAt hfile
  obtain ⟨last, after, hrun, hsame, hread, hfinished, hdisk⟩ :=
    run_askAll calls hunfinished hheld hreads
  refine ⟨_, last, after, hrun, ?_⟩
  exact {
    answered := length_answersTo _ _
    counted := by rw [hread, ofBytes, Nat.zero_add]
    numbers := by
      intro i call number batch hcall hanswer
      obtain ⟨hi, hnumber⟩ := number_of_batch hcall hanswer
      rw [hnumber, handedOut_take hi.le (lt_of_answered hanswer).le, ofBytes, Nat.zero_add]
    faults := by
      intro i found hanswer
      obtain ⟨hi, damaged, hfound⟩ := place_of_fault hanswer
      refine ⟨damaged, ?_⟩
      rw [hfound, handedOut_take hi.le (lt_of_answered hanswer).le, ofBytes, Nat.zero_add]
    oneFault := by
      intro i j found other hfound hother
      rw [(place_of_fault hfound).1, (place_of_fault hother).1]
    closed := by
      intro i j answer hanswer hbatch hless hcalls
      have hi : ¬i < batches.length := by
        rw [← isBatch_iff hanswer, hbatch]
        exact Bool.false_ne_true
      exact getElem?_answersTo_of_lt (by omega) hcalls
    bounded := by
      intro hcalls
      have hi : batches.length < calls.length := by omega
      have hanswer := List.getElem?_eq_getElem (length_answersTo calls
        (answersOf file 0 batches fault) ▸ hi)
      refine ⟨batches.length, by omega, _, hanswer, ?_⟩
      rw [← Bool.not_eq_true, isBatch_iff hanswer]
      exact Nat.lt_irrefl _
    kept := by
      intro hall
      rw [if_neg (Nat.not_lt.mpr (all_batches_iff.mp hall))] at hdisk
      rw [hdisk]
      exact ⟨rfl, hfile⟩
    deleted := by
      intro answer hanswer hbatch
      rw [if_pos (lt_of_not_batch hanswer hbatch)] at hdisk
      rw [hdisk]
      exact ⟨rfl, Disk.node?_erase_self (location_ne_nil_of_bytesAt hfile)⟩
    dropped := run_drop_of_held hsame (hheld hunfinished) hfinished hdisk
    idle := by
      intro answer hanswer hbatch
      have hended : last.finished = true := by
        rw [hfinished, decide_eq_true (lt_of_not_batch hanswer hbatch)]
      intro w
      exact ⟨run_finish_of_finished hended w, run_drop_of_finished hended w⟩ }

/-- A file with a batch of one pair and a pair count of zero behind it. -/
def damagedFile : ByteArray := ⟨#[1, 0, 0, 0, 1, 0, 0, 0, 97, 0, 0, 0, 0, 0, 0, 0, 0]⟩

/-- The pair count ends the stream at the second call, and the third one finds nothing. -/
theorem damaged_file_takes_two_calls :
    (holding ⟨"e", [.given "e"]⟩ damagedFile).disk.bytesAt [.given "e"] = .ok damagedFile ∧
      ∃ stream last after,
        (openFile ⟨"e", [.given "e"]⟩ 5).run (holding ⟨"e", [.given "e"]⟩ damagedFile)
          = (.ok stream, holding ⟨"e", [.given "e"]⟩ damagedFile) ∧
        (stream.askAll [.numbered, .plain, .numbered]).run
            (holding ⟨"e", [.given "e"]⟩ damagedFile)
          = (([some (.ok (some 1, ⟨[⟨"a", ""⟩]⟩)),
              some (.error ⟨.record ⟨13, .pairCount 0⟩, [.readingBatch 2 "e"]⟩), none], last),
              after) ∧
        last.read = 1 ∧ after.disk.node? [.given "e"] = none := by
  have hfile : (holding ⟨"e", [.given "e"]⟩ damagedFile).disk.bytesAt [.given "e"]
      = .ok damagedFile := rfl
  obtain ⟨stream, hopen, hasked⟩ :=
    @streams_go_through_any_file_once ⟨"e", [.given "e"]⟩ damagedFile _ hfile 5
  obtain ⟨answers, last, after, hrun, hconduct⟩ := hasked [.numbered, .plain, .numbered]
  have hanswers : answers = [some (.ok (some 1, ⟨[⟨"a", ""⟩]⟩)),
      some (.error ⟨.record ⟨13, .pairCount 0⟩, [.readingBatch 2 "e"]⟩), none] := by
    cases hopen
    exact congrArg (·.1.1) hrun.symm
  subst hanswers
  refine ⟨hfile, stream, last, after, hopen, hrun, hconduct.counted, ?_⟩
  exact (hconduct.deleted none (by simp) rfl).2

end BatchStream

end Bitext
