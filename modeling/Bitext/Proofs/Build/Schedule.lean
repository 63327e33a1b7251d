/-
Every schedule of the pool goes on until the merge is complete.

The merge of the caller follows the messages that have not been received, so as long as it is
not complete one of them is missing, and then somebody can move.  If the output queue holds a
message, the caller can receive it.  If it is empty, a worker that has a message in hand can
send it.  If none has, what is missing has not been taken, so a task waits and a worker can
take it; for a worker leaves only when there will be no task any more.
-/
import Bitext.Proofs.Build.Pool

namespace Bitext

/-- The message is the last one of its file pair. -/
def Message.isLast : Message → Bool
  | .pair _ _ => false
  | .done _ _ | .failed _ => true

namespace Harvest

/-- The last message of a harvest is its outcome, and no other message is a last one. -/
theorem filter_isLast_messages (file : Nat) (harvest : Harvest) :
    (harvest.messages file).filter Message.isLast
      = [match harvest.outcome with
        | .ok tally => .done file tally
        | .error fault => .failed fault] := by
  have hpairs : (harvest.admitted.map (Message.pair file)).filter Message.isLast = [] :=
    List.filter_eq_nil_iff.mpr fun message hmessage => by
      obtain ⟨p, -, rfl⟩ := List.mem_map.mp hmessage
      exact Bool.false_ne_true
  rw [messages, List.filter_append, hpairs, List.nil_append]
  cases harvest.outcome <;> rfl

end Harvest

namespace Pool

variable {work : Workload} {store : Store} {pool next : Pool}

/-! ### What the caller has

As long as the caller goes on, its merge follows what has not been received.  Only a message
that is received changes either.
-/

/-- What has not been received of each file pair. -/
def rests (work : Workload) (pool : Pool) : List (List Message) :=
  (List.range work.files.length).map (pool.coming work)

theorem getElem?_rests {file : Nat} (h : file < work.files.length) :
    (pool.rests work)[file]? = some (pool.coming work file) := by
  rw [rests, List.getElem?_map, List.getElem?_range h]
  rfl

theorem lt_of_messagesOf_ne_nil {file : Nat} (h : messagesOf work file ≠ []) :
    file < work.files.length := by
  by_contra hge
  refine h ?_
  rw [messagesOf, List.getElem?_eq_none (by omega)]
  rfl

namespace Orderly

/-- Nothing that comes is lost while nothing is received. -/
theorem rests_eq (h : pool.Orderly work) (hnext : next.Orderly work)
    (hreceived : next.received = pool.received) : next.rests work = pool.rests work := by
  refine List.map_congr_left fun file _ => ?_
  have hboth := (hnext.conserved file).trans (h.conserved file).symm
  rw [hreceived] at hboth
  exact List.append_cancel_left hboth

/-- The message that is received is the first one that is missing of its file pair. -/
theorem rests_receive (h : pool.Orderly work) {posted : Posted} (hnext : next.Orderly work)
    (hreceived : next.received = pool.received ++ [posted]) :
    ∃ left, (pool.rests work)[posted.file]? = some (posted.message :: left) ∧
      next.rests work = (pool.rests work).set posted.file left := by
  have hcoming : ∀ file, pool.coming work file
      = Posted.ofFile file [posted] ++ next.coming work file := by
    intro file
    have hboth := (h.conserved file).trans (hnext.conserved file).symm
    rw [hreceived, Posted.ofFile_append, List.append_assoc] at hboth
    exact List.append_cancel_left hboth
  have hself : pool.coming work posted.file
      = posted.message :: next.coming work posted.file := by
    rw [hcoming, Posted.ofFile_cons_self]
    rfl
  have hlt : posted.file < work.files.length := by
    refine lt_of_messagesOf_ne_nil fun hnone => ?_
    rw [← h.conserved, hself] at hnone
    simp at hnone
  refine ⟨next.coming work posted.file, by rw [getElem?_rests hlt, hself], ?_⟩
  refine List.ext_getElem? fun file => ?_
  by_cases hfile : file < work.files.length
  · rw [getElem?_rests hfile]
    by_cases heq : posted.file = file
    · subst heq
      rw [List.getElem?_set_self (by simpa [rests] using hlt)]
    · rw [List.getElem?_set_ne heq, getElem?_rests hfile, hcoming, Posted.ofFile_cons_of_ne heq]
      rfl
  · rw [List.getElem?_eq_none (by simpa [rests] using hfile),
      List.getElem?_eq_none (by simpa [rests] using hfile)]

end Orderly

/-- The caller's merge has written the beginning of the admitted pairs and owes the rest of
them; or a fault was received, or a pair could not be written. -/
def Keeping (admitted : List Admitted) (work : Workload) (pool : Pool) : Prop :=
  match pool.writer with
  | .ok merging =>
      merging.merge.Follows (pool.rests work) ∧
        (∃ written, admitted = written ++ merging.merge.owed (pool.rests work)) ∧
        ∀ posted ∈ pool.received, ¬posted.message.IsFault
  | .error fault =>
      (∃ posted ∈ pool.received, posted.message = .failed fault) ∨
        ∃ p ∈ admitted, ¬PairRecord.Fits p

variable {admitted : List Admitted}

theorem Keeping.of_ok (h : pool.Keeping admitted work) {merging : Merging}
    (hwriter : pool.writer = .ok merging) :
    merging.merge.Follows (pool.rests work) ∧
      (∃ written, admitted = written ++ merging.merge.owed (pool.rests work)) ∧
      ∀ posted ∈ pool.received, ¬posted.message.IsFault := by
  rw [Keeping, hwriter] at h
  exact h

theorem Keeping.of_error (h : pool.Keeping admitted work) {fault : Fault}
    (hwriter : pool.writer = .error fault) :
    (∃ posted ∈ pool.received, posted.message = .failed fault) ∨
      ∃ p ∈ admitted, ¬PairRecord.Fits p := by
  rw [Keeping, hwriter] at h
  exact h

/-- A step that receives nothing leaves the caller where it is. -/
theorem Keeping.of_same (h : pool.Keeping admitted work) (hpool : pool.Orderly work)
    (hnext : next.Orderly work) (hreceived : next.received = pool.received)
    (hwriter : next.writer = pool.writer) : next.Keeping admitted work := by
  rw [Keeping, hwriter, hpool.rests_eq hnext hreceived, hreceived]
  exact h

theorem Keeping.receive (h : pool.Keeping admitted work) (hpool : pool.Orderly work)
    {merging : Merging} {posted : Posted} (hwriter : pool.writer = .ok merging)
    (hnext : next.Orderly work) (hreceived : next.received = pool.received ++ [posted])
    (hreceive : next.writer = merging.receive posted.message) : next.Keeping admitted work := by
  obtain ⟨merge, store, tally⟩ := merging
  obtain ⟨hfollows, ⟨written, hadmitted⟩, hsound⟩ := h.of_ok hwriter
  obtain ⟨left, hfile, hrests⟩ := hpool.rests_receive hnext hreceived
  by_cases hfault : posted.message.IsFault
  · obtain ⟨fault, hfault⟩ := hfault
    have hstop : next.writer = .error fault := by
      rw [hreceive, hfault]
      rfl
    rw [Keeping, hstop, hreceived]
    exact .inl ⟨posted, List.mem_append_right _ (List.mem_singleton_self posted), hfault⟩
  · obtain ⟨ready, later, hlater, howed, hwrite⟩ := Merging.receive_eq hfollows hfile hfault
    rw [howed, ← List.append_assoc] at hadmitted
    rw [hwrite] at hreceive
    cases hready : store.appendAll ready with
    | ok after =>
        rw [hready] at hreceive
        rw [Keeping, hreceive]
        refine ⟨by rw [hrests]; exact hlater, ⟨_, by rw [hrests]; exact hadmitted⟩, ?_⟩
        intro other hother
        rw [hreceived] at hother
        rcases List.mem_append.mp hother with hbefore | hnew
        · exact hsound other hbefore
        · rw [List.mem_singleton.mp hnew]
          exact hfault
    | error fault =>
        rw [hready] at hreceive
        rw [Keeping, hreceive]
        refine .inr ?_
        by_contra hall
        obtain ⟨after, hafter⟩ := Store.appendAll_of_fits ready store fun p hp => by
          by_contra hfits
          refine hall ⟨p, ?_, hfits⟩
          rw [hadmitted]
          exact List.mem_append_left _ (List.mem_append_right _ hp)
        rw [hready] at hafter
        cases hafter

section harvests

variable {harvests : List Harvest} {workers capacity : Nat}

theorem rests_start :
    (start ⟨Merge.messagesOf harvests, workers, capacity⟩ store).rests
        ⟨Merge.messagesOf harvests, workers, capacity⟩
      = Merge.messagesOf harvests := by
  have hstart := orderly_start ⟨Merge.messagesOf harvests, workers, capacity⟩ store
  refine List.ext_getElem (by simp [rests]) fun file _ hlt => ?_
  rw [← Option.some_inj, ← List.getElem?_eq_getElem, ← List.getElem?_eq_getElem,
    getElem?_rests hlt]
  have hall := hstart.conserved file
  rw [messagesOf, List.getElem?_eq_getElem hlt] at hall
  rw [List.getElem?_eq_getElem hlt]
  exact congrArg some hall

theorem keeping_start :
    (start ⟨Merge.messagesOf harvests, workers, capacity⟩ store).Keeping
      (harvests.flatMap (·.admitted)) ⟨Merge.messagesOf harvests, workers, capacity⟩ := by
  show Merge.Follows (Merge.ofSize (Merge.messagesOf harvests).length) _ ∧ _
  rw [rests_start, Merge.length_messagesOf]
  refine ⟨Merge.follows_ofSize harvests, ⟨[], ?_⟩, fun posted hposted => by cases hposted⟩
  exact (Merge.owed_ofSize harvests).symm

theorem Reachable.keeping
    (h : Reachable ⟨Merge.messagesOf harvests, workers, capacity⟩ store pool) :
    pool.Keeping (harvests.flatMap (·.admitted))
      ⟨Merge.messagesOf harvests, workers, capacity⟩ := by
  induction h with
  | start => exact keeping_start
  | step hpool hstep ih =>
      have hnext := hpool.orderly.step hstep
      cases hstep with
      | receive _ hwriter _ _ => exact ih.receive hpool.orderly hwriter hnext rfl rfl
      | submit _ _ => exact ih.of_same hpool.orderly hnext rfl rfl
      | close _ _ => exact ih.of_same hpool.orderly hnext rfl rfl
      | take _ _ => exact ih.of_same hpool.orderly hnext rfl rfl
      | send _ _ => exact ih.of_same hpool.orderly hnext rfl rfl
      | leave _ _ _ => exact ih.of_same hpool.orderly hnext rfl rfl

end harvests

/-! ### Somebody can move -/

/-- A step that brings the messages on their way: a worker takes a task or sends a message, or
the caller receives one. -/
def Advances (pool next : Pool) : Prop :=
  (∃ file, next.taken = pool.taken ++ [file]) ∨
    (∃ posted, next.output = pool.output ++ [posted]) ∨
      ∃ posted, next.received = pool.received ++ [posted]

namespace Orderly

/-- The caller is never held up while it submits the file pairs. -/
theorem exists_step_of_open (h : pool.Orderly work) (hopen : pool.closed = false) :
    ∃ next, Step work pool next := by
  rcases Nat.lt_or_eq_of_le h.submitted_le with hless | hall
  · have hroom := h.length_tasks_le
    exact ⟨_, .submit hless (by omega)⟩
  · exact ⟨_, .close hall hopen⟩

/-- A file pair that nobody has taken waits in the closed queue. -/
theorem exists_task (h : pool.Orderly work) (hclosed : pool.closed = true) {file : Nat}
    (hfile : file < work.files.length) (huntaken : file ∉ pool.taken) :
    ∃ task rest, pool.tasks = task :: rest := by
  rw [← h.submitted_of_closed hclosed] at hfile
  exact List.exists_cons_of_ne_nil
    (List.ne_nil_of_mem ((h.lt_of_submitted hfile).resolve_left huntaken))

/-- **Where a message is missing, a worker or the caller can bring it nearer.**  A message in
the output is received, one in hand is sent, and one that nobody has in hand is brought by
taking a task. -/
theorem exists_advance (h : pool.Orderly work) (hworkers : 0 < work.workers)
    (hcapacity : 0 < work.capacity) (hclosed : pool.closed = true) {merging : Merging}
    (hwriter : pool.writer = .ok merging) (hmore : merging.merge.isComplete = false) {file : Nat}
    (hfile : file < work.files.length) (hmissing : pool.coming work file ≠ []) :
    ∃ next, Step work pool next ∧ Advances pool next := by
  cases houtput : pool.output with
  | cons posted rest =>
      exact ⟨_, .receive hclosed hwriter hmore houtput, .inr (.inr ⟨posted, rfl⟩)⟩
  | nil =>
      by_cases hidle : ∀ worker ∈ pool.workers, worker.file? = none
      · -- no worker has anything in hand, so what is missing has not been taken
        have hhand := inHand_of_idle hidle file
        have huntaken : file ∉ pool.taken := by
          intro htaken
          refine hmissing ?_
          rw [coming, houtput, hhand, untaken, if_pos htaken]
          rfl
        obtain ⟨task, rest, htasks⟩ := h.exists_task hclosed hfile huntaken
        have hfirst : 0 < pool.workers.length := by
          rw [h.length_workers]
          exact hworkers
        have hwaiting : pool.workers[0]? = some .waiting := by
          have hmem := List.getElem_mem hfirst
          rw [List.getElem?_eq_getElem hfirst]
          cases hworker : pool.workers[0] with
          | waiting => rfl
          | sending own next later =>
              have hnothing := hidle _ hmem
              rw [hworker] at hnothing
              cases hnothing
          | gone =>
              rw [hworker] at hmem
              have hnone := (h.no_task_of_gone hmem).2
              rw [htasks] at hnone
              cases hnone
        exact ⟨_, .take hwaiting htasks, .inl ⟨task, rfl⟩⟩
      · obtain ⟨worker, hmem, hbusy⟩ := not_forall₂.mp hidle
        obtain ⟨i, hi⟩ := List.getElem?_of_mem hmem
        have hroom : pool.output.length < work.capacity := by
          rw [houtput]
          exact hcapacity
        cases worker with
        | sending own next later => exact ⟨_, .send hi hroom, .inr (.inl ⟨_, rfl⟩)⟩
        | waiting => exact absurd rfl hbusy
        | gone => exact absurd rfl hbusy

/-- Where a message is missing, not all workers have left. -/
theorem not_deserted (h : pool.Orderly work) (hworkers : 0 < work.workers) {file : Nat}
    (hfile : file < work.files.length) (hmissing : pool.coming work file ≠ []) :
    ¬pool.Deserted := by
  rintro ⟨hgone, houtput⟩
  have hfirst : 0 < pool.workers.length := by
    rw [h.length_workers]
    exact hworkers
  have hleft : .gone ∈ pool.workers := by
    have hmem := List.getElem_mem hfirst
    rwa [hgone _ hmem] at hmem
  obtain ⟨hclosed, htasks⟩ := h.no_task_of_gone hleft
  have htaken : file ∈ pool.taken := by
    rw [← h.submitted_of_closed hclosed] at hfile
    refine (h.lt_of_submitted hfile).resolve_right ?_
    rw [htasks]
    exact List.not_mem_nil
  have hhand : pool.inHand file = [] := by
    refine inHand_of_idle (fun worker hmem => ?_) file
    rw [hgone worker hmem]
    rfl
  refine hmissing ?_
  rw [coming, houtput, hhand, untaken, if_pos htaken]
  rfl

end Orderly

/-- While the caller needs messages, one of them is missing. -/
theorem Unfinished.exists_missing (h : pool.Unfinished) (hkeeping : pool.Keeping admitted work) :
    ∃ file, file < work.files.length ∧ pool.coming work file ≠ [] := by
  obtain ⟨merging, hwriter, hmore⟩ := h
  by_contra hnone
  have hall : ∀ rest ∈ pool.rests work, rest = [] := by
    intro rest hrest
    obtain ⟨file, hfile, rfl⟩ := List.mem_map.mp hrest
    by_contra hmissing
    exact hnone ⟨file, List.mem_range.mp hfile, hmissing⟩
  rw [((hkeeping.of_ok hwriter).1.isComplete_iff).mpr hall] at hmore
  cases hmore

/-- When the merge is complete, all messages were received. -/
theorem Keeping.received_of_isComplete (h : pool.Keeping admitted work)
    (hpool : pool.Orderly work) {merging : Merging} (hwriter : pool.writer = .ok merging)
    (hcomplete : merging.merge.isComplete = true) {file : Nat}
    (hfile : file < work.files.length) :
    Posted.ofFile file pool.received = messagesOf work file := by
  have hnone : pool.coming work file = [] :=
    ((h.of_ok hwriter).1.isComplete_iff.mp hcomplete) _
      (List.mem_map.mpr ⟨file, List.mem_range.mpr hfile, rfl⟩)
  have hall := hpool.conserved file
  rwa [hnone, List.append_nil] at hall

section harvests

variable {harvests : List Harvest} {workers capacity : Nat}

theorem messagesOf_harvests {file : Nat} (hfile : file < harvests.length) :
    messagesOf ⟨Merge.messagesOf harvests, workers, capacity⟩ file
      = harvests[file].messages file := by
  rw [messagesOf, Merge.getElem?_messagesOf, List.getElem?_eq_getElem hfile]
  rfl

/-- A file pair contributes one last message at most. -/
theorem Orderly.length_filter_isLast_le
    (h : pool.Orderly ⟨Merge.messagesOf harvests, workers, capacity⟩) (file : Nat) :
    ((Posted.ofFile file (pool.received ++ pool.output)).filter Message.isLast).length ≤ 1 := by
  have hall := h.conserved file
  rw [coming, ← List.append_assoc, ← Posted.ofFile_append] at hall
  have hsub : (Posted.ofFile file (pool.received ++ pool.output)).Sublist
      (messagesOf ⟨Merge.messagesOf harvests, workers, capacity⟩ file) := by
    rw [← hall]
    exact List.sublist_append_left _ _
  refine (hsub.filter Message.isLast).length_le.trans ?_
  by_cases hfile : file < harvests.length
  · rw [messagesOf_harvests hfile, Harvest.filter_isLast_messages]
    exact Nat.le_refl 1
  · rw [messagesOf, Merge.getElem?_messagesOf, List.getElem?_eq_none (by omega)]
    exact Nat.zero_le 1

/-- When the merge is complete every file pair has come to its end. -/
theorem Keeping.done_of_isComplete
    (h : pool.Keeping admitted ⟨Merge.messagesOf harvests, workers, capacity⟩)
    (hpool : pool.Orderly ⟨Merge.messagesOf harvests, workers, capacity⟩) {merging : Merging}
    (hwriter : pool.writer = .ok merging) (hcomplete : merging.merge.isComplete = true)
    {file : Nat} (hfile : file < harvests.length) :
    ∃ tally, (Posted.ofFile file pool.received).filter Message.isLast = [.done file tally] := by
  have hall : Posted.ofFile file pool.received = harvests[file].messages file := by
    rw [← messagesOf_harvests hfile]
    refine h.received_of_isComplete hpool hwriter hcomplete ?_
    rw [Merge.length_messagesOf]
    exact hfile
  rw [hall, Harvest.filter_isLast_messages]
  cases houtcome : harvests[file].outcome with
  | ok tally => exact ⟨tally, rfl⟩
  | error fault =>
      -- the message of the fault would have been received
      have hmem : .failed fault ∈ Posted.ofFile file pool.received := by
        rw [hall]
        exact Harvest.failed_mem_messages_iff.mpr houtcome
      obtain ⟨posted, hposted, hmessage⟩ := List.mem_map.mp hmem
      exact absurd ⟨fault, hmessage⟩ ((h.of_ok hwriter).2.2 posted (List.mem_filter.mp hposted).1)

end harvests

/-! ### Every schedule -/

section build

variable {settings : Settings} {disk : Disk} {pairs : List FilePair} {workers capacity : Nat}

/-- **The pool never gets stuck and never loses a file pair.**  Let some file pairs be shared
out among at least one worker, with room for at least one message, and look at any state that
a schedule leads to.  While the caller needs messages somebody can move, and once all tasks
were submitted a task can be taken, a message sent or one received; not all workers have left
with nothing on its way.  The queue of tasks always has room for the next one.  No file pair
is taken twice or contributes two last messages, and when the merge is complete each has
contributed the tally it came to, once.  The caller stops before that only when it received a
fault or a pair does not fit the format of the blob. -/
theorem every_schedule_goes_on (hworkers : 0 < workers) (hcapacity : 0 < capacity)
    (h : Reachable ⟨Build.messages settings disk pairs, workers, capacity⟩ store pool) :
    (pool.Unfinished →
      (∃ next, Step ⟨Build.messages settings disk pairs, workers, capacity⟩ pool next) ∧
      (pool.closed = true →
        ∃ next, Step ⟨Build.messages settings disk pairs, workers, capacity⟩ pool next ∧
          Advances pool next) ∧
      ¬pool.Deserted) ∧
    pool.tasks.length ≤ pairs.length ∧
    (pool.submitted < pairs.length → pool.tasks.length < pairs.length) ∧
    pool.taken.Nodup ∧
    (∀ file, ((Posted.ofFile file (pool.received ++ pool.output)).filter
      Message.isLast).length ≤ 1) ∧
    (∀ merging, pool.writer = .ok merging → merging.merge.isComplete = true →
      ∀ file, file < pairs.length →
        ∃ tally, (Posted.ofFile file pool.received).filter Message.isLast
          = [.done file tally]) ∧
    ∀ fault, pool.writer = .error fault →
      (∃ posted ∈ pool.received, posted.message = .failed fault) ∨
        ∃ p ∈ Build.admitted settings disk pairs, ¬PairRecord.Fits p := by
  rw [Build.messages_eq] at h ⊢
  have hpool := h.orderly
  have hkeeping := h.keeping
  have hlength : (Merge.messagesOf (Build.harvests settings disk pairs)).length
      = pairs.length := by
    rw [Merge.length_messagesOf, Build.harvests, List.length_map]
  have htasks := hpool.length_tasks_le
  have hsubmitted : pool.submitted ≤ pairs.length := hlength ▸ hpool.submitted_le
  refine ⟨fun hmore => ?_, by omega, fun hless => by omega, hpool.nodup_taken,
    hpool.length_filter_isLast_le, ?_, fun fault hwriter => hkeeping.of_error hwriter⟩
  · obtain ⟨file, hfile, hmissing⟩ := hmore.exists_missing hkeeping
    have hadvance : pool.closed = true → ∃ next,
        Step ⟨Merge.messagesOf (Build.harvests settings disk pairs), workers, capacity⟩ pool next ∧
          Advances pool next := by
      intro hclosed
      obtain ⟨merging, hwriter, hincomplete⟩ := hmore
      exact hpool.exists_advance hworkers hcapacity hclosed hwriter hincomplete hfile hmissing
    refine ⟨?_, hadvance, hpool.not_deserted hworkers hfile hmissing⟩
    cases hclosed : pool.closed with
    | false => exact hpool.exists_step_of_open hclosed
    | true =>
        obtain ⟨next, hstep, -⟩ := hadvance hclosed
        exact ⟨next, hstep⟩
  · intro merging hwriter hcomplete file hfile
    refine hkeeping.done_of_isComplete hpool hwriter hcomplete ?_
    rwa [Build.harvests, List.length_map]

end build

/-- Two file pairs, two workers, and room for one message. -/
def shared : Workload := ⟨Build.messages Build.twoAtOnce Build.twoFiles Build.doubled, 2, 1⟩

/-- Both tasks were submitted, and the first worker has taken the first of them. -/
theorem exists_reachable_shared (store : Store) :
    ∃ pool, Reachable shared store pool ∧ pool.Unfinished ∧ pool.closed = true ∧
      pool.taken = [0] := by
  have hlength : shared.files.length = 2 := by
    rw [shared, Build.messages_eq, Merge.length_messagesOf]
    rfl
  have hfirst : 0 < shared.files.length := by omega
  have hsecond : 0 + 1 < shared.files.length := by omega
  have hstart : Reachable shared store (start shared store) := .start
  have hsubmitted := (hstart.step (.submit hfirst hfirst)).step (.submit hsecond hsecond)
  have htaken := (hsubmitted.step (.close hlength.symm rfl)).step (.take (i := 0) rfl rfl)
  refine ⟨_, htaken, ⟨.start shared.files.length store, rfl, ?_⟩, rfl, rfl⟩
  show (0 == (List.replicate shared.files.length false).length) = false
  rw [List.length_replicate, hlength]
  rfl

/-- Two workers go on from there. -/
theorem two_workers_go_on :
    ∃ store pool, Reachable shared store pool ∧ pool.taken = [0] ∧ pool.Unfinished ∧
      ¬pool.Deserted ∧ ∃ next, Step shared pool next ∧ Advances pool next := by
  obtain ⟨pool, hpool, hmore, hclosed, htaken⟩ :=
    exists_reachable_shared (.ofWriter (.ofFile ⟨"", []⟩))
  obtain ⟨hgoes, -⟩ := every_schedule_goes_on (by decide) (by decide) hpool
  obtain ⟨-, hadvance, hpresent⟩ := hgoes hmore
  exact ⟨_, pool, hpool, htaken, hmore, hpresent, hadvance hclosed⟩

end Pool

end Bitext
