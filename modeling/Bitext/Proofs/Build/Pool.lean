/-
Nothing gets lost in the pool.

A message of a file pair is in one of four places: it was received, it is in the output
queue, a worker has it in hand, or nobody has taken its file pair yet.  Put together in this
order they are the messages of the file pair, in their own order, and no step changes that.
A file pair is in one place too: it was taken, or it waits in the queue of tasks, or it has
not been submitted; and two workers never have the same one.
-/
import Bitext.Build.Pool
import Bitext.Proofs.Build.Gather

namespace Bitext

/-- The messages of a file pair among some that were sent, in order. -/
def Posted.ofFile (file : Nat) (posts : List Posted) : List Message :=
  (posts.filter (·.file = file)).map (·.message)

namespace Worker

/-- The file pair that a worker has messages of. -/
def file? : Worker → Option Nat
  | .sending file _ _ => some file
  | .waiting | .gone => none

/-- The messages of a file pair that a worker has in hand. -/
def unsent (file : Nat) : Worker → List Message
  | .sending own next later => if own = file then next :: later else []
  | .waiting | .gone => []

theorem unsent_of_file?_ne {worker : Worker} {file : Nat} (h : worker.file? ≠ some file) :
    worker.unsent file = [] := by
  cases worker with
  | sending own next later =>
      have hne : own ≠ file := fun heq => h (by rw [file?, heq])
      rw [unsent, if_neg hne]
  | waiting => rfl
  | gone => rfl

theorem unsent_ofMessages_self (file : Nat) (messages : List Message) :
    (ofMessages file messages).unsent file = messages := by
  cases messages with
  | nil => rfl
  | cons next later => exact if_pos rfl

theorem unsent_ofMessages_of_ne {file other : Nat} (h : file ≠ other) (messages : List Message) :
    (ofMessages file messages).unsent other = [] := by
  cases messages with
  | nil => rfl
  | cons next later => exact if_neg h

theorem ofMessages_ne_gone {file : Nat} {messages : List Message} :
    ofMessages file messages ≠ .gone := by
  cases messages <;> exact Worker.noConfusion

theorem file?_ofMessages {file own : Nat} {messages : List Message}
    (h : (ofMessages file messages).file? = some own) : own = file := by
  cases messages with
  | nil => cases h
  | cons next later => exact (Option.some.inj h).symm

end Worker

namespace Posted

theorem ofFile_append (file : Nat) (first second : List Posted) :
    ofFile file (first ++ second) = ofFile file first ++ ofFile file second := by
  rw [ofFile, List.filter_append, List.map_append]
  rfl

theorem ofFile_cons_self (posted : Posted) (rest : List Posted) :
    ofFile posted.file (posted :: rest) = posted.message :: ofFile posted.file rest := by
  rw [ofFile, List.filter_cons_of_pos (by simp), List.map_cons]
  rfl

theorem ofFile_cons_of_ne {posted : Posted} {file : Nat} (h : posted.file ≠ file)
    (rest : List Posted) : ofFile file (posted :: rest) = ofFile file rest := by
  rw [ofFile, List.filter_cons_of_neg (by simpa using h)]
  rfl

end Posted

namespace Pool

variable {work : Workload} {store : Store} {pool next : Pool}

/-! ### Where a message is -/

/-- The messages of a file pair that workers have in hand. -/
def inHand (pool : Pool) (file : Nat) : List Message :=
  pool.workers.flatMap (Worker.unsent file)

/-- The messages of a file pair that nobody has taken. -/
def untaken (work : Workload) (pool : Pool) (file : Nat) : List Message :=
  if file ∈ pool.taken then [] else messagesOf work file

/-- The messages of a file pair that the caller has not received, in the order in which they
will come. -/
def coming (work : Workload) (pool : Pool) (file : Nat) : List Message :=
  Posted.ofFile file pool.output ++ (pool.inHand file ++ pool.untaken work file)

/-- The file pairs that workers have messages of. -/
def inWork (pool : Pool) : List Nat := pool.workers.filterMap Worker.file?

/-- What every step keeps: who has which file pair, and where the messages are. -/
structure Orderly (work : Workload) (pool : Pool) : Prop where
  submitted_le : pool.submitted ≤ work.files.length
  submitted_of_closed : pool.closed = true → pool.submitted = work.files.length
  /-- The tasks were taken in the order in which they were submitted. -/
  queued : pool.taken ++ pool.tasks = List.range pool.submitted
  length_workers : pool.workers.length = work.workers
  /-- A worker leaves only when there will be no task any more. -/
  no_task_of_gone : .gone ∈ pool.workers → pool.closed = true ∧ pool.tasks = []
  nodup_inWork : pool.inWork.Nodup
  taken_of_inWork : ∀ file ∈ pool.inWork, file ∈ pool.taken
  /-- No message is lost, doubled or overtaken by another of its file pair. -/
  conserved : ∀ file, Posted.ofFile file pool.received ++ pool.coming work file
    = messagesOf work file

/-- Workers that have taken nothing have nothing in hand. -/
theorem inHand_of_idle (h : ∀ worker ∈ pool.workers, worker.file? = none) (file : Nat) :
    pool.inHand file = [] := by
  rw [inHand, List.flatMap_eq_nil_iff]
  intro worker hworker
  exact Worker.unsent_of_file?_ne (by simp [h worker hworker])

/-! ### One worker among the others -/

/-- The file pairs that the workers beside one have messages of. -/
def inWorkBeside (pool : Pool) (i : Nat) : List Nat :=
  (pool.workers.eraseIdx i).filterMap Worker.file?

section beside

variable {i : Nat} {worker new : Worker}

theorem mem_inWork_of_beside {file : Nat} (h : file ∈ pool.inWorkBeside i) :
    file ∈ pool.inWork :=
  ((List.eraseIdx_sublist pool.workers i).filterMap Worker.file?).subset h

theorem getElem?_setWorker (h : pool.workers[i]? = some worker) :
    (pool.setWorker i new).workers[i]? = some new :=
  List.getElem?_set_self (List.getElem?_eq_some_iff.mp h).1

/-- The others do not change with a worker. -/
theorem inWorkBeside_setWorker : (pool.setWorker i new).inWorkBeside i = pool.inWorkBeside i := by
  rw [inWorkBeside, setWorker, List.eraseIdx_set_eq]
  rfl

theorem inWork_perm (h : pool.workers[i]? = some worker) :
    pool.inWork.Perm (worker.file?.toList ++ pool.inWorkBeside i) := by
  obtain ⟨hi, hworker⟩ := List.getElem?_eq_some_iff.mp h
  have hperm := (List.getElem_cons_eraseIdx_perm hi).symm.filterMap Worker.file?
  rw [hworker, List.filterMap_cons] at hperm
  cases hfile : worker.file? with
  | none =>
      rw [hfile] at hperm
      exact hperm
  | some file =>
      rw [hfile] at hperm
      exact hperm

theorem inHand_split (h : pool.workers[i]? = some worker) (file : Nat) :
    pool.inHand file = (pool.workers.take i).flatMap (Worker.unsent file)
      ++ (worker.unsent file ++ (pool.workers.drop (i + 1)).flatMap (Worker.unsent file)) := by
  obtain ⟨hi, hworker⟩ := List.getElem?_eq_some_iff.mp h
  have hsplit : pool.workers = pool.workers.take i ++ worker :: pool.workers.drop (i + 1) := by
    rw [← hworker, List.getElem_cons_drop, List.take_append_drop]
  rw [← List.flatMap_cons, ← List.flatMap_append, ← hsplit]
  rfl

/-- A worker alone has the messages of a file pair in hand that nobody else works on. -/
theorem inHand_of_not_beside (h : pool.workers[i]? = some worker) {file : Nat}
    (hfile : file ∉ pool.inWorkBeside i) : pool.inHand file = worker.unsent file := by
  have hnone : (pool.workers.take i).flatMap (Worker.unsent file)
      ++ (pool.workers.drop (i + 1)).flatMap (Worker.unsent file) = [] := by
    rw [← List.flatMap_append, ← List.eraseIdx_eq_take_drop_succ, List.flatMap_eq_nil_iff]
    intro other hother
    exact Worker.unsent_of_file?_ne fun hof =>
      hfile (List.mem_filterMap.mpr ⟨other, hother, hof⟩)
  obtain ⟨hbefore, hafter⟩ := List.append_eq_nil_iff.mp hnone
  rw [inHand_split h, hbefore, hafter, List.nil_append, List.append_nil]

/-- A worker that has nothing of a file pair before and after leaves what is in hand. -/
theorem inHand_setWorker (h : pool.workers[i]? = some worker) {file : Nat}
    (hold : worker.unsent file = []) (hnew : new.unsent file = []) :
    (pool.setWorker i new).inHand file = pool.inHand file := by
  have hset : (pool.setWorker i new).workers = pool.workers.set i new := rfl
  rw [inHand_split h, inHand_split (getElem?_setWorker h), hold, hnew, hset,
    List.take_set_of_le (Nat.le_refl i), List.drop_set_of_lt (Nat.lt_succ_self i)]

theorem nodup_setWorker (h : pool.workers[i]? = some worker) (hnodup : pool.inWork.Nodup)
    (hnew : ∀ file, new.file? = some file → file ∉ pool.inWorkBeside i) :
    (pool.setWorker i new).inWork.Nodup := by
  have hbeside : (pool.inWorkBeside i).Nodup :=
    (List.nodup_append.mp ((inWork_perm h).nodup_iff.mp hnodup)).2.1
  rw [(inWork_perm (getElem?_setWorker h)).nodup_iff, inWorkBeside_setWorker]
  cases hfile : new.file? with
  | none => exact hbeside
  | some file => exact List.nodup_cons.mpr ⟨hnew file hfile, hbeside⟩

theorem of_mem_inWork_setWorker (h : pool.workers[i]? = some worker) {file : Nat}
    (hfile : file ∈ (pool.setWorker i new).inWork) :
    new.file? = some file ∨ file ∈ pool.inWorkBeside i := by
  rw [(inWork_perm (getElem?_setWorker h)).mem_iff, inWorkBeside_setWorker, List.mem_append,
    Option.mem_toList] at hfile
  exact hfile

/-- Only the worker that moves can have left. -/
theorem gone_mem_of_setWorker (hnew : new ≠ .gone)
    (hgone : .gone ∈ (pool.setWorker i new).workers) : .gone ∈ pool.workers :=
  (List.mem_or_eq_of_mem_set hgone).resolve_right hnew.symm

end beside

/-! ### What every step keeps -/

namespace Orderly

theorem nodup_taken (h : pool.Orderly work) : pool.taken.Nodup :=
  (List.nodup_append.mp (h.queued ▸ List.nodup_range)).1

theorem lt_of_submitted (h : pool.Orderly work) {file : Nat} (hfile : file < pool.submitted) :
    file ∈ pool.taken ∨ file ∈ pool.tasks := by
  rw [← List.mem_append, h.queued]
  exact List.mem_range.mpr hfile

theorem length_tasks_le (h : pool.Orderly work) : pool.tasks.length ≤ pool.submitted := by
  have hlength := congrArg List.length h.queued
  rw [List.length_append, List.length_range] at hlength
  omega

/-- The file pair of a task that waits has not been taken. -/
theorem not_taken_of_task (h : pool.Orderly work) {file : Nat} {rest : List Nat}
    (htasks : pool.tasks = file :: rest) : file ∉ pool.taken := by
  have hnodup : (pool.taken ++ pool.tasks).Nodup := h.queued ▸ List.nodup_range
  intro htaken
  exact (List.nodup_append.mp hnodup).2.2 file htaken file (by rw [htasks]; simp) rfl

theorem not_inWork_of_task (h : pool.Orderly work) {file : Nat} {rest : List Nat}
    (htasks : pool.tasks = file :: rest) : file ∉ pool.inWork :=
  fun hfile => h.not_taken_of_task htasks (h.taken_of_inWork file hfile)

/-- Nobody else works on the file pair that a worker is sending. -/
theorem not_beside_of_sending (h : pool.Orderly work) {i file : Nat} {next : Message}
    {later : List Message} (hworker : pool.workers[i]? = some (.sending file next later)) :
    file ∉ pool.inWorkBeside i := by
  have hnodup := (inWork_perm hworker).nodup_iff.mp h.nodup_inWork
  exact (List.nodup_cons.mp hnodup).1

theorem taken_of_sending (h : pool.Orderly work) {i file : Nat} {next : Message}
    {later : List Message} (hworker : pool.workers[i]? = some (.sending file next later)) :
    file ∈ pool.taken :=
  h.taken_of_inWork file
    (List.mem_filterMap.mpr ⟨_, List.mem_of_getElem? hworker, rfl⟩)

/-- A worker that takes a task has in hand what nobody had taken. -/
theorem coming_take (h : pool.Orderly work) {i file : Nat} {rest : List Nat}
    (hworker : pool.workers[i]? = some .waiting) (htasks : pool.tasks = file :: rest)
    (other : Nat) :
    coming work
        { pool.setWorker i (.ofMessages file (messagesOf work file)) with
          tasks := rest
          taken := pool.taken ++ [file] } other
      = pool.coming work other := by
  show Posted.ofFile other pool.output
      ++ ((pool.setWorker i (.ofMessages file (messagesOf work file))).inHand other
        ++ (if other ∈ pool.taken ++ [file] then [] else messagesOf work other)) = _
  by_cases heq : file = other
  · subst heq
    have hidle := h.not_inWork_of_task htasks
    have hbefore : pool.inHand file = [] :=
      inHand_of_not_beside hworker fun hbeside => hidle (mem_inWork_of_beside hbeside)
    have hafter : (pool.setWorker i (.ofMessages file (messagesOf work file))).inHand file
        = messagesOf work file := by
      rw [inHand_of_not_beside (getElem?_setWorker hworker), Worker.unsent_ofMessages_self]
      rw [inWorkBeside_setWorker]
      exact fun hbeside => hidle (mem_inWork_of_beside hbeside)
    rw [coming, untaken, if_neg (h.not_taken_of_task htasks), hbefore, hafter, if_pos (by simp),
      List.append_nil, List.nil_append]
  · have hsame : other ∈ pool.taken ++ [file] ↔ other ∈ pool.taken := by simp [Ne.symm heq]
    rw [inHand_setWorker hworker rfl (Worker.unsent_ofMessages_of_ne heq _), coming, untaken]
    simp only [hsame]

/-- A message that is sent leaves the hand of its worker and joins the output. -/
theorem coming_send (h : pool.Orderly work) {i file : Nat} {next : Message}
    {later : List Message} (hworker : pool.workers[i]? = some (.sending file next later))
    (other : Nat) :
    coming work
        { pool.setWorker i (.ofMessages file later) with output := pool.output ++ [⟨file, next⟩] }
        other
      = pool.coming work other := by
  show Posted.ofFile other (pool.output ++ [⟨file, next⟩])
      ++ ((pool.setWorker i (.ofMessages file later)).inHand other ++ pool.untaken work other) = _
  rw [Posted.ofFile_append, coming]
  by_cases heq : file = other
  · subst heq
    have hbeside := h.not_beside_of_sending hworker
    have hbefore : pool.inHand file = next :: later := by
      rw [inHand_of_not_beside hworker hbeside]
      exact if_pos rfl
    have hafter : (pool.setWorker i (.ofMessages file later)).inHand file = later := by
      rw [inHand_of_not_beside (getElem?_setWorker hworker), Worker.unsent_ofMessages_self]
      rw [inWorkBeside_setWorker]
      exact hbeside
    have hsent : Posted.ofFile file [⟨file, next⟩] = [next] := Posted.ofFile_cons_self _ []
    rw [hbefore, hafter, hsent, List.append_assoc]
    rfl
  · have hunsent : (Worker.sending file next later).unsent other = [] := if_neg heq
    have hsent : Posted.ofFile other [⟨file, next⟩] = [] := Posted.ofFile_cons_of_ne heq []
    rw [inHand_setWorker hworker hunsent (Worker.unsent_ofMessages_of_ne heq _), hsent,
      List.append_nil]

theorem submit (h : pool.Orderly work) (hless : pool.submitted < work.files.length) :
    Orderly work
      { pool with submitted := pool.submitted + 1, tasks := pool.tasks ++ [pool.submitted] } where
  submitted_le := hless
  submitted_of_closed hclosed := by
    have hall := h.submitted_of_closed hclosed
    omega
  queued := by rw [← List.append_assoc, h.queued, List.range_succ]
  length_workers := h.length_workers
  no_task_of_gone hgone := by
    -- nobody leaves before the queue is closed, and it is not closed before this step
    have hall := h.submitted_of_closed (h.no_task_of_gone hgone).1
    omega
  nodup_inWork := h.nodup_inWork
  taken_of_inWork := h.taken_of_inWork
  conserved := h.conserved

theorem close (h : pool.Orderly work) (hall : pool.submitted = work.files.length) :
    Orderly work { pool with closed := true } where
  submitted_le := h.submitted_le
  submitted_of_closed _ := hall
  queued := h.queued
  length_workers := h.length_workers
  no_task_of_gone hgone := ⟨rfl, (h.no_task_of_gone hgone).2⟩
  nodup_inWork := h.nodup_inWork
  taken_of_inWork := h.taken_of_inWork
  conserved := h.conserved

theorem take (h : pool.Orderly work) {i file : Nat} {rest : List Nat}
    (hworker : pool.workers[i]? = some .waiting) (htasks : pool.tasks = file :: rest) :
    Orderly work
      { pool.setWorker i (.ofMessages file (messagesOf work file)) with
        tasks := rest
        taken := pool.taken ++ [file] } where
  submitted_le := h.submitted_le
  submitted_of_closed := h.submitted_of_closed
  queued := by
    rw [List.append_assoc, List.singleton_append, ← htasks]
    exact h.queued
  length_workers := (List.length_set ..).trans h.length_workers
  no_task_of_gone hgone := by
    have hbusy := (h.no_task_of_gone (gone_mem_of_setWorker Worker.ofMessages_ne_gone hgone)).2
    rw [htasks] at hbusy
    cases hbusy
  nodup_inWork := by
    refine nodup_setWorker hworker h.nodup_inWork fun own hown hbeside => ?_
    obtain rfl := Worker.file?_ofMessages hown
    exact h.not_inWork_of_task htasks (mem_inWork_of_beside hbeside)
  taken_of_inWork own hown := by
    rcases of_mem_inWork_setWorker hworker hown with hnew | hbeside
    · obtain rfl := Worker.file?_ofMessages hnew
      exact List.mem_append_right _ (List.mem_singleton_self own)
    · exact List.mem_append_left _ (h.taken_of_inWork own (mem_inWork_of_beside hbeside))
  conserved other := by
    rw [h.coming_take hworker htasks]
    exact h.conserved other

theorem send (h : pool.Orderly work) {i file : Nat} {next : Message} {later : List Message}
    (hworker : pool.workers[i]? = some (.sending file next later)) :
    Orderly work
      { pool.setWorker i (.ofMessages file later) with
        output := pool.output ++ [⟨file, next⟩] } where
  submitted_le := h.submitted_le
  submitted_of_closed := h.submitted_of_closed
  queued := h.queued
  length_workers := (List.length_set ..).trans h.length_workers
  no_task_of_gone hgone :=
    h.no_task_of_gone (gone_mem_of_setWorker Worker.ofMessages_ne_gone hgone)
  nodup_inWork := by
    refine nodup_setWorker hworker h.nodup_inWork fun own hown => ?_
    obtain rfl := Worker.file?_ofMessages hown
    exact h.not_beside_of_sending hworker
  taken_of_inWork own hown := by
    rcases of_mem_inWork_setWorker hworker hown with hnew | hbeside
    · obtain rfl := Worker.file?_ofMessages hnew
      exact h.taken_of_sending hworker
    · exact h.taken_of_inWork own (mem_inWork_of_beside hbeside)
  conserved other := by
    rw [h.coming_send hworker]
    exact h.conserved other

theorem leave (h : pool.Orderly work) {i : Nat} (hworker : pool.workers[i]? = some .waiting)
    (htasks : pool.tasks = []) (hclosed : pool.closed = true) :
    Orderly work (pool.setWorker i .gone) where
  submitted_le := h.submitted_le
  submitted_of_closed := h.submitted_of_closed
  queued := h.queued
  length_workers := (List.length_set ..).trans h.length_workers
  no_task_of_gone _ := ⟨hclosed, htasks⟩
  nodup_inWork := nodup_setWorker hworker h.nodup_inWork fun _ hown => by cases hown
  taken_of_inWork own hown := by
    rcases of_mem_inWork_setWorker hworker hown with hnew | hbeside
    · cases hnew
    · exact h.taken_of_inWork own (mem_inWork_of_beside hbeside)
  conserved other := by
    have hsame : (pool.setWorker i .gone).coming work other = pool.coming work other := by
      rw [coming, inHand_setWorker hworker rfl rfl]
      rfl
    rw [hsame]
    exact h.conserved other

/-- A message that is received is the first one that comes of its file pair. -/
theorem receive (h : pool.Orderly work) {posted : Posted} {rest : List Posted}
    (houtput : pool.output = posted :: rest) (writer : Except Fault Merging) :
    Orderly work
      { pool with output := rest, writer := writer, received := pool.received ++ [posted] } where
  submitted_le := h.submitted_le
  submitted_of_closed := h.submitted_of_closed
  queued := h.queued
  length_workers := h.length_workers
  no_task_of_gone := h.no_task_of_gone
  nodup_inWork := h.nodup_inWork
  taken_of_inWork := h.taken_of_inWork
  conserved other := by
    have hbefore := h.conserved other
    have hoff : posted :: rest = [posted] ++ rest := rfl
    rw [coming, houtput, hoff, Posted.ofFile_append, List.append_assoc] at hbefore
    rw [Posted.ofFile_append, List.append_assoc]
    exact hbefore

/-- Whoever moves, everything keeps its place. -/
theorem step (h : pool.Orderly work) (hstep : Step work pool next) : next.Orderly work := by
  cases hstep with
  | submit hless _ => exact h.submit hless
  | close hall _ => exact h.close hall
  | take hworker htasks => exact h.take hworker htasks
  | send hworker _ => exact h.send hworker
  | leave hworker htasks hclosed => exact h.leave hworker htasks hclosed
  | receive _ _ _ houtput => exact h.receive houtput _

end Orderly

theorem orderly_start (work : Workload) (store : Store) : (start work store).Orderly work where
  submitted_le := Nat.zero_le _
  submitted_of_closed hclosed := by cases hclosed
  queued := rfl
  length_workers := List.length_replicate
  no_task_of_gone hgone := by cases List.eq_of_mem_replicate hgone
  nodup_inWork := by
    have hnone : (start work store).inWork = [] := List.filterMap_replicate_of_none rfl
    rw [hnone]
    exact List.nodup_nil
  taken_of_inWork file hfile := by
    have hnone : (start work store).inWork = [] := List.filterMap_replicate_of_none rfl
    rw [hnone] at hfile
    cases hfile
  conserved file := by
    have hnone : (start work store).inHand file = [] := by
      refine inHand_of_idle (fun worker hworker => ?_) file
      rw [List.eq_of_mem_replicate hworker]
      rfl
    rw [coming, hnone]
    rfl

theorem Reachable.orderly (h : Reachable work store pool) : pool.Orderly work := by
  induction h with
  | start => exact orderly_start work store
  | step _ hstep ih => exact ih.step hstep

end Pool

end Bitext
