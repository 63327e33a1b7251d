/-
The pool: every way in which workers can share out the reading.

The caller puts the file pairs into a queue of tasks, closes the queue, and then receives
messages from an output queue until the merge is complete or a fault has come up.  A worker
takes a task when it has nothing to send, and sends the messages of its file pair one by
one; a full output queue makes it wait.  When the tasks are closed and used up it leaves.

Who moves next is left open, so a pool is a relation between states and not a function.  A
build follows one of its schedules; what holds of every reachable state holds of all of
them.  The files that were taken and the messages that were received are kept in the state
as a history that no step looks at.
-/
import Bitext.Build.Merge

namespace Bitext

/-- The work of a pool and its size. -/
structure Workload where
  /-- The messages that the reading of each file pair gives, in corpus order. -/
  files : List (List Message)
  /-- The number of workers. -/
  workers : Nat
  /-- The number of messages that the output queue can hold. -/
  capacity : Nat

/-- A message and the file pair that it comes from. -/
structure Posted where
  file : Nat
  message : Message

/-- What a worker is doing. -/
inductive Worker where
  /-- It has nothing to send and waits for a task. -/
  | waiting
  /-- It is about to send a message of a file pair, and others after it. -/
  | sending (file : Nat) (next : Message) (later : List Message)
  /-- It has left. -/
  | gone

/-- A worker that has messages of a file pair to send. -/
def Worker.ofMessages (file : Nat) : List Message → Worker
  | [] => .waiting
  | next :: later => .sending file next later

/-- The state of a pool. -/
structure Pool where
  /-- The number of tasks that the caller has put into the queue. -/
  submitted : Nat
  /-- The caller has closed the queue of tasks. -/
  closed : Bool
  /-- The queue of tasks, oldest first. -/
  tasks : List Nat
  workers : List Worker
  /-- The output queue, oldest first. -/
  output : List Posted
  /-- The merge, or the fault that has stopped the caller. -/
  writer : Except Fault Merging
  /-- The file pairs that were taken, in order. -/
  taken : List Nat
  /-- The messages that were received, in order. -/
  received : List Posted

namespace Pool

/-- A pool before anything has happened. -/
def start (work : Workload) (store : Store) : Pool where
  submitted := 0
  closed := false
  tasks := []
  workers := List.replicate work.workers .waiting
  output := []
  writer := .ok (.start work.files.length store)
  taken := []
  received := []

/-- The messages of a file pair. -/
def messagesOf (work : Workload) (file : Nat) : List Message := work.files[file]?.getD []

/-- The pool with a worker in a new state. -/
def setWorker (pool : Pool) (i : Nat) (worker : Worker) : Pool :=
  { pool with workers := pool.workers.set i worker }

/-- What can happen next.  The queue of tasks has room for all file pairs. -/
inductive Step (work : Workload) : Pool → Pool → Prop where
  /-- The caller puts the next file pair into the queue, if there is room. -/
  | submit {pool : Pool} :
      pool.submitted < work.files.length → pool.tasks.length < work.files.length →
      Step work pool
        { pool with
          submitted := pool.submitted + 1
          tasks := pool.tasks ++ [pool.submitted] }
  /-- The caller closes the queue after the last file pair. -/
  | close {pool : Pool} :
      pool.submitted = work.files.length → pool.closed = false →
      Step work pool { pool with closed := true }
  /-- A worker that waits takes the oldest task. -/
  | take {pool : Pool} {i file : Nat} {rest : List Nat} :
      pool.workers[i]? = some .waiting → pool.tasks = file :: rest →
      Step work pool
        { pool.setWorker i (.ofMessages file (messagesOf work file)) with
          tasks := rest
          taken := pool.taken ++ [file] }
  /-- A worker sends its next message, if there is room. -/
  | send {pool : Pool} {i file : Nat} {next : Message} {later : List Message} :
      pool.workers[i]? = some (.sending file next later) → pool.output.length < work.capacity →
      Step work pool
        { pool.setWorker i (.ofMessages file later) with
          output := pool.output ++ [⟨file, next⟩] }
  /-- A worker that waits leaves when there will be no task any more. -/
  | leave {pool : Pool} {i : Nat} :
      pool.workers[i]? = some .waiting → pool.tasks = [] → pool.closed = true →
      Step work pool (pool.setWorker i .gone)
  /-- The caller receives the oldest message, if the merge still needs one. -/
  | receive {pool : Pool} {merging : Merging} {posted : Posted} {rest : List Posted} :
      pool.closed = true → pool.writer = .ok merging → merging.merge.isComplete = false →
      pool.output = posted :: rest →
      Step work pool
        { pool with
          output := rest
          writer := merging.receive posted.message
          received := pool.received ++ [posted] }

/-- The states that some schedule leads to. -/
inductive Reachable (work : Workload) (store : Store) : Pool → Prop where
  | start : Reachable work store (start work store)
  | step {pool next : Pool} :
      Reachable work store pool → Step work pool next → Reachable work store next

/-- The caller still needs messages. -/
def Unfinished (pool : Pool) : Prop :=
  ∃ merging, pool.writer = .ok merging ∧ merging.merge.isComplete = false

/-- All workers have left and no message is on its way: nothing can be received any
more. -/
def Deserted (pool : Pool) : Prop :=
  (∀ worker ∈ pool.workers, worker = .gone) ∧ pool.output = []

end Pool

end Bitext
