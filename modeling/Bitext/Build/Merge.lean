/-
The merge: corpus order out of concurrent reading.

Workers read several file pairs at the same time, and what they find reaches the writer
in any order, except that the messages of one file pair arrive in their own order.  The
blob has to be written as if the files had been read one after the other, so the merge
writes the pairs of the current file at once and holds the pairs of later files.  When
the current file is done, the next one becomes current and what was held of it is
written; it may be done already, and then the one after it follows.

Nothing here depends on who reads what or when: a run of the merge is a run over a list
of messages.
-/
import Bitext.Build.Harvest

namespace Bitext

/-- What a worker tells the writer.  Files are counted in corpus order. -/
inductive Message where
  | pair (file : Nat) (p : Admitted)
  | done (file : Nat) (tally : Tally)
  | failed (fault : Fault)

/-- The messages of a harvest. -/
def Harvest.messages (file : Nat) (harvest : Harvest) : List Message :=
  harvest.admitted.map (.pair file)
    ++ [match harvest.outcome with
        | .ok tally => .done file tally
        | .error fault => .failed fault]

/-- The order that a merge restores. -/
structure Merge where
  /-- The file whose pairs are written as they come. -/
  current : Nat
  /-- Which files are done. -/
  done : List Bool
  /-- The pairs of later files that have come too early. -/
  held : List (List Admitted)

namespace Merge

/-- The merge of a number of files before any message. -/
def ofSize (files : Nat) : Merge := ⟨0, List.replicate files false, List.replicate files []⟩

/-- All files are done, in order. -/
def isComplete (m : Merge) : Bool := m.current == m.done.length

/-- The pairs that are held of a file. -/
def heldOf (m : Merge) (file : Nat) : List Admitted := m.held[file]?.getD []

/-- Takes a pair of a file: the pairs that can be written now, and the merge after it. -/
def hold (m : Merge) (file : Nat) (p : Admitted) : List Admitted × Merge :=
  if file = m.current then ([p], m)
  else ([], { m with held := m.held.modify file (· ++ [p]) })

/-- Goes on to the next file as long as the current one is done, and lets go of what was
held on the way.  The merge moves at most as often as there are files. -/
def release : Nat → Merge → List Admitted × Merge
  | 0, m => ([], m)
  | n + 1, m =>
      if m.done[m.current]? = some true then
        let file := m.current + 1
        let later := release n { m with current := file, held := m.held.set file [] }
        (m.heldOf file ++ later.1, later.2)
      else ([], m)

/-- Notes that a file is done: the pairs that can be written now, and the merge after
it. -/
def finish (m : Merge) (file : Nat) : List Admitted × Merge :=
  release m.done.length { m with done := m.done.set file true }

end Merge

/-- A merge with the store that it writes to and the tallies merged so far. -/
structure Merging where
  merge : Merge
  store : Store
  tally : Tally

namespace Merging

/-- A merge of a number of files into a store. -/
def start (files : Nat) (store : Store) : Merging := ⟨.ofSize files, store, .empty⟩

/-- Takes a message. -/
def receive (m : Merging) : Message → Except Fault Merging
  | .pair file p => do
      let (ready, merge) := m.merge.hold file p
      return { m with merge := merge, store := ← m.store.appendAll ready }
  | .done file tally => do
      let (ready, merge) := m.merge.finish file
      return ⟨merge, ← m.store.appendAll ready, m.tally.merge tally⟩
  | .failed fault => .error fault

/-- Takes messages until all files are done.  When the messages run out before that, the
workers are gone. -/
def run (m : Merging) : List Message → Except Fault Merging
  | [] => if m.merge.isComplete then .ok m else .error Cause.workersGone
  | message :: rest =>
      if m.merge.isComplete then .ok m
      else do
        let m ← m.receive message
        m.run rest

end Merging

/-! ### Turns

When the workers take turns, each of them sends the next message of the file that it
reads, and takes the next file that waits when it has sent the last one.
-/

namespace Turns

variable {α : Type}

/-- Gives the files that wait to the workers that have nothing left to send. -/
def assign : List (List α) → List (List α) → List (List α) × List (List α)
  | [], waiting => ([], waiting)
  | [] :: workers, file :: waiting =>
      let later := assign workers waiting
      (file :: later.1, later.2)
  | own :: workers, waiting =>
      let later := assign workers waiting
      (own :: later.1, later.2)

/-- The messages of some rounds of turns. -/
def rounds : Nat → List (List α) → List (List α) → List α
  | 0, _, _ => []
  | n + 1, workers, waiting =>
      let assigned := assign workers waiting
      assigned.1.filterMap List.head? ++ rounds n (assigned.1.map List.tail) assigned.2

/-- The messages of all files, sent by a number of workers that take turns.  There is no
round without a message, so there are no more rounds than messages. -/
def arrivals (workers : Nat) (files : List (List α)) : List α :=
  rounds ((files.map List.length).foldr (· + ·) 0) (List.replicate workers []) files

end Turns

end Bitext
