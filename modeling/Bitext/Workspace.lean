/-
The workspace: the disk and the log that all work happens on.

A job is work that may fail.  It changes the workspace whether it fails or not, so what
it has written, deleted and reported before a fault is still there after it.  Work that
cannot fail is a plain change of the workspace; deleting a temporary file behind the
scenes is of that kind, because there is nobody left to tell.
-/
import Bitext.Event

namespace Bitext

/-- The disk and the events reported so far. -/
structure Workspace where
  disk : Disk := {}
  log : Array Event := #[]

/-- Work on the workspace that cannot fail. -/
abbrev Work := StateM Workspace

/-- Work on the workspace that may fail. -/
abbrev Job := ExceptT Fault Work

namespace Workspace

/-- Reports an event. -/
def report (event : Event) : Work Unit := modify fun w => { w with log := w.log.push event }

/-- Reports events in order. -/
def reportAll (events : List Event) : Work Unit :=
  modify fun w => { w with log := w.log ++ events }

/-- Changes the disk. -/
def onDisk (change : Disk → Disk) : Work Unit := modify fun w => { w with disk := change w.disk }

/-- Deletes a file that may be gone already. -/
def discard (file : TemporaryFile) : Work Unit := onDisk fun disk => disk.erase file.location

/-- Deletes a file, or says why that was not possible. -/
def delete (file : TemporaryFile) : Work (Option OsError) := do
  match (← get).disk.remove file.location with
  | .ok disk =>
      onDisk fun _ => disk
      return none
  | .error reason => return some reason

/-- A new empty temporary file in a folder, or the reason why there is none. -/
def newTemporary (folder : Path) (ending : String) : Work (Except OsError TemporaryFile) := do
  let (result, disk) := (← get).disk.createTemporary folder ending
  onDisk fun _ => disk
  return result

/-- Writes a file if it is still there; a file that was deleted under the writer stays
deleted. -/
def overwrite (file : TemporaryFile) (bytes : ByteArray) : Work Unit :=
  onDisk fun disk =>
    if disk.isFile file.location then disk.put file.location (.file bytes) else disk

/-- The bytes of a file, or the reason why they cannot be had. -/
def bytesOf (file : TemporaryFile) : Work (Except OsError ByteArray) := do
  return (← get).disk.bytesAt file.location

end Workspace

namespace Job

/-- A result that is known already. -/
def ofExcept {α : Type} (result : Except Fault α) : Job α := ExceptT.mk (pure result)

/-- Runs a job and hands over its result, whether it failed or not. -/
def attempt {α : Type} (job : Job α) : Job (Except Fault α) := ExceptT.lift job.run

/-- The fault of a path that could not be used. -/
def systemFault (what : Context) (error : OsError) : Fault := ⟨.system error, [what]⟩

/-- The fault of a temporary file that could not be made in a folder, shown with the path
that was tried. -/
def creationFault (what : Context) (folder : Path) (ending : String) (error : OsError) : Fault :=
  ⟨.systemAt error (folder.temporary ending).text, [what]⟩

end Job

end Bitext
