/-
Batch streams: reading an epoch file, batch after batch.

A stream goes through its file once.  It ends at the end mark or at the first record
that cannot be read, and then the file is deleted; a stream that is dropped before that
deletes its file all the same.  After the end there is nothing more to read, however
often the stream is asked.

While it reads, a stream reports its progress, once for every tenth part of the batches
that it gets beyond.
-/
import Bitext.Record.BatchRecord
import Bitext.Workspace

namespace Bitext

/-- A stream over the batches of an epoch file. -/
structure BatchStream where
  file : TemporaryFile
  bytes : ByteArray
  /-- Where the next record starts. -/
  position : Nat
  /-- The number of batches that the file is said to hold. -/
  total : Nat
  /-- The number of batches read so far. -/
  read : Nat
  /-- The percentage at which the next report is due. -/
  reportAt : Nat
  /-- The stream is at its end, and its file is deleted. -/
  finished : Bool

namespace BatchStream

/-- The percentage between two reports. -/
def reportStep : Nat := 10

/-- A stream at the start of a file. -/
def ofBytes (file : TemporaryFile) (bytes : ByteArray) (total : Nat) : BatchStream :=
  ⟨file, bytes, 0, total, 0, reportStep, false⟩

/-- Opens an epoch file.  The stream takes the file over, and so it is deleted when it
cannot be opened. -/
def openFile (file : TemporaryFile) (total : Nat) : Job BatchStream := do
  match ← Workspace.bytesOf file with
  | .ok bytes => return ofBytes file bytes total
  | .error reason =>
      Workspace.discard file
      throw (Job.systemFault (.openingEpoch file.text) reason)

/-- Ends the stream and deletes its file, once. -/
def finish (stream : BatchStream) : Work BatchStream := do
  if stream.finished then
    return stream
  match ← Workspace.delete stream.file with
  | none => pure ()
  | some reason => Workspace.report (.epochNotDeleted stream.file.text reason)
  return { stream with finished := true }

/-- Gives the stream up before its end. -/
def drop (stream : BatchStream) : Work Unit := do
  let _ ← stream.finish

/-- The percentage of the batches that has been read. -/
def percent (stream : BatchStream) : Nat := 100 * stream.read / stream.total

/-- A report is due. -/
def reportDue (stream : BatchStream) : Bool :=
  stream.total != 0 && stream.reportAt ≤ stream.percent

/-- The stream after a batch, with the report that is due, if one is. -/
def advance (stream : BatchStream) (next : Nat) : Option Event × BatchStream :=
  let stream := { stream with position := next, read := stream.read + 1 }
  if stream.reportDue then
    (some (.readBatch stream.read stream.total stream.percent),
      { stream with reportAt := (stream.percent / reportStep + 1) * reportStep })
  else (none, stream)

/-- The next batch.  It is absent at the end, and a fault when the file is damaged. -/
def next (stream : BatchStream) : Work (Option (Except Fault Batch) × BatchStream) := do
  if stream.finished then
    return (none, stream)
  match BatchRecord.decode stream.bytes stream.position with
  | .ok (some (batch, position)) =>
      let (event, stream) := stream.advance position
      Workspace.reportAll event.toList
      return (some (.ok batch), stream)
  | .ok none => return (none, ← stream.finish)
  | .error fault =>
      Workspace.report (.damagedEpoch stream.file.text fault)
      let context := .readingBatch (stream.read + 1) stream.file.text
      return (some (.error ⟨.record fault, [context]⟩), ← stream.finish)

/-- The next batch with its number, counted from one. -/
def nextNumbered (stream : BatchStream) :
    Work (Option (Except Fault (Nat × Batch)) × BatchStream) := do
  let (result, stream) ← stream.next
  return (result.map fun batch => batch.map fun batch => (stream.read, batch), stream)

/-- Everything that is left, at most the given number of results. -/
def takeResults (stream : BatchStream) : Nat → Work (List (Except Fault Batch) × BatchStream)
  | 0 => return ([], stream)
  | n + 1 => do
      match ← stream.next with
      | (none, stream) => return ([], stream)
      | (some result, stream) =>
          let (results, stream) ← stream.takeResults n
          return (result :: results, stream)

/-- Reads the stream to its end and gives up what is left of it.  Every batch takes at
least one byte of the file, and at most one fault follows, so the number of bytes and
one more is enough. -/
def drain (stream : BatchStream) : Work (List (Except Fault Batch)) := do
  let (results, stream) ← stream.takeResults (stream.bytes.size + 2)
  stream.drop
  return results

end BatchStream

end Bitext
