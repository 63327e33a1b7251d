/-
Blobs: all admitted pairs of an epoch in one temporary file.

Pairs are appended one after another, and the offset at which a record starts is the
position of the writer before it.  Position and number of records move only when a
record has been written whole.  When a part of a record does not fit, its earlier parts
are in the file already; the writer does not know of them, so later offsets are counted
as if they were not there.

A finished blob can be read at any offset.  Its bytes stay readable when the file is
deleted, and a blob whose writer never moved reads as empty.
-/
import Bitext.Record.PairRecord
import Bitext.Workspace

namespace Bitext

/-- The writer of a blob. -/
structure BlobWriter where
  file : TemporaryFile
  /-- What has been written. -/
  bytes : ByteArray
  /-- Where the next record starts. -/
  position : Nat
  /-- The number of records written whole. -/
  records : Nat

/-- A finished blob. -/
structure Blob where
  file : TemporaryFile
  bytes : ByteArray
  records : Nat

namespace BlobWriter

/-- The ending of a blob's file name. -/
def ending : String := ".tmp"

/-- The writer of a new file in which nothing is written. -/
def ofFile (file : TemporaryFile) : BlobWriter := ⟨file, .empty, 0, 0⟩

/-- A writer on a new temporary file. -/
def create (folder : Path) : Job BlobWriter := do
  match ← Workspace.newTemporary folder ending with
  | .ok file => return ofFile file
  | .error reason => throw (Job.creationFault (.creatingBlob folder.text) folder ending reason)

/-- The number of bytes in a pair's record. -/
def recordSize (pair : Pair) : Nat := 16 + pair.source.utf8ByteSize + pair.target.utf8ByteSize

/-- Appends a pair.  The answer is the offset of its record, or why it does not fit. -/
def append (writer : BlobWriter) (p : Admitted) : Except Fault Nat × BlobWriter :=
  match PairRecord.write writer.bytes (PairRecord.parts p) with
  | (bytes, some fault) => (.error fault, { writer with bytes := bytes })
  | (bytes, none) =>
      (.ok writer.position,
        { writer with
          bytes := bytes
          position := writer.position + recordSize p.pair
          records := writer.records + 1 })

/-- Deletes the file of a writer that is given up. -/
def discard (writer : BlobWriter) : Work Unit := Workspace.discard writer.file

/-- Finishes the file and opens it for reading.  A file that has disappeared is noticed
only if something was written to it. -/
def finish (writer : BlobWriter) : Job Blob := do
  Workspace.overwrite writer.file writer.bytes
  if writer.position = 0 then
    return ⟨writer.file, .empty, writer.records⟩
  match ← Workspace.bytesOf writer.file with
  | .ok bytes => return ⟨writer.file, bytes, writer.records⟩
  | .error reason =>
      writer.discard
      throw (Job.systemFault (.reopeningBlob writer.file.text) reason)

end BlobWriter

namespace Blob

/-- The token counts of the record at an offset. -/
def headerAt (blob : Blob) (offset : Nat) : Except RecordFault Header :=
  PairRecord.headerAt blob.bytes offset

/-- The record at an offset. -/
def recordAt (blob : Blob) (offset : Nat) : Except RecordFault PairRecord :=
  PairRecord.readAt blob.bytes offset

/-- A blob without records. -/
def isEmpty (blob : Blob) : Bool := blob.records == 0

/-- Deletes the file of a blob that is given up. -/
def discard (blob : Blob) : Work Unit := Workspace.discard blob.file

/-- Deletes the file of a blob that is no longer needed. -/
def close (blob : Blob) : Job Unit := do
  match ← Workspace.delete blob.file with
  | none => return ()
  | some reason =>
      throw ⟨.systemAt reason blob.file.text, [.deletingBlob blob.file.text]⟩

end Blob

end Bitext
