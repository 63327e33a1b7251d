/-
Building an index.

All file pairs of a bitext are read, their admitted pairs are written to a new blob, and
the offsets are filed by length bucket.  The caller can read the files itself, one after
the other; or a pool of workers reads them and the caller only writes, in the order that
the merge restores.  The pool is used when workers are wanted and there is more than one
file pair to share out.

A fault gives the blob up, so a failed build leaves no file behind.
-/
import Bitext.Build.Merge
import Bitext.Epoch

namespace Bitext.Build

/-- Reads the file pairs one after the other. -/
def oneByOne (settings : Settings) : List FilePair → Store → Tally → Job (Store × Tally)
  | [], store, tally => return (store, tally)
  | files :: rest, store, tally => do
      Workspace.report (.readingPair files.text)
      let harvest := Harvest.ofFiles settings (← get).disk tally files
      let store ← Job.ofExcept (store.appendAll harvest.admitted)
      let tally ← Job.ofExcept harvest.outcome
      oneByOne settings rest store tally

/-- The messages that the reading of each file pair gives, in corpus order. -/
def messages (settings : Settings) (disk : Disk) (pairs : List FilePair) : List (List Message) :=
  pairs.mapIdx fun file files => (Harvest.ofFiles settings disk .empty files).messages file

/-- Lets workers read the file pairs and writes what they send. -/
def byWorkers (settings : Settings) (pairs : List FilePair) (store : Store) :
    Job (Store × Tally) := do
  let workers := min settings.workers pairs.length
  let arrivals := Turns.arrivals workers (messages settings (← get).disk pairs)
  let merged ← Job.ofExcept ((Merging.start pairs.length store).run arrivals)
  return (merged.store, merged.tally)

/-- The reading is shared out. -/
def isShared (settings : Settings) (files : FileSet) : Bool :=
  settings.workers != 0 && files.size != 1

/-- Reads all file pairs into a store. -/
def gather (settings : Settings) (files : FileSet) (store : Store) : Job (Store × Tally) :=
  if isShared settings files then byWorkers settings files.pairs store
  else oneByOne settings files.pairs store .empty

/-- Builds the blob and the index of a bitext. -/
def index (settings : Settings) (files : FileSet) : Job BuiltIndex := do
  Workspace.report (.buildingIndex files.size settings.workers)
  let writer ← BlobWriter.create settings.tempDir
  match ← Job.attempt (gather settings files (Store.ofWriter writer)) with
  | .error fault =>
      writer.discard
      throw fault
  | .ok (store, tally) =>
      let blob ← store.writer.finish
      Workspace.report
        (.builtIndex store.index.total store.index.bucketCount blob.file.text)
      return ⟨blob, store.index, tally⟩

end Bitext.Build
