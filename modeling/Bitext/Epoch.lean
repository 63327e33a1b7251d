/-
Epochs: a bitext packed for one pass.

Packing consumes an index and its blob.  It writes an epoch file, deletes the blob and
leaves the epoch, which knows how many batches and pairs its file holds and what the
tally of the index was.  Opening the epoch turns it into a stream, which takes over the
file; an epoch that is never opened deletes its file when it is dropped.

When something goes wrong on the way neither file is left behind.  A budget of zero is
refused before anything is packed.
-/
import Bitext.Packing
import Bitext.BatchStream

namespace Bitext

/-- An index with the blob whose pairs it holds, and the tally of its making. -/
structure BuiltIndex where
  blob : Blob
  index : Index
  tally : Tally

/-- Deletes the blob of an index that is given up. -/
def BuiltIndex.discard (built : BuiltIndex) : Work Unit := built.blob.discard

/-- An epoch file that is ready to be read. -/
structure Epoch where
  file : TemporaryFile
  batches : Nat
  pairs : Nat
  tally : Tally

namespace Epoch

/-- The ending of an epoch file's name. -/
def ending : String := ".sorted"

/-- Deletes the file of an epoch that is given up. -/
def drop (epoch : Epoch) : Work Unit := Workspace.discard epoch.file

/-- Opens the epoch for reading. -/
def openStream (epoch : Epoch) : Job BatchStream := BatchStream.openFile epoch.file epoch.batches

/-- Deletes the blob of a packed index; that it could not be deleted is only reported. -/
def closeBlob (blob : Blob) : Work Unit := do
  match ← blob.close.run with
  | .ok _ => pure ()
  | .error fault => Workspace.report (.blobNotDeleted fault)

/-- Packs an index into an epoch file in a folder. -/
def pack {σ : Type} (budget : Nat) (dice : Dice σ) (s : σ) (built : BuiltIndex)
    (folder : Path) : Job Epoch := do
  match ← Workspace.newTemporary folder ending with
  | .error reason =>
      built.discard
      throw (Job.creationFault (.creatingEpoch folder.text) folder ending reason)
  | .ok file =>
      let index := built.index
      Workspace.report (.packing index.total index.bucketCount budget)
      let packed := Packing.all dice built.blob budget index s
      Workspace.reportAll (Packing.events 0 0 packed.batches)
      match packed.fault with
      | some fault =>
          Workspace.discard file
          built.discard
          throw fault
      | none =>
          Workspace.overwrite file (Packing.epochBytes packed.batches)
          closeBlob built.blob
          let epoch : Epoch :=
            ⟨file, packed.batches.length, Packing.pairCount packed.batches, built.tally⟩
          Workspace.report (.packedEpoch epoch.batches epoch.pairs file.text)
          return epoch

/-- A budget of zero packs nothing, so it is refused. -/
def checkBudget (budget : Nat) : Except Fault Unit :=
  if budget = 0 then .error Cause.zeroBudget else .ok ()

/-- Packs an index into an epoch file in a folder, if the budget allows to pack anything. -/
def packWithin {σ : Type} (budget : Nat) (dice : Dice σ) (s : σ) (built : BuiltIndex)
    (folder : Path) : Job Epoch := do
  match checkBudget budget with
  | .error fault =>
      built.discard
      throw fault
  | .ok () => pack budget dice s built folder

/-- A positive budget is not refused. -/
theorem packWithin_of_pos {σ : Type} {budget : Nat} (h : 0 < budget) (dice : Dice σ) (s : σ)
    (built : BuiltIndex) (folder : Path) :
    packWithin budget dice s built folder = pack budget dice s built folder := by
  rw [packWithin, checkBudget, if_neg (Nat.ne_of_gt h)]

end Epoch

end Bitext
