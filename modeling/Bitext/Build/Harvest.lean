/-
Harvests: what one file pair contributes to an index.

Reading a file pair gives its admitted pairs in order and then, if nothing went wrong,
the tally of the reading.  A fault in the lines or in the groups of a pair ends the
harvest where it stands; the pairs admitted before it have been handed over by then.

The store is where harvests go: a blob that takes the records, and the index of their
offsets.
-/
import Bitext.Admission
import Bitext.Blob
import Bitext.Bucket.Index
import Bitext.Source.FileSet

namespace Bitext

/-! ### The store -/

/-- A blob that is being written, and the index of what is in it. -/
structure Store where
  writer : BlobWriter
  index : Index

namespace Store

/-- The store on a new blob. -/
def ofWriter (writer : BlobWriter) : Store := ⟨writer, .empty⟩

/-- Writes a pair and files its offset under its key. -/
def append (store : Store) (p : Admitted) : Except Fault Store :=
  match store.writer.append p with
  | (.ok offset, writer) => .ok ⟨writer, store.index.insert p.key offset⟩
  | (.error fault, _) => .error fault

/-- Writes pairs in order. -/
def appendAll (store : Store) (pairs : List Admitted) : Except Fault Store :=
  pairs.foldlM append store

end Store

/-! ### Harvests -/

/-- The admitted pairs of a file pair, and the tally or the fault in which its reading
ended. -/
structure Harvest where
  admitted : List Admitted
  outcome : Except Fault Tally

namespace Harvest

/-- Admits line pairs one by one, up to the first fault. -/
def ofLines (settings : Settings) (fault : Option Fault) : Tally → List LinePair → Harvest
  | tally, [] =>
      match fault with
      | none => ⟨[], .ok tally⟩
      | some fault => ⟨[], .error fault⟩
  | tally, found :: rest =>
      match Admission.receive settings found.line found.pair tally with
      | .error fault => ⟨[], .error fault⟩
      | .ok (.rejected _ _, tally) => ofLines settings fault tally rest
      | .ok (.accepted p, tally) =>
          let later := ofLines settings fault tally rest
          ⟨p :: later.admitted, later.outcome⟩

/-- The harvest of a file pair, counted on top of a tally.  A file that cannot be opened
is reported as such; every other fault names the file pair. -/
def ofFiles (settings : Settings) (disk : Disk) (tally : Tally) (files : FilePair) : Harvest :=
  match files.openReader disk with
  | .error fault => ⟨[], .error fault⟩
  | .ok reader =>
      let reading := reader.readAll
      let harvest := ofLines settings reading.fault tally reading.pairs
      { harvest with outcome := within (.readingPair files.text) harvest.outcome }

end Harvest

end Bitext
