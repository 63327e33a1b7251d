/-
The disk, as far as a corpus can tell.

A corpus reads text files, lists a folder, and keeps temporary files that it has to
delete in the end.  All of that is a finite map from locations to folders and files, so
it is one here: reading is looking up, deleting is taking an entry away, and "no
temporary file is left behind" is a statement about the entries of a folder.

A path is followed step by step, and each step has to start in a folder, also one that
goes nowhere: `news.en/` leads nowhere when `news.en` is a file, and so does `gone/..` when
there is no `gone`.  A path that cannot be followed fails as an operating system reports
it, at the first step that fails.

A disk may also refuse to make a temporary file, for reasons that lie outside it.  Which
of the requests it refuses is part of the disk, so a statement about all disks covers
every such failure.
-/
import Bitext.Disk.Path

namespace Bitext

/-- The name of an entry in a folder. -/
inductive Name where
  /-- A name that was given. -/
  | given (text : String)
  /-- A name drawn for a temporary file with the given ending, told from all others by its
  serial number. -/
  | drawn (serial : Nat) (ending : String)
  deriving DecidableEq, Repr

/-- The names that lead from the root to a place. -/
abbrev Location := List Name

/-- What can stand at a location. -/
inductive Node where
  | folder
  | file (bytes : ByteArray)

/-- A file that has to be deleted by whoever holds it: how it is shown, and where it is. -/
structure TemporaryFile where
  text : String
  location : Location
  deriving DecidableEq, Repr

/-- The entries of a disk, how many temporary files have been asked for, and which of
these requests are refused. -/
structure Disk where
  entries : List (Location × Node) := []
  drawn : Nat := 0
  refuses : Nat → Bool := fun _ => false

namespace Disk

/-! ### Entries -/

/-- The node at a location.  The root is a folder. -/
def node? (disk : Disk) (place : Location) : Option Node :=
  if place = [] then some .folder else disk.entries.lookup place

/-- A file stands at the location. -/
def isFile (disk : Disk) (place : Location) : Bool :=
  match disk.node? place with
  | some (.file _) => true
  | _ => false

/-- The disk with a node at a location, in place of what was there. -/
def put (disk : Disk) (place : Location) (node : Node) : Disk :=
  { disk with entries := disk.entries.filter (·.1 ≠ place) ++ [(place, node)] }

/-- The disk without the entry at a location. -/
def erase (disk : Disk) (place : Location) : Disk :=
  { disk with entries := disk.entries.filter (·.1 ≠ place) }

/-- An entry stands directly in the folder. -/
def liesIn (folder : Location) (entry : Location × Node) : Bool :=
  entry.1.length == folder.length + 1 && entry.1.dropLast == folder

/-- The number of entries in a folder. -/
def count (disk : Disk) (folder : Location) : Nat := disk.entries.countP (liesIn folder)

/-! ### Following a path -/

/-- The location, which has to be that of a folder. -/
def asFolder (disk : Disk) (place : Location) : Except OsError Location :=
  match disk.node? place with
  | some .folder => .ok place
  | some (.file _) => .error .notAFolder
  | none => .error .notFound

/-- The location of a name in a folder, which has to be there. -/
def enter (disk : Disk) (folder : Location) (name : String) : Except OsError Location :=
  let place := folder ++ [.given name]
  if Path.maxNameBytes < name.utf8ByteSize then .error .nameTooLong
  else if (disk.node? place).isSome then .ok place
  else .error .notFound

/-- Takes one step. -/
def follow (disk : Disk) (place : Location) (step : Path.Step) : Except OsError Location := do
  let folder ← disk.asFolder place
  match step with
  | .stay => return folder
  | .up => return folder.dropLast
  | .into name => disk.enter folder name

/-- Takes steps from the root on. -/
def followAll (disk : Disk) (steps : List Path.Step) : Except OsError Location :=
  steps.foldlM disk.follow []

/-- Where a path leads, or the reason why it leads nowhere. -/
def locate (disk : Disk) (path : Path) : Except OsError Location :=
  match path.defect? with
  | some reason => .error reason
  | none => disk.followAll path.steps

/-- The node that a path leads to, or the reason why there is none. -/
def find (disk : Disk) (path : Path) : Except OsError Node := do
  match disk.node? (← disk.locate path) with
  | some node => return node
  | none => throw .notFound

/-- The folder that steps lead to, or the reason why there is none. -/
def folderAlong (disk : Disk) (steps : List Path.Step) : Except OsError Location := do
  disk.asFolder (← disk.followAll steps)

/-- The folder that a path leads to, or the reason why there is none. -/
def findFolder (disk : Disk) (path : Path) : Except OsError Location :=
  match path.defect? with
  | some reason => .error reason
  | none => disk.folderAlong path.steps

/-! ### Listing a folder -/

/-- A file stands where the path leads. -/
def holdsFile (disk : Disk) (path : Path) : Bool :=
  match disk.find path with
  | .ok (.file _) => true
  | _ => false

/-- The names of the entries that stand directly in a folder. -/
def namesIn (disk : Disk) (folder : Location) : List String :=
  disk.entries.filterMap fun entry =>
    match entry.1.getLast? with
    | some (.given name) => if liesIn folder entry then some name else none
    | _ => none

/-- The names of the files in a folder, or the reason why it cannot be listed.  A name is that
of a file when its path leads to one, and a path can be too long where the name is not. -/
def fileNames (disk : Disk) (path : Path) : Except OsError (List String) := do
  let folder ← disk.findFolder path
  return (disk.namesIn folder).filter fun name => disk.holdsFile (path.child name)

/-! ### Temporary files -/

/-- The folder for the next temporary file, or why the file cannot be made.  The path of
the file counts, which is longer than that of the folder and never empty. -/
def temporaryFolder (disk : Disk) (folder : Path) (ending : String) :
    Except OsError Location :=
  match (folder.temporary ending).defect? with
  | some reason => .error reason
  | none => do
      let place ← disk.folderAlong folder.steps
      if disk.refuses disk.drawn then .error .notPermitted else .ok place

/-- A new empty file under a name that is drawn for it, or why there is none.  The name is
used up in either case. -/
def createTemporary (disk : Disk) (folder : Path) (ending : String) :
    Except OsError TemporaryFile × Disk :=
  let after := { disk with drawn := disk.drawn + 1 }
  match disk.temporaryFolder folder ending with
  | .error reason => (.error reason, after)
  | .ok place =>
      let file : TemporaryFile :=
        ⟨(folder.temporary ending).text, place ++ [.drawn disk.drawn ending]⟩
      (.ok file, after.put file.location (.file .empty))

/-- The disk without a file, if the file is there. -/
def remove (disk : Disk) (place : Location) : Except OsError Disk :=
  match disk.node? place with
  | some (.file _) => .ok (disk.erase place)
  | some .folder => .error .isAFolder
  | none => .error .notFound

/-- The bytes of a file, or the reason why they cannot be had. -/
def bytesAt (disk : Disk) (place : Location) : Except OsError ByteArray :=
  match disk.node? place with
  | some (.file bytes) => .ok bytes
  | some .folder => .error .isAFolder
  | none => .error .notFound

end Disk

end Bitext
