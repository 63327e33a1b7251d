/-
Paths: how a file is called, and the way that leads to it.

Messages show a path as it was put together, for instance from a folder that the user
named and a file name found in it, so a path is its text.  Where it leads is up to the
disk: what stands between the slashes are steps, to be taken one after another from the
root.  Nothing and `.` stay where they are, `..` goes up, and everything else goes to the
entry of that name.

There are texts that no disk can follow: those with a NUL, and those that are too long.  An
empty text is the path of nothing, although a name that is joined to it stands for an entry
of the root.
-/
import Bitext.Fault

namespace Bitext

/-- A path. -/
structure Path where
  text : String
  deriving DecidableEq, Repr

namespace Path

/-! ### Steps -/

/-- One step on the way through the folders. -/
inductive Step where
  | stay
  | up
  | into (name : String)
  deriving DecidableEq, Repr

/-- The step that is meant by what stands between two slashes. -/
def Step.ofPart (part : String) : Step :=
  if part = "" || part = "." then .stay
  else if part = ".." then .up
  else .into part

/-- The steps of the path, from the root on. -/
def steps (path : Path) : List Step :=
  (path.text.toList.splitOn '/').map fun part => Step.ofPart (String.ofList part)

/-- A slash stands at the end of the path, which makes it the path of a folder. -/
def endsInSlash (path : Path) : Bool := path.text.toList.getLast? == some '/'

/-! ### Joining -/

/-- The path of a name in a folder, with one slash between them.  A name that starts at
the root is a path itself. -/
def child (folder : Path) (name : String) : Path :=
  if name.toList.head? = some '/' then ⟨name⟩
  else if folder.text = "" || folder.endsInSlash then ⟨folder.text ++ name⟩
  else ⟨folder.text ++ "/" ++ name⟩

/-- The path that a temporary file in a folder is shown under.  The operating system fills
in six characters that nobody knows in advance, so they are shown as they were asked for. -/
def temporary (folder : Path) (ending : String) : Path :=
  folder.child ("corpus-XXXXXX" ++ ending)

/-! ### Limits -/

/-- The most bytes in the text of a path. -/
def maxBytes : Nat := 4095

/-- The most bytes in the name of an entry. -/
def maxNameBytes : Nat := 255

/-- Why no disk can follow the path, if that shows in its text. -/
def defect? (path : Path) : Option OsError :=
  if path.text.toList.any fun c => c.toNat = 0 then some .nulInName
  else if maxBytes < path.text.utf8ByteSize then some .nameTooLong
  else if path.text = "" then some .notFound
  else none

end Path

end Bitext
