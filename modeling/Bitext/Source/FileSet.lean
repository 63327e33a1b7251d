/-
File sets: which files make up a bitext.

In a folder, the source and the target file of a pair have the same key in front of
their suffixes, as in `news.en.snt` and `news.de.snt`.  The suffix is matched without
regard to the case of ASCII letters and the key is not empty.  Every key has to have both
files: a target file without a source file is reported first, then a source file without
a target file, the smallest key first.  Pairs are ordered by key, so the order in which
the folder happens to be listed makes a difference only when two names differ in nothing
but the case of their suffix; of these the one that is listed last counts.

A bitext can also be given as a list of file pairs, which is then taken as it is.
-/
import Std.Data.ExtTreeMap
import Bitext.Source.LinePairs
import Bitext.Settings

namespace Bitext

/-- The file pairs of a bitext, and the folder in which they were found. -/
structure FileSet where
  folder : Path
  pairs : List FilePair

namespace FileSet

/-- The end of the names of a language's files. -/
def suffix (language : String) : String := "." ++ language ++ ".snt"

/-- Texts that are equal up to the case of their ASCII letters. -/
def sameLetters (a b : List Char) : Bool := a.map Char.toLower == b.map Char.toLower

/-- The key of a name with the given suffix. -/
def keyOf? (suffix name : List Char) : Option (List Char) :=
  let key := name.take (name.length - suffix.length)
  if !key.isEmpty && sameLetters (name.drop key.length) suffix then some key else none

/-- The names of files by their keys, in ascending order of the keys. -/
abbrev KeyedNames := Std.ExtTreeMap String String

/-- Adds a name under its key, if it has the suffix, in place of a name with the same
key. -/
def addName (suffix : String) (found : KeyedNames) (name : String) : KeyedNames :=
  match keyOf? suffix.toList name.toList with
  | some key => found.insert (String.ofList key) name
  | none => found

/-- The names that have the suffix. -/
def withSuffix (suffix : String) (names : List String) : KeyedNames :=
  names.foldl (addName suffix) ∅

/-- The name with the smallest key that has no counterpart. -/
def firstAlone? (names others : KeyedNames) : Option String :=
  (names.toList.find? fun entry => !others.contains entry.1).map (·.2)

/-- The pairs of names with the same key. -/
def pairNames (sources targets : KeyedNames) : List (String × String) :=
  sources.toList.filterMap fun entry => targets[entry.1]?.map fun name => (entry.2, name)

/-- The pairs of source and target names among the names of a folder. -/
def match? (folder : Path) (sourceSuffix targetSuffix : String) (names : List String) :
    Except Fault (List (String × String)) :=
  let sources := withSuffix sourceSuffix names
  let targets := withSuffix targetSuffix names
  match firstAlone? targets sources with
  | some name => .error (Cause.missingCounterpart (folder.child name).text sourceSuffix)
  | none =>
      match firstAlone? sources targets with
      | some name => .error (Cause.missingCounterpart (folder.child name).text targetSuffix)
      | none =>
          match pairNames sources targets with
          | [] => .error (Cause.noPairsFound folder.text sourceSuffix targetSuffix)
          | pairs => .ok pairs

/-- The file pairs of two languages in a folder. -/
def discover (disk : Disk) (folder : Path) (source target : String) : Except Fault FileSet := do
  let sourceSuffix := suffix source
  let targetSuffix := suffix target
  if sameLetters sourceSuffix.toList targetSuffix.toList then
    throw ⟨.settings (.sameLanguage source), []⟩
  match disk.fileNames folder with
  | .error reason => throw ⟨.system reason, [.readingFolder folder.text]⟩
  | .ok names =>
      let pairs ← match? folder sourceSuffix targetSuffix names
      return ⟨folder, pairs.map fun names => ⟨folder.child names.1, folder.child names.2⟩⟩

/-- A bitext of the given file pairs. -/
def ofPairs (pairs : List FilePair) : Except Fault FileSet :=
  if pairs.isEmpty then .error (Cause.settings .noFilePairs) else .ok ⟨⟨""⟩, pairs⟩

/-- The number of file pairs. -/
def size (files : FileSet) : Nat := files.pairs.length

end FileSet

end Bitext
