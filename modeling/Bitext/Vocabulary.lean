/-
Vocabularies: how often each token occurs.

Tokens are counted for each group by itself, since a group of words and a group of their
annotations have nothing in common.  A line may have more groups than the lines before
it; groups are added as they come up.  All lines count, however long they are, and the
lines are checked as they are when an index is built.
-/
import Std.Data.ExtTreeMap
import Bitext.Admission
import Bitext.Source.FileSet
import Bitext.Workspace

namespace Bitext

/-- The number of occurrences of each token, in ascending order of the tokens. -/
abbrev TokenCounts := Std.ExtTreeMap String Nat

/-- The token counts of both sides, group by group. -/
structure Vocabulary where
  source : List TokenCounts := []
  target : List TokenCounts := []

namespace Vocabulary

/-- Counts an occurrence of a token. -/
def countToken (counts : TokenCounts) (token : String) : TokenCounts :=
  counts.insert token (counts.getD token 0 + 1)

/-- Counts the tokens of each group, with new counts for groups that are new. -/
def countGroups : List (List String) → List TokenCounts → List TokenCounts
  | [], counts => counts
  | group :: groups, [] => group.foldl countToken ∅ :: countGroups groups []
  | group :: groups, counts :: rest => group.foldl countToken counts :: countGroups groups rest

/-- Counts the tokens of a pair. -/
def countPair (v : Vocabulary) (pair : Pair) : Vocabulary where
  source := countGroups (Line.tokens pair.source) v.source
  target := countGroups (Line.tokens pair.target) v.target

/-- Counts the tokens of line pairs, up to the first fault. -/
def countLines (fault : Option Fault) : Vocabulary → List LinePair → Except Fault Vocabulary
  | v, [] =>
      match fault with
      | none => .ok v
      | some fault => .error fault
  | v, found :: rest =>
      if Admission.groupsMatch found.pair then countLines fault (v.countPair found.pair) rest
      else .error (Admission.mismatch found.line found.pair)

/-- Counts the tokens of a file pair. -/
def countFiles (disk : Disk) (v : Vocabulary) (files : FilePair) : Except Fault Vocabulary :=
  within (.countingPair files.text) do
    let reading := (← files.openReader disk).readAll
    countLines reading.fault v reading.pairs

/-- The sizes of the groups of a side as events. -/
def sizeEvents (side : Side) (groups : List TokenCounts) : List Event :=
  groups.mapIdx fun group counts => .vocabularySize side group counts.size

/-- Counts the tokens of a bitext. -/
def ofFiles (files : FileSet) : Job Vocabulary := do
  let disk := (← get).disk
  let v ← Job.ofExcept (files.pairs.foldlM (countFiles disk) {})
  Workspace.reportAll (sizeEvents .source v.source ++ sizeEvents .target v.target)
  return v

end Vocabulary

end Bitext
