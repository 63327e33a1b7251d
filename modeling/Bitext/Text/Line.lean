/-
Lines: groups of tokens.

A line of a corpus file may carry several aligned sub-fields, for instance a sentence
and its annotations.  They are called groups and are separated by tabs; inside a group
the tokens are separated by blanks.  Both functions below look at a line only through
its groups of tokens: `tokenCount` adds them up, and `clip` keeps the first tokens in
reading order while every group stays in place, so that a clipped line still has the
groups that its counterpart in the other language has.
-/
import Bitext.Text.Blank

namespace Bitext.Line

open Text

/-- The character that separates groups. -/
def separator : Char := '\t'

/-- The groups of a line, as characters. -/
def charGroups (line : String) : List (List Char) := line.toList.splitOn separator

/-- The groups of a line. -/
def groups (line : String) : List String := (charGroups line).map String.ofList

/-- The number of groups of a line, which is at least one. -/
def groupCount (line : String) : Nat := (charGroups line).length

/-- The tokens of a line, group by group, as characters. -/
def charTokens (line : String) : List (List (List Char)) := (charGroups line).map words

/-- The tokens of a line, group by group. -/
def tokens (line : String) : List (List String) := (charTokens line).map (·.map String.ofList)

/-- The number of tokens of a line over all its groups. -/
def tokenCount (line : String) : Nat := ((charTokens line).map List.length).foldr (· + ·) 0

/-! ### Clipping

The number of tokens still wanted is handed from group to group.  A group that comes
after the cut keeps none of its tokens, but it keeps its place.
-/

/-- The first `wanted` tokens of a line's groups, each in its own group. -/
def clipGroups {α : Type} (wanted : Nat) : List (List α) → List (List α)
  | [] => []
  | group :: rest => group.take wanted :: clipGroups (wanted - group.length) rest

/-- A line of the given tokens: single spaces inside a group, tabs between groups. -/
def ofCharTokens (tokens : List (List (List Char))) : String :=
  String.ofList ([separator].intercalate (tokens.map ([' '].intercalate ·)))

/-- The line with its first `most` tokens. -/
def clip (line : String) (most : Nat) : String := ofCharTokens (clipGroups most (charTokens line))

@[simp] theorem length_clipGroups {α : Type} (wanted : Nat) (tokens : List (List α)) :
    (clipGroups wanted tokens).length = tokens.length := by
  induction tokens generalizing wanted with
  | nil => rfl
  | cons group rest ih => simp [clipGroups, ih]

/-- Clipping keeps the first tokens, read group by group. -/
theorem flatten_clipGroups {α : Type} (wanted : Nat) (tokens : List (List α)) :
    (clipGroups wanted tokens).flatten = tokens.flatten.take wanted := by
  induction tokens generalizing wanted with
  | nil => simp [clipGroups]
  | cons group rest ih => simp [clipGroups, ih, List.take_append]

end Bitext.Line
