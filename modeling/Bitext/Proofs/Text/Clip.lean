/-
Where the tokens of a clipped line stand.

The number of tokens still wanted is handed from group to group, so what a group keeps depends on
how many tokens stand in the groups before it: it keeps its first tokens as far as these leave
some to be wanted, and behind the cut it keeps none.  A line that is clipped twice is wanted fewer
of by one of the cuts, and the other one does nothing more.

Nothing else of the text is kept.  The tokens of a group are put side by side with one space
between any two, whatever gaps they had before.
-/
import Mathlib.Data.List.Forall2
import Bitext.Proofs.Text.Words

namespace Bitext.Line

open Text

/-! ### The cut -/

theorem clipGroups_map {α β : Type} (f : α → β) (wanted : Nat) (tokens : List (List α)) :
    clipGroups wanted (tokens.map (·.map f)) = (clipGroups wanted tokens).map (·.map f) := by
  induction tokens generalizing wanted with
  | nil => rfl
  | cons group rest ih => simp [clipGroups, ih]

/-- A group keeps what is still wanted behind the groups before it. -/
theorem getElem?_clipGroups {α : Type} (wanted : Nat) (tokens : List (List α)) (i : Nat) :
    (clipGroups wanted tokens)[i]?
      = tokens[i]?.map (List.take (wanted - (tokens.take i).flatten.length)) := by
  induction tokens generalizing wanted i with
  | nil => simp [clipGroups]
  | cons group rest ih =>
      cases i with
      | zero => simp [clipGroups]
      | succ i =>
          rw [clipGroups, List.getElem?_cons_succ, List.getElem?_cons_succ, ih, List.take_succ_cons,
            List.flatten_cons, List.length_append, Nat.sub_sub]

/-- The smaller of two cuts is the one that counts. -/
theorem clipGroups_clipGroups {α : Type} (first second : Nat) (tokens : List (List α)) :
    clipGroups second (clipGroups first tokens) = clipGroups (min first second) tokens := by
  induction tokens generalizing first second with
  | nil => rfl
  | cons group rest ih =>
      have hleft : min (first - group.length) (second - (group.take first).length)
          = min first second - group.length := by
        rw [List.length_take]
        omega
      rw [clipGroups, clipGroups, ih, hleft, clipGroups, List.take_take, Nat.min_comm]

/-! ### The tokens of a line -/

/-- The number of tokens in the groups before the given one. -/
def tokensBefore (line : String) (i : Nat) : Nat := ((tokens line).take i).flatten.length

/-- A group in which the given words stand. -/
def HasWords (group : String) (found : List String) : Prop :=
  Spaced group.toList (found.map String.toList)

/-- The words that stand in the groups of a line, group by group. -/
def HasTokens (line : String) (found : List (List String)) : Prop :=
  List.Forall₂ HasWords (groups line) found

theorem map_toList_map_ofList (words : List (List Char)) :
    (words.map String.ofList).map String.toList = words := by
  simp

theorem hasTokens_tokens (line : String) : HasTokens line (tokens line) := by
  unfold HasTokens tokens charTokens groups
  rw [List.forall₂_map_left_iff, List.map_map, List.forall₂_map_right_iff, List.forall₂_same]
  intro group _
  rw [HasWords, String.toList_ofList, Function.comp_apply, map_toList_map_ofList]
  exact words_eq_iff.mp rfl

/-- In a group there stand no words but its own. -/
theorem HasWords.unique {group : String} {first second : List String}
    (hfirst : HasWords group first) (hsecond : HasWords group second) : first = second := by
  have hsame : first.map String.toList = second.map String.toList := by
    rw [← words_eq_iff.mpr hfirst, ← words_eq_iff.mpr hsecond]
  have hback := congrArg (List.map String.ofList) hsame
  simpa using hback

/-- The tokens of a line are the words that stand in its groups. -/
theorem tokens_eq_iff {line : String} {found : List (List String)} :
    tokens line = found ↔ HasTokens line found := by
  constructor
  · rintro rfl
    exact hasTokens_tokens line
  · intro h
    have hunique : Relator.RightUnique HasWords := fun _ _ _ => HasWords.unique
    exact List.right_unique_forall₂' hunique (hasTokens_tokens line) h

theorem tokenCount_eq_length_tokens (line : String) :
    tokenCount line = (tokens line).flatten.length := by
  rw [tokenCount_eq_length, tokens, ← List.map_flatten, List.length_map]

theorem isWord_of_mem_tokens {line : String} :
    ∀ group ∈ tokens line, ∀ token ∈ group, IsWord token.toList := by
  intro group hgroup token htoken
  obtain ⟨chars, hchars, rfl⟩ := List.mem_map.mp hgroup
  obtain ⟨word, hword, rfl⟩ := List.mem_map.mp htoken
  rw [String.toList_ofList]
  exact isWord_of_mem_charTokens hchars hword

/-! ### The tokens of a clipped line -/

theorem tokens_clip (line : String) (most : Nat) :
    tokens (clip line most) = clipGroups most (tokens line) := by
  rw [tokens, charTokens_clip, tokens, clipGroups_map]

theorem ofList_intercalate (found : List (List Char)) :
    String.ofList ([' '].intercalate found) = " ".intercalate (found.map String.ofList) := by
  rw [← String.toList_inj, String.toList_ofList, String.toList_intercalate, map_toList_map_ofList]
  rfl

/-- A group of a clipped line is its tokens with single spaces between them. -/
theorem groups_clip (line : String) (most : Nat) :
    groups (clip line most) = (tokens (clip line most)).map (" ".intercalate ·) := by
  have hgroups : charGroups (clip line most)
      = (clipGroups most (charTokens line)).map ([' '].intercalate ·) :=
    charGroups_ofCharTokens (clipGroups_charTokens_ne_nil line most) isWord_of_mem_clipGroups
  rw [groups, hgroups, tokens, charTokens_clip, List.map_map, List.map_map]
  exact List.map_congr_left fun found _ => ofList_intercalate found

theorem clip_clip (line : String) (first second : Nat) :
    clip (clip line first) second = clip line (min first second) := by
  rw [clip, charTokens_clip, clipGroups_clipGroups, clip]

/-- A line that has the first tokens of another one, each in its own group, and nothing else but
what separates them. -/
structure HasFirst (line : String) (most : Nat) (clipped : String) : Prop where
  /-- Every group has kept its place. -/
  sameGroups : groupCount clipped = groupCount line
  /-- Read group by group, the tokens are the first tokens of the line. -/
  firstTokens :
    (tokens clipped).flatten = (tokens line).flatten.take (min most (tokenCount line))
  /-- A group has its own first tokens, as many as the groups before it leave to be wanted. -/
  ownTokens : ∀ i, (tokens clipped)[i]?
    = (tokens line)[i]?.map (List.take (most - tokensBefore line i))
  /-- A group is its tokens with single spaces between them, -/
  singleSpaces : groups clipped = (tokens clipped).map (" ".intercalate ·)
  /-- and no token is empty or has a blank in it. -/
  areWords : ∀ group ∈ tokens clipped, ∀ token ∈ group, IsWord token.toList
  /-- A group that comes after the cut is empty. -/
  emptyAfter : ∀ i < groupCount line, most ≤ tokensBefore line i → (groups clipped)[i]? = some ""
  count : tokenCount clipped = min most (tokenCount line)

theorem hasFirst_clip (line : String) (most : Nat) : HasFirst line most (clip line most) where
  sameGroups := groupCount_clip line most
  firstTokens := by
    rw [tokens_clip, flatten_clipGroups, tokenCount_eq_length_tokens, ← List.take_eq_take_min]
  ownTokens := by
    intro i
    rw [tokens_clip, getElem?_clipGroups, tokensBefore]
  singleSpaces := groups_clip line most
  areWords := isWord_of_mem_tokens
  emptyAfter := by
    intro i hi hpast
    have hlength : (tokens line).length = groupCount line := by
      rw [tokens, List.length_map, groupCount_eq_length]
    have hnone : most - ((tokens line).take i).flatten.length = 0 := Nat.sub_eq_zero_of_le hpast
    rw [groups_clip, List.getElem?_map, tokens_clip, getElem?_clipGroups, hnone,
      List.getElem?_eq_getElem (hlength ▸ hi)]
    simp
  count := tokenCount_clip line most

/-- **A clipped line is the line's first tokens in their own groups.**  To clip a line twice is to
clip it at the smaller number, so clipping again at the same number changes nothing.  Tokens are
the words of the groups, and blanks are the characters of White_Space. -/
theorem clipped_line_has_the_first_tokens (line : String) (most : Nat) :
    HasFirst line most (clip line most) ∧
      (∀ other, clip (clip line most) other = clip line (min most other)) ∧
      clip (clip line most) most = clip line most ∧
      (∀ text found, tokens text = found ↔ HasTokens text found) ∧
      ∀ c, isBlank c = true ↔ c.toNat ∈ whiteSpace := by
  refine ⟨hasFirst_clip line most, clip_clip line most, ?_, fun _ _ => tokens_eq_iff,
    isBlank_iff_mem_whiteSpace⟩
  rw [clip_clip, Nat.min_self]

/-- The cut falls behind the last token of a group, and the group after it stays as an empty one. -/
example : clip "a\u00a0 b\t \tc d" 2 = "a b\t\t" := by decide +kernel

end Bitext.Line
