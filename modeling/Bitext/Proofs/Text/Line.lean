/-
Clipped lines, counted again.

A clipped line is put together from tokens, and the tokens of a line are found by cutting
it.  Cutting what was put together gives the tokens back, because no token holds a blank
and none is empty.  So the tokens of a clipped line are the first tokens of the line, and
there are as many of them as were asked for, or all.
-/
import Bitext.Text.Line

namespace Bitext

/-! ### Pieces -/

namespace Text

/-- The pieces between cuts are made of what stood there, and nothing in them is cut at. -/
theorem mem_piece {α : Type} {p : α → Bool} {a : α} (l : List α) :
    ∀ piece ∈ l.splitOnP p, a ∈ piece → a ∈ l ∧ p a = false := by
  induction l with
  | nil => intro piece hpiece ha; simp_all
  | cons b rest ih =>
      intro piece hpiece ha
      rw [List.splitOnP_cons_eq_if_modifyHead] at hpiece
      split at hpiece
      · rcases List.mem_cons.mp hpiece with rfl | hpiece
        · simp at ha
        · exact ⟨List.mem_cons_of_mem b (ih piece hpiece ha).1, (ih piece hpiece ha).2⟩
      · rename_i hb
        obtain ⟨first, others, hsplit⟩ := List.exists_cons_of_ne_nil (List.splitOnP_ne_nil p rest)
        rw [hsplit] at ih
        rw [hsplit, List.modifyHead_cons] at hpiece
        rcases List.mem_cons.mp hpiece with rfl | hpiece
        · rcases List.mem_cons.mp ha with rfl | ha
          · exact ⟨by simp, by simpa using hb⟩
          · obtain ⟨hmem, hp⟩ := ih first (by simp) ha
            exact ⟨List.mem_cons_of_mem b hmem, hp⟩
        · obtain ⟨hmem, hp⟩ := ih piece (by simp [hpiece]) ha
          exact ⟨List.mem_cons_of_mem b hmem, hp⟩

/-- What stands in a joined text is the separator or stands in a part. -/
theorem mem_intercalate {α : Type} {separator a : α} (parts : List (List α)) :
    a ∈ [separator].intercalate parts → a = separator ∨ ∃ part ∈ parts, a ∈ part := by
  induction parts with
  | nil => intro h; simp at h
  | cons part rest ih =>
      intro h
      cases rest with
      | nil => exact .inr ⟨part, by simp, by simpa using h⟩
      | cons other others =>
          rw [List.intercalate_cons_cons, List.mem_append, List.mem_append] at h
          rcases h with (h | h) | h
          · exact .inr ⟨part, by simp, h⟩
          · exact .inl (List.mem_singleton.mp h)
          · rcases ih h with h | ⟨found, hfound, h⟩
            · exact .inl h
            · exact .inr ⟨found, List.mem_cons_of_mem part hfound, h⟩

/-- A word is not empty and holds no blank. -/
def IsWord (word : List Char) : Prop := word ≠ [] ∧ ∀ c ∈ word, isBlank c = false

theorem isWord_of_mem_words {text word : List Char} (h : word ∈ words text) : IsWord word := by
  obtain ⟨hpiece, hne⟩ := List.mem_filter.mp h
  exact ⟨by simpa using hne, fun c hc => (mem_piece text word hpiece hc).2⟩

/-- A blank parts the words before it from the words behind it. -/
theorem words_append_cons {c : Char} (h : isBlank c = true) (before behind : List Char) :
    words (before ++ c :: behind) = words before ++ words behind := by
  unfold words
  rw [List.splitOnP_append_cons before behind h, List.filter_append]

theorem words_of_isWord {word : List Char} (h : IsWord word) : words word = [word] := by
  rw [words, List.splitOnP_eq_singleton h.2]
  simp [h.1]

/-- Words joined by spaces are found again. -/
theorem words_intercalate (found : List (List Char)) (h : ∀ word ∈ found, IsWord word) :
    words ([' '].intercalate found) = found := by
  induction found with
  | nil => simp [words]
  | cons word rest ih =>
      have hword := words_of_isWord (h word (by simp))
      have hrest := ih fun later hlater => h later (List.mem_cons_of_mem word hlater)
      cases rest with
      | nil => simpa using hword
      | cons other others =>
          rw [List.intercalate_cons_cons, List.append_assoc, List.singleton_append,
            words_append_cons isBlank_space, hword, hrest, List.singleton_append]

end Text

/-! ### Lines -/

namespace Line

open Text

theorem isWord_of_mem_charTokens {line : String} {group : List (List Char)} {word : List Char}
    (hgroup : group ∈ charTokens line) (hword : word ∈ group) : IsWord word := by
  obtain ⟨text, -, rfl⟩ := List.mem_map.mp hgroup
  exact isWord_of_mem_words hword

theorem charTokens_ne_nil (line : String) : charTokens line ≠ [] := by
  unfold charTokens charGroups
  simp [List.splitOn_ne_nil]

/-- The groups of a line that is put together from words are the joined words. -/
theorem charGroups_ofCharTokens {tokens : List (List (List Char))} (hne : tokens ≠ [])
    (hwords : ∀ group ∈ tokens, ∀ word ∈ group, IsWord word) :
    charGroups (ofCharTokens tokens) = tokens.map ([' '].intercalate ·) := by
  unfold charGroups ofCharTokens
  rw [String.toList_ofList]
  refine List.splitOn_intercalate separator ?_ (by simpa using hne)
  intro text htext hmem
  obtain ⟨group, hgroup, rfl⟩ := List.mem_map.mp htext
  rcases mem_intercalate group hmem with h | ⟨word, hword, h⟩
  · exact absurd h (by decide)
  · have hblank := (hwords group hgroup word hword).2 separator h
    simp [separator, isBlank_tab] at hblank

/-- A line that is put together from words has these words, group by group. -/
theorem charTokens_ofCharTokens {tokens : List (List (List Char))} (hne : tokens ≠ [])
    (hwords : ∀ group ∈ tokens, ∀ word ∈ group, IsWord word) :
    charTokens (ofCharTokens tokens) = tokens := by
  rw [charTokens, charGroups_ofCharTokens hne hwords, List.map_map]
  have hback : ∀ group ∈ tokens, (words ∘ ([' '].intercalate ·)) group = id group :=
    fun group hgroup => words_intercalate group (hwords group hgroup)
  rw [List.map_congr_left hback, List.map_id]

theorem mem_clipGroups {α : Type} {wanted : Nat} {tokens : List (List α)} {kept : List α}
    (h : kept ∈ clipGroups wanted tokens) : ∃ group ∈ tokens, kept ⊆ group := by
  induction tokens generalizing wanted with
  | nil => simp [clipGroups] at h
  | cons group rest ih =>
      rcases List.mem_cons.mp h with rfl | h
      · exact ⟨group, by simp, List.take_subset wanted group⟩
      · obtain ⟨found, hfound, hsubset⟩ := ih h
        exact ⟨found, List.mem_cons_of_mem group hfound, hsubset⟩

theorem clipGroups_charTokens_ne_nil (line : String) (most : Nat) :
    clipGroups most (charTokens line) ≠ [] := by
  rw [ne_eq, ← List.length_eq_zero_iff, length_clipGroups, List.length_eq_zero_iff]
  exact charTokens_ne_nil line

theorem isWord_of_mem_clipGroups {line : String} {most : Nat} :
    ∀ kept ∈ clipGroups most (charTokens line), ∀ word ∈ kept, IsWord word := by
  intro kept hkept word hword
  obtain ⟨group, hgroup, hsubset⟩ := mem_clipGroups hkept
  exact isWord_of_mem_charTokens hgroup (hsubset hword)

/-- The tokens of a clipped line are the tokens that were kept. -/
theorem charTokens_clip (line : String) (most : Nat) :
    charTokens (clip line most) = clipGroups most (charTokens line) :=
  charTokens_ofCharTokens (clipGroups_charTokens_ne_nil line most) isWord_of_mem_clipGroups

theorem groupCount_eq_length (line : String) : groupCount line = (charTokens line).length := by
  rw [groupCount, charTokens, List.length_map]

theorem tokenCount_eq_length (line : String) :
    tokenCount line = (charTokens line).flatten.length := by
  rw [tokenCount, List.length_flatten]
  rfl

/-- Clipping a line leaves its groups, if only as empty ones. -/
theorem groupCount_clip (line : String) (most : Nat) :
    groupCount (clip line most) = groupCount line := by
  rw [groupCount_eq_length, groupCount_eq_length, charTokens_clip, length_clipGroups]

/-- **A clipped line has the tokens that were asked for, or all that the line has.** -/
theorem tokenCount_clip (line : String) (most : Nat) :
    tokenCount (clip line most) = min most (tokenCount line) := by
  rw [tokenCount_eq_length, tokenCount_eq_length, charTokens_clip, flatten_clipGroups,
    List.length_take]

/-- A clipped line holds no characters but those of the line and the two separators. -/
theorem mem_clip {line : String} {most : Nat} {c : Char} (h : c ∈ (clip line most).toList) :
    c = separator ∨ c = ' ' ∨ c ∈ line.toList := by
  unfold clip ofCharTokens at h
  rw [String.toList_ofList] at h
  rcases mem_intercalate _ h with h | ⟨text, htext, h⟩
  · exact .inl h
  · obtain ⟨kept, hkept, rfl⟩ := List.mem_map.mp htext
    rcases mem_intercalate kept h with h | ⟨word, hword, h⟩
    · exact .inr (.inl h)
    · obtain ⟨group, hgroup, hsubset⟩ := mem_clipGroups hkept
      obtain ⟨chars, hchars, rfl⟩ := List.mem_map.mp hgroup
      obtain ⟨hpiece, -⟩ := List.mem_filter.mp (hsubset hword)
      have hinGroup := (mem_piece chars word hpiece h).1
      rw [charGroups, List.splitOn_eq_splitOnP] at hchars
      exact .inr (.inr (mem_piece line.toList chars hchars hinGroup).1)

end Line

end Bitext
