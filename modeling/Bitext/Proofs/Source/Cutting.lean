/-
The lines of a file, read off its bytes.

A file is a row of lines, each with a line feed behind it, and perhaps a rest behind the last line
feed.  `Holds` says so line by line and says what is taken off at the end of a line: from a line
that is ended, its line feed or its carriage return and line feed, and then at most one more
carriage return; from the rest, at most one.  It does not say how the bytes are gone through, and
it leaves no choice: the lines that a file holds are those which the reader cuts.

A line that has no carriage return of its own is thus the same line whether a line feed ends it or
a carriage return and a line feed do, and files that differ in such ends only hold the same lines.
-/
import Bitext.Proofs.Source.Delivered

namespace Bitext.TextLines

variable {bytes rest line : List UInt8} {lines : List (List UInt8)}

/-! ### Cutting -/

/-- A carriage return at the end is taken off, if there is one. -/
inductive ReturnOff : List UInt8 → List UInt8 → Prop
  | taken (bytes : List UInt8) : ReturnOff (bytes ++ [carriageReturn]) bytes
  | absent {bytes : List UInt8} :
      bytes.getLast? ≠ some carriageReturn → ReturnOff bytes bytes

/-- A file holds lines, here without their ends. -/
inductive Holds : List UInt8 → List (List UInt8) → Prop
  /-- Without bytes there is no line. -/
  | nothing : Holds [] []
  /-- What stands behind the last line feed is a line. -/
  | rest {bytes line : List UInt8} :
      bytes ≠ [] → lineFeed ∉ bytes → ReturnOff bytes line → Holds bytes [line]
  /-- A line feed ends a line.  The carriage return before it belongs to it. -/
  | ended {bytes once line rest : List UInt8} {lines : List (List UInt8)} :
      lineFeed ∉ bytes → ReturnOff bytes once → ReturnOff once line → Holds rest lines →
      Holds (bytes ++ lineFeed :: rest) (line :: lines)

theorem dropReturn_append_return (bytes : List UInt8) :
    dropReturn (bytes ++ [carriageReturn]) = bytes := by
  rw [dropReturn, if_pos List.getLast?_concat, List.dropLast_concat]

theorem dropReturn_of_absent (h : bytes.getLast? ≠ some carriageReturn) :
    dropReturn bytes = bytes := by
  rw [dropReturn, if_neg h]

theorem returnOff_iff : ReturnOff bytes line ↔ line = dropReturn bytes := by
  constructor
  · intro h
    cases h with
    | taken => exact (dropReturn_append_return line).symm
    | absent habsent => exact (dropReturn_of_absent habsent).symm
  · rintro rfl
    by_cases h : bytes.getLast? = some carriageReturn
    · obtain ⟨front, rfl⟩ := List.getLast?_eq_some_iff.mp h
      rw [dropReturn_append_return]
      exact .taken front
    · rw [dropReturn_of_absent h]
      exact .absent h

theorem beq_lineFeed_of_not_mem (h : lineFeed ∉ bytes) : ∀ b ∈ bytes, (b == lineFeed) = false :=
  fun _ hb => beq_eq_false_iff_ne.mpr fun heq => h (heq ▸ hb)

theorem cut_rest (hne : bytes ≠ []) (h : lineFeed ∉ bytes) : cut bytes = [⟨bytes, false⟩] := by
  rw [cut, List.splitOn_eq_splitOnP, List.splitOnP_eq_singleton (beq_lineFeed_of_not_mem h),
    ofPieces, if_neg (by simpa using hne)]

theorem cut_ended (h : lineFeed ∉ bytes) (rest : List UInt8) :
    cut (bytes ++ lineFeed :: rest) = ⟨bytes, true⟩ :: cut rest := by
  have hpieces : (bytes ++ lineFeed :: rest).splitOn lineFeed
      = bytes :: rest.splitOn lineFeed := by
    rw [List.splitOn_eq_splitOnP,
      List.splitOnP_append_cons (p := (· == lineFeed)) bytes rest (beq_self_eq_true lineFeed),
      List.splitOnP_eq_singleton (beq_lineFeed_of_not_mem h), List.splitOn_eq_splitOnP,
      List.singleton_append]
  obtain ⟨first, others, hrest⟩ := List.exists_cons_of_ne_nil (List.splitOn_ne_nil lineFeed rest)
  rw [cut, cut, hpieces, hrest]
  rfl

/-- The lines of a file without their ends. -/
def contents (bytes : List UInt8) : List (List UInt8) := (cut bytes).map RawLine.content

theorem contents_rest (hne : bytes ≠ []) (h : lineFeed ∉ bytes) :
    contents bytes = [dropReturn bytes] := by
  rw [contents, cut_rest hne h]
  rfl

theorem contents_ended (h : lineFeed ∉ bytes) (rest : List UInt8) :
    contents (bytes ++ lineFeed :: rest) = dropReturn (dropReturn bytes) :: contents rest := by
  rw [contents, cut_ended h]
  rfl

theorem holds_contents (bytes : List UInt8) : Holds bytes (contents bytes) := by
  by_cases hended : lineFeed ∈ bytes
  · obtain ⟨front, rest, hbytes, hfront⟩ := List.eq_append_cons_of_mem hended
    have hshorter : rest.length < bytes.length := by
      rw [hbytes, List.length_append, List.length_cons]
      omega
    rw [hbytes, contents_ended hfront]
    exact .ended hfront (returnOff_iff.mpr rfl) (returnOff_iff.mpr rfl) (holds_contents rest)
  · by_cases hne : bytes = []
    · subst hne
      exact .nothing
    · rw [contents_rest hne hended]
      exact .rest hne hended (returnOff_iff.mpr rfl)
termination_by bytes.length

/-- **The lines that a file holds are those that are cut.** -/
theorem holds_iff : Holds bytes lines ↔ lines = contents bytes := by
  constructor
  · intro h
    induction h with
    | nothing => rfl
    | rest hne hfeed hoff => rw [contents_rest hne hfeed, returnOff_iff.mp hoff]
    | ended hfeed honce hoff _ ih =>
        rw [contents_ended hfeed, returnOff_iff.mp hoff, returnOff_iff.mp honce, ih]
  · rintro rfl
    exact holds_contents bytes

/-! ### Ends of lines -/

/-- The two ways to end a line. -/
def IsLineEnd (bytes : List UInt8) : Prop := bytes = [lineFeed] ∨ bytes = [carriageReturn, lineFeed]

/-- Two files differ only in how lines are ended that have no carriage return of their own. -/
inductive SameButEnds : List UInt8 → List UInt8 → Prop
  | rest {bytes : List UInt8} : lineFeed ∉ bytes → SameButEnds bytes bytes
  | ended {bytes first second rest others : List UInt8} :
      lineFeed ∉ bytes → bytes.getLast? ≠ some carriageReturn →
      IsLineEnd first → IsLineEnd second → SameButEnds rest others →
      SameButEnds (bytes ++ first ++ rest) (bytes ++ second ++ others)

theorem contents_of_lineEnd {ending : List UInt8} (h : lineFeed ∉ bytes)
    (hreturn : bytes.getLast? ≠ some carriageReturn) (hending : IsLineEnd ending)
    (rest : List UInt8) : contents (bytes ++ ending ++ rest) = bytes :: contents rest := by
  rcases hending with rfl | rfl
  · rw [List.append_assoc, List.singleton_append, contents_ended h, dropReturn_of_absent hreturn,
      dropReturn_of_absent hreturn]
  · have hfront : lineFeed ∉ bytes ++ [carriageReturn] := by
      rw [List.mem_append, List.mem_singleton]
      exact not_or.mpr ⟨h, by decide⟩
    have hsplit : bytes ++ [carriageReturn, lineFeed] ++ rest
        = bytes ++ [carriageReturn] ++ lineFeed :: rest := by simp
    -- the return that is dropped first is the one of the line end
    rw [hsplit, contents_ended hfront, dropReturn_append_return, dropReturn_of_absent hreturn]

/-- **How lines are ended makes no difference.** -/
theorem SameButEnds.contents_eq {other : List UInt8} (h : SameButEnds bytes other) :
    contents bytes = contents other := by
  induction h with
  | rest => rfl
  | ended hfeed hreturn hfirst hsecond _ ih =>
      rw [contents_of_lineEnd hfeed hreturn hfirst, contents_of_lineEnd hfeed hreturn hsecond, ih]

/-! ### Text -/

/-- The bytes of a text. -/
def encoding (text : String) : List UInt8 := text.toUTF8.data.toList

/-- A line without its end, as text or with the reason why it is none. -/
def ofContent (line : List UInt8) : Except Cause String :=
  match String.fromUTF8? line.toByteArray with
  | some text => .ok text
  | none => .error .lineNotText

theorem ofNode_file (file : ByteArray) :
    ofNode (.file file) = (contents file.data.toList).map ofContent := by
  rw [contents, List.map_map]
  rfl

theorem toUTF8_eq_toByteArray_iff {text : String} :
    text.toUTF8 = line.toByteArray ↔ encoding text = line := by
  constructor
  · intro h
    rw [encoding, h, List.data_toByteArray]
  · rintro rfl
    exact ByteArray.ext (by rw [List.data_toByteArray, encoding])

/-- A line is text exactly if it is the encoding of one. -/
theorem ofContent_eq_ok_iff {text : String} :
    ofContent line = .ok text ↔ encoding text = line := by
  rw [← toUTF8_eq_toByteArray_iff, ← Utf8.fromUTF8?_eq_some_iff, ofContent]
  cases String.fromUTF8? line.toByteArray <;> simp

theorem ofContent_eq_error_iff {cause : Cause} :
    ofContent line = .error cause ↔ cause = .lineNotText ∧ ∀ text, encoding text ≠ line := by
  constructor
  · intro h
    refine ⟨?_, fun text htext => ?_⟩
    · unfold ofContent at h
      split at h
      · cases h
      · exact (Except.error.inj h).symm
    · rw [ofContent_eq_ok_iff.mpr htext] at h
      cases h
  · rintro ⟨rfl, hnone⟩
    unfold ofContent
    split
    · rename_i text htext
      exact absurd (toUTF8_eq_toByteArray_iff.mp (Utf8.fromUTF8?_eq_some_iff.mp htext)) (hnone text)
    · rfl

end Bitext.TextLines
