/-
One file ends before the other.

Where one file has ended, the reader looks at the next line of the other one, and at no more than
that.  A line that is not blank is an unbalanced end.  A blank line ends the reading as if nothing
stood behind it: so the end of one file is sure to lose nothing only if a blank line at that place
has nothing but blank lines behind it.
-/
import Bitext.Proofs.Source.Reading

namespace Bitext

/-- The side across. -/
def Side.other : Side → Side
  | .source => .target
  | .target => .source

/-- What the longer file still has where the shorter one has ended. -/
def unread (lines : Side → List String) (ended : Side) : List String :=
  (lines ended.other).drop (lines ended).length

namespace LineReader

/-- The pairs of lines that stand side by side. -/
def sideBySide (lines : Side → List String) : List Pair :=
  List.zipWith Pair.mk (lines .source) (lines .target)

/-- The reader of two files of text, at a place. -/
def ofTexts (lines : Side → List String) (n : Nat) : LineReader :=
  standing ((lines .source).map .ok) ((lines .target).map .ok) n

/-- No line is blank on both sides. -/
def NeverBothBlank (lines : Side → List String) : Prop := ⟨"", ""⟩ ∉ sideBySide lines

variable {lines : Side → List String} {ended : Side} {n : Nat}

theorem getElem?_ok {texts : List String} {text : String} (h : texts[n]? = some text) :
    (texts.map Except.ok : Lines)[n]? = some (.ok text) := by
  rw [List.getElem?_map, h, Option.map_some]

theorem getElem?_ok_none {texts : List String} (h : texts[n]? = none) :
    (texts.map Except.ok : Lines)[n]? = none := by
  rw [List.getElem?_map, h, Option.map_none]

/-- Lines that stand side by side are delivered, and the rest is read from behind them. -/
theorem readAll_ofTexts {left right : String} (hleft : (lines .source)[n]? = some left)
    (hright : (lines .target)[n]? = some right) (hblank : NeverBothBlank lines) :
    (ofTexts lines n).readAll = ⟨⟨n + 1, ⟨left, right⟩⟩ :: (ofTexts lines (n + 1)).readAll.pairs,
      (ofTexts lines (n + 1)).readAll.fault⟩ := by
  refine readAll_of_delivered (step_of_text (getElem?_ok hleft) (getElem?_ok hright) ?_)
  rintro ⟨rfl, rfl⟩
  exact hblank (List.mem_of_getElem?
    (List.getElem?_zipWith_eq_some.mpr ⟨"", "", hleft, hright, rfl⟩))

/-- The reading goes over the pairs that stand side by side, and what it comes to is decided behind
them. -/
theorem readAll_over_pairs (hblank : NeverBothBlank lines) (n : Nat)
    (h : n ≤ (sideBySide lines).length) :
    (ofTexts lines 0).readAll.pairs.map (·.pair)
        = (sideBySide lines).take n ++ (ofTexts lines n).readAll.pairs.map (·.pair) ∧
      (ofTexts lines 0).readAll.fault = (ofTexts lines n).readAll.fault := by
  induction n with
  | zero => exact ⟨rfl, rfl⟩
  | succ n ih =>
      obtain ⟨hpairs, hfault⟩ := ih (Nat.le_of_succ_le h)
      have hpair : (sideBySide lines)[n]? = some (sideBySide lines)[n] :=
        List.getElem?_eq_getElem h
      obtain ⟨left, right, hleft, hright, heq⟩ := List.getElem?_zipWith_eq_some.mp hpair
      have hstep := readAll_ofTexts hleft hright hblank
      rw [hstep] at hpairs hfault
      refine ⟨?_, hfault⟩
      rw [hpairs, List.take_add_one, hpair, ← heq, List.map_cons, List.append_assoc]
      rfl

/-- Where one side has ended, the next line of the other side decides. -/
theorem readAll_of_one_ended (ended : Side) (hended : (lines ended)[n]? = none) {line : String}
    (hline : (lines ended.other)[n]? = some line) :
    (ofTexts lines n).readAll
      = ⟨[], if line = "" then none else some ⟨.unbalancedEnd (n + 1) ended, []⟩⟩ := by
  by_cases hblank : line = ""
  · subst hblank
    rw [if_pos rfl]
    apply readAll_of_ended
    cases ended with
    | source => exact step_of_endAt (.sourceEnded (getElem?_ok_none hended) (getElem?_ok hline))
    | target => exact step_of_endAt (.targetEnded (getElem?_ok hline) (getElem?_ok_none hended))
  · rw [if_neg hblank]
    apply readAll_of_failed
    cases ended with
    | source =>
        refine step_of_failAt_of_not_mismatch
          (.sourceEnded (getElem?_ok_none hended) (getElem?_ok hline) hblank) ?_
        simp
    | target =>
        refine step_of_failAt_of_not_mismatch
          (.targetEnded (getElem?_ok hline) (getElem?_ok_none hended) hblank) ?_
        simp

end LineReader

variable {lines : Side → List String} {ended : Side}

theorem length_sideBySide (h : (lines ended).length < (lines ended.other).length) :
    (LineReader.sideBySide lines).length = (lines ended).length := by
  rw [LineReader.sideBySide, List.length_zipWith]
  cases ended with
  | source => exact Nat.min_eq_left (Nat.le_of_lt h)
  | target => exact Nat.min_eq_right (Nat.le_of_lt h)

theorem head?_unread (h : (lines ended).length < (lines ended.other).length) :
    ∃ line, (lines ended.other)[(lines ended).length]? = some line ∧
      (unread lines ended).head? = some line := by
  refine ⟨_, List.getElem?_eq_getElem h, ?_⟩
  rw [unread, List.head?_drop, List.getElem?_eq_getElem h]

/-- **What one file still has when the other one has ended is noticed by its first line only.**  All
pairs are delivered, and the end is unbalanced unless that line is blank; so the law that a clean
end leaves nothing but blank lines behind holds exactly if a blank line there has only blank lines
behind it. -/
theorem first_unread_line_decides {disk : Disk} {files : FilePair} {reader : LineReader}
    (hopen : files.openReader disk = .ok reader)
    (hsource : reader.source = (lines .source).map .ok)
    (htarget : reader.target = (lines .target).map .ok)
    (hshort : (lines ended).length < (lines ended.other).length)
    (hblank : LineReader.NeverBothBlank lines) :
    reader.readAll.pairs.map (·.pair) = LineReader.sideBySide lines ∧
      reader.readAll.fault = (if (unread lines ended).head? = some "" then none
        else some ⟨.unbalancedEnd ((lines ended).length + 1) ended, []⟩) ∧
      ((reader.readAll.fault = none → ∀ line ∈ unread lines ended, line = "") ↔
        ((unread lines ended).head? = some "" → ∀ line ∈ unread lines ended, line = "")) := by
  have hreader : reader = LineReader.ofTexts lines 0 := by
    obtain ⟨sources, targets, -, -, rfl⟩ := FilePair.of_openReader_ok hopen
    obtain rfl := hsource
    obtain rfl := htarget
    rfl
  have hlength := length_sideBySide hshort
  obtain ⟨hpairs, hfault⟩ :=
    LineReader.readAll_over_pairs hblank (lines ended).length (Nat.le_of_eq hlength.symm)
  obtain ⟨line, hline, hhead⟩ := head?_unread hshort
  have hended : (lines ended)[(lines ended).length]? = none :=
    List.getElem?_eq_none (Nat.le_refl _)
  -- behind the last pair the reader sees one line of the other file, and the rest of it not at all
  rw [LineReader.readAll_of_one_ended ended hended hline] at hpairs hfault
  have hdecided : reader.readAll.fault = (if (unread lines ended).head? = some "" then none
      else some ⟨.unbalancedEnd ((lines ended).length + 1) ended, []⟩) := by
    rw [hreader, hfault, hhead]
    simp only [Option.some_inj]
  refine ⟨?_, hdecided, ?_⟩
  · rw [hreader, hpairs, List.take_of_length_le (Nat.le_of_eq hlength), List.map_nil,
      List.append_nil]
  · have hclean : reader.readAll.fault = none ↔ (unread lines ended).head? = some "" := by
      rw [hdecided]
      split <;> simp_all
    rw [hclean]

/-- The lines of the two files that end their lines in different ways. -/
def mixedLines : Side → List String
  | .source => ["p", "", "r"]
  | .target => ["u", "v"]

theorem unbalanced_end_of_mixedFiles :
    mixedReader.readAll.pairs.map (·.pair) = [⟨"p", "u"⟩, ⟨"", "v"⟩] ∧
      mixedReader.readAll.fault = some ⟨.unbalancedEnd 3 .target, []⟩ := by
  have hopen : mixedFiles.openReader mixedEnds = .ok mixedReader := by cbv
  have hsource : mixedReader.source = (mixedLines .source).map .ok := rfl
  have htarget : mixedReader.target = (mixedLines .target).map .ok := rfl
  have hshort : (mixedLines .target).length < (mixedLines Side.target.other).length := by decide
  have hblank : LineReader.NeverBothBlank mixedLines := by
    unfold LineReader.NeverBothBlank
    decide
  obtain ⟨hpairs, hfault, -⟩ := first_unread_line_decides hopen hsource htarget hshort hblank
  exact ⟨hpairs, hfault⟩

/-! ### A line that is lost -/

/-- A disk on which the line "b" of the first file stands behind the end of the second file and
behind a blank line. -/
def blankBetween : Disk where
  entries := [([.given "a"], .file "a\n\nb\n".toUTF8), ([.given "b"], .file "x\n".toUTF8)]

/-- The lines of the two files. -/
def blankBetweenLines : Side → List String
  | .source => ["a", "", "b"]
  | .target => ["x"]

/-- A clean end can leave a line behind that is not blank, although no line is blank on both
sides. -/
theorem line_behind_a_blank_line_is_lost :
    ∃ reader, mixedFiles.openReader blankBetween = .ok reader ∧
      reader.source = (blankBetweenLines .source).map .ok ∧
      reader.target = (blankBetweenLines .target).map .ok ∧
      LineReader.NeverBothBlank blankBetweenLines ∧
      reader.readAll.pairs = [⟨1, ⟨"a", "x"⟩⟩] ∧ reader.readAll.fault = none ∧
      unread blankBetweenLines .target = ["", "b"] := by
  refine ⟨⟨[.ok "a", .ok "", .ok "b"], [.ok "x"], 0, false⟩, by cbv, rfl, rfl, ?_, by cbv, by cbv,
    rfl⟩
  unfold LineReader.NeverBothBlank
  decide

end Bitext
