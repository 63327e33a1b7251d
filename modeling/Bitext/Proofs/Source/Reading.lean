/-
A file pair, read call by call.

What the reader of two files answers is read off the lines that the files hold, place by place.
Its first calls are answered by pairs, one a place, until the lines at a place are no pair; what
the reader says there is its last word, and to every call after it there is no answer.

The reader stands at a place as long as it has delivered all pairs before it.  So the first place
without a pair is found first, the reader is brought there by induction, and there its one step
finishes it.
-/
import Bitext.Proofs.Build.FirstFault
import Bitext.Proofs.Source.Cutting

namespace Bitext

open TextLines (encoding ofContent contents Holds SameButEnds)

/-! ### Lines at a place -/

/-- Bytes are text if a text has them for its encoding. -/
def IsText (line : List UInt8) : Prop := ∃ text, encoding text = line

/-- Nothing stands at a place: the file has ended there, or it has a blank line there. -/
def OverAt (lines : List (List UInt8)) (n : Nat) : Prop := ∀ line, lines[n]? = some line → line = []

/-- What two files answer at a place.  Places are counted from zero, lines from one. -/
inductive AnswerAt (source target : List (List UInt8)) (n : Nat) :
    Option (Except Fault LinePair) → Prop
  /-- Two lines of text that are not both blank are a pair. -/
  | delivered {left right : String} :
      source[n]? = some (encoding left) → target[n]? = some (encoding right) →
      ¬(left = "" ∧ right = "") → AnswerAt source target n (some (.ok ⟨n + 1, ⟨left, right⟩⟩))
  | sourceNotText {line : List UInt8} :
      source[n]? = some line → ¬IsText line →
      AnswerAt source target n (some (.error ⟨.lineNotText, [.readingLine .source (n + 1)]⟩))
  /-- The target line is looked at if nothing is wrong with the source line. -/
  | targetNotText {line : List UInt8} :
      (∀ other, source[n]? = some other → IsText other) → target[n]? = some line → ¬IsText line →
      AnswerAt source target n (some (.error ⟨.lineNotText, [.readingLine .target (n + 1)]⟩))
  | ended : OverAt source n → OverAt target n → AnswerAt source target n none
  | sourceEnded {right : String} :
      source[n]? = none → target[n]? = some (encoding right) → right ≠ "" →
      AnswerAt source target n (some (.error ⟨.unbalancedEnd (n + 1) .source, []⟩))
  | targetEnded {left : String} :
      source[n]? = some (encoding left) → target[n]? = none → left ≠ "" →
      AnswerAt source target n (some (.error ⟨.unbalancedEnd (n + 1) .target, []⟩))

/-- Two files have a pair at a place. -/
def PairAt (source target : List (List UInt8)) (n : Nat) : Prop :=
  ∃ found, AnswerAt source target n (some (.ok found))

variable {source target lines : List (List UInt8)} {n : Nat}

theorem overAt_of_none (h : lines[n]? = none) : OverAt lines n := by
  intro line hline
  rw [h] at hline
  cases hline

theorem overAt_of_blank (h : lines[n]? = some (encoding "")) : OverAt lines n := by
  intro line hline
  rw [h] at hline
  exact (Option.some.inj hline).symm

theorem ended_or_isText_or_not (lines : List (List UInt8)) (n : Nat) :
    lines[n]? = none ∨ (∃ text, lines[n]? = some (encoding text)) ∨
      ∃ line, lines[n]? = some line ∧ ¬IsText line := by
  cases h : lines[n]? with
  | none => exact .inl rfl
  | some line =>
      by_cases htext : IsText line
      · obtain ⟨text, rfl⟩ := htext
        exact .inr (.inl ⟨text, rfl⟩)
      · exact .inr (.inr ⟨line, rfl, htext⟩)

/-- At every place two files have an answer. -/
theorem exists_answerAt (source target : List (List UInt8)) (n : Nat) :
    ∃ answer, AnswerAt source target n answer := by
  rcases ended_or_isText_or_not source n with hsource | ⟨left, hsource⟩ | ⟨line, hsource, hbad⟩
  · rcases ended_or_isText_or_not target n with htarget | ⟨right, htarget⟩ | ⟨line, htarget, hbad⟩
    · exact ⟨_, .ended (overAt_of_none hsource) (overAt_of_none htarget)⟩
    · by_cases hblank : right = ""
      · subst hblank
        exact ⟨_, .ended (overAt_of_none hsource) (overAt_of_blank htarget)⟩
      · exact ⟨_, .sourceEnded hsource htarget hblank⟩
    · exact ⟨_, .targetNotText (by simp [hsource]) htarget hbad⟩
  · rcases ended_or_isText_or_not target n with htarget | ⟨right, htarget⟩ | ⟨line, htarget, hbad⟩
    · by_cases hblank : left = ""
      · subst hblank
        exact ⟨_, .ended (overAt_of_blank hsource) (overAt_of_none htarget)⟩
      · exact ⟨_, .targetEnded hsource htarget hblank⟩
    · by_cases hblank : left = "" ∧ right = ""
      · obtain ⟨rfl, rfl⟩ := hblank
        exact ⟨_, .ended (overAt_of_blank hsource) (overAt_of_blank htarget)⟩
      · exact ⟨_, .delivered hsource htarget hblank⟩
    · have htext : ∀ other, source[n]? = some other → IsText other := by
        intro other hother
        rw [hsource] at hother
        exact ⟨left, Option.some.inj hother⟩
      exact ⟨_, .targetNotText htext htarget hbad⟩
  · exact ⟨_, .sourceNotText hsource hbad⟩

/-- Two files have only so many pairs. -/
theorem exists_not_pairAt (source target : List (List UInt8)) : ∃ n, ¬PairAt source target n := by
  refine ⟨source.length, ?_⟩
  rintro ⟨found, h⟩
  cases h with
  | delivered hsource =>
      rw [List.getElem?_eq_none (Nat.le_refl _)] at hsource
      cases hsource

/-! ### A step of the reader -/

/-- Lines as the reader gets them. -/
def texts (lines : List (List UInt8)) : Lines := lines.map ofContent

theorem getElem?_texts (lines : List (List UInt8)) (n : Nat) :
    (texts lines)[n]? = lines[n]?.map ofContent :=
  List.getElem?_map

theorem texts_of_text {text : String} (h : lines[n]? = some (encoding text)) :
    (texts lines)[n]? = some (.ok text) := by
  rw [getElem?_texts, h, Option.map_some, TextLines.ofContent_eq_ok_iff.mpr rfl]

theorem texts_of_not_isText {line : List UInt8} (h : lines[n]? = some line) (hbad : ¬IsText line) :
    (texts lines)[n]? = some (.error .lineNotText) := by
  have herror : ofContent line = .error .lineNotText :=
    TextLines.ofContent_eq_error_iff.mpr ⟨rfl, fun text htext => hbad ⟨text, htext⟩⟩
  rw [getElem?_texts, h, Option.map_some, herror]

theorem texts_of_none (h : lines[n]? = none) : (texts lines)[n]? = none := by
  rw [getElem?_texts, h, Option.map_none]

theorem texts_of_overAt (h : OverAt lines n) :
    (texts lines)[n]? = none ∨ (texts lines)[n]? = some (.ok "") := by
  cases hline : lines[n]? with
  | none => exact .inl (texts_of_none hline)
  | some line =>
      obtain rfl := h line hline
      exact .inr (texts_of_text hline)

theorem texts_ne_error (h : ∀ line, lines[n]? = some line → IsText line) (cause : Cause) :
    (texts lines)[n]? ≠ some (.error cause) := by
  intro herror
  rw [getElem?_texts, Option.map_eq_some_iff] at herror
  obtain ⟨line, hline, hcause⟩ := herror
  obtain ⟨text, rfl⟩ := h line hline
  rw [TextLines.ofContent_eq_ok_iff.mpr rfl] at hcause
  cases hcause

theorem endAt_texts (hsource : OverAt source n) (htarget : OverAt target n) :
    Lines.EndAt (texts source) (texts target) n := by
  rcases texts_of_overAt hsource with hsource | hsource <;>
    rcases texts_of_overAt htarget with htarget | htarget
  · exact .together hsource htarget
  · exact .sourceEnded hsource htarget
  · exact .targetEnded hsource htarget
  · exact .blank hsource htarget

/-! ### Steps and calls -/

namespace LineReader

theorem step_of_failAt_of_not_mismatch {source target : Lines} {fault : Fault}
    (h : Lines.FailAt source target n fault)
    (hcause : ∀ line left right, fault.cause ≠ .groupMismatch line left right) :
    (standing source target n).step = .failed fault := by
  refine (step_of_failAt h).resolve_right ?_
  rintro ⟨left, right, -, rfl, -⟩
  exact hcause _ _ _ rfl

theorem next_of_finished {reader : LineReader} (h : reader.finished = true) :
    reader.next = (none, reader) := by
  rw [next, if_pos h]

/-- A place with a pair is passed. -/
theorem next_of_pairAt {found : LinePair} (h : AnswerAt source target n (some (.ok found))) :
    (standing (texts source) (texts target) n).next
      = (some (.ok found), standing (texts source) (texts target) (n + 1)) := by
  cases h with
  | delivered hsource htarget hblank =>
      rw [next, step_of_text (texts_of_text hsource) (texts_of_text htarget) hblank]
      rfl

/-- At a place without a pair the reader finishes, and its answer is the one of the place. -/
theorem next_of_answerAt {answer : Option (Except Fault LinePair)}
    (h : AnswerAt source target n answer) (hlast : ∀ found, answer ≠ some (.ok found)) :
    (standing (texts source) (texts target) n).next
      = (answer, { standing (texts source) (texts target) n with finished := true }) := by
  -- a line that fails for its groups only is delivered, so this kind of fault is left out
  have hfailed : ∀ fault, Lines.FailAt (texts source) (texts target) n fault →
      (∀ line left right, fault.cause ≠ .groupMismatch line left right) →
      (standing (texts source) (texts target) n).next = (some (.error fault),
        { standing (texts source) (texts target) n with finished := true }) := by
    intro fault hfail hcause
    rw [next, step_of_failAt_of_not_mismatch hfail hcause]
    rfl
  cases h with
  | delivered => exact absurd rfl (hlast _)
  | sourceNotText hsource hbad =>
      exact hfailed _ (.sourceUnread (texts_of_not_isText hsource hbad)) (by simp)
  | targetNotText htext htarget hbad =>
      refine hfailed _ (.targetUnread (texts_ne_error htext) (texts_of_not_isText htarget hbad)) ?_
      simp
  | ended hsource htarget =>
      rw [next, step_of_endAt (endAt_texts hsource htarget)]
      rfl
  | sourceEnded hsource htarget hblank =>
      refine hfailed _ (.sourceEnded (texts_of_none hsource) (texts_of_text htarget) hblank) ?_
      simp
  | targetEnded hsource htarget hblank =>
      refine hfailed _ (.targetEnded (texts_of_text hsource) (texts_of_none htarget) hblank) ?_
      simp

/-- What is answered at a place is what the place says. -/
theorem next_eq_iff {answer : Option (Except Fault LinePair)} :
    (standing (texts source) (texts target) n).next.1 = answer
      ↔ AnswerAt source target n answer := by
  have hof : ∀ other, AnswerAt source target n other →
      (standing (texts source) (texts target) n).next.1 = other := by
    intro other hother
    by_cases hpair : ∃ found, other = some (.ok found)
    · obtain ⟨found, rfl⟩ := hpair
      rw [next_of_pairAt hother]
    · rw [next_of_answerAt hother (not_exists.mp hpair)]
  constructor
  · rintro rfl
    obtain ⟨other, hother⟩ := exists_answerAt source target n
    rw [hof other hother]
    exact hother
  · exact hof answer

/-- The reader after a number of calls. -/
def after (reader : LineReader) : Nat → LineReader
  | 0 => reader
  | n + 1 => (reader.after n).next.2

/-- The answer to a call.  Calls are counted from zero. -/
def answer (reader : LineReader) (n : Nat) : Option (Except Fault LinePair) :=
  (reader.after n).next.1

/-- As long as there are pairs, the reader goes from place to place. -/
theorem after_of_pairs (n : Nat) (h : ∀ i < n, PairAt source target i) :
    (standing (texts source) (texts target) 0).after n
      = standing (texts source) (texts target) n := by
  induction n with
  | zero => rfl
  | succ n ih =>
      obtain ⟨found, hfound⟩ := h n (Nat.lt_succ_self n)
      rw [after, ih fun i hi => h i (Nat.lt_succ_of_lt hi), next_of_pairAt hfound]

/-- A reader that has finished stays as it is. -/
theorem after_of_finished {reader : LineReader} {n : Nat} (h : (reader.after n).finished = true) :
    ∀ m ≥ n, reader.after m = reader.after n := by
  intro m hm
  induction m, hm using Nat.le_induction with
  | base => rfl
  | succ m _ ih => rw [after, ih, next_of_finished h]

theorem answer_of_finished {reader : LineReader} {n : Nat}
    (h : (reader.after n).finished = true) : ∀ m ≥ n, reader.answer m = none := by
  intro m hm
  rw [answer, after_of_finished h m hm, next_of_finished h]

theorem answer_succ (reader : LineReader) (n : Nat) :
    reader.answer (n + 1) = reader.next.2.answer n := by
  have hafter : reader.after (n + 1) = reader.next.2.after n := by
    induction n with
    | zero => rfl
    | succ n ih => rw [after, ih, after]
  rw [answer, hafter, answer]

/-- A reader that finishes has no second answer. -/
theorem answer_of_last {reader : LineReader} (h : reader.next.2.finished = true) (n : Nat) :
    reader.answer n = if n = 0 then reader.next.1 else none := by
  cases n with
  | zero => rfl
  | succ n =>
      have hfinished : (reader.next.2.after 0).finished = true := h
      rw [answer_succ, answer_of_finished hfinished n (Nat.zero_le n)]
      rfl

/-- **A whole reading is the answers to the calls, one after another.** -/
theorem answer_eq_readAll (reader : LineReader) (h : reader.finished = false) (n : Nat) :
    reader.answer n = if n = reader.readAll.pairs.length then reader.readAll.fault.map .error
      else reader.readAll.pairs[n]?.map .ok := by
  induction reader using readAll.induct generalizing n with
  | case1 reader hstep =>
      have hnext : reader.next = (none, { reader with finished := true }) := by
        rw [next, if_neg (Bool.eq_false_iff.mp h), hstep]
      rw [readAll_of_ended hstep, answer_of_last (by rw [hnext]), hnext]
      rfl
  | case2 reader fault hstep =>
      have hnext : reader.next = (some (.error fault), { reader with finished := true }) := by
        rw [next, if_neg (Bool.eq_false_iff.mp h), hstep]
      rw [readAll_of_failed hstep, answer_of_last (by rw [hnext]), hnext]
      rfl
  | case3 reader found rest hstep ih =>
      obtain ⟨-, -, hrest⟩ := of_step_delivered hstep
      have hnext : reader.next = (some (.ok found), rest) := by
        rw [next, if_neg (Bool.eq_false_iff.mp h), hstep]
      rw [readAll_of_delivered hstep]
      cases n with
      | zero =>
          show reader.next.1 = _
          rw [hnext]
          rfl
      | succ n =>
          rw [answer_succ, hnext, ih hrest n]
          simp

end LineReader

/-! ### The reading of two files -/

/-- What a reader answers that reads two files with the given lines: pairs up to a place, there its
last answer, and nothing more. -/
structure Reads (reader : LineReader) (source target : List (List UInt8)) (last : Nat) :
    Prop where
  /-- Each call before the last place is answered by a pair with the number of its line. -/
  pairs : ∀ n < last, ∃ pair, reader.answer n = some (.ok ⟨n + 1, pair⟩)
  stops : ∀ found, reader.answer last ≠ some (.ok found)
  /-- Up to there, an answer is given exactly if it is the one of the place. -/
  places : ∀ n ≤ last, ∀ answer, reader.answer n = answer ↔ AnswerAt source target n answer
  afterwards : ∀ n > last, reader.answer n = none

theorem exists_reads (source target : List (List UInt8)) :
    ∃ last, Reads (.standing (texts source) (texts target) 0) source target last := by
  classical
  -- the last answer is given at the first place that has no pair
  have hstops := exists_not_pairAt source target
  have hbefore : ∀ i < Nat.find hstops, PairAt source target i := by
    intro i hi
    exact not_not.mp (Nat.find_min hstops hi)
  have hplaces : ∀ n ≤ Nat.find hstops, ∀ answer,
      (LineReader.standing (texts source) (texts target) 0).answer n = answer
        ↔ AnswerAt source target n answer := by
    intro n hn answer
    rw [LineReader.answer,
      LineReader.after_of_pairs n fun i hi => hbefore i (Nat.lt_of_lt_of_le hi hn)]
    exact LineReader.next_eq_iff
  refine ⟨Nat.find hstops, ⟨?_, ?_, hplaces, ?_⟩⟩
  · intro n hn
    obtain ⟨found, hfound⟩ := hbefore n hn
    have hanswer := (hplaces n (Nat.le_of_lt hn) _).mpr hfound
    cases hfound with
    | delivered => exact ⟨_, hanswer⟩
  · intro found hfound
    exact Nat.find_spec hstops ⟨found, (hplaces _ (Nat.le_refl _) _).mp hfound⟩
  · obtain ⟨answer, hanswer⟩ := exists_answerAt source target (Nat.find hstops)
    have hlast : ∀ found, answer ≠ some (.ok found) := by
      rintro found rfl
      exact Nat.find_spec hstops ⟨found, hanswer⟩
    have hfinished : ((LineReader.standing (texts source) (texts target) 0).after
        (Nat.find hstops + 1)).finished = true := by
      rw [LineReader.after, LineReader.after_of_pairs _ hbefore,
        LineReader.next_of_answerAt hanswer hlast]
    exact LineReader.answer_of_finished hfinished

/-- A pair that is answered was cut from the two files at a place. -/
theorem Reads.exists_place {reader : LineReader} {last : Nat} {found : LinePair}
    (h : Reads reader source target last) (hfound : reader.answer n = some (.ok found)) :
    source[n]? = some (encoding found.pair.source) ∧
      target[n]? = some (encoding found.pair.target) := by
  by_cases hn : n ≤ last
  · have hplace := (h.places n hn _).mp hfound
    cases hplace with
    | delivered hsource htarget => exact ⟨hsource, htarget⟩
  · rw [h.afterwards n (Nat.lt_of_not_le hn)] at hfound
    cases hfound

theorem not_mem_of_getElem?_contents {file : ByteArray} {text : String}
    (h : (contents file.data.toList)[n]? = some (encoding text)) : '\n' ∉ text.toList := by
  have hmem : Except.ok text ∈ TextLines.ofNode (.file file) := by
    rw [TextLines.ofNode_file]
    exact List.mem_of_getElem? (texts_of_text h)
  exact TextLines.not_mem_of_mem_ofNode hmem

theorem openReader_of_files {disk : Disk} {files : FilePair} {source target : ByteArray}
    (hsource : disk.find files.source = .ok (.file source))
    (htarget : disk.find files.target = .ok (.file target)) :
    files.openReader disk = .ok (.standing (texts (contents source.data.toList))
      (texts (contents target.data.toList)) 0) := by
  rw [FilePair.openReader_of_found hsource htarget, TextLines.ofNode_file, TextLines.ofNode_file]
  rfl

/-- **Two files are read as their bytes say.**  The lines that they hold decide every answer of the
reader, and a reading of the whole files is these answers one after another.  No text of a pair
holds a line feed, and other ways to end the lines open the same reader. -/
theorem files_are_read_as_they_stand {disk : Disk} {files : FilePair} {source target : ByteArray}
    (hsource : disk.find files.source = .ok (.file source))
    (htarget : disk.find files.target = .ok (.file target)) :
    ∃ (reader : LineReader) (lefts rights : List (List UInt8)) (last : Nat),
      files.openReader disk = .ok reader ∧
      (∀ lines : List (List UInt8), Holds source.data.toList lines ↔ lines = lefts) ∧
      (∀ lines : List (List UInt8), Holds target.data.toList lines ↔ lines = rights) ∧
      Reads reader lefts rights last ∧
      (∀ n : Nat, reader.answer n
        = if n = reader.readAll.pairs.length then reader.readAll.fault.map .error
          else reader.readAll.pairs[n]?.map .ok) ∧
      (∀ (n : Nat) (found : LinePair),
        reader.answer n = some (.ok found) → found.pair.OnOneLine) ∧
      ∀ (other : Disk) (others : FilePair) (first second : ByteArray),
        other.find others.source = .ok (.file first) →
        other.find others.target = .ok (.file second) →
        SameButEnds source.data.toList first.data.toList →
        SameButEnds target.data.toList second.data.toList →
        others.openReader other = .ok reader := by
  obtain ⟨last, hreads⟩ :=
    exists_reads (contents source.data.toList) (contents target.data.toList)
  refine ⟨_, _, _, last, openReader_of_files hsource htarget, fun lines => TextLines.holds_iff,
    fun lines => TextLines.holds_iff, hreads, LineReader.answer_eq_readAll _ rfl, ?_, ?_⟩
  · intro n found hfound
    obtain ⟨hleft, hright⟩ := hreads.exists_place hfound
    exact ⟨not_mem_of_getElem?_contents hleft, not_mem_of_getElem?_contents hright⟩
  · intro other others first second hfirst hsecond hsources htargets
    rw [openReader_of_files hfirst hsecond, hsources.contents_eq, htargets.contents_eq]

/-- A disk with two files that end their lines in different ways.  The second line of the first
file is blank, and its third line has no counterpart. -/
def mixedEnds : Disk where
  entries := [([.given "a"], .file "p\r\r\n\nr\r".toUTF8), ([.given "b"], .file "u\nv\r\n".toUTF8)]

/-- The two files. -/
def mixedFiles : FilePair := ⟨⟨"/a"⟩, ⟨"/b"⟩⟩

/-- The reader that they open. -/
def mixedReader : LineReader := ⟨[.ok "p", .ok "", .ok "r"], [.ok "u", .ok "v"], 0, false⟩

theorem third_line_has_no_counterpart :
    mixedFiles.openReader mixedEnds = .ok mixedReader ∧
      mixedReader.answer 0 = some (.ok ⟨1, ⟨"p", "u"⟩⟩) ∧
      mixedReader.answer 1 = some (.ok ⟨2, ⟨"", "v"⟩⟩) ∧
      mixedReader.answer 2 = some (.error ⟨.unbalancedEnd 3 .target, []⟩) ∧
      ∀ n > 2, mixedReader.answer n = none := by
  have hsource : mixedEnds.find mixedFiles.source = .ok (.file "p\r\r\n\nr\r".toUTF8) := by cbv
  have htarget : mixedEnds.find mixedFiles.target = .ok (.file "u\nv\r\n".toUTF8) := by cbv
  have hmixed : mixedFiles.openReader mixedEnds = .ok mixedReader := by cbv
  have hfirst : mixedReader.answer 0 = some (.ok ⟨1, ⟨"p", "u"⟩⟩) := by cbv
  have hsecond : mixedReader.answer 1 = some (.ok ⟨2, ⟨"", "v"⟩⟩) := by cbv
  have hthird : mixedReader.answer 2 = some (.error ⟨.unbalancedEnd 3 .target, []⟩) := by cbv
  refine ⟨hmixed, hfirst, hsecond, hthird, ?_⟩
  obtain ⟨reader, _, _, last, hopen, -, -, hreads, -, -, -⟩ :=
    files_are_read_as_they_stand hsource htarget
  obtain rfl := Except.ok.inj (hmixed.symm.trans hopen)
  have hlast : last = 2 := by
    rcases Nat.lt_trichotomy last 2 with hlt | heq | hgt
    · obtain rfl | rfl : last = 0 ∨ last = 1 := by omega
      · exact absurd hfirst (hreads.stops _)
      · exact absurd hsecond (hreads.stops _)
    · exact heq
    · obtain ⟨pair, hpair⟩ := hreads.pairs 2 hgt
      rw [hthird] at hpair
      cases hpair
  exact hlast ▸ hreads.afterwards

end Bitext
