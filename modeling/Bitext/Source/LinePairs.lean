/-
Line pairs: two files read in lock-step.

The lines of both files are read one pair at a time, the source line first.  The reading
ends when both files end together, or at the first line that is blank on both sides.  A
file that ends while the other one goes on is a fault, unless the one line that was read
ahead is blank.  A line that is blank on one side only is a line like any other.

The reader is a machine with three outcomes for each step.  Once it has ended or failed
it stays ended.
-/
import Bitext.Source.TextLines

namespace Bitext

/-- A pair of lines with its number, counted from one. -/
structure LinePair where
  line : Nat
  pair : Pair
  deriving DecidableEq, Repr

/-- A reader of line pairs: the lines that are left of both files, and how many pairs
have been delivered. -/
structure LineReader where
  source : List (Except Cause String)
  target : List (Except Cause String)
  delivered : Nat := 0
  finished : Bool := false

namespace LineReader

/-- What a step of the reader came to. -/
inductive Step where
  | ended
  | failed (fault : Fault)
  | delivered (found : LinePair) (rest : LineReader)

/-- The fault of a line that could not be read. -/
def lineFault (side : Side) (line : Nat) (cause : Cause) : Fault :=
  ⟨cause, [.readingLine side line]⟩

/-- One side has ended, and the other one still has the given line. -/
def oneSided (line : Nat) (ended : Side) (left : String) : Step :=
  if left = "" then .ended else .failed (Cause.unbalancedEnd line ended)

/-- Reads the next line of both files. -/
def step (reader : LineReader) : Step :=
  let line := reader.delivered + 1
  match reader.source, reader.target with
  | [], [] => .ended
  | .error cause :: _, _ => .failed (lineFault .source line cause)
  | _, .error cause :: _ => .failed (lineFault .target line cause)
  | .ok source :: _, [] => oneSided line .target source
  | [], .ok target :: _ => oneSided line .source target
  | .ok source :: sources, .ok target :: targets =>
      if source = "" ∧ target = "" then .ended
      else .delivered ⟨line, ⟨source, target⟩⟩ ⟨sources, targets, line, false⟩

/-- The next line pair, if there is one, and the reader after it. -/
def next (reader : LineReader) : Option (Except Fault LinePair) × LineReader :=
  if reader.finished then (none, reader)
  else
    match reader.step with
    | .ended => (none, { reader with finished := true })
    | .failed fault => (some (.error fault), { reader with finished := true })
    | .delivered found rest => (some (.ok found), rest)

/-- A delivered pair takes a line of the source file away. -/
theorem length_source_of_step {reader rest : LineReader} {found : LinePair}
    (h : reader.step = .delivered found rest) : rest.source.length < reader.source.length := by
  unfold step at h
  simp only at h
  split at h
  · simp at h
  · simp at h
  · simp at h
  · unfold oneSided at h; split at h <;> simp at h
  · unfold oneSided at h; split at h <;> simp at h
  · rename_i hs ht
    split at h
    · simp at h
    · obtain ⟨-, rfl⟩ := Step.delivered.inj h
      simp [hs]

end LineReader

/-- A whole reading: the pairs that were delivered, and the fault that ended it, if one
did. -/
structure Reading where
  pairs : List LinePair
  fault : Option Fault

/-- Reads to the end. -/
def LineReader.readAll (reader : LineReader) : Reading :=
  match _outcome : reader.step with
  | .ended => ⟨[], none⟩
  | .failed fault => ⟨[], some fault⟩
  | .delivered found rest =>
      let later := rest.readAll
      ⟨found :: later.pairs, later.fault⟩
termination_by reader.source.length
decreasing_by exact LineReader.length_source_of_step _outcome

/-! ### File pairs -/

/-- A source file and the target file that goes with it. -/
structure FilePair where
  source : Path
  target : Path
  deriving DecidableEq, Repr

namespace FilePair

/-- The pair as it is shown in messages. -/
def text (files : FilePair) : String :=
  "'" ++ files.source.text ++ "' / '" ++ files.target.text ++ "'"

/-- Opens a file of the pair. -/
def openSide (disk : Disk) (side : Side) (path : Path) :
    Except Fault (List (Except Cause String)) :=
  match disk.find path with
  | .ok node => .ok (TextLines.ofNode node)
  | .error reason => .error ⟨.system reason, [.opening side path.text]⟩

/-- Opens both files of the pair, the source first. -/
def openReader (files : FilePair) (disk : Disk) : Except Fault LineReader := do
  let source ← openSide disk .source files.source
  let target ← openSide disk .target files.target
  return { source, target }

end FilePair

end Bitext
