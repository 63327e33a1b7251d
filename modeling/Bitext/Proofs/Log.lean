/-
What is added to the log.

Work only adds to the log.  Of all that is reported while an epoch is prepared, the length
distribution comes from the summary of its index and from nowhere else: the building of the
index and the packing never mention it.
-/
import Bitext.Proofs.Build.Contents
import Bitext.Proofs.Corpus

namespace Bitext

/-- The event belongs to a length distribution. -/
def Event.showsLengths : Event → Bool
  | .lengthDistribution _ | .sideDistribution _ | .histogramRow _ => true
  | _ => false

/-- What a list of events shows of length distributions. -/
def Event.lengths (events : List Event) : List Event := events.filter (·.showsLengths)

/-- The events of the length distribution of a tally. -/
def Tally.distribution (settings : Settings) (tally : Tally) : List Event :=
  .lengthDistribution settings.bucketing
    :: (histogramEvents .source tally.sourceLengths ++ histogramEvents .target tally.targetLengths)

/-- The length distribution of a tally, if there is a tally. -/
def Tally.distribution? (settings : Settings) : Option Tally → List Event
  | some tally => tally.distribution settings
  | none => []

/-- The log has been added to. -/
def Workspace.Adds (w after : Workspace) (events : List Event) : Prop :=
  after.log.toList = w.log.toList ++ events

/-- The work adds to the log, and nothing of a length distribution. -/
def Work.Quiet {α : Type} (work : Work α) : Prop :=
  ∀ w : Workspace, ∃ events, w.Adds (work.run w).2 events ∧ Event.lengths events = []

/-- The job adds to the log, and nothing of a length distribution, whether it fails or not. -/
def Job.Quiet {α : Type} (job : Job α) : Prop := Work.Quiet job.run

theorem Workspace.Adds.trans {w middle after : Workspace} {first second : List Event}
    (h : w.Adds middle first) (hsecond : middle.Adds after second) :
    w.Adds after (first ++ second) := by
  rw [Adds, hsecond, h, List.append_assoc]

theorem Event.lengths_append (first second : List Event) :
    lengths (first ++ second) = lengths first ++ lengths second :=
  List.filter_append first second

/-! ### Quiet work -/

namespace Work

variable {α β : Type} {work : Work α} {next : α → Work β}

theorem quiet_of_log (h : ∀ w, (work.run w).2.log = w.log) : Quiet work := by
  intro w
  refine ⟨[], ?_, rfl⟩
  rw [Workspace.Adds, h, List.append_nil]

theorem quiet_report {event : Event} (h : event.showsLengths = false) :
    Quiet (Workspace.report event) := by
  intro w
  refine ⟨[event], ?_, List.filter_cons_of_neg (by simp [h])⟩
  rw [Workspace.run_report, Workspace.Adds, Array.toList_push]

theorem quiet_reportAll {events : List Event} (h : Event.lengths events = []) :
    Quiet (Workspace.reportAll events) := by
  intro w
  refine ⟨events, ?_, h⟩
  rw [Workspace.run_reportAll, Workspace.Adds, Array.toList_appendList]

theorem Quiet.bind (h : Quiet work) (hnext : ∀ a, Quiet (next a)) : Quiet (work >>= next) := by
  intro w
  obtain ⟨first, hfirst, hquiet⟩ := h w
  obtain ⟨second, hsecond, hrest⟩ := hnext (work.run w).1 (work.run w).2
  refine ⟨first ++ second, hfirst.trans hsecond, ?_⟩
  rw [Event.lengths_append, hquiet, hrest, List.append_nil]

end Work

namespace Job

variable {α β : Type} {job : Job α} {next : α → Job β}

theorem quiet_lift {work : Work α} (h : Work.Quiet work) : Quiet (liftM work : Job α) := h

theorem quiet_throw (fault : Fault) : Quiet (throw fault : Job α) := Work.quiet_of_log fun _ => rfl

theorem quiet_pure (a : α) : Quiet (pure a : Job α) := Work.quiet_of_log fun _ => rfl

theorem quiet_get : Quiet (get : Job Workspace) := Work.quiet_of_log fun _ => rfl

theorem quiet_ofExcept (result : Except Fault α) : Quiet (ofExcept result) :=
  Work.quiet_of_log fun _ => rfl

theorem quiet_attempt (h : Quiet job) : Quiet (attempt job) := h

theorem Quiet.bind (h : Quiet job) (hnext : ∀ a, Quiet (next a)) : Quiet (job >>= next) := by
  show Work.Quiet ((job.run : Work (Except Fault α)) >>= ExceptT.bindCont next)
  refine Work.Quiet.bind h ?_
  intro result
  cases result with
  | ok a => exact hnext a
  | error fault => exact Work.quiet_of_log fun _ => rfl

theorem Quiet.of_run {w after : Workspace} {result : Except Fault α} (h : Quiet job)
    (hrun : job.run w = (result, after)) :
    ∃ events, w.Adds after events ∧ Event.lengths events = [] := by
  have hwork : StateT.run job.run w = (result, after) := hrun
  obtain ⟨events, hadds, hquiet⟩ := h w
  rw [hwork] at hadds
  exact ⟨events, hadds, hquiet⟩

end Job

/-! ### Builds and packings are quiet -/

namespace Build

theorem quiet_oneByOne (settings : Settings) (pairs : List FilePair) :
    ∀ (store : Store) (t : Tally), Job.Quiet (oneByOne settings pairs store t) := by
  induction pairs with
  | nil =>
      intro store t
      exact Job.quiet_pure _
  | cons files rest ih =>
      intro store t
      refine (Job.quiet_lift (Work.quiet_report rfl)).bind fun _ => ?_
      refine Job.quiet_get.bind fun w => ?_
      refine (Job.quiet_ofExcept _).bind fun written => ?_
      exact (Job.quiet_ofExcept _).bind fun counted => ih written counted

theorem quiet_gather (settings : Settings) (files : FileSet) (store : Store) :
    Job.Quiet (gather settings files store) := by
  unfold gather
  by_cases hshared : isShared settings files = true
  · rw [if_pos hshared]
    refine Job.quiet_get.bind fun w => ?_
    exact (Job.quiet_ofExcept _).bind fun merged => Job.quiet_pure _
  · rw [if_neg hshared]
    exact quiet_oneByOne settings files.pairs store .empty

end Build

namespace BlobWriter

theorem quiet_create (folder : Path) : Job.Quiet (create folder) := by
  refine (Job.quiet_lift (Work.quiet_of_log fun w => ?_)).bind fun result => ?_
  · rw [Workspace.run_newTemporary]
  · cases result with
    | ok file => exact Job.quiet_pure _
    | error reason => exact Job.quiet_throw _

theorem quiet_discard (writer : BlobWriter) : Work.Quiet writer.discard :=
  Work.quiet_of_log fun _ => rfl

theorem quiet_finish (writer : BlobWriter) : Job.Quiet writer.finish := by
  refine (Job.quiet_lift (Work.quiet_of_log fun _ => rfl)).bind fun _ => ?_
  by_cases hzero : writer.position = 0
  · rw [if_pos hzero]
    exact Job.quiet_pure _
  · rw [if_neg hzero]
    refine (Job.quiet_lift (Work.quiet_of_log fun _ => rfl)).bind fun result => ?_
    cases result with
    | ok bytes => exact Job.quiet_pure _
    | error reason =>
        exact (Job.quiet_lift writer.quiet_discard).bind fun _ => Job.quiet_throw _

end BlobWriter

/-- **A build shows nothing of the lengths.** -/
theorem Build.quiet_index (settings : Settings) (files : FileSet) :
    Job.Quiet (index settings files) := by
  refine (Job.quiet_lift (Work.quiet_report rfl)).bind fun _ => ?_
  refine (BlobWriter.quiet_create _).bind fun writer => ?_
  refine (Job.quiet_attempt (quiet_gather settings files _)).bind fun result => ?_
  cases result with
  | error fault => exact (Job.quiet_lift writer.quiet_discard).bind fun _ => Job.quiet_throw _
  | ok found =>
      refine found.1.writer.quiet_finish.bind fun blob => ?_
      exact (Job.quiet_lift (Work.quiet_report rfl)).bind fun _ => Job.quiet_pure _

namespace Epoch

theorem lengths_events (batches : List Packing.PackedBatch) :
    ∀ first second, Event.lengths (Packing.events first second batches) = [] := by
  induction batches with
  | nil => intro first second; rfl
  | cons packed rest ih =>
      intro first second
      rw [Packing.events, Event.lengths_append]
      refine List.append_eq_nil_iff.mpr ⟨?_, ih _ _⟩
      split <;> rfl

theorem quiet_closeBlob (blob : Blob) : Work.Quiet (closeBlob blob) := by
  have hclose : Job.Quiet blob.close := by
    refine (Job.quiet_lift (Work.quiet_of_log fun w => ?_)).bind fun result => ?_
    · rw [Workspace.run_delete]
      split <;> rfl
    · cases result with
      | none => exact Job.quiet_pure _
      | some reason => exact Job.quiet_throw _
  refine Work.Quiet.bind hclose fun result => ?_
  cases result with
  | ok _ => exact Work.quiet_of_log fun _ => rfl
  | error fault => exact Work.quiet_report rfl

/-- **A packing shows nothing of the lengths.** -/
theorem quiet_pack {σ : Type} (budget : Nat) (dice : Dice σ) (s : σ) (built : BuiltIndex)
    (folder : Path) : Job.Quiet (pack budget dice s built folder) := by
  have hdiscard : Work.Quiet built.discard := Work.quiet_of_log fun _ => rfl
  refine (Job.quiet_lift (Work.quiet_of_log fun w => ?_)).bind fun result => ?_
  · rw [Workspace.run_newTemporary]
  · cases result with
    | error reason => exact (Job.quiet_lift hdiscard).bind fun _ => Job.quiet_throw _
    | ok file =>
        refine (Job.quiet_lift (Work.quiet_report rfl)).bind fun _ => ?_
        refine (Job.quiet_lift (Work.quiet_reportAll (lengths_events _ 0 0))).bind fun _ => ?_
        split
        · refine (Job.quiet_lift (Work.quiet_of_log fun _ => rfl)).bind fun _ => ?_
          exact (Job.quiet_lift hdiscard).bind fun _ => Job.quiet_throw _
        · refine (Job.quiet_lift (Work.quiet_of_log fun _ => rfl)).bind fun _ => ?_
          refine (Job.quiet_lift (quiet_closeBlob _)).bind fun _ => ?_
          exact (Job.quiet_lift (Work.quiet_report rfl)).bind fun _ => Job.quiet_pure _

end Epoch

/-! ### Summaries -/

namespace Tally

variable {settings : Settings}

theorem lengths_histogramEvents (side : Side) (h : Histogram) :
    Event.lengths (histogramEvents side h) = histogramEvents side h := by
  refine List.filter_eq_self.mpr fun event hevent => ?_
  rcases List.mem_cons.mp hevent with rfl | hrow
  · rfl
  · obtain ⟨row, -, rfl⟩ := List.mem_map.mp hrow
    rfl

theorem lengths_distribution (tally : Tally) :
    Event.lengths (tally.distribution settings) = tally.distribution settings := by
  have hboth := Event.lengths_append (histogramEvents .source tally.sourceLengths)
    (histogramEvents .target tally.targetLengths)
  rw [lengths_histogramEvents, lengths_histogramEvents] at hboth
  rw [distribution, Event.lengths, List.filter_cons_of_pos rfl]
  exact congrArg _ hboth

theorem lengths_overlongEvents (side : Side) (count most : Nat) :
    Event.lengths (overlongEvents settings side count most) = [] := by
  unfold overlongEvents
  split <;> rfl

/-- **A summary shows the length distribution if it is wanted, and nothing else of it.** -/
theorem lengths_summary (tally : Tally) (showLengths : Bool) :
    Event.lengths (tally.summary settings showLengths)
      = if showLengths then tally.distribution settings else [] := by
  rw [summary, Event.lengths_append, Event.lengths_append, Event.lengths_append,
    lengths_overlongEvents, lengths_overlongEvents]
  cases showLengths with
  | false => rfl
  | true => exact tally.lengths_distribution

end Tally

end Bitext
