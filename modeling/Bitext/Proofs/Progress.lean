/-
Progress is reported once for every tenth part.

After so many batches of a total, a percentage of them has been read, and the percentages fall into
tenths.  A batch is reported when it leads into a further tenth than the batch before it.  The
stream does not look back at that batch: it keeps the percentage at which the next report is due,
and sets it anew with every report.

The two agree because that percentage is always the first multiple of ten above what has been read.
When the total is small, a batch can lead over several tenths at once, and the next report is due
behind all of them; when the total is large, most batches stay in their tenth, and nothing is due.
-/
import Bitext.Proofs.Log
import Bitext.Proofs.StreamCalls

namespace Bitext

/-- What a report of the progress shows. -/
structure Report where
  number : Nat
  total : Nat
  percent : Nat
  deriving DecidableEq, Repr

/-- The report of the progress that an event is, if it is one. -/
def Event.report? : Event → Option Report
  | .readBatch number total percent => some ⟨number, total, percent⟩
  | _ => none

/-- The reports of the progress among events, in order. -/
def Event.reports (events : List Event) : List Report := events.filterMap Event.report?

theorem Event.reports_append (first second : List Event) :
    reports (first ++ second) = reports first ++ reports second :=
  List.filterMap_append

namespace BatchStream

/-! ### Percentages -/

/-- The percentage of a total that so many batches are. -/
def percentOf (total read : Nat) : Nat := 100 * read / total

/-- The batch of a number leads into a further tenth than the batch before it. -/
def LeadsOn (total number : Nat) : Prop :=
  percentOf total (number - 1) / 10 < percentOf total number / 10

instance (total number : Nat) : Decidable (LeadsOn total number) :=
  inferInstanceAs (Decidable (_ < _))

/-- The report of the batch of a number. -/
def reportOf (total number : Nat) : Report := ⟨number, total, percentOf total number⟩

/-- What is reported after the batch of a number. -/
def reportsAt (total number : Nat) : List Report :=
  if LeadsOn total number then [reportOf total number] else []

/-- What is reported after so many batches, in order. -/
def reportsUpTo (total : Nat) : Nat → List Report
  | 0 => []
  | read + 1 => reportsUpTo total read ++ reportsAt total (read + 1)

variable {total read number : Nat}

theorem percentOf_mono {first second : Nat} (h : first ≤ second) :
    percentOf total first ≤ percentOf total second :=
  Nat.div_le_div_right (Nat.mul_le_mul_left 100 h)

theorem percentOf_zero (total : Nat) : percentOf total 0 = 0 := Nat.zero_div total

/-- All batches are read exactly from a hundred per cent on. -/
theorem hundred_le_percentOf_iff (htotal : 0 < total) (read : Nat) :
    100 ≤ percentOf total read ↔ total ≤ read := by
  rw [percentOf, Nat.le_div_iff_mul_le htotal]
  omega

theorem mem_reportsAt_iff {report : Report} :
    report ∈ reportsAt total number ↔ LeadsOn total number ∧ report = reportOf total number := by
  unfold reportsAt
  by_cases hleads : LeadsOn total number
  · rw [if_pos hleads, List.mem_singleton]
    exact ⟨fun h => ⟨hleads, h⟩, fun h => h.2⟩
  · rw [if_neg hleads]
    simp [hleads]

theorem mem_reportsUpTo_iff {report : Report} :
    report ∈ reportsUpTo total read ↔
      ∃ number, 0 < number ∧ number ≤ read ∧ LeadsOn total number ∧
        report = reportOf total number := by
  induction read with
  | zero =>
      simp only [reportsUpTo, List.not_mem_nil, false_iff]
      rintro ⟨number, hpos, hle, -⟩
      omega
  | succ read ih =>
      rw [reportsUpTo, List.mem_append, ih, mem_reportsAt_iff]
      constructor
      · rintro (⟨number, hpos, hle, hreport⟩ | hreport)
        · exact ⟨number, hpos, by omega, hreport⟩
        · exact ⟨read + 1, by omega, Nat.le_refl _, hreport⟩
      · rintro ⟨number, hpos, hle, hreport⟩
        by_cases hlast : number = read + 1
        · subst hlast
          exact .inr hreport
        · exact .inl ⟨number, hpos, by omega, hreport⟩

/-- Every report takes a batch, and it takes a tenth. -/
theorem length_reportsUpTo_le (total read : Nat) :
    (reportsUpTo total read).length ≤ read ∧
      (reportsUpTo total read).length ≤ percentOf total read / 10 := by
  induction read with
  | zero => exact ⟨Nat.le_refl 0, Nat.zero_le _⟩
  | succ read ih =>
      rw [reportsUpTo, List.length_append, reportsAt]
      by_cases hleads : LeadsOn total (read + 1)
      · rw [if_pos hleads, List.length_singleton]
        have htenths : percentOf total read / 10 < percentOf total (read + 1) / 10 := hleads
        omega
      · rw [if_neg hleads, List.length_nil]
        have hgrows : percentOf total read ≤ percentOf total (read + 1) :=
          percentOf_mono (Nat.le_succ read)
        omega

/-- Percentages go up from report to report. -/
theorem pairwise_reportsUpTo (total read : Nat) :
    ((reportsUpTo total read).map (·.percent)).Pairwise (· < ·) := by
  induction read with
  | zero => exact List.Pairwise.nil
  | succ read ih =>
      rw [reportsUpTo, List.map_append, List.pairwise_append]
      refine ⟨ih, ?_, ?_⟩
      · unfold reportsAt
        split <;> simp
      · intro before hbefore last hlast
        obtain ⟨report, hreport, rfl⟩ := List.mem_map.mp hbefore
        obtain ⟨number, -, hle, -, rfl⟩ := mem_reportsUpTo_iff.mp hreport
        obtain ⟨next, hnext, rfl⟩ := List.mem_map.mp hlast
        obtain ⟨hleads, rfl⟩ := mem_reportsAt_iff.mp hnext
        show percentOf total number < percentOf total (read + 1)
        have htenths : percentOf total read / 10 < percentOf total (read + 1) / 10 := hleads
        have hgrows : percentOf total number ≤ percentOf total read := percentOf_mono hle
        omega

/-- A report of a hundred per cent is that of the last batch. -/
theorem percentOf_eq_hundred_iff (htotal : 0 < total) (hleads : LeadsOn total number) :
    percentOf total number = 100 ↔ number = total := by
  have hfrom := hundred_le_percentOf_iff htotal number
  have hbefore := hundred_le_percentOf_iff htotal (number - 1)
  unfold LeadsOn at hleads
  constructor
  · intro hwhole
    omega
  · rintro rfl
    exact Nat.mul_div_cancel 100 htotal

theorem leadsOn_total (htotal : 0 < total) : LeadsOn total total := by
  have hwhole : percentOf total total = 100 := Nat.mul_div_cancel 100 htotal
  have hbefore := hundred_le_percentOf_iff htotal (total - 1)
  unfold LeadsOn
  omega

/-- What is to be seen of the reports after so many batches. -/
structure Progress (total read : Nat) (reports : List Report) : Prop where
  /-- Those batches are reported that lead into a further tenth. -/
  reported : ∀ report, report ∈ reports ↔
    ∃ number, 0 < number ∧ number ≤ read ∧ LeadsOn total number ∧ report = reportOf total number
  /-- There are not more reports than batches, and not more than tenths. -/
  few : read ≤ total → reports.length ≤ min total 10
  ascending : (reports.map (·.percent)).Pairwise (· < ·)
  /-- A hundred per cent are reported with the last batch, -/
  last : ∀ report ∈ reports, report.percent = 100 ↔ report.number = total
  /-- and once it is read they have been. -/
  whole : (∃ report ∈ reports, report.percent = 100) ↔ total ≤ read

theorem progress_reportsUpTo (htotal : 0 < total) (read : Nat) :
    Progress total read (reportsUpTo total read) where
  reported _ := mem_reportsUpTo_iff
  few := by
    intro hle
    obtain ⟨hbatches, htenths⟩ := length_reportsUpTo_le total read
    have hwhole : percentOf total total = 100 := Nat.mul_div_cancel 100 htotal
    have hpercent : percentOf total read ≤ percentOf total total := percentOf_mono hle
    omega
  ascending := pairwise_reportsUpTo total read
  last := by
    intro report hreport
    obtain ⟨number, -, -, hleads, rfl⟩ := mem_reportsUpTo_iff.mp hreport
    exact percentOf_eq_hundred_iff htotal hleads
  whole := by
    constructor
    · rintro ⟨report, hreport, hpercent⟩
      obtain ⟨number, -, hle, hleads, rfl⟩ := mem_reportsUpTo_iff.mp hreport
      have hnumber := (percentOf_eq_hundred_iff htotal hleads).mp hpercent
      omega
    · intro hle
      have hleads := leadsOn_total htotal
      refine ⟨reportOf total total, mem_reportsUpTo_iff.mpr ?_,
        (percentOf_eq_hundred_iff htotal hleads).mpr rfl⟩
      exact ⟨total, htotal, hle, hleads, rfl⟩

/-! ### One call -/

variable {stream last : BatchStream} {w after : Workspace}

/-- The next report is due at the first multiple of ten above what has been read. -/
def OnTime (stream : BatchStream) : Prop :=
  stream.reportAt = (percentOf stream.total stream.read / 10 + 1) * 10

theorem onTime_ofBytes (file : TemporaryFile) (bytes : ByteArray) (total : Nat) :
    (ofBytes file bytes total).OnTime := by
  show 10 = (percentOf total 0 / 10 + 1) * 10
  rw [percentOf_zero]

/-- Of a stream that is on time a report is due when the next batch leads on. -/
theorem OnTime.reportDue_iff (h : stream.OnTime) (position : Nat) :
    ({ stream with position := position, read := stream.read + 1 } : BatchStream).reportDue = true ↔
      LeadsOn stream.total (stream.read + 1) := by
  have hdue : stream.reportAt = (percentOf stream.total stream.read / 10 + 1) * 10 := h
  simp only [reportDue, Bool.and_eq_true, bne_iff_ne, decide_eq_true_eq]
  show stream.total ≠ 0 ∧ stream.reportAt ≤ percentOf stream.total (stream.read + 1) ↔
    percentOf stream.total stream.read / 10 < percentOf stream.total (stream.read + 1) / 10
  constructor
  · rintro ⟨-, hreached⟩
    omega
  · intro hleads
    refine ⟨?_, by omega⟩
    -- of a total of zero every percentage is zero, so no batch leads on
    intro hzero
    rw [hzero, percentOf, percentOf, Nat.div_zero, Nat.div_zero] at hleads
    exact Nat.lt_irrefl _ hleads

/-- **A stream that is on time reports a batch that leads on, and it stays on time.** -/
theorem OnTime.advance (h : stream.OnTime) (position : Nat) :
    (stream.advance position).1
        = (if LeadsOn stream.total (stream.read + 1) then
            some (.readBatch (stream.read + 1) stream.total
              (percentOf stream.total (stream.read + 1)))
          else none) ∧
      (stream.advance position).2.OnTime := by
  have hdue : stream.reportAt = (percentOf stream.total stream.read / 10 + 1) * 10 := h
  unfold BatchStream.advance
  by_cases hleads : LeadsOn stream.total (stream.read + 1)
  · simp only [(h.reportDue_iff position).mpr hleads, if_pos hleads, if_true]
    exact ⟨rfl, rfl⟩
  · have hnot := Bool.eq_false_iff.mpr (mt (h.reportDue_iff position).mp hleads)
    simp only [hnot, if_neg hleads, Bool.false_eq_true, if_false, true_and]
    have hstays : ¬percentOf stream.total stream.read / 10
        < percentOf stream.total (stream.read + 1) / 10 := hleads
    have hgrows : percentOf stream.total stream.read ≤ percentOf stream.total (stream.read + 1) :=
      percentOf_mono (Nat.le_succ _)
    -- both percentages lie in the same tenth, and the first multiple of ten above them is the same
    show stream.reportAt = (percentOf stream.total (stream.read + 1) / 10 + 1) * 10
    omega

/-- What a call adds to the log, by what it answers. -/
inductive Adds (stream last : BatchStream) (handsOut : Bool) (events : List Event) : Prop where
  /-- A batch is counted, and if it leads on it is reported, and nothing else is. -/
  | batch : handsOut = true → last.read = stream.read + 1 →
      events = (if LeadsOn stream.total (stream.read + 1) then
        [.readBatch (stream.read + 1) stream.total (percentOf stream.total (stream.read + 1))]
      else []) → Adds stream last handsOut events
  /-- Nothing else that is answered comes with a report of the progress. -/
  | other : handsOut = false → last.read = stream.read → Event.reports events = [] →
      Adds stream last handsOut events

/-- The reports after a call follow those before it. -/
theorem Adds.reports {handsOut : Bool} {events : List Event}
    (h : Adds stream last handsOut events) :
    reportsUpTo stream.total stream.read ++ Event.reports events
        = reportsUpTo stream.total last.read ∧
      last.read = stream.read + (if handsOut then 1 else 0) := by
  cases h with
  | batch hbatch hread hevents =>
      refine ⟨?_, by rw [hbatch, hread, if_pos rfl]⟩
      rw [hread, reportsUpTo, reportsAt, hevents]
      split <;> rfl
  | other hnone hread hevents =>
      rw [hread, hnone, hevents, List.append_nil]
      exact ⟨rfl, rfl⟩

theorem run_finish_adds (stream : BatchStream) (w : Workspace) :
    ∃ after events, stream.finish.run w = ({ stream with finished := true }, after) ∧
      w.Adds after events ∧ Event.reports events = [] := by
  by_cases hfinished : stream.finished = true
  · refine ⟨w, [], ?_, (List.append_nil _).symm, rfl⟩
    rw [run_finish_of_finished hfinished, ← hfinished]
  · have hopen := Bool.eq_false_iff.mpr hfinished
    simp only [finish, hopen, Bool.false_eq_true, if_false, Work.run_bind, Workspace.run_delete]
    cases w.disk.remove stream.file.location with
    | ok disk => exact ⟨_, [], rfl, (List.append_nil _).symm, rfl⟩
    | error reason => exact ⟨_, [_], rfl, Array.toList_push, rfl⟩

/-- **One call to a stream that is on time.** -/
theorem OnTime.next (h : stream.OnTime) (w : Workspace) :
    ∃ result last after events, stream.next.run w = ((result, last), after) ∧
      w.Adds after events ∧ last.OnTime ∧ last.total = stream.total ∧
      Adds stream last (isBatch (result.map fun found => found.map (none, ·))) events := by
  by_cases hfinished : stream.finished = true
  · refine ⟨none, stream, w, [], next_of_finished hfinished w, (List.append_nil _).symm, h, rfl, ?_⟩
    exact .other rfl rfl rfl
  · have hopen := Bool.eq_false_iff.mpr hfinished
    simp only [BatchStream.next, hopen, Bool.false_eq_true, if_false]
    cases hdecode : BatchRecord.decode stream.bytes stream.position with
    | error fault =>
        obtain ⟨after, events, hfinish, hadds, hreports⟩ := run_finish_adds stream
          { w with log := w.log.push (.damagedEpoch stream.file.text fault) }
        simp only [Work.run_bind, Workspace.run_report, hfinish]
        refine ⟨_, _, after, .damagedEpoch stream.file.text fault :: events, rfl, ?_, h, rfl, ?_⟩
        · rw [Workspace.Adds, hadds, Array.toList_push, List.append_assoc, List.singleton_append]
        · exact .other rfl rfl hreports
    | ok found =>
        cases found with
        | none =>
            obtain ⟨after, events, hfinish, hadds, hreports⟩ := run_finish_adds stream w
            simp only [Work.run_bind, hfinish]
            exact ⟨_, _, after, events, rfl, hadds, h, rfl, .other rfl rfl hreports⟩
        | some found =>
            obtain ⟨batch, position⟩ := found
            obtain ⟨hreport, honTime⟩ := h.advance position
            obtain ⟨reportAt, hadvance⟩ := advance_eq stream position
            simp only [Work.run_bind, Workspace.run_reportAll]
            refine ⟨_, _, _, (stream.advance position).1.toList, rfl, Array.toList_appendList,
              honTime, ?_, .batch rfl ?_ ?_⟩
            · rw [hadvance]
            · rw [hadvance]
            · rw [hreport]
              split <;> rfl

/-- Both ways of asking add the same to the log. -/
theorem OnTime.ask (h : stream.OnTime) (call : Call) (w : Workspace) :
    ∃ answer last after events, (stream.ask call).run w = ((answer, last), after) ∧
      w.Adds after events ∧ last.OnTime ∧ last.total = stream.total ∧
      Adds stream last (isBatch answer) events := by
  obtain ⟨result, last, after, events, hnext, hadds, honTime, htotal, hcall⟩ := h.next w
  refine ⟨_, last, after, events, run_ask hnext call, hadds, honTime, htotal, ?_⟩
  rcases result with _ | (fault | batch)
  · exact hcall
  · exact hcall
  · exact hcall

/-! ### All calls -/

/-- **After any calls the reports are those of the batches that were handed out.** -/
theorem OnTime.askAll (calls : List Call) :
    ∀ {stream : BatchStream} {w : Workspace}, stream.OnTime →
      ∃ answers last after events, (stream.askAll calls).run w = ((answers, last), after) ∧
        w.Adds after events ∧ last.OnTime ∧ last.total = stream.total ∧
        last.read = stream.read + handedOut answers ∧
        reportsUpTo stream.total stream.read ++ Event.reports events
          = reportsUpTo stream.total last.read := by
  induction calls with
  | nil =>
      intro stream w h
      exact ⟨[], stream, w, [], rfl, (List.append_nil _).symm, h, rfl, rfl, List.append_nil _⟩
  | cons call rest ih =>
      intro stream w h
      obtain ⟨answer, middle, between, first, hask, hfirst, honTime, htotal, hcall⟩ := h.ask call w
      obtain ⟨hreports, hread⟩ := hcall.reports
      obtain ⟨answers, last, after, later, hrest, hlater, hlast, hsame, hcount, hall⟩ :=
        ih (w := between) honTime
      rw [htotal] at hsame hall
      refine ⟨answer :: answers, last, after, first ++ later, ?_, hfirst.trans hlater, hlast, hsame,
        ?_, ?_⟩
      · rw [run_askAll_cons hask, hrest]
      · rw [hcount, hread, handedOut_cons]
        omega
      · rw [Event.reports_append, ← List.append_assoc, hreports, hall]

/-- **Progress is reported once for every tenth part.**  A stream that was opened may be asked for
its next batch any number of times, each time in either way.  A call that hands out a batch adds
nothing to the log but a report with the number of the batch, the total and the percentage, and
this exactly if the percentage lies in a further tenth than the one before it; no other call adds a
report.  So up to the total there are at most ten reports and not more than batches, their
percentages go up, and a hundred per cent are reported with the batch whose number is the total. -/
theorem progress_is_reported_once_a_tenth {file : TemporaryFile} {opened : Workspace}
    (htotal : 0 < total) (hopen : (openFile file total).run w = (.ok stream, opened))
    (calls : List Call) :
    ∃ answers last after events, (stream.askAll calls).run opened = ((answers, last), after) ∧
      opened.Adds after events ∧ Progress total (handedOut answers) (Event.reports events) ∧
      ∀ call, ∃ answer later ended added, (last.ask call).run after = ((answer, later), ended) ∧
        after.Adds ended added ∧
        (isBatch answer = true → added =
          if percentOf total (handedOut answers) / 10 < percentOf total (handedOut answers + 1) / 10
          then [.readBatch (handedOut answers + 1) total (percentOf total (handedOut answers + 1))]
          else []) ∧
        (isBatch answer = false → Event.reports added = []) := by
  obtain ⟨bytes, rfl⟩ : ∃ bytes, stream = ofBytes file bytes total := by
    simp only [openFile, Job.run_bind, Job.run_lift, Workspace.run_bytesOf] at hopen
    cases hbytes : w.disk.bytesAt file.location with
    | error reason =>
        rw [hbytes] at hopen
        cases hopen
    | ok bytes =>
        rw [hbytes] at hopen
        cases hopen
        exact ⟨bytes, rfl⟩
  obtain ⟨answers, last, after, events, hrun, hadds, honTime, hlast, hread, hreports⟩ :=
    OnTime.askAll calls (w := opened) (onTime_ofBytes file bytes total)
  have hcount : last.read = handedOut answers := by
    rw [hread]
    exact Nat.zero_add _
  have hall : Event.reports events = reportsUpTo total (handedOut answers) := by
    rw [← hcount]
    exact hreports
  refine ⟨answers, last, after, events, hrun, hadds, ?_, fun call => ?_⟩
  · rw [hall]
    exact progress_reportsUpTo htotal _
  · obtain ⟨answer, later, ended, added, hask, hadded, -, -, hcall⟩ := honTime.ask call after
    refine ⟨answer, later, ended, added, hask, hadded, fun hbatch => ?_, fun hnone => ?_⟩
    · cases hcall with
      | batch _ _ hevents =>
          rw [hevents, hlast, hcount]
          rfl
      | other hother =>
          rw [hbatch] at hother
          cases hother
    · cases hcall with
      | batch hother =>
          rw [hnone] at hother
          cases hother
      | other _ _ hevents => exact hevents

/-- A workspace with a file of two batches. -/
def besideTwoBatches : Workspace :=
  holding ⟨"e", [.given "e"]⟩ (BatchRecord.fileOf twoBatches)

/-- The stream over this file, when it is said to hold sixteen batches. -/
def firstOfSixteen : BatchStream :=
  ofBytes ⟨"e", [.given "e"]⟩ (BatchRecord.fileOf twoBatches) 16

/-- Of sixteen batches the second one leads into the second tenth, and only it is reported when the
file ends behind it. -/
theorem second_of_sixteen_is_reported :
    (openFile ⟨"e", [.given "e"]⟩ 16).run besideTwoBatches
      = (.ok firstOfSixteen, besideTwoBatches) ∧
    ∃ answers last after events,
      (firstOfSixteen.askAll [.plain, .numbered, .plain]).run besideTwoBatches
        = ((answers, last), after) ∧
      besideTwoBatches.Adds after events ∧ handedOut answers = 2 ∧
      ∀ report, report ∈ Event.reports events ↔ report = ⟨2, 16, 12⟩ := by
  have hopen : (openFile ⟨"e", [.given "e"]⟩ 16).run besideTwoBatches
      = (.ok firstOfSixteen, besideTwoBatches) := rfl
  obtain ⟨answers, last, after, events, hrun, hadds, hprogress, -⟩ :=
    progress_is_reported_once_a_tenth (by decide) hopen [.plain, .numbered, .plain]
  have htwo : handedOut ((firstOfSixteen.askAll [.plain, .numbered, .plain]).run
      besideTwoBatches).1.1 = 2 := by cbv
  rw [hrun] at htwo
  refine ⟨hopen, answers, last, after, events, hrun, hadds, htwo, fun report => ?_⟩
  rw [hprogress.reported, htwo]
  constructor
  · rintro ⟨number, hpos, hle, hleads, rfl⟩
    obtain rfl | rfl : number = 1 ∨ number = 2 := by omega
    · exact absurd hleads (by decide)
    · rfl
  · rintro rfl
    exact ⟨2, by decide, Nat.le_refl 2, by decide, rfl⟩

end BatchStream

end Bitext
