/-
What a file pair contributes, and when its reading fails.

The admitted pairs of a reading do not depend on what was counted before it, and its tally
is the tally of the reading alone, merged into the one before.  That is what lets workers
count for themselves.

A reading fails for one of three reasons, which `Faulty` lists; none of them depends on the
settings.  When it does not fail, its admitted pairs are what admission keeps of the
delivered pairs, in order.
-/
import Bitext.Build.Harvest
import Bitext.Proofs.Admission
import Bitext.Proofs.Tally

namespace Bitext

/-- A file pair that cannot be read to its end. -/
inductive FilePair.Faulty (disk : Disk) (files : FilePair) : Prop where
  /-- One of the files cannot be opened. -/
  | unopened {fault : Fault} : files.openReader disk = .error fault → Faulty disk files
  /-- A line cannot be read, or one file ends before the other. -/
  | unread {reader : LineReader} {fault : Fault} :
      files.openReader disk = .ok reader → reader.readAll.fault = some fault → Faulty disk files
  /-- The two lines of a pair differ in their groups. -/
  | mismatched {reader : LineReader} {found : LinePair} :
      files.openReader disk = .ok reader → found ∈ reader.readAll.pairs →
      Admission.groupsMatch found.pair = false → Faulty disk files

namespace Harvest

open Admission

/-- A harvest counted on top of a tally. -/
def onTop (tally : Tally) (harvest : Harvest) : Harvest :=
  ⟨harvest.admitted, harvest.outcome.map tally.merge⟩

/-! ### Lines -/

section lines

variable {settings : Settings} {fault : Option Fault}

theorem ofLines_cons_of_mismatch {found : LinePair} (h : groupsMatch found.pair = false)
    (tally : Tally) (rest : List LinePair) :
    ofLines settings fault tally (found :: rest)
      = ⟨[], .error (mismatch found.line found.pair)⟩ := by
  simp [ofLines, receive, h]

theorem ofLines_cons_of_rejected {found : LinePair} {source target : Bool}
    (h : groupsMatch found.pair = true)
    (hverdict : verdict settings found.pair = .rejected source target)
    (tally : Tally) (rest : List LinePair) :
    ofLines settings fault tally (found :: rest)
      = ofLines settings fault (count settings found.pair tally) rest := by
  simp [ofLines, receive, h, hverdict]

theorem ofLines_cons_of_accepted {found : LinePair} {p : Admitted}
    (h : groupsMatch found.pair = true) (hverdict : verdict settings found.pair = .accepted p)
    (tally : Tally) (rest : List LinePair) :
    ofLines settings fault tally (found :: rest)
      = ⟨p :: (ofLines settings fault (count settings found.pair tally) rest).admitted,
        (ofLines settings fault (count settings found.pair tally) rest).outcome⟩ := by
  simp [ofLines, receive, h, hverdict]

theorem onTop_onTop (first second : Tally) (harvest : Harvest) :
    onTop first (onTop second harvest) = onTop (first.merge second) harvest := by
  unfold onTop
  cases harvest.outcome with
  | error fault => rfl
  | ok t => simp only [Except.map, Tally.merge_assoc]

/-- **Reading on top of a tally is reading anew and merging.** -/
theorem ofLines_eq_onTop (pairs : List LinePair) :
    ∀ tally, ofLines settings fault tally pairs
      = onTop tally (ofLines settings fault .empty pairs) := by
  induction pairs with
  | nil => intro tally; cases fault <;> simp [ofLines, onTop, Except.map]
  | cons found rest ih =>
      intro tally
      cases hgroups : groupsMatch found.pair with
      | false => rw [ofLines_cons_of_mismatch hgroups, ofLines_cons_of_mismatch hgroups]; rfl
      | true =>
          -- both readings go on with this pair counted, so the hypothesis applies to both
          have hcounted : ofLines settings fault (count settings found.pair tally) rest
              = onTop tally (ofLines settings fault (count settings found.pair .empty) rest) := by
            rw [ih (count settings found.pair tally), ih (count settings found.pair .empty),
              onTop_onTop, count_eq_merge settings found.pair tally]
          cases hverdict : verdict settings found.pair with
          | rejected source target =>
              rw [ofLines_cons_of_rejected hgroups hverdict,
                ofLines_cons_of_rejected hgroups hverdict, hcounted]
          | accepted p =>
              rw [ofLines_cons_of_accepted hgroups hverdict,
                ofLines_cons_of_accepted hgroups hverdict, hcounted]
              rfl

/-- A reading comes to its tally when no line failed and all groups match. -/
theorem ofLines_ok_iff (pairs : List LinePair) :
    ∀ tally, (∃ t, (ofLines settings fault tally pairs).outcome = .ok t) ↔
      fault = none ∧ ∀ found ∈ pairs, groupsMatch found.pair = true := by
  induction pairs with
  | nil => intro tally; cases fault <;> simp [ofLines]
  | cons found rest ih =>
      intro tally
      cases hgroups : groupsMatch found.pair with
      | false => simp [ofLines_cons_of_mismatch hgroups, hgroups]
      | true =>
          cases hverdict : verdict settings found.pair with
          | rejected source target =>
              rw [ofLines_cons_of_rejected hgroups hverdict, ih]
              simp [hgroups]
          | accepted p =>
              rw [ofLines_cons_of_accepted hgroups hverdict, ih]
              simp [hgroups]

/-- A reading that comes to its tally has admitted what is kept of its pairs, and counted
that many. -/
theorem ofLines_admitted (pairs : List LinePair) :
    ∀ tally t, (ofLines settings fault tally pairs).outcome = .ok t →
      (ofLines settings fault tally pairs).admitted.map (·.pair)
        = (pairs.map (·.pair)).filterMap (kept settings) ∧
      t.accepted = tally.accepted + (ofLines settings fault tally pairs).admitted.length := by
  induction pairs with
  | nil =>
      intro tally t h
      cases fault with
      | none =>
          obtain rfl : tally = t := by simpa [ofLines] using h
          simp [ofLines]
      | some fault => simp [ofLines] at h
  | cons found rest ih =>
      intro tally t h
      cases hgroups : groupsMatch found.pair with
      | false => simp [ofLines_cons_of_mismatch hgroups] at h
      | true =>
          cases hverdict : verdict settings found.pair with
          | rejected source target =>
              have hcount : (count settings found.pair tally).accepted = tally.accepted := by
                simp only [count, hverdict]
              rw [ofLines_cons_of_rejected hgroups hverdict] at h ⊢
              obtain ⟨hpairs, haccepted⟩ := ih _ t h
              refine ⟨?_, by rw [haccepted, hcount]⟩
              rw [hpairs, List.map_cons, List.filterMap_cons_none (kept_of_rejected hverdict)]
          | accepted p =>
              have hcount : (count settings found.pair tally).accepted = tally.accepted + 1 := by
                simp only [count, hverdict]
              rw [ofLines_cons_of_accepted hgroups hverdict] at h ⊢
              obtain ⟨hpairs, haccepted⟩ := ih _ t h
              refine ⟨?_, ?_⟩
              · rw [List.map_cons, hpairs, List.map_cons,
                  List.filterMap_cons_some (kept_of_accepted hverdict).1]
              · rw [haccepted, hcount, List.length_cons]
                omega

/-- Every admitted pair is accurate, and what was kept of a pair that was read and whose groups
match. -/
theorem of_mem_ofLines {p : Admitted} (pairs : List LinePair) :
    ∀ tally, p ∈ (ofLines settings fault tally pairs).admitted →
      p.Accurate settings ∧ ∃ found ∈ pairs, groupsMatch found.pair = true ∧
        kept settings found.pair = some p.pair := by
  induction pairs with
  | nil => intro tally h; cases fault <;> simp [ofLines] at h
  | cons found rest ih =>
      intro tally h
      cases hgroups : groupsMatch found.pair with
      | false => simp [ofLines_cons_of_mismatch hgroups] at h
      | true =>
          cases hverdict : verdict settings found.pair with
          | rejected source target =>
              rw [ofLines_cons_of_rejected hgroups hverdict] at h
              obtain ⟨haccurate, later, hlater, hkept⟩ := ih _ h
              exact ⟨haccurate, later, List.mem_cons_of_mem found hlater, hkept⟩
          | accepted first =>
              rw [ofLines_cons_of_accepted hgroups hverdict] at h
              rcases List.mem_cons.mp h with rfl | h
              · obtain ⟨hkept, haccurate⟩ := kept_of_accepted hverdict
                exact ⟨haccurate, found, by simp, hgroups, hkept⟩
              · obtain ⟨haccurate, later, hlater, hkept⟩ := ih _ h
                exact ⟨haccurate, later, List.mem_cons_of_mem found hlater, hkept⟩

end lines

/-! ### File pairs -/

section files

variable {settings : Settings} {disk : Disk} {files : FilePair} {reader : LineReader}

theorem ofFiles_of_unopened {fault : Fault} (h : files.openReader disk = .error fault)
    (tally : Tally) : ofFiles settings disk tally files = ⟨[], .error fault⟩ := by
  rw [ofFiles, h]

theorem ofFiles_of_opened (h : files.openReader disk = .ok reader) (tally : Tally) :
    ofFiles settings disk tally files
      = ⟨(ofLines settings reader.readAll.fault tally reader.readAll.pairs).admitted,
        within (.readingPair files.text)
          (ofLines settings reader.readAll.fault tally reader.readAll.pairs).outcome⟩ := by
  rw [ofFiles, h]

theorem within_ok_iff {context : Context} {outcome : Except Fault Tally} {t : Tally} :
    within context outcome = .ok t ↔ outcome = .ok t := by
  cases outcome <;> simp [within, Except.mapError]

/-- **What a file pair gives does not depend on what was counted before it.** -/
theorem ofFiles_eq_onTop (settings : Settings) (disk : Disk) (tally : Tally) (files : FilePair) :
    ofFiles settings disk tally files = onTop tally (ofFiles settings disk .empty files) := by
  cases hopen : files.openReader disk with
  | error fault => rw [ofFiles_of_unopened hopen, ofFiles_of_unopened hopen]; rfl
  | ok reader =>
      rw [ofFiles_of_opened hopen, ofFiles_of_opened hopen, ofLines_eq_onTop]
      unfold onTop
      cases (ofLines settings reader.readAll.fault .empty reader.readAll.pairs).outcome <;> rfl

/-- The reading of a file pair comes to its tally unless the file pair is faulty. -/
theorem ofFiles_ok_iff (tally : Tally) :
    (∃ t, (ofFiles settings disk tally files).outcome = .ok t) ↔ ¬files.Faulty disk := by
  cases hopen : files.openReader disk with
  | error fault =>
      rw [ofFiles_of_unopened hopen]
      simp [FilePair.Faulty.unopened hopen]
  | ok reader =>
      rw [ofFiles_of_opened hopen]
      simp only [within_ok_iff]
      rw [ofLines_ok_iff]
      constructor
      · rintro ⟨hfault, hgroups⟩ hfaulty
        cases hfaulty with
        | unopened h => simp [hopen] at h
        | unread h hunread =>
            obtain rfl := Except.ok.inj (hopen.symm.trans h)
            simp [hfault] at hunread
        | mismatched h hmem hmismatch =>
            obtain rfl := Except.ok.inj (hopen.symm.trans h)
            simp [hgroups _ hmem] at hmismatch
      · intro hsound
        refine ⟨?_, ?_⟩
        · cases hfault : reader.readAll.fault with
          | none => rfl
          | some fault => exact absurd (.unread hopen hfault) hsound
        · intro found hfound
          cases hgroups : groupsMatch found.pair with
          | true => rfl
          | false => exact absurd (.mismatched hopen hfound hgroups) hsound

/-- **A file pair that is read to its end contributes what is kept of its pairs.** -/
theorem ofFiles_admitted {t : Tally} (h : (ofFiles settings disk .empty files).outcome = .ok t) :
    (ofFiles settings disk .empty files).admitted.map (·.pair)
        = (files.delivered disk).filterMap (kept settings) ∧
      t.accepted = (ofFiles settings disk .empty files).admitted.length := by
  cases hopen : files.openReader disk with
  | error fault => simp [ofFiles_of_unopened hopen] at h
  | ok reader =>
      rw [ofFiles_of_opened hopen] at h ⊢
      obtain ⟨hpairs, haccepted⟩ := ofLines_admitted _ _ t (within_ok_iff.mp h)
      refine ⟨?_, ?_⟩
      · rw [hpairs, FilePair.delivered, hopen]
      · rw [haccepted, Tally.empty, Nat.zero_add]

/-- An admitted pair of a file pair is accurate, has one line on either side and groups that
match. -/
theorem of_mem_ofFiles {tally : Tally} {p : Admitted}
    (h : p ∈ (ofFiles settings disk tally files).admitted) :
    p.Accurate settings ∧ p.pair.OnOneLine ∧ groupsMatch p.pair = true := by
  cases hopen : files.openReader disk with
  | error fault => simp [ofFiles_of_unopened hopen] at h
  | ok reader =>
      rw [ofFiles_of_opened hopen] at h
      obtain ⟨haccurate, found, hfound, hgroups, hkept⟩ := of_mem_ofLines _ _ h
      have hdelivered : found.pair ∈ files.delivered disk := by
        rw [FilePair.delivered, hopen]
        exact List.mem_map_of_mem hfound
      exact ⟨haccurate, onOneLine_of_kept (FilePair.onOneLine_of_delivered hdelivered) hkept,
        groupsMatch_of_kept hgroups hkept⟩

end files

end Harvest

end Bitext
