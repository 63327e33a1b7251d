/-
Every temporary file belongs to something that is alive.

An epoch that is held owns its file until it is opened, its stream owns it from then on
until it ends, and whatever is given up lets go of its file.  So at every moment the disk
holds what it held in the beginning and, behind it, one file for each epoch and each stream
that is alive; a blob is never among them.

What is alive is told by the operations and their outcomes alone, as a caller sees them.  The
invariant ties this to the disk.  An operation changes what is held under one name, so it is
enough to know what happens to the file of that name.
-/
import Bitext.Session
import Bitext.Proofs.Cleanup

namespace Bitext

open Disk (Gains HoldsBeside)

/-! ### What a caller knows -/

/-- The names under which something is alive after an operation: an epoch that has not been
opened, or a stream that has not ended, has not failed and has not been dropped. -/
def Operation.aliveAfter (alive : List String) : Operation → Outcome → List String
  | .prepare name _, .prepared _ | .openHeld name, .opened _ | .iterate name, .opened _
  | .next name, .batch (some (.ok _)) _ => name :: alive.filter (· ≠ name)
  | .openHeld name, .failed _ | .next name, .batch _ _ | .drain name, .drained _
  | .drop name, .dropped _ => alive.filter (· ≠ name)
  | _, _ => alive

/-- The names under which something is alive after operations. -/
def Operation.aliveAfterAll (alive : List String) : List Operation → List Outcome → List String
  | operation :: operations, outcome :: outcomes =>
      aliveAfterAll (operation.aliveAfter alive outcome) operations outcomes
  | _, _ => alive

/-- The operation prepares an epoch. -/
def Operation.preparesEpoch : Operation → Bool
  | .prepare _ _ | .iterate _ | .pass _ => true
  | .openHeld _ | .next _ | .drain _ | .drop _ => false

/-! ### What is held -/

namespace Holding

/-- The file of an epoch, or of a stream that has not ended. -/
def location? : Holding → Option Location
  | .epoch e => some e.file.location
  | .stream s => if s.finished then none else some s.file.location

variable {w : Workspace} {holding : Holding} {stream : BatchStream}

theorem location?_of_unfinished (h : stream.finished = false) :
    (Holding.stream stream).location? = some stream.file.location := by
  rw [location?, h]
  rfl

theorem location?_of_finished (h : stream.finished = true) :
    (Holding.stream stream).location? = none := by
  rw [location?, h]
  rfl

/-- The disk after something has let go of its file. -/
def released (holding : Holding) (disk : Disk) : Disk :=
  match holding.location? with
  | some file => disk.erase file
  | none => disk

theorem released_stream (stream : BatchStream) (disk : Disk) :
    (Holding.stream stream).released disk = stream.released disk := by
  unfold released BatchStream.released
  cases hfinished : stream.finished with
  | true =>
      rw [location?_of_finished hfinished]
      rfl
  | false =>
      rw [location?_of_unfinished hfinished]
      rfl

theorem hasFile_of_location? (h : ∀ file, (Holding.stream stream).location? = some file →
    w.disk.isFile file = true) : stream.HasFile w.disk := by
  intro hopen
  exact h _ (location?_of_unfinished hopen)

theorem disk_drop (h : ∀ file, holding.location? = some file → w.disk.isFile file = true) :
    (holding.drop.run w).2.disk = holding.released w.disk := by
  cases holding with
  | epoch e => rfl
  | stream stream =>
      rw [released_stream]
      exact BatchStream.disk_drop (hasFile_of_location? h)

end Holding

namespace Session

variable {σ : Type} {session next : Session σ} {name : String} {holding old : Holding}

/-- The file of what is held under a name. -/
def fileOf (entry : String × Holding) : Option Location := entry.2.location?

/-- The files of what is held. -/
def files (session : Session σ) : List Location := session.held.filterMap fileOf

/-- The names under which something is held that owns a file. -/
def alive (session : Session σ) : List String :=
  (session.held.filter fun entry => (fileOf entry).isSome).map (·.1)

theorem length_alive (session : Session σ) : session.alive.length = session.files.length := by
  rw [alive, files, List.length_map]
  induction session.held with
  | nil => rfl
  | cons entry rest ih =>
      cases hfile : fileOf entry with
      | none =>
          rw [List.filter_cons_of_neg (by simp [hfile]), List.filterMap_cons_none hfile]
          exact ih
      | some file =>
          rw [List.filter_cons_of_pos (by simp [hfile]), List.filterMap_cons_some hfile,
            List.length_cons, List.length_cons, ih]

theorem alive_forget (session : Session σ) (name : String) :
    (session.forget name).alive = session.alive.filter (· ≠ name) := by
  rw [alive, alive, forget, List.filter_map, List.filter_filter, List.filter_filter]
  congr 1
  refine List.filter_congr fun entry _ => ?_
  rw [Bool.and_comm]
  simp [bne, beq_eq_decide]

theorem alive_replace_of_some {file : Location} (h : holding.location? = some file) :
    (session.replace name holding).alive = name :: session.alive.filter (· ≠ name) := by
  rw [← alive_forget, alive, replace, List.filter_cons_of_pos (by simp [fileOf, h]), List.map_cons]
  rfl

theorem alive_replace_of_none (h : holding.location? = none) :
    (session.replace name holding).alive = session.alive.filter (· ≠ name) := by
  rw [← alive_forget, alive, replace, List.filter_cons_of_neg (by simp [fileOf, h])]
  rfl

theorem files_replace_of_some {file : Location} (h : holding.location? = some file) :
    (session.replace name holding).files = file :: (session.forget name).files :=
  List.filterMap_cons_some h

theorem files_replace_of_none (h : holding.location? = none) :
    (session.replace name holding).files = (session.forget name).files :=
  List.filterMap_cons_none h

theorem nodup_forget (h : (session.held.map (·.1)).Nodup) (name : String) :
    ((session.forget name).held.map (·.1)).Nodup :=
  h.sublist (List.filter_sublist.map _)

theorem nodup_replace (h : (session.held.map (·.1)).Nodup) (name : String) (holding : Holding) :
    ((session.replace name holding).held.map (·.1)).Nodup := by
  refine List.nodup_cons.mpr ⟨?_, nodup_forget h name⟩
  intro hmem
  obtain ⟨entry, hentry, heq⟩ := List.mem_map.mp hmem
  have hne := (List.mem_filter.mp hentry).2
  simp [heq] at hne

/-- What is held, with what is held under one name in front. -/
theorem held_perm (h : (session.held.map (·.1)).Nodup) (hold : session.held? name = some old) :
    session.held.Perm ((name, old) :: (session.forget name).held) := by
  obtain ⟨before, after, hsplit, hbefore⟩ := List.lookup_eq_some_iff.mp hold
  have hothers : ∀ entry ∈ before ++ after, entry.1 ≠ name := by
    rw [hsplit, List.map_append, List.map_cons, List.nodup_append] at h
    intro entry hentry heq
    rcases List.mem_append.mp hentry with hmem | hmem
    · exact h.2.2 entry.1 (List.mem_map_of_mem hmem) name (List.mem_cons_self ..) heq
    · exact (List.nodup_cons.mp h.2.1).1 (List.mem_map.mpr ⟨entry, hmem, heq⟩)
  have hforget : (session.forget name).held = before ++ after := by
    have hkept : (before ++ after).filter (·.1 != name) = before ++ after := by
      apply List.filter_eq_self.mpr
      intro entry hentry
      simpa using hothers entry hentry
    rw [forget, hsplit, List.filter_append, List.filter_cons_of_neg (by simp),
      ← List.filter_append, hkept]
  rw [hforget, hsplit]
  exact List.perm_middle

theorem files_perm (h : (session.held.map (·.1)).Nodup) (hold : session.held? name = some old) :
    session.files.Perm (old.location?.toList ++ (session.forget name).files) := by
  have hperm := (held_perm h hold).filterMap fileOf
  cases hfile : old.location? with
  | none =>
      have hentry : fileOf (name, old) = none := hfile
      rw [List.filterMap_cons_none hentry] at hperm
      exact hperm
  | some file =>
      have hentry : fileOf (name, old) = some file := hfile
      rw [List.filterMap_cons_some hentry] at hperm
      exact hperm

theorem forget_of_not_held (h : session.held? name = none) : session.forget name = session := by
  have hkept : session.held.filter (·.1 != name) = session.held := by
    apply List.filter_eq_self.mpr
    intro entry hentry
    have hne : name ≠ entry.1 := bne_iff_ne.mp (List.lookup_eq_none_iff.mp h entry hentry)
    exact bne_iff_ne.mpr hne.symm
  rw [forget, hkept]

/-! ### The invariant -/

section accounts

variable {base : Disk} {place : Location} {new : List Location} {w after : Workspace}

/-- The disk holds the entries of a base and the files of what is held, and nothing else. -/
structure Accounts (base : Disk) (place : Location) (session : Session σ) (disk : Disk) : Prop where
  folder : base.folderAlong session.corpus.settings.tempDir.steps = .ok place
  names : (session.held.map (·.1)).Nodup
  holds : HoldsBeside base place Epoch.ending session.files disk

namespace Accounts

/-- A session that holds nothing accounts for the disk that it begins on. -/
theorem start {corpus : Corpus σ} {disk : Disk} (hfresh : disk.Fresh)
    (hplace : disk.folderAlong corpus.settings.tempDir.steps = .ok place) :
    Accounts disk place ⟨corpus, []⟩ disk where
  folder := hplace
  names := List.nodup_nil
  holds := {
    entries := ⟨[], (List.append_nil _).symm, List.Perm.refl _, fun entry h => by cases h⟩
    nodup := List.nodup_nil
    apart := fun _ _ => List.not_mem_nil
    fresh := hfresh }

theorem folderAlong (h : Accounts base place session w.disk) :
    w.disk.folderAlong session.corpus.settings.tempDir.steps = .ok place := by
  rw [Disk.folderAlong_eq h.holds.agreesOnGiven]
  exact h.folder

/-- The file of what is held under a name is there. -/
theorem isFile (h : Accounts base place session w.disk) (hold : session.held? name = some old)
    {file : Location} (hfile : old.location? = some file) : w.disk.isFile file = true := by
  refine h.holds.isFile ?_
  rw [(files_perm h.names hold).mem_iff, hfile]
  exact List.mem_cons_self ..

/-- Letting go of what is held under a name leaves the files of the others, also beside a new
file. -/
theorem released (h : HoldsBeside base place Epoch.ending (session.files ++ new) w.disk)
    (hnames : (session.held.map (·.1)).Nodup) (hold : session.held? name = some old) :
    HoldsBeside base place Epoch.ending ((session.forget name).files ++ new)
      (old.released w.disk) := by
  have hperm := (files_perm hnames hold).append_right new
  unfold Holding.released
  cases hfile : old.location? with
  | none =>
      rw [hfile] at hperm
      exact h.of_perm hperm
  | some file =>
      rw [hfile] at hperm
      exact (h.of_perm hperm).erase

/-- What was held under a name is given up. -/
theorem forget (h : Accounts base place session w.disk) (hold : session.held? name = some old)
    (hdisk : after.disk = old.released w.disk) :
    Accounts base place (session.forget name) after.disk where
  folder := h.folder
  names := nodup_forget h.names name
  holds := by
    have hall : HoldsBeside base place Epoch.ending (session.files ++ []) w.disk := by
      rw [List.append_nil]
      exact h.holds
    have hreleased := released hall h.names hold
    rw [List.append_nil] at hreleased
    rw [hdisk]
    exact hreleased

/-- What was held under a name has come to its end and stays there. -/
theorem finish (h : Accounts base place session w.disk) (hold : session.held? name = some old)
    (hended : holding.location? = none) (hdisk : after.disk = old.released w.disk) :
    Accounts base place (session.replace name holding) after.disk where
  folder := h.folder
  names := nodup_replace h.names name holding
  holds := by
    rw [files_replace_of_none hended]
    exact (h.forget hold hdisk).holds

/-- What was held under a name hands its file over. -/
theorem handOver (h : Accounts base place session w.disk) (hold : session.held? name = some old)
    {file : Location} (hbefore : old.location? = some file) (hafter : holding.location? = some file)
    (hdisk : after.disk = w.disk) :
    Accounts base place (session.replace name holding) after.disk where
  folder := h.folder
  names := nodup_replace h.names name holding
  holds := by
    have hperm := files_perm h.names hold
    rw [hbefore] at hperm
    rw [files_replace_of_some hafter, hdisk]
    exact h.holds.of_perm hperm

/-- Work that keeps the entries keeps the accounts, also when the corpus moves on. -/
theorem of_keeps (h : Accounts base place session w.disk) {corpus : Corpus σ}
    (hsettings : corpus.settings = session.corpus.settings) (hkeeps : w.disk.Keeps after.disk) :
    Accounts base place { session with corpus } after.disk where
  folder := by
    rw [hsettings]
    exact h.folder
  names := h.names
  holds := h.holds.of_keeps hkeeps

/-- Something with a new file is held under a name, and what was held there is given up. -/
theorem hold {corpus : Corpus σ} (h : Accounts base place session w.disk) {middle : Workspace}
    {file : Location} (hsettings : corpus.settings = session.corpus.settings)
    (hgains : Gains place Epoch.ending w.disk middle.disk file)
    (hfile : holding.location? = some file) :
    ∃ after, (Session.hold { session with corpus } name holding).run middle
        = (({ session with corpus } : Session σ).replace name holding, after) ∧
      Accounts base place (({ session with corpus } : Session σ).replace name holding)
        after.disk := by
  have hboth : HoldsBeside base place Epoch.ending (session.files ++ [file]) middle.disk :=
    (h.holds.of_gains hgains).of_perm (List.perm_append_singleton file session.files).symm
  have haccounts : ∀ after : Workspace,
      HoldsBeside base place Epoch.ending ((session.forget name).files ++ [file]) after.disk →
      Accounts base place (({ session with corpus } : Session σ).replace name holding)
        after.disk := by
    intro after hholds
    refine ⟨?_, nodup_replace h.names name holding, ?_⟩
    · show base.folderAlong corpus.settings.tempDir.steps = .ok place
      rw [hsettings]
      exact h.folder
    · rw [files_replace_of_some hfile]
      exact hholds.of_perm (List.perm_append_singleton file _)
  cases hheld : session.held? name with
  | none =>
      have hsame : session.forget name = session := forget_of_not_held hheld
      refine ⟨middle, ?_, haccounts middle (by rw [hsame]; exact hboth)⟩
      have hnone : ({ session with corpus } : Session σ).held? name = none := hheld
      simp only [Session.hold, hnone]
      rfl
  | some old =>
      have hthere : ∀ own, old.location? = some own → middle.disk.isFile own = true := by
        intro own hown
        refine hboth.isFile (List.mem_append_left _ ?_)
        rw [(files_perm h.names hheld).mem_iff, hown]
        exact List.mem_cons_self ..
      have hdropped : ((old.drop).run middle).2.disk = old.released middle.disk :=
        Holding.disk_drop hthere
      refine ⟨((old.drop).run middle).2, ?_, haccounts _ ?_⟩
      · have hsome : ({ session with corpus } : Session σ).held? name = some old := hheld
        simp only [Session.hold, hsome]
        rfl
      · rw [hdropped]
        exact released hboth h.names hheld

end Accounts

/-! ### One operation -/

/-- What an operation has come to: the session that follows accounts for the disk, the caller
knows what is alive in it, and a preparation that has failed has cost nothing. -/
structure Settles (base : Disk) (place : Location) (session : Session σ) (operation : Operation)
    (w : Workspace) (outcome : Outcome) (next : Session σ) (after : Workspace) : Prop where
  accounts : Accounts base place next after.disk
  alive : next.alive = operation.aliveAfter session.alive outcome
  failed : ∀ fault, outcome = .failed fault → operation.preparesEpoch = true →
    w.disk.Keeps after.disk

/-- What comes of an operation settles it. -/
def Settled (base : Disk) (place : Location) (session : Session σ) (operation : Operation)
    (w : Workspace) : Prop :=
  ∃ outcome next after, (session.perform operation).run w = ((outcome, next), after) ∧
    Settles base place session operation w outcome next after

namespace Accounts

theorem settled_prepare (h : Accounts base place session w.disk) (name : String) (epoch : Nat) :
    Settled base place session (.prepare name epoch) w := by
  cases hprepare : (session.corpus.prepare epoch).run w with
  | mk prepared middle =>
      obtain ⟨result, corpus⟩ := prepared
      obtain ⟨hsettings, hresult⟩ :=
        Corpus.prepare_keeps_or_gains hprepare h.holds.fresh h.folderAlong
      cases result with
      | error fault =>
          refine ⟨.failed fault, { session with corpus }, middle, ?_,
            h.of_keeps hsettings hresult, rfl, fun _ _ _ => hresult⟩
          simp only [perform, Work.run_bind, hprepare]
          rfl
      | ok e =>
          have hfile : (Holding.epoch e).location? = some e.file.location := rfl
          obtain ⟨after, hrun, haccounts⟩ := h.hold hsettings hresult hfile
          refine ⟨.prepared e, _, after, ?_, haccounts, alive_replace_of_some hfile,
            fun _ hfailed => by cases hfailed⟩
          simp only [perform, Work.run_bind, hprepare, hrun]
          rfl

theorem settled_iterate (h : Accounts base place session w.disk) (name : String) :
    Settled base place session (.iterate name) w := by
  cases hiterate : session.corpus.iterate.run w with
  | mk iterated middle =>
      obtain ⟨result, corpus⟩ := iterated
      obtain ⟨hsettings, hresult⟩ :=
        Corpus.iterate_keeps_or_gains hiterate h.holds.fresh h.folderAlong
      cases result with
      | error fault =>
          refine ⟨.failed fault, { session with corpus }, middle, ?_,
            h.of_keeps hsettings hresult, rfl, fun _ _ _ => hresult⟩
          simp only [perform, Work.run_bind, hiterate]
          rfl
      | ok stream =>
          obtain ⟨hopen, hgains⟩ := hresult
          have hfile := Holding.location?_of_unfinished hopen
          obtain ⟨after, hrun, haccounts⟩ := h.hold hsettings hgains hfile
          refine ⟨.opened stream.total, _, after, ?_, haccounts, alive_replace_of_some hfile,
            fun _ hfailed => by cases hfailed⟩
          simp only [perform, Work.run_bind, hiterate, hrun]
          rfl

/-- What is not held leaves everything as it is. -/
theorem settled_notHeld (h : Accounts base place session w.disk) {operation : Operation}
    (hrun : (session.perform operation).run w = ((.notHeld, session), w))
    (halive : operation.aliveAfter session.alive .notHeld = session.alive) :
    Settled base place session operation w :=
  ⟨.notHeld, session, w, hrun, h, halive.symm, fun _ hfailed => by cases hfailed⟩

theorem settled_openHeld (h : Accounts base place session w.disk) (name : String) :
    Settled base place session (.openHeld name) w := by
  cases hheld : session.held? name with
  | none =>
      refine h.settled_notHeld ?_ rfl
      simp only [perform, hheld]
      rfl
  | some old =>
      cases old with
      | stream stream =>
          refine h.settled_notHeld ?_ rfl
          simp only [perform, hheld]
          rfl
      | epoch e =>
          have hbefore : (Holding.epoch e).location? = some e.file.location := rfl
          obtain ⟨stream, hopen, hfile, hopened⟩ :=
            Epoch.openStream_of_isFile (h.isFile hheld hbefore)
          have hwork : StateT.run e.openStream.run w = (.ok stream, w) := hopen
          have hafter : (Holding.stream stream).location? = some e.file.location := by
            rw [Holding.location?_of_unfinished hopened, hfile]
          refine ⟨.opened stream.total, session.replace name (.stream stream), w, ?_,
            h.handOver hheld hbefore hafter rfl, alive_replace_of_some hafter,
            fun _ hfailed => by cases hfailed⟩
          simp only [perform, hheld, Work.run_bind, hwork]
          rfl

/-- The file of a stream that is held is there until the stream has ended. -/
theorem hasFile (h : Accounts base place session w.disk) {stream : BatchStream}
    (hheld : session.held? name = some (.stream stream)) : stream.HasFile w.disk :=
  Holding.hasFile_of_location? fun _ hfile => h.isFile hheld hfile

theorem settled_next (h : Accounts base place session w.disk) (name : String) :
    Settled base place session (.next name) w := by
  cases hheld : session.held? name with
  | none =>
      refine h.settled_notHeld ?_ rfl
      simp only [perform, hheld]
      rfl
  | some old =>
      cases old with
      | epoch e =>
          refine h.settled_notHeld ?_ rfl
          simp only [perform, hheld]
          rfl
      | stream stream =>
          obtain ⟨result, last, after, hnext, hstep⟩ :=
            BatchStream.next_goesOn_or_hasEnded (h.hasFile hheld)
          have hrun : (session.perform (.next name)).run w
              = ((.batch (result.map fun batch => batch.map fun batch => (last.read, batch))
                  last.read, session.replace name (.stream last)), after) := by
            simp only [perform, hheld, BatchStream.nextNumbered, Work.run_bind, hnext]
            rfl
          refine ⟨_, _, after, hrun, ?_, ?_, fun _ hfailed => by cases hfailed⟩
          · rcases hstep with ⟨-, hopen, hgoes, hsame, hdisk⟩ | ⟨-, hended, hdisk⟩
            · refine h.handOver hheld (Holding.location?_of_unfinished hopen) ?_ hdisk
              rw [Holding.location?_of_unfinished hgoes, hsame]
            · refine h.finish hheld (Holding.location?_of_finished hended) ?_
              rw [Holding.released_stream]
              exact hdisk
          · rcases hstep with ⟨⟨batch, rfl⟩, -, hgoes, -, -⟩ | ⟨hnone, hended, -⟩
            · exact alive_replace_of_some (Holding.location?_of_unfinished hgoes)
            · rw [alive_replace_of_none (Holding.location?_of_finished hended)]
              cases result with
              | none => rfl
              | some found =>
                  cases found with
                  | error fault => rfl
                  | ok batch => exact absurd rfl (hnone batch)

theorem settled_drain (h : Accounts base place session w.disk) (name : String) :
    Settled base place session (.drain name) w := by
  cases hheld : session.held? name with
  | none =>
      refine h.settled_notHeld ?_ rfl
      simp only [perform, hheld]
      rfl
  | some old =>
      cases old with
      | epoch e =>
          refine h.settled_notHeld ?_ rfl
          simp only [perform, hheld]
          rfl
      | stream stream =>
          have hdisk := BatchStream.disk_drain (h.hasFile hheld)
          refine ⟨.drained (stream.drain.run w).1, session.forget name, (stream.drain.run w).2, ?_,
            h.forget hheld ?_, alive_forget session name, fun _ hfailed => by cases hfailed⟩
          · simp only [perform, hheld, Work.run_bind]
            rfl
          · rw [Holding.released_stream]
            exact hdisk

theorem settled_drop (h : Accounts base place session w.disk) (name : String) :
    Settled base place session (.drop name) w := by
  cases hheld : session.held? name with
  | none =>
      refine ⟨.dropped false, session, w, ?_, h, ?_, fun _ hfailed => by cases hfailed⟩
      · simp only [perform, hheld]
        rfl
      · show session.alive = session.alive.filter (· ≠ name)
        rw [← alive_forget, forget_of_not_held hheld]
  | some old =>
      have hdisk := Holding.disk_drop fun file hfile => h.isFile hheld hfile
      refine ⟨.dropped true, session.forget name, (old.drop.run w).2, ?_, h.forget hheld hdisk,
        alive_forget session name, fun _ hfailed => by cases hfailed⟩
      simp only [perform, hheld, Work.run_bind]
      rfl

theorem settled_pass (h : Accounts base place session w.disk) (epoch : Nat) :
    Settled base place session (.pass epoch) w := by
  cases hprepare : (session.corpus.prepare epoch).run w with
  | mk prepared middle =>
      obtain ⟨result, corpus⟩ := prepared
      obtain ⟨hsettings, hresult⟩ :=
        Corpus.prepare_keeps_or_gains hprepare h.holds.fresh h.folderAlong
      cases result with
      | error fault =>
          refine ⟨.failed fault, { session with corpus }, middle, ?_,
            h.of_keeps hsettings hresult, rfl, fun _ _ _ => hresult⟩
          simp only [perform, Work.run_bind, hprepare]
          rfl
      | ok e =>
          obtain ⟨stream, hopen, hfile, hopened⟩ :=
            Epoch.openStream_of_isFile (hresult.isFile h.holds.fresh)
          have hwork : StateT.run e.openStream.run middle = (.ok stream, middle) := hopen
          have hthere : stream.HasFile middle.disk := by
            intro _
            rw [hfile]
            exact hresult.isFile h.holds.fresh
          have hkeeps : w.disk.Keeps (stream.drain.run middle).2.disk := by
            rw [BatchStream.disk_drain hthere, BatchStream.released, hopened, hfile]
            exact hresult.erase h.holds.fresh
          refine ⟨.passed e (stream.drain.run middle).1, { session with corpus },
            (stream.drain.run middle).2, ?_, h.of_keeps hsettings hkeeps, rfl,
            fun _ hfailed => by cases hfailed⟩
          simp only [perform, Work.run_bind, hprepare, hwork]
          rfl

/-- **Every operation settles.** -/
theorem settled (h : Accounts base place session w.disk) (operation : Operation) :
    Settled base place session operation w := by
  cases operation with
  | prepare name epoch => exact h.settled_prepare name epoch
  | openHeld name => exact h.settled_openHeld name
  | iterate name => exact h.settled_iterate name
  | next name => exact h.settled_next name
  | drain name => exact h.settled_drain name
  | drop name => exact h.settled_drop name
  | pass epoch => exact h.settled_pass epoch

/-! ### Any number of operations -/

/-- **Every run of operations settles.** -/
theorem performAll (operations : List Operation) :
    ∀ {session : Session σ} {w : Workspace}, Accounts base place session w.disk →
      ∃ outcomes next after, (session.performAll operations).run w = ((outcomes, next), after) ∧
        Accounts base place next after.disk ∧
        next.alive = Operation.aliveAfterAll session.alive operations outcomes := by
  induction operations with
  | nil =>
      intro session w h
      exact ⟨[], session, w, rfl, h, rfl⟩
  | cons operation rest ih =>
      intro session w h
      obtain ⟨outcome, middle, between, hfirst, hsettles⟩ := h.settled operation
      obtain ⟨outcomes, next, after, hrest, haccounts, halive⟩ := ih hsettles.accounts
      refine ⟨outcome :: outcomes, next, after, ?_, haccounts, ?_⟩
      · simp only [Session.performAll, Work.run_bind, hfirst, hrest]
        rfl
      · rw [halive, hsettles.alive]
        rfl

end Accounts

/-- **Every temporary file belongs to something that is alive.**  Let a session account for the
disk, as one does that holds nothing yet, and let any operations be carried out, whatever they
come to.  Behind the entries of the base there are epoch files only, in the temporary folder,
and there are as many as, by the outcomes, epochs are alive that have not been opened and
streams that have not ended, have not failed and have not been dropped.  A preparation that
fails leaves the entries exactly as they were; and so does a packing that fails, of whatever
index, except that the blob is gone. -/
theorem every_file_belongs_to_something_alive (h : Accounts base place session w.disk)
    (operations : List Operation) :
    ∃ outcomes next after owned,
      (session.performAll operations).run w = ((outcomes, next), after) ∧
      after.disk.entries = base.entries ++ owned ∧
      (∀ entry ∈ owned, ∃ serial bytes,
        entry = (place ++ [.drawn serial Epoch.ending], .file bytes)) ∧
      owned.length = (Operation.aliveAfterAll session.alive operations outcomes).length ∧
      after.disk.count place = base.count place
        + (Operation.aliveAfterAll session.alive operations outcomes).length ∧
      (∀ operation fault later last, operation.preparesEpoch = true →
        (next.perform operation).run after = ((.failed fault, later), last) →
        last.disk.entries = after.disk.entries) ∧
      ∀ {σ : Type} (budget : Nat) (dice : Dice σ) (s : σ) (built : BuiltIndex) (fault : Fault)
        (last : Workspace),
        (Epoch.pack budget dice s built next.corpus.settings.tempDir).run after
          = (.error fault, last) →
        last.disk.entries = after.disk.entries.filter (·.1 ≠ built.blob.file.location) := by
  obtain ⟨outcomes, next, after, hrun, haccounts, halive⟩ := Accounts.performAll operations h
  obtain ⟨owned, hentries, hperm, hmade⟩ := haccounts.holds.entries
  refine ⟨outcomes, next, after, owned, hrun, hentries, hmade, ?_, ?_, ?_, ?_⟩
  · rw [← halive, length_alive, ← hperm.length_eq, List.length_map]
  · rw [← halive, length_alive, haccounts.holds.count_eq]
  · intro operation fault later last hprepares hfailed
    obtain ⟨outcome, found, left, hperform, hsettles⟩ := haccounts.settled operation
    rw [hfailed] at hperform
    cases hperform
    exact (hsettles.failed fault rfl hprepares).entries
  · intro σ budget dice s built fault last hpack
    exact (Epoch.pack_keeps_or_gains hpack haccounts.holds.fresh haccounts.folderAlong).entries

end accounts

/-- The two files, with nothing held, account for their disk. -/
theorem accounts_ofTwoFiles :
    Accounts Build.twoFiles [.given "tmp"] ⟨Corpus.ofTwoFiles, []⟩ Build.twoFiles := by
  refine Accounts.start ?_ (by cbv)
  intro entry hentry serial ending hlast
  simp only [Build.twoFiles, List.mem_cons, List.not_mem_nil, or_false] at hentry
  rcases hentry with rfl | rfl | rfl <;> cases hlast

/-- An epoch that was prepared and opened has left one file. -/
theorem one_file_for_one_stream :
    ∃ outcomes next after,
      (performAll ⟨Corpus.ofTwoFiles, []⟩ [.prepare "a" 3, .openHeld "a"]).run
          ⟨Build.twoFiles, #[]⟩ = ((outcomes, next), after) ∧
      after.disk.count [.given "tmp"] = 1 := by
  obtain ⟨index, built, hindex⟩ := Corpus.exists_index_ofTwoFiles 3
  obtain ⟨e, corpus, middle, hprepare⟩ :=
    Corpus.exists_prepare_ok hindex (by decide) rfl Corpus.fits_ofTwoFiles
  obtain ⟨batches, hserves⟩ := Corpus.serves_of_prepare_ok hprepare
  obtain ⟨stream, hopen, -⟩ := hserves.openStream
  have hwork : StateT.run e.openStream.run middle = (.ok stream, middle) := hopen
  obtain ⟨outcomes, next, after, owned, hrun, -, -, -, hcount, -⟩ :=
    every_file_belongs_to_something_alive (w := ⟨Build.twoFiles, #[]⟩) accounts_ofTwoFiles
      [.prepare "a" 3, .openHeld "a"]
  refine ⟨outcomes, next, after, hrun, ?_⟩
  have hfirst : ((⟨Corpus.ofTwoFiles, []⟩ : Session Keystream).perform (.prepare "a" 3)).run
      ⟨Build.twoFiles, #[]⟩ = ((.prepared e, ⟨corpus, [("a", .epoch e)]⟩), middle) := by
    simp only [perform, Work.run_bind, hprepare]
    rfl
  have hsecond :
      ((⟨corpus, [("a", .epoch e)]⟩ : Session Keystream).perform (.openHeld "a")).run middle
        = ((.opened stream.total, ⟨corpus, [("a", .stream stream)]⟩), middle) := by
    have hheld :
        (⟨corpus, [("a", .epoch e)]⟩ : Session Keystream).held? "a" = some (.epoch e) := rfl
    simp only [perform, hheld, Work.run_bind, hwork]
    rfl
  have houtcomes : outcomes = [.prepared e, .opened stream.total] := by
    simp only [performAll, Work.run_bind, hfirst, hsecond] at hrun
    exact (congrArg (·.1.1) hrun).symm
  rw [hcount, houtcomes]
  rfl

end Session

end Bitext
