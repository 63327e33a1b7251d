/-
Epochs are counted, and every epoch can be replayed.

Two things are carried from one call for an epoch to the next: the number of the next epoch,
which moves with every call for it and with no other, and whether the length distribution has
still to be shown, which the first build that succeeds uses up.  Neither has any influence on
the batches.  These are drawn from an index that depends on the files and the settings, by a
generator that depends on the sum of the base seed and the number of the epoch.

Calls are made at any time, so each of them finds a workspace of its own.  What is said about
two calls needs the same contents of their files and nothing else.
-/
import Bitext.Proofs.Log
import Bitext.Proofs.Packing.Bytes
import Bitext.Session

namespace Bitext

open Workspace (Adds)

/-! ### Calls for epochs -/

/-- A call for an epoch. -/
inductive Call where
  /-- For a stream over the next epoch. -/
  | iterate
  /-- For the epoch of a number. -/
  | prepare (epoch : Nat)
  deriving DecidableEq

namespace Call

/-- The epoch that is called for, when this many calls for the next epoch were made before. -/
def epoch (iterated : Nat) : Call → Nat
  | .iterate => iterated
  | .prepare epoch => epoch

/-- The number of calls for the next epoch. -/
def iterated (calls : List (Call × Workspace)) : Nat := calls.countP fun made => made.1 = .iterate

end Call

/-- Reads what is held to its end, an epoch after it was opened. -/
def Holding.readAll : Holding → Work (List (Except Fault Batch))
  | .epoch e => do
      match ← e.openStream.run with
      | .error fault => return [.error fault]
      | .ok s => s.drain
  | .stream s => s.drain

/-- An epoch that can be opened is read as its stream is. -/
theorem Holding.run_readAll_epoch {e : Epoch} {stream : BatchStream} {w : Workspace}
    (h : e.openStream.run w = (.ok stream, w)) :
    (Holding.epoch e).readAll.run w = stream.drain.run w := by
  have hwork : StateT.run e.openStream.run w = (.ok stream, w) := h
  simp only [readAll, Work.run_bind, hwork]

namespace Corpus

variable {σ : Type}

/-- Answers a call with something to read. -/
def answer (corpus : Corpus σ) : Call → Work (Except Fault Holding × Corpus σ)
  | .iterate => do
      let (result, corpus) ← corpus.iterate
      return (result.map .stream, corpus)
  | .prepare epoch => do
      let (result, corpus) ← corpus.prepare epoch
      return (result.map .epoch, corpus)

/-- Everything that a call yields, read to its end. -/
def serve (corpus : Corpus σ) (call : Call) : Work (Except Fault (List (Except Fault Batch))) := do
  match (← corpus.answer call).1 with
  | .error fault => return .error fault
  | .ok holding => return .ok (← holding.readAll)

/-- The corpus after calls, each of them made in its own workspace. -/
def afterAll (corpus : Corpus σ) : List (Call × Workspace) → Corpus σ
  | [] => corpus
  | (call, w) :: rest => ((corpus.answer call).run w).1.2.afterAll rest

/-- What calls add to their logs, in order. -/
def reported (corpus : Corpus σ) : List (Call × Workspace) → List Event
  | [] => []
  | (call, w) :: rest =>
      ((corpus.answer call).run w).2.log.toList.drop w.log.size
        ++ ((corpus.answer call).run w).1.2.reported rest

variable {corpus other next : Corpus σ} {call copy : Call} {epoch : Nat} {w v after : Workspace}
  {e : Epoch} {fault : Fault} {results : List (Except Fault Batch)}

theorem run_answer_prepare {result : Except Fault Epoch}
    (h : (corpus.prepare epoch).run w = ((result, next), after)) :
    (corpus.answer (.prepare epoch)).run w = ((result.map .epoch, next), after) := by
  simp only [answer, Work.run_bind, h]
  rfl

theorem run_answer_iterate {result : Except Fault BatchStream}
    (h : corpus.iterate.run w = ((result, next), after)) :
    (corpus.answer .iterate).run w = ((result.map .stream, next), after) := by
  simp only [answer, Work.run_bind, h]
  rfl

theorem run_serve_of_ok {holding : Holding}
    (h : (corpus.answer call).run w = ((.ok holding, next), after)) :
    (corpus.serve call).run w
      = (.ok (holding.readAll.run after).1, (holding.readAll.run after).2) := by
  simp only [serve, Work.run_bind, h]
  rfl

theorem run_serve_of_error (h : (corpus.answer call).run w = ((.error fault, next), after)) :
    (corpus.serve call).run w = (.error fault, after) := by
  simp only [serve, Work.run_bind, h]
  rfl

/-! ### What a call leaves of the corpus and adds to the log -/

/-- The length distribution that a call shows. -/
def shown (corpus : Corpus σ) (w : Workspace) : List Event :=
  if corpus.showLengths then
    Tally.distribution? corpus.settings (Build.tally? corpus.settings corpus.files w)
  else []

/-- The corpus after an epoch was prepared or not. -/
def prepared (corpus : Corpus σ) (w : Workspace) : Corpus σ :=
  { corpus with
    showLengths :=
      corpus.showLengths && (Build.tally? corpus.settings corpus.files w).isNone }

theorem tally?_begun (corpus : Corpus σ) (epoch : Nat) (w : Workspace) :
    Build.tally? corpus.settings corpus.files w
      = Build.tally? corpus.settings corpus.files (begun epoch w) :=
  Build.tally?_eq_of_disk rfl

theorem adds_begun (epoch : Nat) (w : Workspace) : w.Adds (begun epoch w) [.preparingEpoch epoch] :=
  Array.toList_push

/-- **Preparing an epoch reports its number first, and uses up the length distribution when its
index could be built.** -/
theorem run_prepare (corpus : Corpus σ) (epoch : Nat) (w : Workspace) :
    ∃ result after, (corpus.prepare epoch).run w = ((result, corpus.prepared w), after) ∧
      ∃ events, w.Adds after (.preparingEpoch epoch :: events) ∧
        Event.lengths events = corpus.shown w := by
  cases hindex : (Build.index corpus.settings corpus.files).run (begun epoch w) with
  | mk result built =>
      obtain ⟨first, hbuilt, hquiet⟩ := (Build.quiet_index _ _).of_run hindex
      have hread := (adds_begun epoch w).trans hbuilt
      cases result with
      | error fault =>
          have hnone := (corpus.tally?_begun epoch w).trans (Build.tally?_of_index_error hindex)
          refine ⟨.error fault, built, ?_, first, hread, ?_⟩
          · rw [run_prepare_of_error hindex, prepared, hnone, Option.isNone_none, Bool.and_true]
          · rw [hquiet, shown, hnone, Tally.distribution?, ite_self]
      | ok index =>
          have hsome := (corpus.tally?_begun epoch w).trans (Build.tally?_of_index_ok hindex)
          cases hpack : (Epoch.pack corpus.settings.tokenBudget corpus.generator.dice
              (corpus.generator.ofEpoch corpus.baseSeed epoch) index corpus.settings.tempDir).run
              (corpus.summed index built) with
          | mk packed after =>
              obtain ⟨last, hpacked, hrest⟩ := (Epoch.quiet_pack _ _ _ _ _).of_run hpack
              have hsummed : built.Adds (corpus.summed index built)
                  (index.tally.summary corpus.settings corpus.showLengths) :=
                Array.toList_appendList
              refine ⟨packed, after, ?_,
                first ++ index.tally.summary corpus.settings corpus.showLengths ++ last, ?_, ?_⟩
              · rw [run_prepare_of_ok hindex, hpack, prepared, hsome, Option.isNone_some,
                  Bool.and_false]
              · exact (hread.trans hsummed).trans hpacked
              · rw [Event.lengths_append, Event.lengths_append, hquiet, hrest,
                  Tally.lengths_summary, shown, hsome, Tally.distribution?, List.nil_append,
                  List.append_nil]

/-- The corpus after a call. -/
def called (corpus : Corpus σ) (call : Call) (w : Workspace) : Corpus σ :=
  { corpus.prepared w with
    nextEpoch := corpus.nextEpoch + (if call = .iterate then 1 else 0) }

/-- **A call reports its epoch first; a call for the next epoch moves its number, whatever
becomes of the call, and no other call does.** -/
theorem run_answer (corpus : Corpus σ) (call : Call) (w : Workspace) :
    ∃ result after, (corpus.answer call).run w = ((result, corpus.called call w), after) ∧
      ∃ events, w.Adds after (.preparingEpoch (call.epoch corpus.nextEpoch) :: events) ∧
        Event.lengths events = corpus.shown w := by
  obtain ⟨result, after, hprepare, hadds⟩ := corpus.run_prepare (call.epoch corpus.nextEpoch) w
  cases call with
  | prepare epoch => exact ⟨_, after, run_answer_prepare hprepare, hadds⟩
  | iterate =>
      cases result with
      | error fault =>
          exact ⟨_, after, run_answer_iterate (run_iterate_of_error hprepare), hadds⟩
      | ok e =>
          obtain ⟨stream, -, hiterate⟩ := run_iterate_of_ok hprepare
          exact ⟨_, after, run_answer_iterate hiterate, hadds⟩

/-- **What calls leave of a corpus.** -/
theorem afterAll_eq (calls : List (Call × Workspace)) :
    ∀ corpus : Corpus σ, corpus.afterAll calls
      = { corpus with
          nextEpoch := corpus.nextEpoch + Call.iterated calls
          showLengths := corpus.showLengths && calls.all fun made =>
            (Build.tally? corpus.settings corpus.files made.2).isNone } := by
  induction calls with
  | nil =>
      intro corpus
      rw [afterAll, Call.iterated, List.countP_nil, List.all_nil, Bool.and_true]
      rfl
  | cons made rest ih =>
      intro corpus
      obtain ⟨call, w⟩ := made
      obtain ⟨result, after, hrun, -⟩ := corpus.run_answer call w
      have hcount : Call.iterated ((call, w) :: rest)
          = (if call = .iterate then 1 else 0) + Call.iterated rest := by
        rw [Call.iterated, Call.iterated, List.countP_cons, Nat.add_comm]
        by_cases hcall : call = .iterate
        · simp [hcall]
        · simp [hcall]
      rw [afterAll, hrun, ih, called, prepared, hcount, List.all_cons]
      simp only [Nat.add_assoc, Bool.and_assoc]

/-- **Calls show the length distribution once, with the first of them whose index could be
built, if it has still to be shown.** -/
theorem lengths_reported (calls : List (Call × Workspace)) :
    ∀ corpus : Corpus σ, Event.lengths (corpus.reported calls)
      = if corpus.showLengths then
          Tally.distribution? corpus.settings
            (calls.findSome? fun made => Build.tally? corpus.settings corpus.files made.2)
        else [] := by
  induction calls with
  | nil =>
      intro corpus
      rw [reported, List.findSome?_nil, Tally.distribution?, ite_self]
      rfl
  | cons made rest ih =>
      intro corpus
      obtain ⟨call, w⟩ := made
      obtain ⟨result, after, hrun, events, hadds, hlengths⟩ := corpus.run_answer call w
      have hnew : after.log.toList.drop w.log.size
          = .preparingEpoch (call.epoch corpus.nextEpoch) :: events := by
        rw [hadds]
        exact List.drop_left
      have hfirst : Event.lengths (.preparingEpoch (call.epoch corpus.nextEpoch) :: events)
          = corpus.shown w := hlengths
      rw [reported, hrun, hnew, Event.lengths_append, hfirst, ih, shown, called, prepared]
      cases htally : Build.tally? corpus.settings corpus.files w with
      | none =>
          rw [List.findSome?_cons_of_isNone (by simp [htally]), Option.isNone_none, Bool.and_true,
            Tally.distribution?, ite_self, List.nil_append]
      | some tally =>
          rw [List.findSome?_cons_of_isSome (by simp [htally]), htally, Option.isNone_some,
            Bool.and_false]
          -- nothing is left to be shown by the calls behind
          exact List.append_nil _

/-! ### What a call yields -/

/-- **The next epoch is what preparing its number gives**, with the number in its faults. -/
theorem run_serve_iterate (corpus : Corpus σ) (w : Workspace) :
    (corpus.serve .iterate).run w
      = (within (.preparingEpoch corpus.nextEpoch)
            ((corpus.serve (.prepare corpus.nextEpoch)).run w).1,
          ((corpus.serve (.prepare corpus.nextEpoch)).run w).2) := by
  cases hprepare : (corpus.prepare corpus.nextEpoch).run w with
  | mk prepared after =>
      obtain ⟨result, next⟩ := prepared
      have hanswer := run_answer_prepare hprepare
      cases result with
      | error fault =>
          have hiterate := run_answer_iterate (run_iterate_of_error hprepare)
          rw [run_serve_of_error hanswer, run_serve_of_error hiterate]
          rfl
      | ok e =>
          obtain ⟨stream, hopen, hrun⟩ := run_iterate_of_ok hprepare
          have hiterate := run_answer_iterate hrun
          rw [run_serve_of_ok hanswer, run_serve_of_ok hiterate, Holding.run_readAll_epoch hopen]
          rfl

/-- A call whose epoch can be prepared yields the batches of its packing, and then ends. -/
theorem serve_of_prepare_ok
    (h : (corpus.prepare (call.epoch corpus.nextEpoch)).run w = ((.ok e, next), after)) :
    ∃ index built,
      (Build.index corpus.settings corpus.files).run (begun (call.epoch corpus.nextEpoch) w)
        = (.ok index, built) ∧
      (corpus.packing (call.epoch corpus.nextEpoch) index).fault = none ∧
      ((corpus.serve call).run w).1
        = .ok ((corpus.packing (call.epoch corpus.nextEpoch) index).batches.map (.ok ·.batch)) := by
  obtain ⟨index, built, hindex, hfault, hserves⟩ := serves_packing_of_prepare_ok h
  obtain ⟨stream, hopen, hahead, -⟩ := hserves.openStream
  have hserve : ((corpus.serve (.prepare (call.epoch corpus.nextEpoch))).run w).1
      = .ok ((corpus.packing (call.epoch corpus.nextEpoch) index).batches.map (.ok ·.batch)) := by
    rw [run_serve_of_ok (run_answer_prepare h), Holding.run_readAll_epoch hopen,
      hahead.drain after]
  refine ⟨index, built, hindex, hfault, ?_⟩
  cases call with
  | prepare epoch => exact hserve
  | iterate =>
      rw [run_serve_iterate]
      exact congrArg (within _) hserve

/-- A call whose epoch cannot be prepared fails. -/
theorem serve_of_prepare_error
    (h : (corpus.prepare (call.epoch corpus.nextEpoch)).run w = ((.error fault, next), after)) :
    ∃ reported, ((corpus.serve call).run w).1 = .error reported := by
  have hserve := run_serve_of_error (run_answer_prepare h)
  cases call with
  | prepare epoch => exact ⟨fault, congrArg Prod.fst hserve⟩
  | iterate =>
      rw [run_serve_iterate]
      exact ⟨_, congrArg (within _ ·.1) hserve⟩

/-- A call that yields something could prepare its epoch. -/
theorem exists_prepare_of_serve_ok (h : ((corpus.serve call).run w).1 = .ok results) :
    ∃ e next after,
      (corpus.prepare (call.epoch corpus.nextEpoch)).run w = ((.ok e, next), after) := by
  cases hprepare : (corpus.prepare (call.epoch corpus.nextEpoch)).run w with
  | mk prepared after =>
      obtain ⟨result, next⟩ := prepared
      cases result with
      | error fault =>
          obtain ⟨reported, hserve⟩ := serve_of_prepare_error hprepare
          rw [hserve] at h
          cases h
      | ok e => exact ⟨e, next, after, rfl⟩

/-- What a call yields was packed from an index that could be built. -/
theorem of_serve_ok (h : ((corpus.serve call).run w).1 = .ok results) :
    ∃ index built,
      (Build.index corpus.settings corpus.files).run (begun (call.epoch corpus.nextEpoch) w)
        = (.ok index, built) ∧
      (corpus.packing (call.epoch corpus.nextEpoch) index).fault = none ∧
      results
        = (corpus.packing (call.epoch corpus.nextEpoch) index).batches.map (.ok ·.batch) := by
  obtain ⟨e, next, after, hprepare⟩ := exists_prepare_of_serve_ok h
  obtain ⟨index, built, hindex, hfault, hserve⟩ := serve_of_prepare_ok hprepare
  rw [hserve] at h
  exact ⟨index, built, hindex, hfault, (Except.ok.inj h).symm⟩

end Corpus

/-! ### Two calls -/

/-- Two temporary files can be made in a folder one after the other, for a blob and for an
epoch. -/
def Disk.HasRoom (disk : Disk) (folder : Path) : Prop :=
  ∃ blob between epoch after,
    disk.createTemporary folder BlobWriter.ending = (.ok blob, between) ∧
    between.createTemporary folder Epoch.ending = (.ok epoch, after)

/-- There is room when the folder is there and the paths of both files can be used, unless one
of the requests is refused. -/
theorem Disk.hasRoom_iff {disk : Disk} {folder : Path} :
    disk.HasRoom folder ↔
      (folder.temporary BlobWriter.ending).defect? = none ∧
      (folder.temporary Epoch.ending).defect? = none ∧
      (∃ place, disk.folderAlong folder.steps = .ok place) ∧
      disk.refuses disk.drawn = false ∧ disk.refuses (disk.drawn + 1) = false := by
  constructor
  · rintro ⟨blob, between, epoch, after, hblob, hepoch⟩
    obtain ⟨hpath, hfolder, hgranted⟩ := createTemporary_ok_iff.mp ⟨blob, between, hblob⟩
    obtain ⟨hsecond, -, hagain⟩ := createTemporary_ok_iff.mp ⟨epoch, after, hepoch⟩
    obtain ⟨hdrawn, hrefuses⟩ := drawn_of_createTemporary hblob
    rw [hdrawn, hrefuses] at hagain
    exact ⟨hpath, hsecond, hfolder, hgranted, hagain⟩
  · rintro ⟨hpath, hsecond, ⟨place, hplace⟩, hgranted, hagain⟩
    obtain ⟨blob, between, hblob⟩ := createTemporary_ok_iff.mpr ⟨hpath, ⟨place, hplace⟩, hgranted⟩
    obtain ⟨hdrawn, hrefuses⟩ := drawn_of_createTemporary hblob
    have hfolder : between.folderAlong folder.steps = .ok place := by
      rw [folderAlong_eq (agreesOnGiven_of_createTemporary hblob), hplace]
    rw [← hdrawn, ← hrefuses] at hagain
    obtain ⟨epoch, after, hepoch⟩ :=
      createTemporary_ok_iff.mpr ⟨hsecond, ⟨place, hfolder⟩, hagain⟩
    exact ⟨blob, between, epoch, after, hblob, hepoch⟩

namespace Corpus

section

variable {σ : Type} {corpus other : Corpus σ} {call copy : Call} {epoch number : Nat}
  {w v : Workspace} {index twin : BuiltIndex} {built last : Workspace}
  {results copies : List (Except Fault Batch)}

/-- What two corpora need to have in common for their epochs to be alike: they admit the same pairs,
and the files of the second end cleanly when those of the first do. -/
structure Alike (corpus : Corpus σ) (disk : Disk) (other : Corpus σ) (beside : Disk) : Prop where
  tokenBudget : corpus.settings.tokenBudget = other.settings.tokenBudget
  admitted : Build.admitted corpus.settings disk corpus.files.pairs
    = Build.admitted other.settings beside other.files.pairs
  endsCleanly : (∀ pair ∈ corpus.files.pairs, pair.EndsCleanly disk) →
    ∀ pair ∈ other.files.pairs, pair.EndsCleanly beside

/-- The corpora have the same settings but for their seeds. -/
def SameSettings (corpus other : Corpus σ) : Prop :=
  { corpus.settings with seed := none } = { other.settings with seed := none }

theorem SameSettings.tokenBudget (h : corpus.SameSettings other) :
    corpus.settings.tokenBudget = other.settings.tokenBudget := by
  have hbudget := congrArg Settings.tokenBudget h
  exact hbudget

/-- Corpora with the same settings over files of the same contents are alike. -/
theorem SameSettings.alike (hsettings : corpus.SameSettings other)
    (hfiles : corpus.files.contents w.disk = other.files.contents v.disk) :
    corpus.Alike w.disk other v.disk where
  tokenBudget := hsettings.tokenBudget
  admitted := Build.admitted_eq_of_contents hsettings hfiles
  endsCleanly := FileSet.endsCleanly_of_contents hfiles

/-- The same generator is drawn from in both epochs. -/
def SameSeed (corpus : Corpus σ) (epoch : Nat) (other : Corpus σ) (number : Nat) : Prop :=
  corpus.generator = other.generator ∧
    (corpus.baseSeed + epoch) % 2 ^ 64 = (other.baseSeed + number) % 2 ^ 64

/-- The index of the second corpus can be built when that of the first one can, wherever the blob's
file can be made. -/
theorem Alike.exists_index (halike : corpus.Alike w.disk other v.disk)
    (hindex : (Build.index corpus.settings corpus.files).run (begun epoch w) = (.ok index, built))
    (number : Nat) (hcreate : ∃ file disk,
      v.disk.createTemporary other.settings.tempDir BlobWriter.ending = (.ok file, disk)) :
    ∃ twin last,
      (Build.index other.settings other.files).run (begun number v) = (.ok twin, last) := by
  obtain ⟨-, hclean, hfits⟩ := Build.index_ok_iff.mp ⟨index, built, hindex⟩
  refine Build.index_ok_iff.mpr ⟨hcreate, halike.endsCleanly hclean, fun p hp => ?_⟩
  refine hfits p ?_
  have hsame : Build.admitted corpus.settings (begun epoch w).disk corpus.files.pairs
      = Build.admitted other.settings (begun number v).disk other.files.pairs := halike.admitted
  rw [hsame]
  exact hp

/-- **Indexes of corpora that are alike are packed alike by the same generator.** -/
theorem Alike.packing_eq (halike : corpus.Alike w.disk other v.disk)
    (hseed : corpus.SameSeed epoch other number)
    (hindex : (Build.index corpus.settings corpus.files).run (begun epoch w) = (.ok index, built))
    (htwin : (Build.index other.settings other.files).run (begun number v) = (.ok twin, last)) :
    corpus.packing epoch index = other.packing number twin := by
  have hadmitted : Build.admitted corpus.settings (begun epoch w).disk corpus.files.pairs
      = Build.admitted other.settings (begun number v).disk other.files.pairs := halike.admitted
  have hmade := (Build.madeOf_admitted_of_index_ok hindex).1
  rw [hadmitted] at hmade
  obtain ⟨hsame, hbytes⟩ := hmade.same (Build.madeOf_admitted_of_index_ok htwin).1
  obtain ⟨hgenerator, hsum⟩ := hseed
  rw [packing, packing, halike.tokenBudget, hgenerator, hsame, Generator.ofEpoch_congr _ hsum]
  exact Packing.all_congr other.generator.dice hbytes twin.index _

/-- Two calls for epochs of the same generator yield the same, if both of them yield something. -/
theorem Alike.serve_unique (halike : corpus.Alike w.disk other v.disk)
    (hseed : corpus.SameSeed (call.epoch corpus.nextEpoch) other (copy.epoch other.nextEpoch))
    (h : ((corpus.serve call).run w).1 = .ok results)
    (hcopy : ((other.serve copy).run v).1 = .ok copies) : copies = results := by
  obtain ⟨index, built, hindex, -, rfl⟩ := of_serve_ok h
  obtain ⟨twin, last, htwin, -, rfl⟩ := of_serve_ok hcopy
  rw [halike.packing_eq hseed hindex htwin]

/-- A call that yields something is replayed wherever there is room. -/
theorem Alike.serve_replayed (halike : corpus.Alike w.disk other v.disk)
    (hseed : corpus.SameSeed (call.epoch corpus.nextEpoch) other (copy.epoch other.nextEpoch))
    (h : ((corpus.serve call).run w).1 = .ok results)
    (hroom : v.disk.HasRoom other.settings.tempDir) :
    ((other.serve copy).run v).1 = .ok results := by
  obtain ⟨index, built, hindex, hfault, rfl⟩ := of_serve_ok h
  obtain ⟨-, hpath, -, -, hgranted⟩ := Disk.hasRoom_iff.mp hroom
  obtain ⟨blob, between, -, -, hcreate, -⟩ := hroom
  obtain ⟨twin, last, htwin⟩ :=
    halike.exists_index hindex (copy.epoch other.nextEpoch) ⟨blob, between, hcreate⟩
  have hpacking := halike.packing_eq hseed hindex htwin
  rw [hpacking] at hfault ⊢
  obtain ⟨e, next, after, hprepare⟩ :=
    exists_prepare_ok_of_packing htwin hpath hgranted hfault
  obtain ⟨found, left, hfound, -, hserve⟩ := serve_of_prepare_ok hprepare
  rw [htwin] at hfound
  cases hfound
  exact hserve

/-- **Two calls for epochs of the same generator yield the same**, if both of them yield
something. -/
theorem serve_unique (hsettings : corpus.SameSettings other)
    (hfiles : corpus.files.contents w.disk = other.files.contents v.disk)
    (hseed : corpus.SameSeed (call.epoch corpus.nextEpoch) other (copy.epoch other.nextEpoch))
    (h : ((corpus.serve call).run w).1 = .ok results)
    (hcopy : ((other.serve copy).run v).1 = .ok copies) : copies = results :=
  (hsettings.alike hfiles).serve_unique hseed h hcopy

/-- **A call that yields something is replayed** wherever there is room. -/
theorem serve_replayed (hsettings : corpus.SameSettings other)
    (hfiles : corpus.files.contents w.disk = other.files.contents v.disk)
    (hseed : corpus.SameSeed (call.epoch corpus.nextEpoch) other (copy.epoch other.nextEpoch))
    (h : ((corpus.serve call).run w).1 = .ok results)
    (hroom : v.disk.HasRoom other.settings.tempDir) :
    ((other.serve copy).run v).1 = .ok results :=
  (hsettings.alike hfiles).serve_replayed hseed h hroom

/-- A call that yields something had room for its files. -/
theorem hasRoom_of_serve_ok (h : ((corpus.serve call).run w).1 = .ok results) :
    w.disk.HasRoom corpus.settings.tempDir := by
  obtain ⟨e, next, after, hprepare⟩ := exists_prepare_of_serve_ok h
  obtain ⟨index, built, hindex⟩ := exists_built_of_prepare_ok hprepare
  obtain ⟨blob, between, full, hcreate, -, -, -, hafter⟩ := Build.exists_of_index_ok hindex
  rw [run_prepare_of_ok hindex] at hprepare
  cases hpack : (Epoch.pack corpus.settings.tokenBudget corpus.generator.dice
      (corpus.generator.ofEpoch corpus.baseSeed (call.epoch corpus.nextEpoch)) index
      corpus.settings.tempDir).run (corpus.summed index built) with
  | mk result packed =>
      rw [hpack] at hprepare
      cases hprepare
      obtain ⟨hepoch, -⟩ := Epoch.of_pack_ok hpack
      obtain ⟨hpath, ⟨place, hplace⟩, hgranted⟩ := Disk.createTemporary_ok_iff.mp hepoch
      have hdisk : (corpus.summed index built).disk
          = between.put blob.location (.file full.writer.bytes) := hafter
      rw [hdisk] at hplace hgranted
      -- between the two requests only the blob was written, which is in nobody's way
      obtain ⟨hdrawn, -, -⟩ := Disk.of_createTemporary_ok hcreate
      rw [Disk.folderAlong_eq (Disk.agreesOnGiven_put between hdrawn _)] at hplace
      obtain ⟨file, disk, hsecond⟩ :=
        Disk.createTemporary_ok_iff.mpr ⟨hpath, ⟨place, hplace⟩, hgranted⟩
      exact ⟨blob, between, file, disk, hcreate, hsecond⟩

end

/-! ### Any calls -/

section

variable {σ : Type} {generator : Generator σ} {files : FileSet} {settings : Settings} {spare : Nat}
  {start started : Workspace} {corpus : Corpus σ}

/-- A corpus begins with the first epoch, and with its length distribution still to be shown if
it is wanted. -/
theorem eq_of_ofFiles_ok
    (h : (ofFiles generator files settings spare).run start = (.ok corpus, started)) :
    ∃ budgeted, corpus = {
      generator, files, settings, budgeted
      baseSeed := settings.seed.getD spare
      showLengths := settings.showLengths } := by
  simp only [ofFiles, Job.run_bind, Job.run_get] at h
  split at h
  · rw [Job.run_throw] at h
    cases h
  · rename_i hcheck
    cases h
    exact ⟨Settings.tokenBudget_pos_of_check hcheck, rfl⟩

theorem afterAll_of_ofFiles_ok
    (h : (ofFiles generator files settings spare).run start = (.ok corpus, started))
    (calls : List (Call × Workspace)) :
    ∃ budgeted, corpus.afterAll calls = {
      generator, files, settings, budgeted
      baseSeed := settings.seed.getD spare
      nextEpoch := Call.iterated calls
      showLengths := settings.showLengths && calls.all fun made =>
        (Build.tally? settings files made.2).isNone } := by
  obtain ⟨budgeted, rfl⟩ := eq_of_ofFiles_ok h
  rw [afterAll_eq, Nat.zero_add]
  exact ⟨budgeted, rfl⟩

/-- **Epochs are counted, and every epoch can be replayed.**  Let any calls be made on a corpus,
each of them in whatever workspace it finds.  The number of the next epoch is the number of
calls for it, failed ones included, and a call reports its epoch before anything else.  What
comes next is what preparing that number gives, in the same workspace, with the number in its
faults.

Whatever a call yields is batches, and it can be had again.  Take any corpus with the same
generator, whatever that is, after any calls, with files of the same contents and the same settings
but for the seed, and a call on it for which base seed and epoch have the same sum modulo 2^64.  If
that call yields something, it yields the same; and it does so wherever there is room for its files.

The length distribution is shown by a call if it is wanted and the index of this call can be
built and that of no call before it could.  So over all calls it is shown once at most, by the
first whose index could be built. -/
theorem epochs_are_counted_and_replayed
    (hcorpus : (ofFiles generator files settings spare).run start = (.ok corpus, started))
    (calls : List (Call × Workspace)) :
    (corpus.afterAll calls).nextEpoch = Call.iterated calls ∧
    (∀ call w, ∃ events,
      w.Adds (((corpus.afterAll calls).answer call).run w).2
        (.preparingEpoch (call.epoch (Call.iterated calls)) :: events) ∧
      Event.lengths events
        = if settings.showLengths && calls.all fun made =>
              (Build.tally? settings files made.2).isNone then
            Tally.distribution? settings (Build.tally? settings files w)
          else []) ∧
    (∀ w, ((corpus.afterAll calls).serve .iterate).run w
      = (within (.preparingEpoch (Call.iterated calls))
            (((corpus.afterAll calls).serve (.prepare (Call.iterated calls))).run w).1,
          (((corpus.afterAll calls).serve (.prepare (Call.iterated calls))).run w).2)) ∧
    (∀ {copies : FileSet} {others : Settings} {extra : Nat} {before ready : Workspace}
      {other : Corpus σ} (later : List (Call × Workspace)) (call copy : Call) (w v : Workspace)
      (results : List (Except Fault Batch)),
      (ofFiles generator copies others extra).run before = (.ok other, ready) →
      { settings with seed := none } = { others with seed := none } →
      files.contents w.disk = copies.contents v.disk →
      (settings.seed.getD spare + call.epoch (Call.iterated calls)) % 2 ^ 64
        = (others.seed.getD extra + copy.epoch (Call.iterated later)) % 2 ^ 64 →
      (((corpus.afterAll calls).serve call).run w).1 = .ok results →
      (∃ batches : List Batch, results = batches.map .ok) ∧
      (∀ found, (((other.afterAll later).serve copy).run v).1 = .ok found → found = results) ∧
      (v.disk.HasRoom others.tempDir →
        (((other.afterAll later).serve copy).run v).1 = .ok results)) ∧
    Event.lengths (corpus.reported calls)
      = if settings.showLengths then
          Tally.distribution? settings
            (calls.findSome? fun made => Build.tally? settings files made.2)
        else [] := by
  obtain ⟨budgeted, hafter⟩ := afterAll_of_ofFiles_ok hcorpus calls
  refine ⟨by rw [hafter], fun call w => ?_, fun w => ?_, ?_, ?_⟩
  · rw [hafter]
    obtain ⟨result, after, hrun, events, hadds, hlengths⟩ := run_answer _ call w
    rw [hrun]
    exact ⟨events, hadds, hlengths⟩
  · rw [hafter]
    exact run_serve_iterate _ w
  · intro copies others extra before ready other later call copy w v results hother hsettings hfiles
      hseed hserve
    obtain ⟨budgetedLater, hlater⟩ := afterAll_of_ofFiles_ok hother later
    have hsame : (corpus.afterAll calls).SameSettings (other.afterAll later) := by
      rw [SameSettings, hafter, hlater]
      exact hsettings
    have hcontents : (corpus.afterAll calls).files.contents w.disk
        = (other.afterAll later).files.contents v.disk := by
      rw [hafter, hlater]
      exact hfiles
    have hdrawn : (corpus.afterAll calls).SameSeed (call.epoch (corpus.afterAll calls).nextEpoch)
        (other.afterAll later) (copy.epoch (other.afterAll later).nextEpoch) := by
      rw [SameSeed, hafter, hlater]
      exact ⟨rfl, hseed⟩
    refine ⟨?_, fun found hfound => serve_unique hsame hcontents hdrawn hserve hfound,
      fun hroom => serve_replayed hsame hcontents hdrawn hserve ?_⟩
    · obtain ⟨index, built, -, -, rfl⟩ := of_serve_ok hserve
      exact ⟨_, (List.map_map ..).symm⟩
    · rw [hlater]
      exact hroom
  · obtain ⟨budgeted, rfl⟩ := eq_of_ofFiles_ok hcorpus
    exact lengths_reported calls _

end

theorem hasRoom_twoFiles : Build.twoFiles.HasRoom Build.twoAtOnce.tempDir :=
  Disk.hasRoom_iff.mpr ⟨by decide, by decide, ⟨[.given "tmp"], by cbv⟩, rfl, rfl⟩

/-- A call that found nothing on the disk has counted, so the next one is for the second epoch;
it yields what preparing this epoch yields, and what another seed yields an epoch later. -/
theorem second_epoch_is_replayed :
    ∃ corpus other started ready results,
      (ofFiles Keystream.generator ofTwoFiles.files ofTwoFiles.settings 7).run ⟨Build.twoFiles, #[]⟩
        = (.ok corpus, started) ∧
      (ofFiles Keystream.generator ofTwoFiles.files ofTwoFiles.settings 6).run ⟨Build.twoFiles, #[]⟩
        = (.ok other, ready) ∧
      (corpus.afterAll [(.iterate, {}), (.prepare 5, {})]).nextEpoch = 1 ∧
      ((corpus.serve (.prepare 1)).run ⟨Build.twoFiles, #[]⟩).1 = .ok results ∧
      (((corpus.afterAll [(.iterate, {}), (.prepare 5, {})]).serve .iterate).run
        ⟨Build.twoFiles, #[]⟩).1 = .ok results ∧
      ((other.serve (.prepare 2)).run ⟨Build.twoFiles, #[]⟩).1 = .ok results := by
  have hcorpus :
      (ofFiles Keystream.generator ofTwoFiles.files ofTwoFiles.settings 7).run
          ⟨Build.twoFiles, #[]⟩
        = (.ok ofTwoFiles, _) := rfl
  have hother :
      (ofFiles Keystream.generator ofTwoFiles.files ofTwoFiles.settings 6).run
          ⟨Build.twoFiles, #[]⟩
        = (.ok { ofTwoFiles with baseSeed := 6 }, _) := rfl
  obtain ⟨index, built, hindex⟩ := exists_index_ofTwoFiles 1
  obtain ⟨e, next, after, hprepare⟩ := exists_prepare_ok hindex (by decide) rfl fits_ofTwoFiles
  have hfirst : (ofTwoFiles.prepare ((Call.prepare 1).epoch ofTwoFiles.nextEpoch)).run
      ⟨Build.twoFiles, #[]⟩ = ((.ok e, next), after) := hprepare
  obtain ⟨found, left, -, -, hserve⟩ := serve_of_prepare_ok hfirst
  obtain ⟨hnext, -⟩ :=
    epochs_are_counted_and_replayed hcorpus [(.iterate, {}), (.prepare 5, {})]
  obtain ⟨-, -, -, hreplayed, -⟩ := epochs_are_counted_and_replayed hcorpus []
  obtain ⟨-, -, hagain⟩ := hreplayed [(.iterate, {}), (.prepare 5, {})] (.prepare 1) .iterate
    ⟨Build.twoFiles, #[]⟩ ⟨Build.twoFiles, #[]⟩ _ hcorpus rfl rfl rfl hserve
  obtain ⟨-, -, helsewhere⟩ := hreplayed [] (.prepare 1) (.prepare 2)
    ⟨Build.twoFiles, #[]⟩ ⟨Build.twoFiles, #[]⟩ _ hother rfl rfl rfl hserve
  exact ⟨ofTwoFiles, { ofTwoFiles with baseSeed := 6 }, _, _, _, hcorpus, hother, hnext, hserve,
    hagain hasRoom_twoFiles, helsewhere hasRoom_twoFiles⟩

end Corpus

end Bitext
