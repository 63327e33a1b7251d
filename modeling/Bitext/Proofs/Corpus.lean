/-
A pass over a corpus, from the files to the batches.

`kept` is what a pass is about: the line pairs that the files deliver, without those that
the overlong policy drops and with those that it clips.  An epoch that could be prepared
serves exactly these pairs, whatever was drawn, and so does every epoch whose index could be
built, if there is room for its file and its batches fit their records.

The token counts and keys that the packing goes by were found out when the pairs were
admitted, and the reader of a batch has only its text.  They agree, so what the packing
ensures about a batch can be seen from its text.
-/
import Bitext.Proofs.Epoch
import Bitext.Random.Keystream

namespace Bitext

/-- Lengths of one class lie above the class before it and not above its own end. -/
theorem mem_class_of_lengthClass {tokens width key : Nat} (hwidth : 0 < width)
    (h : lengthClass tokens width = key) :
    ((key : Int) - 1) * width < tokens ∧ tokens ≤ key * width := by
  have hmax : max width 1 = width := Nat.max_eq_left hwidth
  have hend := (lengthClass_le_iff tokens width key).mp (Nat.le_of_eq h)
  rw [hmax] at hend
  refine ⟨?_, hend⟩
  cases key with
  | zero =>
      show ((0 : Int) - 1) * width < tokens
      omega
  | succ before =>
      have habove : ¬lengthClass tokens width ≤ before := by omega
      rw [lengthClass_le_iff, hmax] at habove
      have habove : ((before * width : Nat) : Int) < tokens := by omega
      rw [Int.natCast_mul] at habove
      simpa using habove

namespace Corpus

open Packing

variable {σ : Type}

/-- What is kept of the line pairs that a corpus delivers. -/
def kept (corpus : Corpus σ) (disk : Disk) : List Pair :=
  Build.kept corpus.settings disk corpus.files.pairs

variable {corpus next : Corpus σ} {epoch : Nat} {w built after : Workspace} {e : Epoch}
  {index : BuiltIndex}

/-- The workspace in which the index of an epoch is built. -/
def begun (epoch : Nat) (w : Workspace) : Workspace :=
  { w with log := w.log.push (.preparingEpoch epoch) }

/-- The workspace in which a built index is packed. -/
def summed (corpus : Corpus σ) (index : BuiltIndex) (w : Workspace) : Workspace :=
  { w with log := w.log ++ index.tally.summary corpus.settings corpus.showLengths }

theorem run_prepare_of_ok (h : (Build.index corpus.settings corpus.files).run (begun epoch w)
      = (.ok index, built)) :
    (corpus.prepare epoch).run w
      = (match (Epoch.pack corpus.settings.tokenBudget corpus.generator.dice
            (corpus.generator.ofEpoch corpus.baseSeed epoch) index corpus.settings.tempDir).run
            (corpus.summed index built) with
        | (result, after) => ((result, { corpus with showLengths := false }), after)) := by
  have hwork : StateT.run (Build.index corpus.settings corpus.files).run (begun epoch w)
      = (.ok index, built) := h
  simp only [prepare, Work.run_bind, Workspace.run_report]
  rw [begun] at hwork
  simp only [hwork, Work.run_bind, Workspace.run_reportAll,
    Epoch.packWithin_of_pos corpus.budgeted]
  rfl

theorem run_prepare_of_error {fault : Fault}
    (h : (Build.index corpus.settings corpus.files).run (begun epoch w) = (.error fault, built)) :
    (corpus.prepare epoch).run w = ((.error fault, corpus), built) := by
  have hwork : StateT.run (Build.index corpus.settings corpus.files).run (begun epoch w)
      = (.error fault, built) := h
  rw [begun] at hwork
  simp only [prepare, Work.run_bind, Workspace.run_report, hwork]
  rfl

/-- An epoch that could be prepared has had its index built. -/
theorem exists_built_of_prepare_ok (h : (corpus.prepare epoch).run w = ((.ok e, next), after)) :
    ∃ index built, (Build.index corpus.settings corpus.files).run (begun epoch w)
      = (.ok index, built) := by
  cases hindex : (Build.index corpus.settings corpus.files).run (begun epoch w) with
  | mk result built =>
      cases result with
      | ok index => exact ⟨index, built, rfl⟩
      | error fault =>
          rw [run_prepare_of_error hindex] at h
          cases h

/-- The packing of an epoch: what is drawn from its index by its generator. -/
def packing (corpus : Corpus σ) (epoch : Nat) (index : BuiltIndex) : Packed :=
  all corpus.generator.dice index.blob corpus.settings.tokenBudget index.index
    (corpus.generator.ofEpoch corpus.baseSeed epoch)

/-- An epoch that could be prepared serves the packing of its index. -/
theorem serves_packing_of_prepare_ok (h : (corpus.prepare epoch).run w = ((.ok e, next), after)) :
    ∃ index built,
      (Build.index corpus.settings corpus.files).run (begun epoch w) = (.ok index, built) ∧
      (corpus.packing epoch index).fault = none ∧
      e.Serves corpus.settings after (corpus.kept w.disk) (corpus.packing epoch index).batches := by
  obtain ⟨index, built, hindex⟩ := exists_built_of_prepare_ok h
  obtain ⟨entries, hoffers, hkept⟩ := Build.of_index_ok hindex
  rw [run_prepare_of_ok hindex] at h
  cases hpack : (Epoch.pack corpus.settings.tokenBudget corpus.generator.dice
      (corpus.generator.ofEpoch corpus.baseSeed epoch) index corpus.settings.tempDir).run
      (corpus.summed index built) with
  | mk result packed =>
      rw [hpack] at h
      cases h
      obtain ⟨⟨file, disk, hcreate⟩, hfault⟩ := Epoch.of_pack_ok hpack
      obtain ⟨e', after', hrun, hserves⟩ := Epoch.exists_serves hoffers hcreate hfault
      rw [hpack] at hrun
      cases hrun
      rw [hkept] at hserves
      exact ⟨index, built, hindex, hfault, hserves⟩

/-- **An epoch serves what is kept of its corpus.** -/
theorem serves_of_prepare_ok (h : (corpus.prepare epoch).run w = ((.ok e, next), after)) :
    ∃ batches, e.Serves corpus.settings after (corpus.kept w.disk) batches := by
  obtain ⟨index, built, -, -, hserves⟩ := serves_packing_of_prepare_ok h
  exact ⟨_, hserves⟩

/-- An epoch can be prepared when its index can be built, its file can be made and its packing
goes through. -/
theorem exists_prepare_ok_of_packing
    (hindex : (Build.index corpus.settings corpus.files).run (begun epoch w) = (.ok index, built))
    (hpath : (corpus.settings.tempDir.temporary Epoch.ending).defect? = none)
    (hgranted : w.disk.refuses (w.disk.drawn + 1) = false)
    (hfault : (corpus.packing epoch index).fault = none) :
    ∃ e next after, (corpus.prepare epoch).run w = ((.ok e, next), after) := by
  obtain ⟨entries, hoffers, -⟩ := Build.of_index_ok hindex
  obtain ⟨file, disk, hcreate⟩ := Build.createTemporary_of_index_ok hindex hpath hgranted
  have hcreate : (corpus.summed index built).disk.createTemporary corpus.settings.tempDir
      Epoch.ending = (.ok file, disk) := hcreate
  obtain ⟨e, after, hrun, -⟩ := Epoch.exists_serves hoffers hcreate hfault
  refine ⟨e, { corpus with showLengths := false }, after, ?_⟩
  rw [run_prepare_of_ok hindex, hrun]

/-- An epoch can be prepared when its index can be built, its file can be made and its batches
fit their records. -/
theorem exists_prepare_ok
    (hindex : (Build.index corpus.settings corpus.files).run (begun epoch w) = (.ok index, built))
    (hpath : (corpus.settings.tempDir.temporary Epoch.ending).defect? = none)
    (hgranted : w.disk.refuses (w.disk.drawn + 1) = false)
    (hfits : ∀ key, ∀ segment ∈ cut Pair.tokenCount corpus.settings.tokenBudget
      ((corpus.kept w.disk).filter (corpus.settings.keyOf · = key)), BatchRecord.Fits ⟨segment⟩) :
    ∃ e next after, (corpus.prepare epoch).run w = ((.ok e, next), after) := by
  obtain ⟨entries, hoffers, hkept⟩ := Build.of_index_ok hindex
  refine exists_prepare_ok_of_packing hindex hpath hgranted ?_
  refine hoffers.fault_eq_none fun key segment hsegment => ?_
  rw [hkept] at hsegment
  exact hfits key segment hsegment

/-! ### The next epoch -/

/-- What is prepared does not depend on which epoch is the next. -/
theorem run_prepare_withNext {result : Except Fault Epoch} (number : Nat)
    (h : (corpus.prepare epoch).run w = ((result, next), after)) :
    (({ corpus with nextEpoch := number } : Corpus σ).prepare epoch).run w
      = ((result, { next with nextEpoch := number }), after) := by
  cases hindex : (Build.index corpus.settings corpus.files).run (begun epoch w) with
  | mk indexed built =>
      cases indexed with
      | error fault =>
          rw [run_prepare_of_error hindex] at h
          cases h
          refine run_prepare_of_error ?_
          exact hindex
      | ok index =>
          rw [run_prepare_of_ok hindex] at h
          cases h
          refine run_prepare_of_ok ?_
          exact hindex

/-- An epoch that could not be prepared is named by the fault. -/
theorem run_iterate_of_error {fault : Fault}
    (h : (corpus.prepare corpus.nextEpoch).run w = ((.error fault, next), after)) :
    corpus.iterate.run w
      = ((.error (fault.within (.preparingEpoch corpus.nextEpoch)),
          { next with nextEpoch := corpus.nextEpoch + 1 }), after) := by
  have hprepare := run_prepare_withNext (corpus.nextEpoch + 1) h
  simp only [iterate, Work.run_bind, hprepare]
  rfl

/-- An epoch that could be prepared is opened. -/
theorem run_iterate_of_ok
    (h : (corpus.prepare corpus.nextEpoch).run w = ((.ok e, next), after)) :
    ∃ stream, e.openStream.run after = (.ok stream, after) ∧
      corpus.iterate.run w
        = ((.ok stream, { next with nextEpoch := corpus.nextEpoch + 1 }), after) := by
  obtain ⟨batches, hserves⟩ := serves_of_prepare_ok h
  obtain ⟨stream, hopen, -⟩ := hserves.openStream
  have hwork : StateT.run e.openStream.run after = (.ok stream, after) := hopen
  have hprepare := run_prepare_withNext (corpus.nextEpoch + 1) h
  refine ⟨stream, hopen, ?_⟩
  simp only [iterate, Work.run_bind, hprepare, within, Except.mapError, hwork]
  rfl

/-! ### Every kept pair is served -/

/-- **Every pair that is kept is served once.**  When the index of a corpus can be built, when
there can be a file for the epoch, and when the batches fit their records, an epoch can be
prepared, whatever it is shuffled by.  Its stream hands out batches and no fault, then it ends
and stays ended; the batches hold what is kept of the line pairs that the files deliver, each
pair as often; and all that is counted on the way agrees with it. -/
theorem every_kept_pair_is_served
    (hindex : (Build.index corpus.settings corpus.files).run (begun epoch w) = (.ok index, built))
    (hpath : (corpus.settings.tempDir.temporary Epoch.ending).defect? = none)
    (hgranted : w.disk.refuses (w.disk.drawn + 1) = false)
    (hfits : ∀ key segments,
      GreedyCut Pair.tokenCount corpus.settings.tokenBudget
        ((corpus.kept w.disk).filter (corpus.settings.keyOf · = key)) segments →
      ∀ segment ∈ segments, BatchRecord.Fits ⟨segment⟩) :
    ∃ e next prepared stream, ∃ batches : List Batch,
      (corpus.prepare epoch).run w = ((.ok e, next), prepared) ∧
      e.openStream.run prepared = (.ok stream, prepared) ∧
      (∀ n, ∃ last after,
        (stream.takeResults n).run prepared = (((batches.take n).map .ok, last), after) ∧
        last.read = min n batches.length ∧
        (batches.length < n → ∀ w, last.next.run w = ((none, last), w))) ∧
      (stream.drain.run prepared).1 = batches.map .ok ∧
      (batches.flatMap (·.pairs)).Perm (corpus.kept w.disk) ∧
      e.pairs = (batches.flatMap (·.pairs)).length ∧ e.tally.accepted = e.pairs ∧
      e.batches = batches.length ∧ stream.total = batches.length := by
  obtain ⟨e, next, prepared, hprepare⟩ := exists_prepare_ok hindex hpath hgranted
    fun key => hfits key _ (cut_greedy _)
  obtain ⟨packed, hserves⟩ := serves_of_prepare_ok hprepare
  obtain ⟨stream, hopen, hahead, htotal, hread⟩ := hserves.openStream
  have hpairs : (packed.map (·.batch)).flatMap (·.pairs) = packed.flatMap (·.batch.pairs) := by
    rw [List.flatMap_map]
  have hsize := hserves.size
  have hperm := hserves.perm
  rw [← hpairs] at hsize hperm
  refine ⟨e, next, prepared, stream, packed.map (·.batch), hprepare, hopen, fun n => ?_, ?_, hperm,
    hsize, ?_, ?_, ?_⟩
  · obtain ⟨last, after, htake, hlast, -, hfinished⟩ := hahead.takeResults n prepared
    refine ⟨last, after, ?_, ?_, fun hless => ?_⟩
    · rw [htake, List.map_take, List.map_take, List.map_map]
      rfl
    · rw [hlast, hread, Nat.zero_add, List.length_map]
    · exact BatchStream.next_of_finished (hfinished (by simpa using hless))
  · rw [hahead.drain, List.map_map]
    rfl
  · rw [hserves.accepted, hsize, hperm.length_eq]
  · rw [hserves.count, List.length_map]
  · rw [htotal, List.length_map]

/-- The two files, each paired with itself, in batches of at most four tokens. -/
def ofTwoFiles : Corpus Keystream where
  generator := Keystream.generator
  files := ⟨⟨""⟩, Build.doubled⟩
  settings := Build.twoAtOnce
  baseSeed := 7
  showLengths := true
  budgeted := by decide

theorem exists_index_ofTwoFiles (epoch : Nat) :
    ∃ index built, (Build.index ofTwoFiles.settings ofTwoFiles.files).run
      (begun epoch ⟨Build.twoFiles, #[]⟩) = (.ok index, built) :=
  Build.exists_index_doubled _

theorem kept_ofTwoFiles :
    ofTwoFiles.kept Build.twoFiles = [⟨"x", "x"⟩, ⟨"u", "u"⟩, ⟨"v", "v"⟩] :=
  Build.kept_doubled

theorem fits_ofTwoFiles (key : Nat) :
    ∀ segment ∈ cut Pair.tokenCount 4
      ((ofTwoFiles.kept Build.twoFiles).filter (ofTwoFiles.settings.keyOf · = key)),
      BatchRecord.Fits ⟨segment⟩ := by
  rw [kept_ofTwoFiles]
  have hkeys : ∀ p ∈ [⟨"x", "x"⟩, ⟨"u", "u"⟩, ⟨"v", "v"⟩], ofTwoFiles.settings.keyOf p = 1 := by
    simp only [List.forall_mem_cons]
    refine ⟨?_, ?_, ?_, by simp⟩ <;> cbv
  by_cases hkey : key = 1
  · have hcut : cut Pair.tokenCount 4 [⟨"x", "x"⟩, ⟨"u", "u"⟩, ⟨"v", "v"⟩]
        = [[⟨"x", "x"⟩, ⟨"u", "u"⟩], [⟨"v", "v"⟩]] := by cbv
    rw [hkey, List.filter_eq_self.mpr fun p hp => by simpa using hkeys p hp, hcut]
    intro segment hsegment
    rcases List.mem_pair.mp hsegment with rfl | rfl
    · exact ⟨by decide, by decide, by decide⟩
    · exact ⟨by decide, by decide, by decide⟩
  · rw [List.filter_eq_nil_iff.mpr fun p hp => by simpa [hkeys p hp] using Ne.symm hkey, cut_nil]
    simp

/-- The three pairs of the two files come out of an epoch again. -/
theorem three_pairs_are_served :
    ∃ e next prepared stream, ∃ batches : List Batch,
      (ofTwoFiles.prepare 3).run ⟨Build.twoFiles, #[]⟩ = ((.ok e, next), prepared) ∧
      e.openStream.run prepared = (.ok stream, prepared) ∧
      (stream.drain.run prepared).1 = batches.map .ok ∧
      (batches.flatMap (·.pairs)).Perm [⟨"x", "x"⟩, ⟨"u", "u"⟩, ⟨"v", "v"⟩] := by
  obtain ⟨index, built, hindex⟩ := exists_index_ofTwoFiles 3
  obtain ⟨e, next, prepared, stream, batches, hprepare, hopen, -, hdrain, hperm, -⟩ :=
    every_kept_pair_is_served hindex (by decide) rfl fun key segments hcut => by
      rw [hcut.eq_cut]
      exact fits_ofTwoFiles key
  rw [kept_ofTwoFiles] at hperm
  exact ⟨e, next, prepared, stream, batches, hprepare, hopen, hdrain, hperm⟩

/-! ### What a reader of the batches can measure -/

/-- **Batches are of one class and within the budget, by their text.**  Whatever is handed out
of an epoch that could be prepared is a batch that is not empty.  Measured on the text of its
pairs, all of them have one key, so their lengths are in one class; and if there are several,
then together they are within the budget, and without the last one below it. -/
theorem batches_are_of_one_class_within_budget {disk : Disk}
    (hvalid : corpus.settings.check disk = .ok ())
    (hprepared : (corpus.prepare epoch).run w = ((.ok e, next), after)) :
    ∃ stream, e.openStream.run after = (.ok stream, after) ∧
      ∀ n, ∀ result ∈ ((stream.takeResults n).run after).1.1, ∃ batch, result = .ok batch ∧
        batch.pairs ≠ [] ∧
        (∃ key : Nat, ∀ p ∈ batch.pairs,
          corpus.settings.bucketing.key p.sourceTokens p.targetTokens corpus.settings.classWidth
            = key ∧
          ((key : Int) - 1) * corpus.settings.classWidth
            < corpus.settings.bucketing.measure p.sourceTokens p.targetTokens ∧
          corpus.settings.bucketing.measure p.sourceTokens p.targetTokens
            ≤ key * corpus.settings.classWidth) ∧
        (2 ≤ batch.pairs.length →
          batch.tokenCount ≤ corpus.settings.tokenBudget ∧
          (⟨batch.pairs.dropLast⟩ : Batch).tokenCount < corpus.settings.tokenBudget) := by
  obtain ⟨packed, hserves⟩ := serves_of_prepare_ok hprepared
  obtain ⟨stream, hopen, hahead, -, -⟩ := hserves.openStream
  refine ⟨stream, hopen, fun n result hresult => ?_⟩
  obtain ⟨last, ended, htake, -, -, -⟩ := hahead.takeResults n after
  rw [htake] at hresult
  obtain ⟨found, hfound, rfl⟩ := List.mem_map.mp hresult
  have hmem : found ∈ packed := List.mem_of_mem_take hfound
  refine ⟨found.batch, rfl, (hserves.sound found hmem).pairs, ⟨found.key, fun p hp => ?_⟩, ?_⟩
  · have hkey : lengthClass (corpus.settings.bucketing.measure p.sourceTokens p.targetTokens)
        corpus.settings.classWidth = found.key := hserves.key found hmem p hp
    exact ⟨hkey, mem_class_of_lengthClass (Settings.classWidth_pos_of_check hvalid) hkey⟩
  · exact (hserves.letsIn found hmem).within_budget

/-- An epoch of the two files has batches of at most four tokens. -/
theorem batches_of_at_most_four :
    ∃ e next after stream, (ofTwoFiles.prepare 3).run ⟨Build.twoFiles, #[]⟩
        = ((.ok e, next), after) ∧
      e.openStream.run after = (.ok stream, after) ∧
      ∀ n, ∀ result ∈ ((stream.takeResults n).run after).1.1, ∃ batch, result = .ok batch ∧
        batch.pairs ≠ [] ∧ (2 ≤ batch.pairs.length → batch.tokenCount ≤ 4) := by
  obtain ⟨index, built, hindex⟩ := exists_index_ofTwoFiles 3
  obtain ⟨e, next, after, hprepare⟩ := exists_prepare_ok hindex (by decide) rfl fits_ofTwoFiles
  have hvalid : ofTwoFiles.settings.check Build.twoFiles = .ok () := rfl
  obtain ⟨stream, hopen, hbatches⟩ := batches_are_of_one_class_within_budget hvalid hprepare
  refine ⟨e, next, after, stream, hprepare, hopen, fun n result hresult => ?_⟩
  obtain ⟨batch, hbatch, hne, -, hbudget⟩ := hbatches n result hresult
  exact ⟨batch, hbatch, hne, fun hmany => (hbudget hmany).1⟩

end Corpus

end Bitext
