/-
Whether a packing succeeds.

A packing reads the records of its blob as they come up, some by their header first and some
whole at once, in whatever order the buckets are drawn.  Still its verdict is one about the
index: it succeeds exactly when all records that the index names can be read.  A record that
cannot be read is in the way of its bucket for as long as it is filed, and a packing that ends
without a fault has left nothing filed.
-/
import Bitext.Proofs.Cleanup
import Bitext.Proofs.Packing.Fewest

namespace Bitext

open Packing

/-- What all batches come to is the one end of the packing. -/
theorem Packing.exists_ends_iff {σ : Type} {index : Index} (hindex : index.Coherent)
    (dice : Dice σ) (blob : Blob) (budget : Nat) (s : σ) :
    ∃ last, Ends dice blob budget index s (all dice blob budget index s) last ∧
      ∀ packed other, Ends dice blob budget index s packed other ↔
        packed = all dice blob budget index s ∧ other = last := by
  obtain ⟨last, hends⟩ := exists_ends dice blob budget index.total index s hindex (Nat.le_refl _)
  refine ⟨last, hends, fun packed other => ⟨fun hother => hother.unique hends, ?_⟩⟩
  rintro ⟨rfl, rfl⟩
  exact hends

/-- What stops a packing whose readable segments fit is a record that cannot be read. -/
theorem Packing.Obstacle.exists_damaged {blob : Blob} {budget : Nat} {offsets : List Nat}
    {fault : Fault} (h : Obstacle blob budget offsets fault)
    (hfits : ∀ segment ∈ cut (tokensAt blob) budget offsets,
      (∀ offset ∈ segment, ∃ record, blob.recordAt offset = .ok record) →
      BatchRecord.Fits (batchAt blob segment)) :
    ∃ offset damaged, offset ∈ offsets ∧ blob.recordAt offset = .error damaged ∧
      fault = ⟨.record damaged, []⟩ := by
  cases h with
  | damaged hmem hdamaged => exact ⟨_, _, hmem, hdamaged, rfl⟩
  | tooLarge hmem hread hencode =>
      have hok := BatchRecord.encode_ok_iff.mpr ⟨hfits _ hmem hread, rfl⟩
      cases hencode.symm.trans hok

/-- **Wherever a packing ends, its fault tells whether all records could be read.**  Without one
nothing is left, and every entry of the index has become a pair. -/
theorem Packing.Ends.verdict {σ : Type} {dice : Dice σ} {blob : Blob} {budget : Nat}
    {index last : Index} {s : σ} {packed : Packed}
    (h : Ends dice blob budget index s packed last) (hindex : index.Coherent)
    (hfits : ∀ key, ∀ segment ∈ cut (tokensAt blob) budget (index.offsets key),
      (∀ offset ∈ segment, ∃ record, blob.recordAt offset = .ok record) →
      BatchRecord.Fits (batchAt blob segment)) :
    match packed.fault with
    | none => Readable blob index ∧ last.isEmpty = true ∧
        pairCount packed.batches = index.allOffsets.length ∧
        packed.batches.length ≤ pairCount packed.batches
    | some fault => ∃ key offset damaged, offset ∈ index.offsets key ∧
        blob.recordAt offset = .error damaged ∧ fault = ⟨.record damaged, []⟩ := by
  cases hfault : packed.fault with
  | none =>
      have hzero := h.total_eq_zero hindex hfault
      have hpairs := h.pairCount_add_total hindex
      rw [hzero, Nat.add_zero, hindex.total] at hpairs
      exact ⟨h.readable hindex hfault, (h.coherent hindex).isEmpty_iff.mpr hzero, hpairs,
        h.length_le_pairCount hindex⟩
  | some fault =>
      obtain ⟨key, hobstacle⟩ := h.obstacle hindex hfault
      obtain ⟨offset, damaged, hmem, hdamaged, hrecord⟩ := hobstacle.exists_damaged (hfits key)
      exact ⟨key, offset, damaged, hmem, hdamaged, hrecord⟩

/-- **A packing succeeds exactly when all records of its index can be read.**  The blob may hold
any bytes and the index any offsets, each as often as it likes; whatever is drawn, the packing
comes to one end.  With a file for the epoch, and segments of which those that can be read fit
their records, it leaves an epoch exactly when every record that the index names can be read.
Then nothing is left in the index, the epoch has a pair for every entry of the index, and not
more batches than pairs.  Otherwise its fault is that of a record which the index names, and
neither the file of the blob nor that of the epoch is left. -/
theorem packing_succeeds_exactly_when_all_records_are_readable (built : BuiltIndex) (budget : Nat)
    {folder : Path} {w : Workspace} (hindex : built.index.Made)
    (hfits : ∀ key segments,
      GreedyCut (tokensAt built.blob) budget (built.index.offsets key) segments →
      ∀ segment ∈ segments,
        (∀ offset ∈ segment, ∃ record, built.blob.recordAt offset = .ok record) →
        BatchRecord.Fits (batchAt built.blob segment))
    (hfresh : w.disk.Fresh)
    (hroom : ∃ file disk, w.disk.createTemporary folder Epoch.ending = (.ok file, disk))
    {σ : Type} (dice : Dice σ) (s : σ) :
    ∃ last result after,
      (∀ packed other, Ends dice built.blob budget built.index s packed other ↔
        packed = all dice built.blob budget built.index s ∧ other = last) ∧
      (Epoch.pack budget dice s built folder).run w = (result, after) ∧
      ((∃ e, result = .ok e) ↔ Readable built.blob built.index) ∧
      (∀ e, result = .ok e → last.isEmpty = true ∧ e.pairs = built.index.allOffsets.length ∧
        e.batches ≤ e.pairs) ∧
      ∀ fault, result = .error fault →
        (∃ key offset damaged, offset ∈ built.index.offsets key ∧
          built.blob.recordAt offset = .error damaged ∧ fault = ⟨.record damaged, []⟩) ∧
        (w.disk.erase built.blob.file.location).Keeps after.disk := by
  have hcoherent := hindex.coherent
  obtain ⟨last, hends, honly⟩ := exists_ends_iff hcoherent dice built.blob budget s
  have hverdict := hends.verdict hcoherent fun key => hfits key _ (cut_greedy _)
  obtain ⟨-, ⟨place, hplace⟩, -⟩ := Disk.createTemporary_ok_iff.mp hroom
  obtain ⟨file, disk, hcreate⟩ := hroom
  have hresult : ((Epoch.pack budget dice s built folder).run w).1 = _ := Epoch.result_pack hcreate
  cases hrun : (Epoch.pack budget dice s built folder).run w with
  | mk result after =>
      have hfiles := Epoch.pack_keeps_or_gains hrun hfresh hplace
      rw [hrun] at hresult
      refine ⟨last, result, after, honly, rfl, ?_⟩
      cases hfault : (all dice built.blob budget built.index s).fault with
      | none =>
          rw [hfault] at hresult hverdict
          obtain rfl := hresult
          obtain ⟨hread, hleft⟩ := hverdict
          refine ⟨⟨fun _ => hread, fun _ => ⟨_, rfl⟩⟩, fun e he => ?_, fun fault hstopped => ?_⟩
          · obtain rfl := Except.ok.inj he
            exact hleft
          · cases hstopped
      | some fault =>
          rw [hfault] at hresult hverdict
          obtain rfl := hresult
          obtain ⟨key, offset, damaged, hmem, hdamaged, hrecord⟩ := hverdict
          refine ⟨⟨fun hok => ?_, fun hread => ?_⟩, fun e he => ?_, fun other hstopped => ?_⟩
          · obtain ⟨e, he⟩ := hok
            cases he
          · obtain ⟨record, hrecord⟩ := hread key offset hmem
            cases hdamaged.symm.trans hrecord
          · cases he
          · obtain rfl := Except.error.inj hstopped
            exact ⟨⟨key, offset, damaged, hmem, hdamaged, hrecord⟩, hfiles⟩

/-- The blob of one pair, with a file of its own. -/
def pairBlob : Blob := { onePairBlob with file := ⟨"/corpus-XXXXXX.tmp", [.drawn 0 ".tmp"]⟩ }

/-- A workspace with this blob alone. -/
def besideBlob : Workspace :=
  ⟨{ entries := [(pairBlob.file.location, .file pairBlob.bytes)], drawn := 1 }, #[]⟩

theorem fresh_besideBlob : besideBlob.disk.Fresh := by
  intro entry hentry serial ending hlast
  obtain rfl : entry = _ := List.mem_singleton.mp hentry
  obtain ⟨rfl, -⟩ : 0 = serial ∧ _ = ending := by simpa [pairBlob] using hlast
  exact Nat.one_pos

theorem exists_create_besideBlob :
    ∃ file disk, besideBlob.disk.createTemporary ⟨"/"⟩ Epoch.ending = (.ok file, disk) :=
  Disk.createTemporary_ok_iff.mpr ⟨by decide, ⟨[], by cbv⟩, rfl⟩

theorem recordAt_pairBlob : pairBlob.recordAt 0 = .ok ⟨⟨1, 0⟩, ⟨"a", ""⟩⟩ := by rfl

theorem exists_damaged_pairBlob : ∃ damaged, pairBlob.recordAt 99 = .error damaged := ⟨_, rfl⟩

theorem fits_pairBlob {offsets : List Nat} {segments : List (List Nat)}
    (hoffsets : offsets = [0, 0, 0] ∨ offsets = [99] ∨ offsets = [])
    (hcut : GreedyCut (tokensAt pairBlob) 1 offsets segments) :
    ∀ segment ∈ segments, (∀ offset ∈ segment, ∃ record, pairBlob.recordAt offset = .ok record) →
      BatchRecord.Fits (batchAt pairBlob segment) := by
  have htokens : tokensAt pairBlob 0 = 1 := rfl
  rw [hcut.eq_cut]
  intro segment hsegment hread
  rcases hoffsets with rfl | rfl | rfl
  · obtain rfl : segment = [0] := by simpa [cut_cons, goOn, isFull, htokens] using hsegment
    exact ⟨by decide, by decide, by decide⟩
  · obtain rfl : segment = [99] := by simpa [cut_cons, goOn] using hsegment
    obtain ⟨record, hrecord⟩ := hread 99 (by simp)
    obtain ⟨damaged, hdamaged⟩ := exists_damaged_pairBlob
    cases hdamaged.symm.trans hrecord
  · rw [cut_nil] at hsegment
    cases hsegment

/-- Three entries for one pair are packed; with one more that leads nowhere nothing is left. -/
theorem one_entry_decides_a_packing :
    (∃ e after, (Epoch.pack 1 Keystream.dice (Keystream.ofSeed 7) ⟨pairBlob, thrice, {}⟩ ⟨"/"⟩).run
      besideBlob = (.ok e, after) ∧ e.pairs = 3 ∧ e.batches ≤ 3) ∧
    ∃ damaged after, (Epoch.pack 1 Keystream.dice (Keystream.ofSeed 7)
      ⟨pairBlob, thrice.insert 6 99, {}⟩ ⟨"/"⟩).run besideBlob
        = (.error ⟨.record damaged, []⟩, after) ∧ after.disk.entries = [] := by
  have hmade : thrice.Made := .insert 5 0 (.insert 5 0 (.insert 5 0 .empty))
  have hthrice : ∀ key, thrice.offsets key = [0, 0, 0] ∨ thrice.offsets key = [99] ∨
      thrice.offsets key = [] := by
    intro key
    rw [offsets_thrice]
    by_cases hkey : 5 = key
    · exact .inl (if_pos hkey)
    · exact .inr (.inr (if_neg hkey))
  have hmore : ∀ key, (thrice.insert 6 99).offsets key = [0, 0, 0] ∨
      (thrice.insert 6 99).offsets key = [99] ∨ (thrice.insert 6 99).offsets key = [] := by
    intro key
    rw [Index.offsets_insert]
    by_cases hkey : 6 = key
    · subst hkey
      exact .inr (.inl rfl)
    · rw [if_neg hkey]
      exact hthrice key
  constructor
  · obtain ⟨last, result, after, -, hrun, hverdict, hok, -⟩ :=
      packing_succeeds_exactly_when_all_records_are_readable ⟨pairBlob, thrice, {}⟩ 1 hmade
        (fun key segments => fits_pairBlob (hthrice key)) fresh_besideBlob
        exists_create_besideBlob Keystream.dice (Keystream.ofSeed 7)
    have hread : Readable pairBlob thrice := by
      intro key offset hmem
      rw [offsets_thrice] at hmem
      by_cases hkey : 5 = key
      · obtain rfl : offset = 0 := by simpa [hkey] using hmem
        exact ⟨_, recordAt_pairBlob⟩
      · rw [if_neg hkey] at hmem
        cases hmem
    obtain ⟨e, rfl⟩ := hverdict.mpr hread
    obtain ⟨-, hpairs, hle⟩ := hok e rfl
    have hthree : e.pairs = 3 := hpairs.trans hmade.coherent.total.symm
    exact ⟨e, after, hrun, hthree, by omega⟩
  · obtain ⟨last, result, after, -, hrun, hverdict, -, hfault⟩ :=
      packing_succeeds_exactly_when_all_records_are_readable
        ⟨pairBlob, thrice.insert 6 99, {}⟩ 1 (.insert 6 99 hmade)
        (fun key segments => fits_pairBlob (hmore key)) fresh_besideBlob
        exists_create_besideBlob Keystream.dice (Keystream.ofSeed 7)
    cases result with
    | ok e =>
        have hnowhere : 99 ∈ (thrice.insert 6 99).offsets 6 := by
          rw [Index.offsets_insert]
          simp
        obtain ⟨record, hrecord⟩ := hverdict.mp ⟨e, rfl⟩ 6 99 hnowhere
        obtain ⟨damaged, hdamaged⟩ := exists_damaged_pairBlob
        cases hdamaged.symm.trans hrecord
    | error fault =>
        obtain ⟨⟨key, offset, damaged, -, -, rfl⟩, hkeeps⟩ := hfault fault rfl
        exact ⟨damaged, after, hrun, hkeeps.entries⟩

end Bitext
