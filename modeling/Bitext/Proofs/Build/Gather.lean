/-
Reading in turn and reading at the same time.

Both ways of reading write the same pairs in the same order and come to the same tally, or
fail with the same fault.  For the readings in turn this is the definition; for those at
the same time it is what the merge is there for, and it holds whatever the order in which
the messages arrive.

A fault ends both.  When several file pairs are faulty, which of them is reported depends on
the order of arrival; with one there is no choice.
-/
import Mathlib
import Bitext.Build
import Bitext.Proofs.Build.Harvest
import Bitext.Proofs.Build.Merge
import Bitext.Proofs.Workspace

namespace Bitext.Build

/-- Where something occurs in a list, it occurs for the first time. -/
theorem exists_first {α : Type} {P : α → Prop} (l : List α) (h : ∃ a ∈ l, P a) :
    ∃ before a after, l = before ++ a :: after ∧ P a ∧ ∀ b ∈ before, ¬P b := by
  induction l with
  | nil => simp at h
  | cons first rest ih =>
      by_cases hfirst : P first
      · exact ⟨[], first, rest, rfl, hfirst, by simp⟩
      · have hrest : ∃ a ∈ rest, P a := by
          obtain ⟨a, hmem, ha⟩ := h
          rcases List.mem_cons.mp hmem with rfl | hmem
          · exact absurd ha hfirst
          · exact ⟨a, hmem, ha⟩
        obtain ⟨before, a, after, rfl, ha, hbefore⟩ := ih hrest
        refine ⟨first :: before, a, after, rfl, ha, ?_⟩
        intro b hb
        rcases List.mem_cons.mp hb with rfl | hb
        · exact hfirst
        · exact hbefore b hb

/-- What each file pair gives when it is read for itself. -/
def harvests (settings : Settings) (disk : Disk) (pairs : List FilePair) : List Harvest :=
  pairs.map (Harvest.ofFiles settings disk .empty)

/-- The admitted pairs of all file pairs, in corpus order. -/
def admitted (settings : Settings) (disk : Disk) (pairs : List FilePair) : List Admitted :=
  (harvests settings disk pairs).flatMap (·.admitted)

/-- The tallies of all file pairs together. -/
def tally (settings : Settings) (disk : Disk) (pairs : List FilePair) : Tally :=
  ((harvests settings disk pairs).map Harvest.tally).sum

section

variable {settings : Settings} {disk : Disk} {pairs : List FilePair}

theorem admitted_cons (files : FilePair) (rest : List FilePair) :
    admitted settings disk (files :: rest)
      = (Harvest.ofFiles settings disk .empty files).admitted ++ admitted settings disk rest := rfl

theorem admitted_append (before after : List FilePair) :
    admitted settings disk (before ++ after)
      = admitted settings disk before ++ admitted settings disk after := by
  rw [admitted, harvests, List.map_append, List.flatMap_append]
  rfl

theorem mem_admitted_iff {p : Admitted} :
    p ∈ admitted settings disk pairs ↔
      ∃ files ∈ pairs, p ∈ (Harvest.ofFiles settings disk .empty files).admitted := by
  simp only [admitted, harvests, List.mem_flatMap, List.mem_map, exists_exists_and_eq_and]

theorem tally_cons (files : FilePair) (rest : List FilePair) :
    tally settings disk (files :: rest)
      = (Harvest.ofFiles settings disk .empty files).tally + tally settings disk rest := rfl

theorem messages_eq :
    messages settings disk pairs = Merge.messagesOf (harvests settings disk pairs) := by
  refine List.ext_getElem? fun file => ?_
  rw [messages, List.getElem?_mapIdx, Merge.getElem?_messagesOf, harvests, List.getElem?_map,
    Option.map_map]
  rfl

theorem ofSize_eq (settings : Settings) (disk : Disk) (pairs : List FilePair) :
    Merge.ofSize pairs.length = Merge.ofSize (harvests settings disk pairs).length := by
  rw [harvests, List.length_map]

theorem follows_start (settings : Settings) (disk : Disk) (pairs : List FilePair) :
    (Merge.ofSize pairs.length).Follows (messages settings disk pairs) := by
  rw [messages_eq, ofSize_eq settings disk]
  exact Merge.follows_ofSize _

theorem owed_start (settings : Settings) (disk : Disk) (pairs : List FilePair) :
    (Merge.ofSize pairs.length).owed (messages settings disk pairs)
      = admitted settings disk pairs := by
  rw [messages_eq, ofSize_eq settings disk]
  exact Merge.owed_ofSize _

/-- A file pair that is not faulty comes to its tally. -/
theorem outcome_of_sound (settings : Settings) {files : FilePair} (h : ¬files.Faulty disk) :
    (Harvest.ofFiles settings disk .empty files).outcome
      = .ok (Harvest.ofFiles settings disk .empty files).tally := by
  obtain ⟨t, ht⟩ := (Harvest.ofFiles_ok_iff .empty).mpr h
  rw [Harvest.tally, ht]

theorem outcome_of_faulty (settings : Settings) {files : FilePair} (h : files.Faulty disk) :
    ∃ fault, (Harvest.ofFiles settings disk .empty files).outcome = .error fault := by
  cases houtcome : (Harvest.ofFiles settings disk .empty files).outcome with
  | error fault => exact ⟨fault, rfl⟩
  | ok t => exact absurd h ((Harvest.ofFiles_ok_iff .empty).mp ⟨t, houtcome⟩)

/-- A fault among the messages is that of a faulty file pair. -/
theorem failed_mem_iff {fault : Fault} {arrivals : List Message}
    (harrivals : Interleaving (messages settings disk pairs) arrivals) :
    .failed fault ∈ arrivals ↔
      ∃ files ∈ pairs, (Harvest.ofFiles settings disk .empty files).outcome = .error fault := by
  rw [harrivals.perm.mem_iff, messages_eq, Merge.failed_mem_iff, harvests]
  simp

end

/-! ### In turn -/

theorem oneByOne_cons (settings : Settings) (files : FilePair) (rest : List FilePair)
    (store : Store) (tally : Tally) (w : Workspace) :
    (oneByOne settings (files :: rest) store tally).run w
      = (match store.appendAll (Harvest.ofFiles settings w.disk tally files).admitted with
        | .error fault => (.error fault, { w with log := w.log.push (.readingPair files.text) })
        | .ok store =>
            match (Harvest.ofFiles settings w.disk tally files).outcome with
            | .error fault => (.error fault, { w with log := w.log.push (.readingPair files.text) })
            | .ok tally =>
                (oneByOne settings rest store tally).run
                  { w with log := w.log.push (.readingPair files.text) }) := by
  simp only [oneByOne, Job.run_bind, Job.run_lift, Workspace.run_report, Job.run_get,
    Job.run_ofExcept]
  cases store.appendAll (Harvest.ofFiles settings w.disk tally files).admitted with
  | error fault => rfl
  | ok store =>
      cases (Harvest.ofFiles settings w.disk tally files).outcome <;> rfl

/-- Reading leaves the disk alone. -/
theorem disk_oneByOne (settings : Settings) (pairs : List FilePair) :
    ∀ (store : Store) (tally : Tally) (w : Workspace),
      ((oneByOne settings pairs store tally).run w).2.disk = w.disk := by
  induction pairs with
  | nil => intro store tally w; rfl
  | cons files rest ih =>
      intro store tally w
      rw [oneByOne_cons]
      cases store.appendAll (Harvest.ofFiles settings w.disk tally files).admitted with
      | error fault => rfl
      | ok written =>
          cases (Harvest.ofFiles settings w.disk tally files).outcome with
          | error fault => rfl
          | ok next => exact ih written next _

section turn

variable {settings : Settings} {disk : Disk}

/-- File pairs without a fault are written whole, and their tallies are merged. -/
theorem oneByOne_of_sound (pairs : List FilePair) :
    ∀ (store : Store) (t : Tally) {w : Workspace}, w.disk = disk →
      (∀ files ∈ pairs, ¬files.Faulty disk) →
      ((oneByOne settings pairs store t).run w).1
        = (store.appendAll (admitted settings disk pairs)).map
            (·, t + tally settings disk pairs) := by
  induction pairs with
  | nil =>
      intro store t w _ _
      show Except.ok (store, t) = Except.ok (store, t + 0)
      rw [add_zero]
  | cons files rest ih =>
      intro store t w hdisk hsound
      have houtcome := outcome_of_sound settings (hsound files (by simp))
      rw [oneByOne_cons, hdisk, Harvest.ofFiles_eq_onTop, admitted_cons, Store.appendAll_append,
        tally_cons]
      simp only [Harvest.onTop, houtcome, Except.map]
      cases store.appendAll (Harvest.ofFiles settings disk .empty files).admitted with
      | error fault => rfl
      | ok written =>
          simp only [Except.bind]
          rw [ih written _ rfl fun other hother => hsound other (List.mem_cons_of_mem files hother),
            ← Tally.add_eq_merge, add_assoc]
          rfl

/-- The first faulty file pair stops the reading after its admitted pairs. -/
theorem oneByOne_of_fault {files : FilePair} {fault : Fault} {after : List FilePair}
    (houtcome : (Harvest.ofFiles settings disk .empty files).outcome = .error fault)
    (before : List FilePair) :
    ∀ (store : Store) (t : Tally) {w : Workspace}, w.disk = disk →
      (∀ other ∈ before, ¬other.Faulty disk) →
      ((oneByOne settings (before ++ files :: after) store t).run w).1
        = (store.appendAll (admitted settings disk before
            ++ (Harvest.ofFiles settings disk .empty files).admitted)).bind
          fun _ => .error fault := by
  induction before with
  | nil =>
      intro store t w hdisk _
      rw [List.nil_append, oneByOne_cons, hdisk, Harvest.ofFiles_eq_onTop]
      simp only [Harvest.onTop, houtcome, Except.map]
      show _ = (store.appendAll (Harvest.ofFiles settings disk .empty files).admitted).bind _
      cases store.appendAll (Harvest.ofFiles settings disk .empty files).admitted <;> rfl
  | cons first rest ih =>
      intro store t w hdisk hsound
      have hfirst := outcome_of_sound settings (hsound first (by simp))
      rw [List.cons_append, oneByOne_cons, hdisk, Harvest.ofFiles_eq_onTop, admitted_cons,
        List.append_assoc, Store.appendAll_append]
      simp only [Harvest.onTop, hfirst, Except.map]
      cases store.appendAll (Harvest.ofFiles settings disk .empty first).admitted with
      | error fault => rfl
      | ok written =>
          simp only [Except.bind]
          rw [ih written _ rfl fun other hother => hsound other (List.mem_cons_of_mem first hother)]
          rfl

end turn

/-! ### At the same time -/

section arrivals

variable {settings : Settings} {disk : Disk} {pairs : List FilePair} {arrivals : List Message}

theorem sound_of_not_faulty (harrivals : Interleaving (messages settings disk pairs) arrivals)
    (hsound : ∀ files ∈ pairs, ¬files.Faulty disk) : ∀ message ∈ arrivals, ¬message.IsFault := by
  rintro message hmem ⟨fault, rfl⟩
  obtain ⟨files, hfiles, houtcome⟩ := (failed_mem_iff harrivals).mp hmem
  rw [outcome_of_sound settings (hsound files hfiles)] at houtcome
  simp at houtcome

theorem sum_tally_arrivals (harrivals : Interleaving (messages settings disk pairs) arrivals) :
    (arrivals.map Message.tally).sum = tally settings disk pairs := by
  rw [(harrivals.perm.map Message.tally).sum_eq, messages_eq, Merge.sum_tally_messagesOf]
  rfl

/-- Messages without a fault lead to the store and the tally of the readings in turn. -/
theorem run_of_sound (harrivals : Interleaving (messages settings disk pairs) arrivals)
    (hsound : ∀ files ∈ pairs, ¬files.Faulty disk) (store : Store) :
    ∃ merge, merge.isComplete = true ∧
      (Merging.start pairs.length store).run arrivals
        = (store.appendAll (admitted settings disk pairs)).map
            (⟨merge, ·, tally settings disk pairs⟩) := by
  obtain ⟨merge, hcomplete, hrun⟩ :=
    Merging.run_of_sound (m := Merging.start pairs.length store) (follows_start settings disk pairs)
      harrivals (sound_of_not_faulty harrivals hsound)
  refine ⟨merge, hcomplete, ?_⟩
  have htally : (Merging.start pairs.length store).tally + (arrivals.map Message.tally).sum
      = tally settings disk pairs := by
    rw [sum_tally_arrivals harrivals]
    exact zero_add _
  rw [hrun, htally]
  show Except.map _ (store.appendAll ((Merge.ofSize pairs.length).owed _)) = _
  rw [owed_start]

/-- Messages with a fault stop the merge with the fault of a file pair, unless a pair could
not be written before. -/
theorem run_of_faulty (harrivals : Interleaving (messages settings disk pairs) arrivals)
    {files : FilePair} (hfiles : files ∈ pairs) (hfaulty : files.Faulty disk) (store : Store) :
    ∃ reported fault ready later, reported ∈ pairs ∧
      (Harvest.ofFiles settings disk .empty reported).outcome = .error fault ∧
      admitted settings disk pairs = ready ++ later ∧
      (Merging.start pairs.length store).run arrivals
        = (store.appendAll ready).bind fun _ => .error fault := by
  obtain ⟨first, hfirst⟩ := outcome_of_faulty settings hfaulty
  have hfault : ∃ message ∈ arrivals, message.IsFault :=
    ⟨.failed first, (failed_mem_iff harrivals).mpr ⟨files, hfiles, hfirst⟩, first, rfl⟩
  obtain ⟨before, _, after, rfl, ⟨fault, rfl⟩, hsound⟩ := exists_first arrivals hfault
  obtain ⟨reported, hreported, houtcome⟩ :=
    (failed_mem_iff harrivals).mp (List.mem_append_right before (List.mem_cons_self ..))
  obtain ⟨ready, later, howed, hrun⟩ :=
    Merging.run_of_fault (m := Merging.start pairs.length store) (follows_start settings disk pairs)
      harrivals hsound
  refine ⟨reported, fault, ready, later, hreported, houtcome, ?_, hrun⟩
  rw [← owed_start]
  exact howed

/-- With one faulty file pair it is its fault that stops the merge. -/
theorem run_of_one_faulty {before after : List FilePair} {files : FilePair} {fault : Fault}
    {store full : Store}
    (hwritten : store.appendAll (admitted settings disk (before ++ files :: after)) = .ok full)
    (harrivals : Interleaving (messages settings disk (before ++ files :: after)) arrivals)
    (hfault : (Harvest.ofFiles settings disk .empty files).outcome = .error fault)
    (hothers : ∀ other ∈ before ++ after, ¬other.Faulty disk) :
    (Merging.start (before ++ files :: after).length store).run arrivals = .error fault := by
  have hfaulty : files.Faulty disk := by
    by_cases h : files.Faulty disk
    · exact h
    · rw [outcome_of_sound settings h] at hfault
      simp at hfault
  obtain ⟨reported, other, ready, later, hreported, hother, hsplit, hrun⟩ :=
    run_of_faulty harrivals (List.mem_append_right before (List.mem_cons_self ..)) hfaulty store
  have hsame : reported = files := by
    rcases List.mem_append.mp hreported with hbefore | hrest
    · rw [outcome_of_sound settings (hothers reported (List.mem_append_left after hbefore))]
        at hother
      simp at hother
    · rcases List.mem_cons.mp hrest with rfl | hafter
      · rfl
      · rw [outcome_of_sound settings (hothers reported (List.mem_append_right before hafter))]
          at hother
        simp at hother
  subst hsame
  rw [hsplit] at hwritten
  obtain ⟨written, hready, -⟩ := Store.of_appendAll_append hwritten
  obtain rfl := Except.error.inj (hfault.symm.trans hother)
  rw [hrun, hready]
  rfl

/-- While messages arrive the merge is complete only when none is to come, and then
everything is written and nothing is held. -/
theorem receiveAll_of_sound {before after : List Message} {store full : Store}
    (hwritten : store.appendAll (admitted settings disk pairs) = .ok full)
    (harrivals : Interleaving (messages settings disk pairs) (before ++ after))
    (hsound : ∀ files ∈ pairs, ¬files.Faulty disk) :
    ∃ m, (Merging.start pairs.length store).receiveAll before = .ok m ∧
      (m.merge.isComplete = true ↔ after = []) ∧
      (after = [] → m.store = full ∧ m.tally = tally settings disk pairs ∧
        ∀ held ∈ m.merge.held, held = []) := by
  have hmessages := sound_of_not_faulty harrivals hsound
  obtain ⟨left, ready, merge, hleft, hfollows, howed, hreceive⟩ :=
    Merging.receiveAll_eq before (follows_start settings disk pairs) harrivals
      fun message hmem => hmessages message (List.mem_append_left after hmem)
  rw [owed_start] at howed
  rw [howed] at hwritten
  obtain ⟨written, hready, hrest⟩ := Store.of_appendAll_append hwritten
  have hcomplete : merge.isComplete = true ↔ after = [] := by
    rw [hfollows.isComplete_iff, hleft.eq_nil_iff]
  refine ⟨⟨merge, written, .empty + (before.map Message.tally).sum⟩, ?_, hcomplete, ?_⟩
  · rw [Merging.start, hreceive, hready]
    rfl
  · intro hnone
    have hdone := hcomplete.mpr hnone
    rw [hfollows.owed_of_isComplete hdone] at hrest
    rw [hnone, List.append_nil] at harrivals
    refine ⟨Except.ok.inj hrest, ?_, hfollows.held_of_isComplete hdone⟩
    rw [sum_tally_arrivals harrivals]
    exact zero_add _

end arrivals

/-! ### By workers -/

theorem byWorkers_run (settings : Settings) (pairs : List FilePair) (store : Store)
    (w : Workspace) :
    (byWorkers settings pairs store).run w
      = (((Merging.start pairs.length store).run
            (Turns.arrivals (min settings.workers pairs.length)
              (messages settings w.disk pairs))).map fun m => (m.store, m.tally), w) := by
  simp only [byWorkers, Job.run_bind, Job.run_get, Job.run_ofExcept]
  cases (Merging.start pairs.length store).run _ <;> rfl

/-- Workers that take turns produce an order in which messages can arrive. -/
theorem interleaving_byWorkers {settings : Settings} (hworkers : 0 < settings.workers)
    (disk : Disk) (pairs : List FilePair) :
    Interleaving (messages settings disk pairs)
      (Turns.arrivals (min settings.workers pairs.length) (messages settings disk pairs)) := by
  refine Turns.interleaving_arrivals ?_ ?_
  · cases pairs with
    | nil => exact .inr rfl
    | cons files rest =>
        refine .inl (Nat.lt_min.mpr ⟨hworkers, ?_⟩)
        simp
  · rw [messages_eq]
    exact Merge.ne_nil_of_mem_messagesOf

section

variable {settings : Settings} {w : Workspace} {pairs : List FilePair} {store full : Store}

theorem workers_pos_of_isShared {files : FileSet} (h : isShared settings files = true) :
    0 < settings.workers := by
  unfold isShared at h
  simp only [Bool.and_eq_true, bne_iff_ne, ne_eq] at h
  omega

/-- Without workers and with one file pair there is nothing to share out. -/
theorem not_isShared {files : FileSet} (h : settings.workers = 0 ∨ files.size = 1) :
    isShared settings files = false := by
  rcases h with hnone | hone
  · rw [isShared, hnone]
    rfl
  · rw [isShared, hone]
    exact Bool.and_false _

/-- However the files are read, without a fault the admitted pairs of all files are written in
corpus order. -/
theorem gather_of_sound {files : FileSet} (hsound : ∀ pair ∈ files.pairs, ¬pair.Faulty w.disk) :
    ((gather settings files store).run w).1
      = (store.appendAll (admitted settings w.disk files.pairs)).map
          (·, tally settings w.disk files.pairs) := by
  unfold gather
  by_cases hshared : isShared settings files = true
  · have harrivals := interleaving_byWorkers (workers_pos_of_isShared hshared) w.disk files.pairs
    obtain ⟨merge, -, hrun⟩ := run_of_sound harrivals hsound store
    rw [if_pos hshared, byWorkers_run, hrun]
    cases store.appendAll (admitted settings w.disk files.pairs) <;> rfl
  · rw [if_neg hshared, oneByOne_of_sound files.pairs store .empty rfl hsound]
    show (store.appendAll _).map (·, 0 + tally settings w.disk files.pairs) = _
    rw [zero_add]

/-- A reading that succeeds has found no fault. -/
theorem sound_of_gather_ok {files : FileSet} {result : Store × Tally}
    (h : ((gather settings files store).run w).1 = .ok result) :
    ∀ pair ∈ files.pairs, ¬pair.Faulty w.disk := by
  intro pair hpair hfaulty
  unfold gather at h
  by_cases hshared : isShared settings files = true
  · have harrivals := interleaving_byWorkers (workers_pos_of_isShared hshared) w.disk files.pairs
    obtain ⟨_, fault, ready, _, -, -, -, hrun⟩ := run_of_faulty harrivals hpair hfaulty store
    rw [if_pos hshared, byWorkers_run, hrun] at h
    cases hready : store.appendAll ready <;> simp [hready, Except.bind, Except.map] at h
  · obtain ⟨before, first, after, hsplit, hfirst, hbefore⟩ :=
      exists_first files.pairs ⟨pair, hpair, hfaulty⟩
    obtain ⟨fault, hfault⟩ := outcome_of_faulty settings hfirst
    rw [if_neg hshared, hsplit, oneByOne_of_fault hfault before store .empty rfl hbefore] at h
    cases hready : store.appendAll (admitted settings w.disk before
      ++ (Harvest.ofFiles settings w.disk .empty first).admitted) <;>
      simp [hready, Except.bind] at h

/-- A reading succeeds when no file pair is faulty and the admitted pairs can be written. -/
theorem gather_ok_iff {files : FileSet} {t : Tally} :
    ((gather settings files store).run w).1 = .ok (full, t) ↔
      (∀ pair ∈ files.pairs, ¬pair.Faulty w.disk) ∧
        store.appendAll (admitted settings w.disk files.pairs) = .ok full ∧
        t = tally settings w.disk files.pairs := by
  constructor
  · intro h
    have hsound := sound_of_gather_ok h
    rw [gather_of_sound hsound] at h
    cases hwritten : store.appendAll (admitted settings w.disk files.pairs) with
    | error fault => simp [hwritten, Except.map] at h
    | ok written =>
        simp only [hwritten, Except.map, Except.ok.injEq, Prod.mk.injEq] at h
        obtain ⟨rfl, rfl⟩ := h
        exact ⟨hsound, rfl, rfl⟩
  · rintro ⟨hsound, hwritten, rfl⟩
    rw [gather_of_sound hsound, hwritten]
    rfl

theorem disk_gather (settings : Settings) (files : FileSet) (store : Store) (w : Workspace) :
    ((gather settings files store).run w).2.disk = w.disk := by
  unfold gather
  split
  · rw [byWorkers_run]
  · exact disk_oneByOne settings files.pairs store .empty w

end

/-- **The order of arrival makes no difference.**  Let the messages of some file pairs arrive
in any order in which each file pair's own messages are in order, and let its admitted pairs
be writable.  Without a fault, the merge writes what reading in turn writes, comes to the same
tally, is complete after the last message and not before, and holds nothing then; with one
faulty file pair, both stop with its fault.  Any number of workers that take turns is a case
of it. -/
theorem order_of_arrival_is_immaterial {settings : Settings} {w : Workspace}
    {pairs : List FilePair} {store full : Store} {arrivals : List Message}
    (hwritten : store.appendAll (admitted settings w.disk pairs) = .ok full)
    (harrivals : Interleaving (messages settings w.disk pairs) arrivals) :
    ((∀ files ∈ pairs, ¬files.Faulty w.disk) →
      ((oneByOne settings pairs store .empty).run w).1
          = .ok (full, tally settings w.disk pairs) ∧
      (∃ merge, (Merging.start pairs.length store).run arrivals
          = .ok ⟨merge, full, tally settings w.disk pairs⟩) ∧
      (∀ before after, arrivals = before ++ after →
        ∃ m, (Merging.start pairs.length store).receiveAll before = .ok m ∧
          (m.merge.isComplete = true ↔ after = []) ∧
          (after = [] → m.store = full ∧ m.tally = tally settings w.disk pairs ∧
            ∀ held ∈ m.merge.held, held = [])) ∧
      (0 < settings.workers → ((byWorkers settings pairs store).run w).1
          = ((oneByOne settings pairs store .empty).run w).1)) ∧
    ∀ before files after, pairs = before ++ files :: after → files.Faulty w.disk →
      (∀ other ∈ before ++ after, ¬other.Faulty w.disk) →
      ∃ fault, ((oneByOne settings pairs store .empty).run w).1 = .error fault ∧
        (Merging.start pairs.length store).run arrivals = .error fault ∧
        (0 < settings.workers → ((byWorkers settings pairs store).run w).1 = .error fault) := by
  refine ⟨fun hsound => ?_, ?_⟩
  · have hturn : ((oneByOne settings pairs store .empty).run w).1
        = .ok (full, tally settings w.disk pairs) := by
      rw [oneByOne_of_sound pairs store .empty rfl hsound, hwritten]
      show Except.ok (full, 0 + tally settings w.disk pairs) = _
      rw [zero_add]
    refine ⟨hturn, ?_, ?_, ?_⟩
    · obtain ⟨merge, -, hrun⟩ := run_of_sound harrivals hsound store
      exact ⟨merge, by rw [hrun, hwritten]; rfl⟩
    · rintro before after rfl
      exact receiveAll_of_sound hwritten harrivals hsound
    · intro hworkers
      obtain ⟨merge, -, hrun⟩ :=
        run_of_sound (interleaving_byWorkers hworkers w.disk pairs) hsound store
      rw [hturn, byWorkers_run, hrun, hwritten]
      rfl
  · rintro before files after rfl hfaulty hothers
    obtain ⟨fault, hfault⟩ := outcome_of_faulty settings hfaulty
    refine ⟨fault, ?_, run_of_one_faulty hwritten harrivals hfault hothers, ?_⟩
    · rw [oneByOne_of_fault hfault before store .empty rfl
        fun other hother => hothers other (List.mem_append_left after hother)]
      rw [admitted_append, admitted_cons, ← List.append_assoc] at hwritten
      obtain ⟨written, hready, -⟩ := Store.of_appendAll_append hwritten
      rw [hready]
      rfl
    · intro hworkers
      rw [byWorkers_run, run_of_one_faulty hwritten
        (interleaving_byWorkers hworkers w.disk _) hfault hothers]
      rfl

/-- A disk with a file of one line and a file of two, and a folder for temporary files. -/
def twoFiles : Disk where
  entries := [([.given "a"], .file "x\n".toUTF8), ([.given "b"], .file "u\nv\n".toUTF8),
    ([.given "tmp"], .folder)]

/-- Each of the two files, paired with itself. -/
def doubled : List FilePair := [⟨⟨"/a"⟩, ⟨"/a"⟩⟩, ⟨⟨"/b"⟩, ⟨"/b"⟩⟩]

/-- Two pairs of one token a side fit into a batch. -/
def twoAtOnce : Settings where
  budget := some 4
  workers := 2

theorem admitted_doubled : admitted twoAtOnce twoFiles doubled
    = [⟨⟨"x", "x"⟩, 1, 1, false, 1⟩, ⟨⟨"u", "u"⟩, 1, 1, false, 1⟩,
        ⟨⟨"v", "v"⟩, 1, 1, false, 1⟩] := by
  cbv

theorem fits_admitted_doubled :
    ∀ p ∈ admitted twoAtOnce twoFiles doubled, PairRecord.Fits p := by
  rw [admitted_doubled]
  decide

theorem not_faulty_doubled : ∀ files ∈ doubled, ¬files.Faulty twoFiles := by
  have hsound : ∀ files ∈ doubled,
      (Harvest.ofFiles twoAtOnce twoFiles .empty files).outcome.isOk = true := by
    intro files hfiles
    rcases List.mem_pair.mp hfiles with rfl | rfl
    · cbv
    · cbv
  intro files hfiles
  have hok := hsound files hfiles
  have houtcome : ∃ t, (Harvest.ofFiles twoAtOnce twoFiles .empty files).outcome = .ok t := by
    cases houtcome : (Harvest.ofFiles twoAtOnce twoFiles .empty files).outcome with
    | ok t => exact ⟨t, rfl⟩
    | error fault => simp [houtcome, Except.isOk, Except.toBool] at hok
  exact (Harvest.ofFiles_ok_iff .empty).mp houtcome

/-- Two workers read two files, and the merge ends where reading in turn ends. -/
theorem two_workers_read_doubled :
    ∃ store full merge,
      ((oneByOne twoAtOnce doubled store .empty).run ⟨twoFiles, #[]⟩).1
        = .ok (full, tally twoAtOnce twoFiles doubled) ∧
      (Merging.start 2 store).run (Turns.arrivals 2 (messages twoAtOnce twoFiles doubled))
        = .ok ⟨merge, full, tally twoAtOnce twoFiles doubled⟩ := by
  obtain ⟨full, hwritten⟩ :=
    Store.appendAll_of_fits _ (.ofWriter (.ofFile ⟨"", []⟩)) fits_admitted_doubled
  have harrivals : Interleaving (messages twoAtOnce twoFiles doubled)
      (Turns.arrivals 2 (messages twoAtOnce twoFiles doubled)) :=
    interleaving_byWorkers (by decide) twoFiles doubled
  obtain ⟨hturn, ⟨merge, hrun⟩, -⟩ :=
    (order_of_arrival_is_immaterial (w := ⟨twoFiles, #[]⟩) hwritten harrivals).1 not_faulty_doubled
  exact ⟨_, full, merge, hturn, hrun⟩

end Bitext.Build
