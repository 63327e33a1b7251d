/-
The merge writes in corpus order, whatever the order of arrival.

While the messages come in, what the writer still owes is, file by file from the current
one on, what is held of a file and then what has not arrived of it.  A message moves a pair
from what has not arrived to what is held or writes it, and the release writes what is held
of the files that become current; in each case what is written is the beginning of what was
owed, and the rest stays owed.  So at every moment the pairs written and the pairs owed are
together all pairs in corpus order, and in the end nothing is owed.

The merge stops at a file of which messages are missing.  It is therefore complete when the
last message has arrived, and not before.
-/
import Mathlib.Algebra.BigOperators.Group.List.Basic
import Bitext.Proofs.Build.Interleaving
import Bitext.Proofs.Build.Store
import Bitext.Proofs.Tally

namespace Bitext

/-! ### Messages -/

namespace Message

/-- The pair that a message brings. -/
def pair? : Message → Option Admitted
  | .pair _ p => some p
  | _ => none

/-- The tally that a message brings. -/
def tally : Message → Tally
  | .done _ tally => tally
  | _ => 0

/-- The message tells of a fault. -/
def IsFault (message : Message) : Prop := ∃ fault, message = .failed fault

end Message

namespace Harvest

/-- The tally of a harvest, when it has come to one. -/
def tally (harvest : Harvest) : Tally :=
  match harvest.outcome with
  | .ok tally => tally
  | .error _ => 0

theorem messages_ne_nil (file : Nat) (harvest : Harvest) : harvest.messages file ≠ [] := by
  simp [messages]

theorem messages_of_admitted_cons (file : Nat) (p : Admitted) (rest : List Admitted)
    (outcome : Except Fault Tally) :
    (Harvest.mk (p :: rest) outcome).messages file
      = .pair file p :: (Harvest.mk rest outcome).messages file := rfl

theorem filterMap_pair?_messages (file : Nat) (harvest : Harvest) :
    (harvest.messages file).filterMap Message.pair? = harvest.admitted := by
  unfold messages
  rw [List.filterMap_append, List.filterMap_map]
  have hpairs : harvest.admitted.filterMap (Message.pair? ∘ Message.pair file)
      = harvest.admitted := by
    have hid : (Message.pair? ∘ Message.pair file) = some := rfl
    rw [hid, List.filterMap_some]
  cases houtcome : harvest.outcome <;> simp [hpairs, Message.pair?]

theorem sum_tally_messages (file : Nat) (harvest : Harvest) :
    ((harvest.messages file).map Message.tally).sum = harvest.tally := by
  unfold messages
  rw [List.map_append, List.map_map, List.sum_append]
  have hpairs : (harvest.admitted.map (Message.tally ∘ Message.pair file)).sum = 0 := by
    have hzero : (Message.tally ∘ Message.pair file) = fun _ => 0 := rfl
    rw [hzero, List.map_const']
    simp
  unfold tally
  cases harvest.outcome <;> simp [hpairs, Message.tally]

theorem failed_mem_messages_iff {file : Nat} {harvest : Harvest} {fault : Fault} :
    .failed fault ∈ harvest.messages file ↔ harvest.outcome = .error fault := by
  unfold messages
  cases harvest.outcome with
  | ok tally => simp
  | error other => simp [eq_comm]

end Harvest

/-- What has not arrived of a file: nothing, or the messages of what is left of its
harvest. -/
def Outstanding (file : Nat) (messages : List Message) : Prop :=
  messages = [] ∨ ∃ harvest : Harvest, messages = harvest.messages file

/-- The next message of a file is its next pair, and others follow; or it is its last. -/
theorem Outstanding.cases_cons {file : Nat} {message : Message} {rest : List Message}
    (h : Outstanding file (message :: rest)) (hsound : ¬message.IsFault) :
    (∃ p, message = .pair file p ∧ rest ≠ [] ∧ Outstanding file rest) ∨
      ∃ tally, message = .done file tally ∧ rest = [] := by
  rcases h with h | ⟨⟨admitted, outcome⟩, h⟩
  · simp at h
  · cases admitted with
    | cons p later =>
        rw [Harvest.messages_of_admitted_cons] at h
        obtain ⟨rfl, rfl⟩ := List.cons.inj h
        exact .inl ⟨p, rfl, Harvest.messages_ne_nil file _, .inr ⟨_, rfl⟩⟩
    | nil =>
        cases outcome with
        | ok tally =>
            obtain ⟨rfl, rfl⟩ := List.cons.inj h
            exact .inr ⟨tally, rfl, rfl⟩
        | error fault =>
            obtain ⟨rfl, rfl⟩ := List.cons.inj h
            exact absurd ⟨fault, rfl⟩ hsound

/-! ### From one file on -/

/-- What a function gives for the numbers from one to before another, joined. -/
def joinedFrom (f : Nat → List Admitted) (first stop : Nat) : List Admitted :=
  (List.range' first (stop - first)).flatMap f

theorem joinedFrom_step (f : Nat → List Admitted) {first stop : Nat} (h : first < stop) :
    joinedFrom f first stop = f first ++ joinedFrom f (first + 1) stop := by
  have hcount : stop - first = (stop - (first + 1)) + 1 := by omega
  unfold joinedFrom
  rw [hcount, List.range'_succ, List.flatMap_cons]

theorem joinedFrom_congr {f g : Nat → List Admitted} {first stop : Nat}
    (h : ∀ i, first ≤ i → i < stop → f i = g i) :
    joinedFrom f first stop = joinedFrom g first stop := by
  unfold joinedFrom
  refine List.flatMap_congr fun i hi => ?_
  obtain ⟨hfirst, hstop⟩ := List.mem_range'_1.mp hi
  exact h i hfirst (by omega)

theorem joinedFrom_self (f : Nat → List Admitted) (stop : Nat) : joinedFrom f stop stop = [] := by
  simp [joinedFrom]

namespace Merge

variable {m : Merge} {rests : List (List Message)}

/-- The pairs that have not arrived of a file. -/
def pending (rests : List (List Message)) (file : Nat) : List Admitted :=
  (rests[file]?.getD []).filterMap Message.pair?

/-- The pairs that are still to be written. -/
def owed (m : Merge) (rests : List (List Message)) : List Admitted :=
  joinedFrom (fun file => m.heldOf file ++ pending rests file) m.current rests.length

/-- The merge knows which files are done, and holds pairs of files after the current one
only. -/
structure Tracks (m : Merge) (rests : List (List Message)) : Prop where
  done : m.done = rests.map List.isEmpty
  held : m.held.length = rests.length
  current : m.current ≤ rests.length
  before : ∀ file, file < m.current → rests[file]? = some []
  quiet : ∀ file, file ≤ m.current → m.heldOf file = []

/-- The merge is where the messages that have arrived have taken it: it tracks the files,
and the current one is not done. -/
structure Follows (m : Merge) (rests : List (List Message)) : Prop extends Tracks m rests where
  settled : rests[m.current]? ≠ some []
  outstanding : ∀ {file messages}, rests[file]? = some messages → Outstanding file messages

theorem isComplete_iff (h : m.Tracks rests) : m.isComplete = true ↔ m.current = rests.length := by
  simp [isComplete, h.done]

/-- **A merge is complete exactly when nothing is outstanding.** -/
theorem Follows.isComplete_iff (h : m.Follows rests) :
    m.isComplete = true ↔ ∀ rest ∈ rests, rest = [] := by
  rw [Merge.isComplete_iff h.toTracks]
  constructor
  · intro hcurrent rest hrest
    obtain ⟨file, hfile⟩ := List.getElem?_of_mem hrest
    have hlt : file < rests.length := (List.getElem?_eq_some_iff.mp hfile).1
    have hnone := h.before file (by omega)
    exact Option.some.inj (hfile.symm.trans hnone)
  · intro hall
    rcases Nat.lt_or_eq_of_le h.current with hlt | heq
    · have hempty := hall _ (List.getElem_mem hlt)
      exact absurd (by rw [List.getElem?_eq_getElem hlt, hempty]) h.settled
    · exact heq

theorem Follows.owed_of_isComplete (h : m.Follows rests) (hcomplete : m.isComplete = true) :
    m.owed rests = [] := by
  rw [owed, (Merge.isComplete_iff h.toTracks).mp hcomplete, joinedFrom_self]

/-- A complete merge holds nothing. -/
theorem Follows.held_of_isComplete (h : m.Follows rests) (hcomplete : m.isComplete = true) :
    ∀ held ∈ m.held, held = [] := by
  intro held hmem
  obtain ⟨file, hfile⟩ := List.getElem?_of_mem hmem
  have hlt : file < m.held.length := (List.getElem?_eq_some_iff.mp hfile).1
  have hcurrent := (Merge.isComplete_iff h.toTracks).mp hcomplete
  have hquiet := h.quiet file (by rw [hcurrent, ← h.held]; exact Nat.le_of_lt hlt)
  rwa [heldOf, hfile, Option.getD_some] at hquiet

theorem Follows.not_isComplete {file : Nat} {message : Message} {rest : List Message}
    (h : m.Follows rests) (hfile : rests[file]? = some (message :: rest)) :
    m.isComplete = false := by
  rw [Bool.eq_false_iff, ne_eq, h.isComplete_iff]
  intro hall
  have hempty := hall _ (List.mem_of_getElem? hfile)
  simp at hempty

/-- A file of which messages are missing is the current one or comes after it. -/
theorem Tracks.current_le {file : Nat} {message : Message} {rest : List Message}
    (h : m.Tracks rests) (hfile : rests[file]? = some (message :: rest)) : m.current ≤ file := by
  rcases Nat.lt_or_ge file m.current with hlt | hge
  · have hnone := h.before file hlt
    rw [hfile] at hnone
    simp at hnone
  · exact hge

/-! ### One message -/

theorem pending_set_self {file : Nat} {rest : List Message} (hfile : file < rests.length) :
    pending (rests.set file rest) file = rest.filterMap Message.pair? := by
  simp [pending, hfile]

theorem pending_set_of_ne {file other : Nat} (h : file ≠ other) (rest : List Message) :
    pending (rests.set file rest) other = pending rests other := by
  simp [pending, h]

/-- What was outstanding of other files stays so. -/
theorem outstanding_set {file : Nat} {rest : List Message}
    (h : ∀ {other messages}, rests[other]? = some messages → Outstanding other messages)
    (hrest : Outstanding file rest) {other : Nat} {messages : List Message}
    (hother : (rests.set file rest)[other]? = some messages) : Outstanding other messages := by
  by_cases hne : file = other
  · subst hne
    have hlt : file < rests.length := by
      have hlength := (List.getElem?_eq_some_iff.mp hother).1
      simpa using hlength
    rw [List.getElem?_set_self hlt] at hother
    exact Option.some.inj hother ▸ hrest
  · rw [List.getElem?_set_ne hne] at hother
    exact h hother

/-- A merge that differs in what it holds of later files still follows when a message of a
file has come and others are to come. -/
theorem Follows.of_message {m' : Merge} {file : Nat} {message : Message} {rest : List Message}
    (h : m.Follows rests) (hfile : rests[file]? = some (message :: rest)) (hne : rest ≠ [])
    (hrest : Outstanding file rest) (hcurrent : m'.current = m.current) (hdone : m'.done = m.done)
    (hheld : m'.held.length = m.held.length)
    (hquiet : ∀ other, other ≤ m.current → m'.heldOf other = m.heldOf other) :
    m'.Follows (rests.set file rest) where
  done := by
    have hlt : file < (rests.map List.isEmpty).length := by
      simpa using (List.getElem?_eq_some_iff.mp hfile).1
    have hsame : (rests.map List.isEmpty)[file] = rest.isEmpty := by
      have hget := (List.getElem?_eq_some_iff.mp hfile).2
      rw [List.getElem_map, hget]
      simpa using hne
    rw [hdone, h.done, List.map_set, ← hsame, List.set_getElem_self]
  held := by rw [hheld, h.held, List.length_set]
  current := by rw [hcurrent, List.length_set]; exact h.current
  before other hother := by
    have hle := h.current_le hfile
    rw [List.getElem?_set_ne (by omega)]
    exact h.before other (by omega)
  quiet other hother := by
    rw [hcurrent] at hother
    rw [hquiet other hother]
    exact h.quiet other hother
  settled := by
    rw [hcurrent]
    by_cases heq : file = m.current
    · rw [← heq, List.getElem?_set_self (List.getElem?_eq_some_iff.mp hfile).1]
      simpa using hne
    · rw [List.getElem?_set_ne heq]
      exact h.settled
  outstanding := outstanding_set h.outstanding hrest

/-- A pair of the current file is written at once. -/
theorem Follows.hold_current {p : Admitted} {rest : List Message} (h : m.Follows rests)
    (hfile : rests[m.current]? = some (.pair m.current p :: rest)) (hne : rest ≠ [])
    (hrest : Outstanding m.current rest) :
    m.Follows (rests.set m.current rest) ∧
      m.owed rests = p :: m.owed (rests.set m.current rest) := by
  have hlt : m.current < rests.length := (List.getElem?_eq_some_iff.mp hfile).1
  have hpending : pending rests m.current = p :: rest.filterMap Message.pair? := by
    simp [pending, hfile, Message.pair?]
  have hlater : joinedFrom (fun file => m.heldOf file ++ pending rests file) (m.current + 1)
        rests.length
      = joinedFrom (fun file => m.heldOf file ++ pending (rests.set m.current rest) file)
        (m.current + 1) rests.length := by
    refine joinedFrom_congr fun other hother _ => ?_
    rw [pending_set_of_ne (by omega)]
  refine ⟨h.of_message hfile hne hrest rfl rfl rfl fun _ _ => rfl, ?_⟩
  unfold owed
  rw [List.length_set, joinedFrom_step _ hlt, hlater, joinedFrom_step (fun _ => _ ++ _) hlt,
    h.quiet m.current (Nat.le_refl _), hpending, pending_set_self hlt]
  rfl

/-- The merge with a pair of a later file held. -/
def holding (m : Merge) (file : Nat) (p : Admitted) : Merge :=
  { m with held := m.held.modify file (· ++ [p]) }

theorem heldOf_holding_self {file : Nat} (h : file < m.held.length) (p : Admitted) :
    (m.holding file p).heldOf file = m.heldOf file ++ [p] := by
  simp [holding, heldOf, h]

theorem heldOf_holding_of_ne {file other : Nat} (h : file ≠ other) (p : Admitted) :
    (m.holding file p).heldOf other = m.heldOf other := by
  simp [holding, heldOf, h]

/-- A pair of a later file is held behind the others of its file. -/
theorem Follows.hold_later {file : Nat} {p : Admitted} {rest : List Message} (h : m.Follows rests)
    (hfile : rests[file]? = some (.pair file p :: rest)) (hlater : file ≠ m.current)
    (hne : rest ≠ []) (hrest : Outstanding file rest) :
    (m.holding file p).Follows (rests.set file rest) ∧
      m.owed rests = (m.holding file p).owed (rests.set file rest) := by
  have hlt : file < rests.length := (List.getElem?_eq_some_iff.mp hfile).1
  have hle := h.current_le hfile
  have hpending : pending rests file = p :: rest.filterMap Message.pair? := by
    simp [pending, hfile, Message.pair?]
  refine ⟨h.of_message hfile hne hrest rfl rfl (by simp [holding]) ?_, ?_⟩
  · intro other hother
    exact heldOf_holding_of_ne (by omega) p
  · unfold owed
    rw [List.length_set]
    refine joinedFrom_congr fun other _ _ => ?_
    by_cases hother : file = other
    · subst hother
      rw [heldOf_holding_self (by rw [h.held]; exact hlt), hpending, pending_set_self hlt,
        List.append_assoc, List.singleton_append]
    · rw [heldOf_holding_of_ne hother, pending_set_of_ne hother]

/-- Taking a pair writes the beginning of what is owed and keeps the rest. -/
theorem Follows.hold {file : Nat} {p : Admitted} {rest : List Message} (h : m.Follows rests)
    (hfile : rests[file]? = some (.pair file p :: rest)) (hne : rest ≠ [])
    (hrest : Outstanding file rest) :
    (m.hold file p).2.Follows (rests.set file rest) ∧
      m.owed rests = (m.hold file p).1 ++ (m.hold file p).2.owed (rests.set file rest) := by
  by_cases heq : file = m.current
  · subst heq
    have hhold : m.hold m.current p = ([p], m) := by rw [Merge.hold, if_pos rfl]
    rw [hhold]
    exact h.hold_current hfile hne hrest
  · have hhold : m.hold file p = ([], m.holding file p) := by
      rw [Merge.hold, if_neg heq]
      rfl
    rw [hhold]
    exact h.hold_later hfile heq hne hrest

/-- The merge at the next file, of which nothing is held any more. -/
def advanced (m : Merge) : Merge :=
  { m with current := m.current + 1, held := m.held.set (m.current + 1) [] }

theorem heldOf_advanced_next : m.advanced.heldOf (m.current + 1) = [] := by
  unfold advanced heldOf
  by_cases hin : m.current + 1 < m.held.length
  · simp [hin]
  · rw [List.getElem?_eq_none (by simpa using hin)]
    rfl

theorem heldOf_advanced_of_ne {other : Nat} (h : m.current + 1 ≠ other) :
    m.advanced.heldOf other = m.heldOf other := by
  simp [advanced, heldOf, h]

theorem Tracks.advanced (h : m.Tracks rests) (hempty : rests[m.current]? = some []) :
    m.advanced.Tracks rests := by
  have hlt : m.current < rests.length := (List.getElem?_eq_some_iff.mp hempty).1
  refine ⟨h.done, by simpa [Merge.advanced] using h.held, hlt, ?_, ?_⟩
  · intro file hfile
    rcases Nat.lt_or_eq_of_le (Nat.le_of_lt_succ hfile) with hbefore | rfl
    · exact h.before file hbefore
    · exact hempty
  · intro file hfile
    rcases Nat.lt_or_eq_of_le hfile with hbefore | rfl
    · have hbefore : file < m.current + 1 := hbefore
      rw [heldOf_advanced_of_ne (by omega)]
      exact h.quiet file (Nat.le_of_lt_succ hbefore)
    · exact heldOf_advanced_next

/-- Moving on from a file that is done writes what is held of the next one. -/
theorem Tracks.owed_advanced (h : m.Tracks rests) (hempty : rests[m.current]? = some []) :
    m.owed rests = m.heldOf (m.current + 1) ++ m.advanced.owed rests := by
  have hlt : m.current < rests.length := (List.getElem?_eq_some_iff.mp hempty).1
  have hnothing : m.heldOf m.current ++ pending rests m.current = [] := by
    rw [h.quiet m.current (Nat.le_refl _), pending, hempty]
    rfl
  have hstart : m.advanced.owed rests
      = joinedFrom (fun file => m.advanced.heldOf file ++ pending rests file) (m.current + 1)
        rests.length := rfl
  rw [hstart, owed, joinedFrom_step _ hlt, hnothing, List.nil_append]
  rcases Nat.lt_or_eq_of_le hlt with hmore | hlast
  · have hlater : joinedFrom (fun file => m.heldOf file ++ pending rests file)
          (m.current + 1 + 1) rests.length
        = joinedFrom (fun file => m.advanced.heldOf file ++ pending rests file)
          (m.current + 1 + 1) rests.length := by
      refine joinedFrom_congr fun other hother _ => ?_
      rw [heldOf_advanced_of_ne (by omega)]
    rw [joinedFrom_step _ hmore, hlater, joinedFrom_step (fun _ => _ ++ _) hmore,
      heldOf_advanced_next, List.nil_append, List.append_assoc]
  · have hnone : m.heldOf (m.current + 1) = [] := by
      rw [heldOf, List.getElem?_eq_none (by rw [h.held]; omega)]
      rfl
    have hlast : m.current + 1 = rests.length := hlast
    rw [hnone, hlast, joinedFrom_self, joinedFrom_self, List.nil_append]

/-- The release stops at a file that is not done, and writes what was held of the files on
the way. -/
theorem Tracks.release (n : Nat) :
    ∀ {m : Merge}, m.Tracks rests → rests.length ≤ m.current + n →
      (release n m).2.Tracks rests ∧ rests[(release n m).2.current]? ≠ some [] ∧
        m.owed rests = (release n m).1 ++ (release n m).2.owed rests := by
  induction n with
  | zero =>
      intro m h hn
      refine ⟨h, ?_, rfl⟩
      rw [Merge.release, List.getElem?_eq_none (by omega)]
      simp
  | succ n ih =>
      intro m h hn
      have hcurrent : m.done[m.current]? = some true ↔ rests[m.current]? = some [] := by
        rw [h.done, List.getElem?_map]
        cases rests[m.current]? <;> simp
      by_cases hdone : m.done[m.current]? = some true
      · have hempty := hcurrent.mp hdone
        have hfuel : rests.length ≤ m.advanced.current + n := by
          show rests.length ≤ m.current + 1 + n
          omega
        obtain ⟨hafter, hsettled, hrest⟩ := ih (h.advanced hempty) hfuel
        have hrelease : Merge.release (n + 1) m
            = (m.heldOf (m.current + 1) ++ (Merge.release n m.advanced).1,
              (Merge.release n m.advanced).2) := by
          rw [Merge.release, if_pos hdone]
          rfl
        rw [hrelease]
        refine ⟨hafter, hsettled, ?_⟩
        rw [h.owed_advanced hempty, hrest, List.append_assoc]
      · rw [Merge.release, if_neg hdone]
        exact ⟨h, fun hempty => hdone (hcurrent.mpr hempty), rfl⟩

/-- The merge that knows that a file is done. -/
def marked (m : Merge) (file : Nat) : Merge := { m with done := m.done.set file true }

/-- The end of a file writes the beginning of what is owed and keeps the rest. -/
theorem Follows.finish {file : Nat} {tally : Tally} (h : m.Follows rests)
    (hfile : rests[file]? = some [.done file tally]) :
    (m.finish file).2.Follows (rests.set file []) ∧
      m.owed rests = (m.finish file).1 ++ (m.finish file).2.owed (rests.set file []) := by
  have hlt : file < rests.length := (List.getElem?_eq_some_iff.mp hfile).1
  have hle := h.current_le hfile
  have htracks : (m.marked file).Tracks (rests.set file []) := by
    refine ⟨?_, by simpa [marked] using h.held, by simpa [marked] using h.current, ?_, h.quiet⟩
    · show m.done.set file true = _
      rw [h.done, List.map_set]
      rfl
    · intro other hother
      have hother : other < m.current := hother
      rw [List.getElem?_set_ne (by omega)]
      exact h.before other hother
  have howed : m.owed rests = (m.marked file).owed (rests.set file []) := by
    unfold owed
    rw [List.length_set]
    refine joinedFrom_congr fun other _ _ => ?_
    show m.heldOf other ++ _ = m.heldOf other ++ _
    by_cases hne : file = other
    · subst hne
      rw [pending_set_self hlt, pending, hfile]
      rfl
    · rw [pending_set_of_ne hne]
  have hfuel : (rests.set file []).length ≤ (m.marked file).current + m.done.length := by
    rw [List.length_set, h.done, List.length_map]
    omega
  obtain ⟨hafter, hsettled, hrest⟩ := htracks.release m.done.length hfuel
  refine ⟨⟨hafter, hsettled, outstanding_set h.outstanding (.inl rfl)⟩, ?_⟩
  rw [howed, hrest]
  rfl

/-! ### The start -/

/-- The messages of harvests, file by file. -/
def messagesOf (harvests : List Harvest) : List (List Message) :=
  harvests.mapIdx fun file harvest => harvest.messages file

theorem getElem?_messagesOf (harvests : List Harvest) (file : Nat) :
    (messagesOf harvests)[file]? = harvests[file]?.map (·.messages file) := by
  rw [messagesOf, List.getElem?_mapIdx]

theorem length_messagesOf (harvests : List Harvest) :
    (messagesOf harvests).length = harvests.length := List.length_mapIdx

theorem ne_nil_of_mem_messagesOf {harvests : List Harvest} :
    ∀ messages ∈ messagesOf harvests, messages ≠ [] := by
  intro messages hmem
  obtain ⟨file, hfile, rfl⟩ := List.mem_mapIdx.mp hmem
  exact Harvest.messages_ne_nil file _

theorem heldOf_ofSize (files file : Nat) : (ofSize files).heldOf file = [] := by
  unfold ofSize heldOf
  rw [List.getElem?_replicate]
  split <;> rfl

/-- A merge starts where nothing has arrived. -/
theorem follows_ofSize (harvests : List Harvest) :
    (ofSize harvests.length).Follows (messagesOf harvests) where
  done := by
    have hfalse : ∀ messages ∈ messagesOf harvests, messages.isEmpty = false := by
      intro messages hmem
      simpa using ne_nil_of_mem_messagesOf messages hmem
    rw [List.map_congr_left hfalse, List.map_const', length_messagesOf]
    rfl
  held := by
    rw [length_messagesOf]
    exact List.length_replicate
  current := Nat.zero_le _
  before file hfile := absurd hfile (Nat.not_lt_zero file)
  quiet file _ := heldOf_ofSize _ file
  settled := by
    rw [getElem?_messagesOf]
    cases harvests[(ofSize harvests.length).current]? with
    | none => simp
    | some harvest => simpa using Harvest.messages_ne_nil _ harvest
  outstanding {file messages} hfile := by
    rw [getElem?_messagesOf] at hfile
    obtain ⟨harvest, -, rfl⟩ := Option.map_eq_some_iff.mp hfile
    exact .inr ⟨harvest, rfl⟩

/-- In the beginning all pairs are owed, in corpus order. -/
theorem owed_ofSize (harvests : List Harvest) :
    (ofSize harvests.length).owed (messagesOf harvests) = harvests.flatMap (·.admitted) := by
  have hfile : ∀ file (hfile : file < harvests.length),
      (ofSize harvests.length).heldOf file ++ pending (messagesOf harvests) file
        = harvests[file].admitted := by
    intro file hfile
    rw [heldOf_ofSize, List.nil_append, pending, getElem?_messagesOf,
      List.getElem?_eq_getElem hfile]
    exact Harvest.filterMap_pair?_messages file _
  have hmap : (List.range harvests.length).map
        (fun file => (ofSize harvests.length).heldOf file ++ pending (messagesOf harvests) file)
      = harvests.map (·.admitted) := by
    refine List.ext_getElem (by simp) fun file _ hlt => ?_
    rw [List.getElem_map, List.getElem_range, List.getElem_map]
    exact hfile file (by simpa using hlt)
  have hstart : (ofSize harvests.length).current = 0 := rfl
  rw [owed, joinedFrom, hstart, Nat.sub_zero, length_messagesOf, ← List.range_eq_range',
    List.flatMap_def, hmap, ← List.flatMap_def]

theorem sum_tally_messagesOf (harvests : List Harvest) :
    ((messagesOf harvests).flatten.map Message.tally).sum = (harvests.map Harvest.tally).sum := by
  have hfiles : (messagesOf harvests).map (fun messages => (messages.map Message.tally).sum)
      = harvests.map Harvest.tally := by
    refine List.ext_getElem (by simp [length_messagesOf]) fun file _ _ => ?_
    simp only [messagesOf, List.getElem_map, List.getElem_mapIdx, Harvest.sum_tally_messages]
  rw [List.map_flatten, List.sum_flatten, List.map_map, ← hfiles]
  rfl

/-- A fault among the messages is the fault of a harvest. -/
theorem failed_mem_iff {harvests : List Harvest} {fault : Fault} :
    .failed fault ∈ (messagesOf harvests).flatten ↔
      ∃ harvest ∈ harvests, harvest.outcome = .error fault := by
  constructor
  · intro h
    obtain ⟨messages, hmessages, hmem⟩ := List.mem_flatten.mp h
    obtain ⟨file, hfile, rfl⟩ := List.mem_mapIdx.mp hmessages
    exact ⟨_, List.getElem_mem hfile, Harvest.failed_mem_messages_iff.mp hmem⟩
  · rintro ⟨harvest, hharvest, houtcome⟩
    obtain ⟨file, hfile, rfl⟩ := List.getElem_of_mem hharvest
    exact List.mem_flatten.mpr ⟨_, List.mem_mapIdx.mpr ⟨file, hfile, rfl⟩,
      Harvest.failed_mem_messages_iff.mpr houtcome⟩

end Merge

/-! ### All messages

The induction is on the messages that have arrived.  It leaves the lists of what is
outstanding open, because they shrink with every message.
-/

namespace Merging

/-- Takes messages, all of them. -/
def receiveAll (m : Merging) (messages : List Message) : Except Fault Merging :=
  messages.foldlM receive m

theorem receiveAll_cons (m : Merging) (message : Message) (rest : List Message) :
    m.receiveAll (message :: rest) = (m.receive message).bind (·.receiveAll rest) :=
  List.foldlM_cons

/-- A message writes the beginning of what is owed, and nothing else can stop it. -/
theorem receive_eq {merge : Merge} {rests : List (List Message)} {file : Nat} {message : Message}
    {rest : List Message} (h : merge.Follows rests)
    (hfile : rests[file]? = some (message :: rest)) (hsound : ¬message.IsFault) :
    ∃ ready later, later.Follows (rests.set file rest) ∧
      merge.owed rests = ready ++ later.owed (rests.set file rest) ∧
      ∀ store tally, receive ⟨merge, store, tally⟩ message
        = (store.appendAll ready).map (⟨later, ·, tally + message.tally⟩) := by
  rcases (h.outstanding hfile).cases_cons hsound with ⟨p, rfl, hne, hrest⟩ | ⟨done, rfl, rfl⟩
  · obtain ⟨hfollows, howed⟩ := h.hold hfile hne hrest
    refine ⟨(merge.hold file p).1, (merge.hold file p).2, hfollows, howed, fun store tally => ?_⟩
    simp only [receive, bind, Except.bind, Message.tally, add_zero]
    cases store.appendAll (merge.hold file p).1 <;> rfl
  · obtain ⟨hfollows, howed⟩ := h.finish hfile
    refine ⟨(merge.finish file).1, (merge.finish file).2, hfollows, howed, fun store tally => ?_⟩
    simp only [receive, bind, Except.bind, Message.tally]
    cases store.appendAll (merge.finish file).1 <;> rfl

/-- Messages without a fault write the beginning of what is owed, and the others can
still arrive. -/
theorem receiveAll_eq {after : List Message} (before : List Message) :
    ∀ {merge : Merge} {rests : List (List Message)},
      merge.Follows rests → Interleaving rests (before ++ after) →
      (∀ message ∈ before, ¬message.IsFault) →
      ∃ left ready later, Interleaving left after ∧ later.Follows left ∧
        merge.owed rests = ready ++ later.owed left ∧
        ∀ store tally, receiveAll ⟨merge, store, tally⟩ before
          = (store.appendAll ready).map (⟨later, ·, tally + (before.map Message.tally).sum⟩) := by
  induction before with
  | nil =>
      intro merge rests h hcome _
      refine ⟨rests, [], merge, hcome, h, rfl, fun store tally => ?_⟩
      simp only [List.map_nil, List.sum_nil, add_zero]
      rfl
  | cons message rest ih =>
      intro merge rests h hcome hsound
      rw [List.cons_append] at hcome
      cases hcome with
      | next hfile hlater =>
          obtain ⟨ready, next, hfollows, howed, hreceive⟩ :=
            receive_eq h hfile (hsound message (by simp))
          obtain ⟨left, more, later, hleft, hlaterFollows, hmore, hrest⟩ :=
            ih hfollows hlater fun later hmem => hsound later (List.mem_cons_of_mem message hmem)
          refine ⟨left, ready ++ more, later, hleft, hlaterFollows, ?_, fun store tally => ?_⟩
          · rw [howed, hmore, List.append_assoc]
          · rw [receiveAll_cons, hreceive, Store.appendAll_append]
            cases store.appendAll ready with
            | error fault => rfl
            | ok written =>
                show receiveAll ⟨next, written, tally + message.tally⟩ rest = _
                rw [hrest, List.map_cons, List.sum_cons, add_assoc]
                rfl

/-- As long as messages are missing the run takes the next one. -/
theorem run_append {after : List Message} (before : List Message) :
    ∀ {m : Merging} {rests : List (List Message)},
      m.merge.Follows rests → Interleaving rests (before ++ after) →
      (∀ message ∈ before, ¬message.IsFault) →
      m.run (before ++ after) = (m.receiveAll before).bind (·.run after) := by
  induction before with
  | nil => intro m rests _ _ _; rfl
  | cons message rest ih =>
      intro m rests h hcome hsound
      rw [List.cons_append] at hcome
      cases hcome with
      | next hfile hlater =>
          obtain ⟨ready, next, hfollows, -, hreceive⟩ :=
            receive_eq h hfile (hsound message (by simp))
          have hreceive := hreceive m.store m.tally
          rw [List.cons_append, run, if_neg (by simp [h.not_isComplete hfile]), receiveAll_cons]
          show (m.receive message).bind (·.run (rest ++ after)) = _
          rw [hreceive]
          cases m.store.appendAll ready with
          | error fault => rfl
          | ok written =>
              show run ⟨next, written, m.tally + message.tally⟩ (rest ++ after) = _
              rw [ih hfollows hlater
                fun later hmem => hsound later (List.mem_cons_of_mem message hmem)]
              rfl

/-- Messages without a fault write all that is owed and complete the merge. -/
theorem run_of_sound {m : Merging} {rests : List (List Message)} {l : List Message}
    (h : m.merge.Follows rests) (hcome : Interleaving rests l)
    (hsound : ∀ message ∈ l, ¬message.IsFault) :
    ∃ merge, merge.isComplete = true ∧
      m.run l = (m.store.appendAll (m.merge.owed rests)).map
        (⟨merge, ·, m.tally + (l.map Message.tally).sum⟩) := by
  have hcome : Interleaving rests (l ++ []) := by rwa [List.append_nil]
  obtain ⟨left, ready, merge, hleft, hfollows, howed, hreceive⟩ :=
    receiveAll_eq l h hcome hsound
  have hcomplete := hfollows.isComplete_iff.mpr (hleft.eq_nil_iff.mp rfl)
  refine ⟨merge, hcomplete, ?_⟩
  have hrun := run_append l h hcome hsound
  have hreceive := hreceive m.store m.tally
  rw [List.append_nil] at hrun
  rw [hrun, hreceive, howed, hfollows.owed_of_isComplete hcomplete, List.append_nil]
  cases m.store.appendAll ready with
  | error fault => rfl
  | ok written =>
      show run ⟨merge, written, _⟩ [] = _
      rw [run, if_pos hcomplete]
      rfl

/-- The first fault that arrives stops the run, unless a pair could not be written before. -/
theorem run_of_fault {m : Merging} {rests : List (List Message)} {before after : List Message}
    {fault : Fault} (h : m.merge.Follows rests)
    (hcome : Interleaving rests (before ++ .failed fault :: after))
    (hsound : ∀ message ∈ before, ¬message.IsFault) :
    ∃ ready later, m.merge.owed rests = ready ++ later ∧
      m.run (before ++ .failed fault :: after)
        = (m.store.appendAll ready).bind fun _ => .error fault := by
  obtain ⟨left, ready, merge, hleft, hfollows, howed, hreceive⟩ :=
    receiveAll_eq before h hcome hsound
  refine ⟨ready, merge.owed left, howed, ?_⟩
  have hreceive := hreceive m.store m.tally
  rw [run_append before h hcome hsound, hreceive]
  cases m.store.appendAll ready with
  | error other => rfl
  | ok written =>
      show run ⟨merge, written, _⟩ (.failed fault :: after) = .error fault
      cases hleft with
      | next hfile _ =>
          rw [run, if_neg (by simp [hfollows.not_isComplete hfile])]
          rfl

end Merging

end Bitext
