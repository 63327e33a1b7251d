/-
Temporary files among the entries of a disk.

A name is drawn with a serial number above all that were drawn before, so a file that is
made under it stands behind the entries that were there and is told from all of them.
Writing it leaves it there, and deleting it brings the entries back exactly as they were.

Two relations say what some work has come to: it has left the entries of a disk as they
were, or it has added one file behind them.  Over a longer time the disk holds some files
beside those of a base; each of them can be added and deleted without touching the others.
-/
import Bitext.Proofs.Disk

namespace Bitext.Disk

variable {disk middle after : Disk} {place file other : Location} {ending : String}

/-- All names on the disk were drawn before those that will be. -/
def Fresh (disk : Disk) : Prop :=
  ∀ entry ∈ disk.entries, ∀ serial ending,
    entry.1.getLast? = some (.drawn serial ending) → serial < disk.drawn

/-- The entries are what they were. -/
structure Keeps (disk after : Disk) : Prop where
  entries : after.entries = disk.entries
  drawn : disk.drawn ≤ after.drawn

/-- A file stands behind the entries that were there, under a name drawn for it in a
folder. -/
structure Gains (place : Location) (ending : String) (disk after : Disk) (file : Location) :
    Prop where
  name : ∃ serial, disk.drawn ≤ serial ∧ serial < after.drawn ∧
    file = place ++ [.drawn serial ending]
  entries : ∃ bytes, after.entries = disk.entries ++ [(file, .file bytes)]

/-! ### Entries -/

theorem filter_ne_of_absent {entries : List (Location × Node)}
    (h : ∀ entry ∈ entries, entry.1 ≠ place) : entries.filter (·.1 ≠ place) = entries := by
  apply List.filter_eq_self.mpr
  intro entry hentry
  simpa using h entry hentry

theorem exists_entry_of_isFile (h : disk.isFile file = true) :
    ∃ bytes, (file, Node.file bytes) ∈ disk.entries := by
  unfold isFile at h
  split at h
  · rename_i bytes hnode
    refine ⟨bytes, ?_⟩
    unfold node? at hnode
    split at hnode
    · cases hnode
    · obtain ⟨before, after, hentries, -⟩ := List.lookup_eq_some_iff.mp hnode
      rw [hentries]
      exact List.mem_append_right _ (List.mem_cons_self ..)
  · cases h

theorem Fresh.ne_of_mem (h : disk.Fresh) {serial : Nat} (hserial : disk.drawn ≤ serial) :
    ∀ entry ∈ disk.entries, entry.1 ≠ place ++ [.drawn serial ending] := by
  intro entry hentry heq
  have hless := h entry hentry serial ending (by rw [heq, List.getLast?_concat])
  omega

/-! ### Work that keeps the entries -/

theorem Keeps.trans (h : disk.Keeps middle) (hlater : middle.Keeps after) : disk.Keeps after :=
  ⟨hlater.entries.trans h.entries, Nat.le_trans h.drawn hlater.drawn⟩

theorem Keeps.fresh (h : disk.Keeps after) (hfresh : disk.Fresh) : after.Fresh := by
  intro entry hentry serial ending hlast
  rw [h.entries] at hentry
  exact Nat.lt_of_lt_of_le (hfresh entry hentry serial ending hlast) h.drawn

theorem Keeps.gains (h : disk.Keeps middle) (hlater : Gains place ending middle after file) :
    Gains place ending disk after file := by
  obtain ⟨serial, hserial, hless, hname⟩ := hlater.name
  refine ⟨⟨serial, Nat.le_trans h.drawn hserial, hless, hname⟩, ?_⟩
  rw [← h.entries]
  exact hlater.entries

theorem Keeps.erase (h : disk.Keeps after) (file : Location) :
    (disk.erase file).Keeps (after.erase file) where
  entries := by
    show after.entries.filter _ = disk.entries.filter _
    rw [h.entries]
  drawn := h.drawn

/-! ### Work that adds a file -/

namespace Gains

theorem drawn_lt (h : Gains place ending disk after file) : disk.drawn < after.drawn := by
  obtain ⟨serial, hserial, hless, -⟩ := h.name
  omega

theorem isDrawn (h : Gains place ending disk after file) : IsDrawn file ending := by
  obtain ⟨serial, -, -, hname⟩ := h.name
  exact ⟨place, serial, hname⟩

theorem ne_of_mem (h : Gains place ending disk after file) (hfresh : disk.Fresh) :
    ∀ entry ∈ disk.entries, entry.1 ≠ file := by
  obtain ⟨serial, hserial, -, rfl⟩ := h.name
  exact hfresh.ne_of_mem hserial

theorem fresh (h : Gains place ending disk after file) (hfresh : disk.Fresh) : after.Fresh := by
  obtain ⟨serial, hserial, hless, hname⟩ := h.name
  obtain ⟨bytes, hentries⟩ := h.entries
  intro entry hentry own last hlast
  rw [hentries] at hentry
  rcases List.mem_append.mp hentry with hold | hnew
  · have hbefore := hfresh entry hold own last hlast
    omega
  · rw [List.mem_singleton.mp hnew, hname, List.getLast?_concat] at hlast
    obtain ⟨rfl, -⟩ := Name.drawn.inj (Option.some.inj hlast)
    exact hless

/-- Deleting the file brings the entries back. -/
theorem erase (h : Gains place ending disk after file) (hfresh : disk.Fresh) :
    disk.Keeps (after.erase file) := by
  obtain ⟨bytes, hentries⟩ := h.entries
  refine ⟨?_, Nat.le_of_lt h.drawn_lt⟩
  show after.entries.filter _ = _
  rw [hentries, List.filter_append, filter_ne_of_absent (h.ne_of_mem hfresh),
    List.filter_cons_of_neg (by simp), List.filter_nil, List.append_nil]

/-- Writing the file leaves it where it is. -/
theorem put (h : Gains place ending disk after file) (hfresh : disk.Fresh) (bytes : ByteArray) :
    Gains place ending disk (after.put file (.file bytes)) file := by
  refine ⟨h.name, bytes, ?_⟩
  have herased := (h.erase hfresh).entries
  show (after.erase file).entries ++ _ = _
  rw [herased]

/-- Deleting another file deletes it among the entries that were there. -/
theorem erase_other (h : Gains place ending disk after file) (hne : file ≠ other) :
    Gains place ending (disk.erase other) (after.erase other) file := by
  obtain ⟨bytes, hentries⟩ := h.entries
  refine ⟨h.name, bytes, ?_⟩
  show after.entries.filter _ = disk.entries.filter _ ++ _
  rw [hentries, List.filter_append, List.filter_cons_of_pos (by simpa using hne), List.filter_nil]

theorem node?_of_ne (h : Gains place ending disk after file) (hne : other ≠ file) :
    after.node? other = disk.node? other := by
  obtain ⟨bytes, hentries⟩ := h.entries
  rw [node?, node?, hentries, lookup_append_single, if_neg hne, Option.or_none]

theorem agreesOnGiven (h : Gains place ending disk after file) : after.AgreesOnGiven disk := by
  intro there hthere
  refine h.node?_of_ne ?_
  rintro rfl
  obtain ⟨folder, serial, rfl⟩ := h.isDrawn
  exact not_isGiven_drawn folder serial ending hthere

theorem isFile (h : Gains place ending disk after file) (hfresh : disk.Fresh) :
    after.isFile file = true := by
  obtain ⟨bytes, hentries⟩ := h.entries
  have habsent : disk.entries.lookup file = none := by
    rw [List.lookup_eq_none_iff]
    intro entry hentry
    simpa using (h.ne_of_mem hfresh entry hentry).symm
  rw [Disk.isFile, node?, if_neg h.isDrawn.ne_nil, hentries, lookup_append_single, habsent,
    if_pos rfl, Option.none_or]

end Gains

/-! ### Asking for a file -/

/-- A request for a temporary file adds it in the folder that the path leads to, or it keeps
the entries. -/
theorem createTemporary_keeps_or_gains {folder : Path} {result : Except OsError TemporaryFile}
    (h : disk.createTemporary folder ending = (result, after)) (hfresh : disk.Fresh)
    (hplace : disk.folderAlong folder.steps = .ok place) :
    match result with
    | .ok made => Gains place ending disk after made.location
    | .error _ => disk.Keeps after := by
  unfold createTemporary at h
  simp only at h
  split at h
  · obtain ⟨rfl, rfl⟩ := Prod.mk.inj h
    exact ⟨rfl, Nat.le_succ _⟩
  · rename_i found hfound
    have hsame : found = place := by
      unfold temporaryFolder at hfound
      simp only [bind, Except.bind, hplace] at hfound
      split at hfound
      · cases hfound
      · split at hfound
        · cases hfound
        · exact (Except.ok.inj hfound).symm
    subst hsame
    obtain ⟨rfl, rfl⟩ := Prod.mk.inj h
    refine ⟨⟨disk.drawn, Nat.le_refl _, Nat.lt_succ_self _, rfl⟩, .empty, ?_⟩
    show disk.entries.filter _ ++ _ = _
    rw [filter_ne_of_absent (hfresh.ne_of_mem (Nat.le_refl _))]

/-! ### Files beside those of a base -/

/-- Behind the entries of a base, the disk holds these files, each of them made under the ending in
one folder. -/
structure HoldsBeside (base : Disk) (place : Location) (ending : String) (files : List Location)
    (disk : Disk) : Prop where
  entries : ∃ owned, disk.entries = base.entries ++ owned ∧ (owned.map (·.1)).Perm files ∧
    ∀ entry ∈ owned, ∃ serial bytes,
      entry = (place ++ [.drawn serial ending], .file bytes)
  nodup : files.Nodup
  apart : ∀ entry ∈ base.entries, entry.1 ∉ files
  fresh : disk.Fresh

namespace HoldsBeside

variable {base : Disk} {files others : List Location}

theorem exists_entry (h : HoldsBeside base place ending files disk) (hfile : file ∈ files) :
    ∃ bytes, (file, Node.file bytes) ∈ disk.entries := by
  obtain ⟨owned, hentries, hperm, hmade⟩ := h.entries
  obtain ⟨entry, hentry, rfl⟩ := List.mem_map.mp (hperm.mem_iff.mpr hfile)
  obtain ⟨serial, bytes, rfl⟩ := hmade entry hentry
  refine ⟨bytes, ?_⟩
  rw [hentries]
  exact List.mem_append_right _ hentry

theorem isDrawn (h : HoldsBeside base place ending files disk) (hfile : file ∈ files) :
    IsDrawn file ending := by
  obtain ⟨owned, -, hperm, hmade⟩ := h.entries
  obtain ⟨entry, hentry, rfl⟩ := List.mem_map.mp (hperm.mem_iff.mpr hfile)
  obtain ⟨serial, bytes, rfl⟩ := hmade entry hentry
  exact ⟨place, serial, rfl⟩

theorem isFile (h : HoldsBeside base place ending files disk) (hfile : file ∈ files) :
    disk.isFile file = true := by
  obtain ⟨owned, hentries, hperm, hmade⟩ := h.entries
  obtain ⟨bytes, hentry⟩ := h.exists_entry hfile
  rw [Disk.isFile, node?, if_neg (h.isDrawn hfile).ne_nil]
  cases hlookup : disk.entries.lookup file with
  | none =>
      have habsent := List.lookup_eq_none_iff.mp hlookup _ hentry
      simp at habsent
  | some node =>
      obtain ⟨before, behind, hsplit, -⟩ := List.lookup_eq_some_iff.mp hlookup
      have hmem : (file, node) ∈ base.entries ++ owned := by
        rw [← hentries, hsplit]
        exact List.mem_append_right _ (List.mem_cons_self ..)
      rcases List.mem_append.mp hmem with hbase | howned
      · exact absurd hfile (h.apart _ hbase)
      · obtain ⟨serial, own, heq⟩ := hmade _ howned
        obtain ⟨-, rfl⟩ := Prod.mk.inj heq
        rfl

theorem agreesOnGiven (h : HoldsBeside base place ending files disk) : disk.AgreesOnGiven base := by
  obtain ⟨owned, hentries, -, hmade⟩ := h.entries
  intro there hthere
  have habsent : owned.lookup there = none := by
    rw [List.lookup_eq_none_iff]
    intro entry hentry
    obtain ⟨serial, bytes, rfl⟩ := hmade entry hentry
    have hne : there ≠ place ++ [.drawn serial ending] := by
      rintro rfl
      exact not_isGiven_drawn _ _ _ hthere
    simpa using hne
  rw [node?, node?, hentries, List.lookup_append, habsent, Option.or_none]

theorem of_perm (h : HoldsBeside base place ending files disk) (hperm : files.Perm others) :
    HoldsBeside base place ending others disk := by
  obtain ⟨owned, hentries, howned, hmade⟩ := h.entries
  refine ⟨⟨owned, hentries, howned.trans hperm, hmade⟩, hperm.nodup_iff.mp h.nodup, ?_, h.fresh⟩
  intro entry hentry hmem
  exact h.apart entry hentry (hperm.mem_iff.mpr hmem)

theorem of_keeps (h : HoldsBeside base place ending files disk) (hkeeps : disk.Keeps after) :
    HoldsBeside base place ending files after := by
  obtain ⟨owned, hentries, howned, hmade⟩ := h.entries
  refine ⟨⟨owned, ?_, howned, hmade⟩, h.nodup, h.apart, hkeeps.fresh h.fresh⟩
  rw [hkeeps.entries, hentries]

theorem of_gains (h : HoldsBeside base place ending files disk)
    (hgains : Gains place ending disk after file) :
    HoldsBeside base place ending (file :: files) after := by
  obtain ⟨owned, hentries, howned, hmade⟩ := h.entries
  obtain ⟨serial, -, -, hname⟩ := hgains.name
  obtain ⟨bytes, hadded⟩ := hgains.entries
  refine ⟨⟨owned ++ [(file, .file bytes)], ?_, ?_, ?_⟩, ?_, ?_, hgains.fresh h.fresh⟩
  · rw [hadded, hentries, List.append_assoc]
  · rw [List.map_append]
    exact List.perm_append_comm.trans (howned.cons file)
  · intro entry hentry
    rcases List.mem_append.mp hentry with hold | hnew
    · exact hmade entry hold
    · rw [List.mem_singleton.mp hnew, hname]
      exact ⟨serial, bytes, rfl⟩
  · refine List.nodup_cons.mpr ⟨?_, h.nodup⟩
    intro hmem
    obtain ⟨own, hentry⟩ := h.exists_entry hmem
    exact hgains.ne_of_mem h.fresh _ hentry rfl
  · intro entry hentry hmem
    rcases List.mem_cons.mp hmem with hnew | hold
    · refine hgains.ne_of_mem h.fresh entry ?_ hnew
      rw [hentries]
      exact List.mem_append_left _ hentry
    · exact h.apart entry hentry hold

theorem erase (h : HoldsBeside base place ending (file :: files) disk) :
    HoldsBeside base place ending files (disk.erase file) := by
  obtain ⟨owned, hentries, howned, hmade⟩ := h.entries
  obtain ⟨hnew, hnodup⟩ := List.nodup_cons.mp h.nodup
  have hbase : base.entries.filter (·.1 ≠ file) = base.entries := by
    refine filter_ne_of_absent fun entry hentry heq => ?_
    exact h.apart entry hentry (heq ▸ List.mem_cons_self ..)
  refine ⟨⟨owned.filter (·.1 ≠ file), ?_, ?_, ?_⟩, hnodup, ?_, ?_⟩
  · show disk.entries.filter _ = _
    rw [hentries, List.filter_append, hbase]
  · have hothers : files.filter (· ≠ file) = files := by
      apply List.filter_eq_self.mpr
      intro other hother
      have hne : other ≠ file := fun heq => hnew (heq ▸ hother)
      simpa using hne
    have hfiltered := howned.filter (· ≠ file)
    rw [List.filter_map, List.filter_cons_of_neg (by simp), hothers] at hfiltered
    exact hfiltered
  · intro entry hentry
    exact hmade entry (List.mem_filter.mp hentry).1
  · intro entry hentry hmem
    exact h.apart entry hentry (List.mem_cons_of_mem _ hmem)
  · intro entry hentry serial ending hlast
    exact h.fresh entry (List.mem_filter.mp hentry).1 serial ending hlast

/-- There is one entry in the folder for each file, beside those of the base. -/
theorem count_eq (h : HoldsBeside base place ending files disk) :
    disk.count place = base.count place + files.length := by
  obtain ⟨owned, hentries, howned, hmade⟩ := h.entries
  have hall : owned.countP (liesIn place) = owned.length := by
    apply List.countP_eq_length.mpr
    intro entry hentry
    obtain ⟨serial, bytes, rfl⟩ := hmade entry hentry
    simp [liesIn]
  rw [count, count, hentries, List.countP_append, hall, ← howned.length_eq, List.length_map]

end HoldsBeside

end Bitext.Disk
