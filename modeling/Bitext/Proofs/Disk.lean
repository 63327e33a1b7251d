/-
Temporary files beside the files of a corpus.

A name that is drawn for a temporary file is none that a path can spell, so no path leads to
a temporary file and none leads elsewhere because of one: a disk on which temporary files
come and go reads the same.  Two temporary files with different endings are different files.
-/
import Bitext.Disk.Basic

namespace Bitext

namespace Disk

variable {disk other : Disk}

/-! ### Entries -/

theorem lookup_filter_ne {place there : Location} (h : there ≠ place)
    (entries : List (Location × Node)) :
    (entries.filter (·.1 ≠ place)).lookup there = entries.lookup there := by
  induction entries with
  | nil => rfl
  | cons entry rest ih =>
      obtain ⟨spot, node⟩ := entry
      by_cases hentry : spot = place
      · have hskip : (there == spot) = false := by simpa [hentry] using h
        rw [List.filter_cons_of_neg (by simpa using hentry), ih, List.lookup_cons, hskip]
      · rw [List.filter_cons_of_pos (by simpa using hentry), List.lookup_cons, List.lookup_cons, ih]

theorem lookup_filter_self (place : Location) (entries : List (Location × Node)) :
    (entries.filter (·.1 ≠ place)).lookup place = none := by
  rw [List.lookup_eq_none_iff]
  intro entry hentry
  have hne : entry.1 ≠ place := by simpa using (List.mem_filter.mp hentry).2
  simpa using fun heq => hne heq.symm

theorem lookup_append_single {place there : Location} (node : Node)
    (entries : List (Location × Node)) :
    (entries ++ [(place, node)]).lookup there
      = (entries.lookup there).or (if there = place then some node else none) := by
  rw [List.lookup_append]
  congr 1
  rw [List.lookup_cons]
  by_cases h : there = place
  · simp [h]
  · have hne : (there == place) = false := by simpa using h
    simp [h, hne]

theorem node?_put_self {place : Location} (hplace : place ≠ []) (node : Node) :
    (disk.put place node).node? place = some node := by
  unfold node? put
  rw [if_neg hplace]
  simp only
  rw [lookup_append_single, lookup_filter_self, if_pos rfl, Option.none_or]

theorem node?_put_of_ne {place there : Location} (h : there ≠ place) (node : Node) :
    (disk.put place node).node? there = disk.node? there := by
  unfold node? put
  simp only
  rw [lookup_append_single, lookup_filter_ne h, if_neg h, Option.or_none]

theorem node?_erase_of_ne {place there : Location} (h : there ≠ place) :
    (disk.erase place).node? there = disk.node? there := by
  unfold node? erase
  simp only
  rw [lookup_filter_ne h]

theorem node?_erase_self {place : Location} (hplace : place ≠ []) :
    (disk.erase place).node? place = none := by
  unfold node? erase
  rw [if_neg hplace]
  exact lookup_filter_self place disk.entries

/-! ### Paths lead to given names only -/

/-- Every name on the way was given. -/
def IsGiven (place : Location) : Prop := ∀ name ∈ place, ∃ text, name = .given text

/-- Both disks have the same entries at places whose names were given. -/
def AgreesOnGiven (disk other : Disk) : Prop :=
  ∀ place, IsGiven place → disk.node? place = other.node? place

theorem not_isGiven_drawn (folder : Location) (serial : Nat) (ending : String) :
    ¬IsGiven (folder ++ [.drawn serial ending]) := by
  intro h
  obtain ⟨text, htext⟩ := h (.drawn serial ending) (by simp)
  cases htext

theorem asFolder_eq {place there : Location} (h : disk.asFolder place = .ok there) :
    there = place := by
  unfold asFolder at h
  split at h
  · exact (Except.ok.inj h).symm
  · simp at h
  · simp at h

theorem asFolder_congr (h : disk.AgreesOnGiven other) {place : Location} (hplace : IsGiven place) :
    disk.asFolder place = other.asFolder place := by
  unfold asFolder
  rw [h place hplace]

theorem IsGiven.child {place : Location} (h : IsGiven place) (text : String) :
    IsGiven (place ++ [.given text]) := by
  intro name hname
  rcases List.mem_append.mp hname with hbefore | hlast
  · exact h name hbefore
  · exact ⟨text, List.mem_singleton.mp hlast⟩

theorem enter_congr (h : disk.AgreesOnGiven other) {place : Location} (hplace : IsGiven place)
    (name : String) : disk.enter place name = other.enter place name := by
  unfold enter
  simp only [h _ (hplace.child name)]

theorem isGiven_of_enter {place there : Location} (hplace : IsGiven place) {name : String}
    (h : disk.enter place name = .ok there) : IsGiven there := by
  unfold enter at h
  simp only at h
  split at h
  · simp at h
  · split at h
    · rw [← Except.ok.inj h]
      exact hplace.child name
    · simp at h

/-- A step from a given place leads to the same given place on both disks. -/
theorem follow_eq (h : disk.AgreesOnGiven other) {place : Location} (hplace : IsGiven place)
    (step : Path.Step) :
    disk.follow place step = other.follow place step ∧
      ∀ there, disk.follow place step = .ok there → IsGiven there := by
  unfold follow
  simp only [bind, Except.bind]
  rw [← asFolder_congr h hplace]
  cases hasFolder : disk.asFolder place with
  | error reason => simp
  | ok folder =>
      obtain rfl := asFolder_eq hasFolder
      cases step with
      | stay =>
          refine ⟨rfl, fun there hthere => ?_⟩
          rwa [← Except.ok.inj hthere]
      | up =>
          refine ⟨rfl, fun there hthere => ?_⟩
          rw [← Except.ok.inj hthere]
          intro name hname
          exact hplace name (List.dropLast_subset _ hname)
      | into name =>
          exact ⟨enter_congr h hplace name, fun there hthere => isGiven_of_enter hplace hthere⟩

theorem foldlM_follow_eq (h : disk.AgreesOnGiven other) (steps : List Path.Step) :
    ∀ place, IsGiven place →
      steps.foldlM disk.follow place = steps.foldlM other.follow place ∧
      ∀ there, steps.foldlM disk.follow place = .ok there → IsGiven there := by
  induction steps with
  | nil =>
      intro place hplace
      refine ⟨rfl, fun there hthere => ?_⟩
      rwa [← Except.ok.inj hthere]
  | cons step rest ih =>
      intro place hplace
      obtain ⟨hstep, hgiven⟩ := follow_eq h hplace step
      rw [List.foldlM_cons, List.foldlM_cons, ← hstep]
      cases hnext : disk.follow place step with
      | error reason => simp [bind, Except.bind]
      | ok next => exact ih next (hgiven next hnext)

theorem locate_eq (h : disk.AgreesOnGiven other) (path : Path) :
    disk.locate path = other.locate path ∧
      ∀ there, disk.locate path = .ok there → IsGiven there := by
  unfold locate
  cases path.defect? with
  | some reason => simp
  | none => exact foldlM_follow_eq h path.steps [] (by simp [IsGiven])

/-- **Disks that differ in temporary files only lead every path to the same node.** -/
theorem find_eq (h : disk.AgreesOnGiven other) (path : Path) :
    disk.find path = other.find path := by
  obtain ⟨hsame, hgiven⟩ := locate_eq h path
  unfold find
  simp only [bind, Except.bind]
  rw [← hsame]
  cases hplace : disk.locate path with
  | error reason => rfl
  | ok place =>
      simp only
      rw [h place (hgiven place hplace)]

theorem folderAlong_eq (h : disk.AgreesOnGiven other) (steps : List Path.Step) :
    disk.folderAlong steps = other.folderAlong steps := by
  obtain ⟨hsame, hgiven⟩ := foldlM_follow_eq h steps [] (by simp [IsGiven])
  unfold folderAlong followAll
  simp only [bind, Except.bind]
  rw [← hsame]
  cases hplace : steps.foldlM disk.follow [] with
  | error reason => rfl
  | ok place =>
      simp only [asFolder]
      rw [h place (hgiven place hplace)]

/-! ### Temporary files -/

/-- A name with the given ending was drawn for the place. -/
def IsDrawn (place : Location) (ending : String) : Prop :=
  ∃ folder serial, place = folder ++ [.drawn serial ending]

theorem IsDrawn.ne_nil {place : Location} {ending : String} (h : IsDrawn place ending) :
    place ≠ [] := by
  obtain ⟨folder, serial, rfl⟩ := h
  simp

theorem IsDrawn.ne {first second : Location} {ending last : String} (hfirst : IsDrawn first ending)
    (hsecond : IsDrawn second last) (h : ending ≠ last) : first ≠ second := by
  obtain ⟨folder, serial, rfl⟩ := hfirst
  obtain ⟨folder', serial', rfl⟩ := hsecond
  intro heq
  have hname := congrArg List.getLast? heq
  simp only [List.getLast?_append, List.getLast?_singleton, Option.some_or, Option.some.injEq,
    Name.drawn.injEq] at hname
  exact h hname.2

/-- A temporary file that was made is there, is empty, and is all that has changed. -/
theorem of_createTemporary_ok {folder : Path} {ending : String} {file : TemporaryFile}
    {after : Disk} (h : disk.createTemporary folder ending = (.ok file, after)) :
    IsDrawn file.location ending ∧
      after.node? file.location = some (.file .empty) ∧
      ∀ there, there ≠ file.location → after.node? there = disk.node? there := by
  unfold createTemporary at h
  simp only at h
  split at h
  · simp at h
  · rename_i place hplace
    obtain ⟨hfile, rfl⟩ := Prod.mk.inj h
    obtain rfl := Except.ok.inj hfile
    refine ⟨⟨place, disk.drawn, rfl⟩, node?_put_self (by simp) _, fun there hthere => ?_⟩
    exact node?_put_of_ne hthere _

theorem agreesOnGiven_put (disk : Disk) {place : Location} {ending : String}
    (hplace : IsDrawn place ending) (node : Node) : (disk.put place node).AgreesOnGiven disk := by
  intro there hthere
  obtain ⟨folder, serial, rfl⟩ := hplace
  refine node?_put_of_ne ?_ node
  rintro rfl
  exact not_isGiven_drawn _ _ _ hthere

theorem AgreesOnGiven.symm (h : disk.AgreesOnGiven other) : other.AgreesOnGiven disk :=
  fun place hplace => (h place hplace).symm

theorem AgreesOnGiven.trans {third : Disk} (h : disk.AgreesOnGiven other)
    (hother : other.AgreesOnGiven third) : disk.AgreesOnGiven third :=
  fun place hplace => (h place hplace).trans (hother place hplace)

section request

variable {folder : Path} {ending : String} {result : Except OsError TemporaryFile} {after : Disk}

/-- Asking for a temporary file changes no given name. -/
theorem agreesOnGiven_of_createTemporary
    (h : disk.createTemporary folder ending = (result, after)) :
    after.AgreesOnGiven disk := by
  intro place hplace
  unfold createTemporary at h
  simp only at h
  split at h
  · obtain ⟨-, rfl⟩ := Prod.mk.inj h
    rfl
  · obtain ⟨-, rfl⟩ := Prod.mk.inj h
    exact agreesOnGiven_put _ ⟨_, _, rfl⟩ _ place hplace

theorem drawn_of_createTemporary (h : disk.createTemporary folder ending = (result, after)) :
    after.drawn = disk.drawn + 1 ∧ after.refuses = disk.refuses := by
  unfold createTemporary at h
  simp only at h
  split at h
  · obtain ⟨-, rfl⟩ := Prod.mk.inj h
    exact ⟨rfl, rfl⟩
  · obtain ⟨-, rfl⟩ := Prod.mk.inj h
    exact ⟨rfl, rfl⟩

end request

/-- A temporary file is made in a folder that is there, unless the request is refused. -/
theorem createTemporary_ok_iff {folder : Path} {ending : String} :
    (∃ file after, disk.createTemporary folder ending = (.ok file, after)) ↔
      (folder.temporary ending).defect? = none ∧
        (∃ place, disk.folderAlong folder.steps = .ok place) ∧
        disk.refuses disk.drawn = false := by
  unfold createTemporary temporaryFolder
  simp only [bind, Except.bind]
  cases (folder.temporary ending).defect? with
  | some reason => simp
  | none =>
      cases disk.folderAlong folder.steps with
      | error reason => simp
      | ok place => cases disk.refuses disk.drawn <;> simp

end Disk

end Bitext
