/-
The orders in which messages can arrive.

The messages of a file pair come in their own order, and nothing else is said about who
comes when: an arrival is any interleaving of the lists of messages.  Which list stands
where does not matter for that, and lists that are used up can be left out.

Workers that take turns produce one of these orders, whatever their number, as long as
there is one at all.
-/
import Mathlib.Algebra.Order.Ring.Nat
import Bitext.Build.Merge

namespace Bitext

variable {α : Type}

/-- A list in which every element of every list has its place, and the elements of each
list are in their own order. -/
inductive Interleaving : List (List α) → List α → Prop where
  /-- All lists are used up. -/
  | done {lists : List (List α)} : (∀ list ∈ lists, list = []) → Interleaving lists []
  /-- One of the lists gives its first element. -/
  | next {lists : List (List α)} {i : Nat} {a : α} {rest l : List α} :
      lists[i]? = some (a :: rest) → Interleaving (lists.set i rest) l →
      Interleaving lists (a :: l)

namespace Interleaving

theorem exists_split {lists : List (List α)} {i : Nat} {list : List α}
    (h : lists[i]? = some list) :
    ∃ before after, lists = before ++ list :: after ∧
      ∀ other, lists.set i other = before ++ other :: after := by
  obtain ⟨hi, hlist⟩ := List.getElem?_eq_some_iff.mp h
  refine ⟨lists.take i, lists.drop (i + 1), ?_, ?_⟩
  · rw [← hlist, List.getElem_cons_drop, List.take_append_drop]
  · intro other
    rw [List.set_eq_take_append_cons_drop, if_pos hi]

theorem next_middle {before after : List (List α)} {a : α} {rest l : List α}
    (h : Interleaving (before ++ rest :: after) l) :
    Interleaving (before ++ (a :: rest) :: after) (a :: l) := by
  have hlist : (before ++ (a :: rest) :: after)[before.length]? = some (a :: rest) := by simp
  exact .next hlist (by simpa using h)

/-- Nothing is lost, added or doubled. -/
theorem perm {lists : List (List α)} {l : List α} (h : Interleaving lists l) :
    l.Perm lists.flatten := by
  induction h with
  | done hempty =>
      rw [List.flatten_eq_nil_iff.mpr hempty]
  | next hlist hrest ih =>
      obtain ⟨before, after, hlists, hset⟩ := exists_split hlist
      rw [hset] at ih
      rw [hlists]
      simp only [List.flatten_append, List.flatten_cons, List.cons_append] at ih ⊢
      exact (ih.cons _).trans List.perm_middle.symm

/-- Nothing is left to come exactly when all lists are used up. -/
theorem eq_nil_iff {lists : List (List α)} {l : List α} (h : Interleaving lists l) :
    l = [] ↔ ∀ list ∈ lists, list = [] := by
  cases h with
  | done hempty => exact ⟨fun _ => hempty, fun _ => rfl⟩
  | next hlist _ =>
      refine ⟨fun hnil => by simp at hnil, fun hempty => ?_⟩
      have hnone := hempty _ (List.mem_of_getElem? hlist)
      simp at hnone

/-- The lists that are not used up. -/
def unused (lists : List (List α)) : List (List α) := lists.filter fun list => !list.isEmpty

theorem unused_append (first second : List (List α)) :
    unused (first ++ second) = unused first ++ unused second := List.filter_append ..

theorem unused_cons (list : List α) (rest : List (List α)) :
    unused (list :: rest) = unused [list] ++ unused rest := unused_append [list] rest

/-- **Only the lists that are not used up count, in whatever order they stand.** -/
theorem of_unused_perm {lists : List (List α)} {l : List α} (h : Interleaving lists l) :
    ∀ {others : List (List α)}, (unused lists).Perm (unused others) → Interleaving others l := by
  induction h with
  | done hempty =>
      intro others hperm
      refine .done fun list hlist => ?_
      have hnone : unused others = [] := by
        refine List.Perm.eq_nil (hperm.symm.trans ?_)
        rw [unused, List.filter_eq_nil_iff.mpr]
        intro used hused
        simp [hempty used hused]
      have hsome := List.filter_eq_nil_iff.mp hnone list hlist
      simpa using hsome
  | next hlist hrest ih =>
      rename_i lists i a rest l
      intro others hperm
      obtain ⟨before, after, hlists, hset⟩ := exists_split hlist
      have hmem : a :: rest ∈ unused lists := by simp [unused, hlists]
      have hother : a :: rest ∈ others := (List.mem_filter.mp (hperm.mem_iff.mp hmem)).1
      obtain ⟨front, back, rfl⟩ := List.append_of_mem hother
      refine next_middle (ih ?_)
      rw [hset]
      rw [hlists] at hperm
      have hfirst : unused [a :: rest] = [a :: rest] := rfl
      have hleft : (unused before ++ unused after).Perm (unused front ++ unused back) := by
        rw [unused_append, unused_append, unused_cons _ after, unused_cons _ back, hfirst] at hperm
        exact (List.perm_middle.symm.trans (hperm.trans List.perm_middle)).cons_inv
      rw [unused_append, unused_append, unused_cons rest after, unused_cons rest back]
      refine (List.perm_append_comm_assoc _ _ _).trans ?_
      exact (hleft.append_left (unused [rest])).trans (List.perm_append_comm_assoc _ _ _)

end Interleaving

/-! ### Turns -/

namespace Turns

open Interleaving (unused unused_append unused_cons)

/-- The number of elements of some lists. -/
def total (lists : List (List α)) : Nat := (lists.map List.length).sum

theorem total_append (first second : List (List α)) :
    total (first ++ second) = total first + total second := by
  simp [total]

theorem total_cons (list : List α) (rest : List (List α)) :
    total (list :: rest) = list.length + total rest := rfl

theorem total_eq_zero_iff {lists : List (List α)} :
    total lists = 0 ↔ ∀ list ∈ lists, list = [] := by
  induction lists with
  | nil => simp [total]
  | cons list rest ih =>
      rw [total_cons, Nat.add_eq_zero_iff, List.length_eq_zero_iff, ih]
      simp

/-- Handing out files moves them to workers that have used theirs up. -/
theorem unused_assign (workers waiting : List (List α)) :
    (unused (workers ++ waiting)).Perm
      (unused ((assign workers waiting).1 ++ (assign workers waiting).2)) := by
  induction workers, waiting using assign.induct with
  | case1 waiting => simp [assign]
  | case2 workers file waiting ih =>
      have hworkers : unused ([] :: workers ++ file :: waiting)
          = unused workers ++ (unused [file] ++ unused waiting) := by
        rw [← unused_cons, ← unused_append]
        rfl
      rw [assign]
      simp only [List.cons_append]
      rw [← List.cons_append, hworkers, unused_cons file (_ ++ _)]
      refine (List.perm_append_comm_assoc _ _ _).trans (List.Perm.append_left _ ?_)
      rw [← unused_append]
      exact ih
  | case3 own workers waiting hbusy ih =>
      have hassign : assign (own :: workers) waiting
          = (own :: (assign workers waiting).1, (assign workers waiting).2) := by
        rw [assign]
        exact hbusy
      rw [hassign]
      simp only [List.cons_append]
      rw [unused_cons own (workers ++ waiting), unused_cons own (_ ++ _)]
      exact List.Perm.append_left _ ih

theorem total_assign (workers waiting : List (List α)) :
    total (assign workers waiting).1 + total (assign workers waiting).2
      = total workers + total waiting := by
  induction workers, waiting using assign.induct with
  | case1 waiting => simp [assign]
  | case2 workers file waiting ih =>
      simp only [assign, total_cons, List.length_nil]
      omega
  | case3 own workers waiting hbusy ih =>
      rw [assign]
      · simp only [total_cons]
        omega
      · exact hbusy

/-- As long as files wait after the handing out, every worker is busy. -/
theorem ne_nil_of_mem_assign (workers waiting : List (List α))
    (hfiles : ∀ file ∈ waiting, file ≠ []) (hwait : (assign workers waiting).2 ≠ []) :
    ∀ own ∈ (assign workers waiting).1, own ≠ [] := by
  induction workers, waiting using assign.induct with
  | case1 waiting => simp [assign]
  | case2 workers file waiting ih =>
      intro own hown
      rcases List.mem_cons.mp hown with rfl | hown
      · exact hfiles own (by simp)
      · exact ih (fun later hlater => hfiles later (List.mem_cons_of_mem file hlater)) hwait
          own hown
  | case3 first workers waiting hbusy ih =>
      have hassign : assign (first :: workers) waiting
          = (first :: (assign workers waiting).1, (assign workers waiting).2) := by
        rw [assign]
        exact hbusy
      rw [hassign] at hwait ⊢
      intro own hown
      rcases List.mem_cons.mp hown with rfl | hown
      · rintro rfl
        -- a worker without messages is passed over only when no file waits
        cases waiting with
        | nil =>
            have hnone : ∀ ws : List (List α), (assign ws []).2 = [] := by
              intro ws
              induction ws with
              | nil => rfl
              | cons w ws ih => cases w <;> exact ih
            exact hwait (hnone workers)
        | cons file others => exact hbusy file others rfl rfl
      · exact ih hfiles hwait own hown

theorem length_assign (workers waiting : List (List α)) :
    (assign workers waiting).1.length = workers.length := by
  induction workers, waiting using assign.induct with
  | case1 waiting => simp [assign]
  | case2 workers file waiting ih => simp [assign, ih]
  | case3 own workers waiting hbusy ih =>
      rw [assign]
      · simp [ih]
      · exact hbusy

theorem mem_of_mem_assign {file : List α} (workers waiting : List (List α)) :
    file ∈ (assign workers waiting).2 → file ∈ waiting := by
  induction workers, waiting using assign.induct with
  | case1 waiting => simp [assign]
  | case2 workers first waiting ih =>
      intro h
      exact List.mem_cons_of_mem first (ih h)
  | case3 own workers waiting hbusy ih =>
      rw [assign]
      · exact ih
      · exact hbusy

/-- Every worker sends one message. -/
theorem interleaving_heads {waiting : List (List α)} {l : List α} (workers : List (List α)) :
    ∀ before : List (List α), Interleaving (before ++ workers.map List.tail ++ waiting) l →
      Interleaving (before ++ workers ++ waiting) (workers.filterMap List.head? ++ l) := by
  induction workers with
  | nil => intro before h; simpa using h
  | cons own rest ih =>
      intro before h
      have hlater := ih (before ++ [own.tail]) (by simpa using h)
      cases own with
      | nil => simpa [List.filterMap_cons] using hlater
      | cons a later =>
          have hnext : Interleaving (before ++ (a :: later) :: (rest ++ waiting))
              (a :: (rest.filterMap List.head? ++ l)) :=
            Interleaving.next_middle (by simpa using hlater)
          simpa using hnext

theorem total_tails (workers : List (List α)) :
    (workers.filterMap List.head?).length + total (workers.map List.tail) = total workers := by
  induction workers with
  | nil => rfl
  | cons own rest ih =>
      rw [List.map_cons, total_cons, total_cons]
      cases own with
      | nil => simpa [List.filterMap_cons] using ih
      | cons a later =>
          simp only [List.filterMap_cons, List.head?_cons, List.length_cons, List.tail_cons]
          omega

/-- A round sends something unless nothing is left to send. -/
theorem total_tails_le {assigned waiting : List (List α)} {n : Nat} (hne : assigned ≠ [])
    (hbusy : waiting ≠ [] → ∀ own ∈ assigned, own ≠ [])
    (htotal : total assigned + total waiting ≤ n + 1) :
    total (assigned.map List.tail) + total waiting ≤ n := by
  have htails := total_tails assigned
  by_cases hheads : assigned.filterMap List.head? = []
  · have hidle : ∀ own ∈ assigned, own = [] := by
      intro own hown
      have hhead := List.filterMap_eq_nil_iff.mp hheads own hown
      simpa using hhead
    have hnone : waiting = [] := by
      by_contra hwait
      obtain ⟨own, hown⟩ := List.exists_mem_of_ne_nil _ hne
      exact hbusy hwait own hown (hidle own hown)
    have hzero := total_eq_zero_iff.mpr hidle
    have hrest : total waiting = 0 := by rw [hnone]; rfl
    omega
  · have hpos := List.length_pos_iff.mpr hheads
    omega

theorem interleaving_rounds (n : Nat) :
    ∀ workers waiting : List (List α), workers ≠ [] → (∀ file ∈ waiting, file ≠ []) →
      total workers + total waiting ≤ n →
      Interleaving (workers ++ waiting) (rounds n workers waiting) := by
  induction n with
  | zero =>
      intro workers waiting _ _ htotal
      refine .done (total_eq_zero_iff.mp ?_)
      rw [total_append]
      omega
  | succ n ih =>
      intro workers waiting hworkers hfiles htotal
      have hbusy := ne_nil_of_mem_assign workers waiting hfiles
      have hlength := length_assign workers waiting
      have hsum := total_assign workers waiting
      have hassigned := unused_assign workers waiting
      have hwaiting : ∀ file ∈ (assign workers waiting).2, file ≠ [] :=
        fun file hfile => hfiles file (mem_of_mem_assign workers waiting hfile)
      show Interleaving (workers ++ waiting)
        ((assign workers waiting).1.filterMap List.head?
          ++ rounds n ((assign workers waiting).1.map List.tail) (assign workers waiting).2)
      generalize assign workers waiting = assigned at *
      have hne : assigned.1 ≠ [] := by
        rw [ne_eq, ← List.length_eq_zero_iff, hlength, List.length_eq_zero_iff]
        exact hworkers
      have hless : total (assigned.1.map List.tail) + total assigned.2 ≤ n :=
        total_tails_le hne hbusy (by omega)
      have hround : Interleaving ([] ++ assigned.1.map List.tail ++ assigned.2)
          (rounds n (assigned.1.map List.tail) assigned.2) :=
        ih _ _ (by simpa using hne) hwaiting hless
      exact (interleaving_heads assigned.1 [] hround).of_unused_perm hassigned.symm

/-- **Workers that take turns send every message, in an order that can arrive.** -/
theorem interleaving_arrivals {workers : Nat} {files : List (List α)}
    (hworkers : 0 < workers ∨ files = []) (hfiles : ∀ file ∈ files, file ≠ []) :
    Interleaving files (arrivals workers files) := by
  rcases hworkers with hpos | rfl
  · have hidle : unused (List.replicate workers ([] : List α)) = [] := by simp [unused]
    have hzero : total (List.replicate workers ([] : List α)) = 0 := by simp [total]
    have hrounds := interleaving_rounds (files.map List.length).sum
      (List.replicate workers []) files
      (by simpa using Nat.pos_iff_ne_zero.mp hpos) hfiles (by rw [hzero]; simp [total])
    refine hrounds.of_unused_perm ?_
    rw [unused_append, hidle]
    exact List.Perm.refl _
  · exact .done (by simp)

end Turns

end Bitext
