/-
Greedy cuts: how a bucket falls into batches.

A bucket is cut from the front.  A segment takes its first element whatever it
costs and goes on as long as it is below the budget and the next element still
fits; then the next segment starts.  `GreedyCut` says this without a word on how
the segments are found: nothing is lost or moved, every element behind the first
was let in for a reason, and every segment stops for a reason.

That description leaves no choice, which is what `GreedyCut.eq_cut` shows: a list
has one greedy cut, and it is the one that `cut` computes.  Everything that the
packing proves about its batches rests on it, because batches that are determined
by their bucket alone cannot depend on the draws.
-/
import Mathlib.Algebra.Order.Ring.Nat
import Bitext.Packing

namespace Bitext.Packing

variable {α β : Type} {cost : α → Nat} {budget : Nat}

/-- What a segment costs. -/
def weigh (cost : α → Nat) (segment : List α) : Nat := (segment.map cost).sum

@[simp] theorem weigh_nil : weigh cost [] = 0 := rfl

@[simp] theorem weigh_cons (a : α) (rest : List α) :
    weigh cost (a :: rest) = cost a + weigh cost rest := by
  simp [weigh]

@[simp] theorem weigh_append (first second : List α) :
    weigh cost (first ++ second) = weigh cost first + weigh cost second := by
  simp [weigh]

/-- Every element behind the first was let in: the segment in front of it was below the
budget, and with it the segment was not above. -/
def LetsIn (cost : α → Nat) (budget : Nat) (segment : List α) : Prop :=
  ∀ before a after, segment = before ++ a :: after → before ≠ [] →
    weigh cost before < budget ∧ weigh cost before + cost a ≤ budget

/-- A segment has a reason to stop in front of what follows: there is nothing more, or it
has reached the budget, or the next element would lead it over the budget. -/
def Stops (cost : α → Nat) (budget : Nat) (segment following : List α) : Prop :=
  ∀ a after, following = a :: after →
    budget ≤ weigh cost segment ∨ budget < weigh cost segment + cost a

/-- A list falls into segments from the front, each of which takes what it can. -/
inductive GreedyCut (cost : α → Nat) (budget : Nat) : List α → List (List α) → Prop where
  | nil : GreedyCut cost budget [] []
  | cons {segment following : List α} {segments : List (List α)} :
      segment ≠ [] → LetsIn cost budget segment → Stops cost budget segment following →
      GreedyCut cost budget following segments →
      GreedyCut cost budget (segment ++ following) (segment :: segments)

namespace GreedyCut

/-- Nothing is lost and nothing is moved. -/
theorem flatten_eq {l : List α} {segments : List (List α)} (h : GreedyCut cost budget l segments) :
    segments.flatten = l := by
  induction h with
  | nil => rfl
  | cons _ _ _ _ ih => rw [List.flatten_cons, ih]

/-- Each segment holds something, and what it holds was let in. -/
theorem letsIn {l : List α} {segments : List (List α)} (h : GreedyCut cost budget l segments) :
    ∀ segment ∈ segments, segment ≠ [] ∧ LetsIn cost budget segment := by
  induction h with
  | nil => intro segment hmem; simp at hmem
  | cons hne hlets _ _ ih =>
      intro segment hmem
      rcases List.mem_cons.mp hmem with rfl | hmem
      · exact ⟨hne, hlets⟩
      · exact ih segment hmem

end GreedyCut

/-- A segment of several elements is within the budget, and was below it before its last
element came. -/
theorem LetsIn.within_budget {segment : List α} (h : LetsIn cost budget segment)
    (hmany : 2 ≤ segment.length) :
    weigh cost segment ≤ budget ∧ weigh cost segment.dropLast < budget := by
  have hne : segment ≠ [] := by
    intro hnil
    simp [hnil] at hmany
  have hfront : segment.dropLast ≠ [] := by
    intro hnil
    have hlen : segment.dropLast.length = 0 := by rw [hnil]; rfl
    rw [List.length_dropLast] at hlen
    omega
  have hsplit : segment = segment.dropLast ++ segment.getLast hne :: [] :=
    (List.dropLast_concat_getLast hne).symm
  obtain ⟨hbelow, hfits⟩ := h _ _ [] hsplit hfront
  have hweight := congrArg (weigh cost) hsplit
  rw [weigh_append, weigh_cons, weigh_nil] at hweight
  omega

/-! ### Computing the cut

`goOn` is the loop of the packing without its blob: it takes elements for a segment
that has some weight already.
-/

/-- What a segment of the given weight takes from the front, and what it leaves. -/
def goOn (cost : α → Nat) (budget : Nat) : Nat → List α → List α × List α
  | _, [] => ([], [])
  | weight, a :: rest =>
      if isFull budget weight (cost a) then ([], a :: rest)
      else
        let later := goOn cost budget (weight + cost a) rest
        (a :: later.1, later.2)

theorem goOn_append (cost : α → Nat) (budget weight : Nat) (l : List α) :
    (goOn cost budget weight l).1 ++ (goOn cost budget weight l).2 = l := by
  induction l generalizing weight with
  | nil => rfl
  | cons a rest ih =>
      unfold goOn
      split
      · rfl
      · simp [ih]

theorem length_goOn_le (weight : Nat) (l : List α) :
    (goOn cost budget weight l).2.length ≤ l.length := by
  have hlength := congrArg List.length (goOn_append cost budget weight l)
  rw [List.length_append] at hlength
  omega

/-- The greedy cut of a list. -/
def cut (cost : α → Nat) (budget : Nat) : List α → List (List α)
  | [] => []
  | a :: rest =>
      (a :: (goOn cost budget (cost a) rest).1)
        :: cut cost budget (goOn cost budget (cost a) rest).2
termination_by l => l.length
decreasing_by exact Nat.lt_succ_of_le (length_goOn_le (cost a) rest)

@[simp] theorem cut_nil : cut cost budget [] = [] := by
  rw [cut]

theorem cut_cons (a : α) (rest : List α) :
    cut cost budget (a :: rest)
      = (a :: (goOn cost budget (cost a) rest).1)
          :: cut cost budget (goOn cost budget (cost a) rest).2 := by
  rw [cut]

theorem isFull_eq_false {weight next : Nat} :
    isFull budget weight next = false ↔ weight < budget ∧ weight + next ≤ budget := by
  simp [isFull]

theorem isFull_eq_true {weight next : Nat} :
    isFull budget weight next = true ↔ budget ≤ weight ∨ budget < weight + next := by
  simp [isFull]

/-- What is taken was let in, the weight of the segment so far counted. -/
theorem goOn_letsIn (weight : Nat) (l : List α) :
    ∀ before a after, (goOn cost budget weight l).1 = before ++ a :: after →
      weight + weigh cost before < budget ∧ weight + weigh cost before + cost a ≤ budget := by
  induction l generalizing weight with
  | nil => intro before a after h; simp [goOn] at h
  | cons x rest ih =>
      intro before a after h
      unfold goOn at h
      split at h
      · simp at h
      · rename_i hfull
        have hroom := isFull_eq_false.mp (by simpa using hfull)
        cases before with
        | nil =>
            obtain ⟨rfl, -⟩ : x = a ∧ _ := by simpa using h
            simpa using hroom
        | cons y before =>
            obtain ⟨rfl, hlater⟩ : x = y ∧ _ := by simpa using h
            have := ih (weight + cost x) before a after hlater
            rw [weigh_cons]
            omega

/-- What is left was not let in. -/
theorem goOn_stops (weight : Nat) (l : List α) :
    ∀ a after, (goOn cost budget weight l).2 = a :: after →
      budget ≤ weight + weigh cost (goOn cost budget weight l).1 ∨
        budget < weight + weigh cost (goOn cost budget weight l).1 + cost a := by
  induction l generalizing weight with
  | nil => intro a after h; simp [goOn] at h
  | cons x rest ih =>
      intro a after h
      unfold goOn at h ⊢
      split
      · rename_i hfull
        rw [if_pos hfull] at h
        obtain ⟨rfl, -⟩ : x = a ∧ _ := by simpa using h
        simpa using isFull_eq_true.mp hfull
      · rename_i hfull
        rw [if_neg hfull] at h
        have := ih (weight + cost x) a after h
        simp only [weigh_cons]
        omega

/-- What is computed is a greedy cut. -/
theorem cut_greedy (l : List α) : GreedyCut cost budget l (cut cost budget l) := by
  induction l using cut.induct cost budget with
  | case1 => rw [cut_nil]; exact .nil
  | case2 a rest ih =>
      have hlets : LetsIn cost budget (a :: (goOn cost budget (cost a) rest).1) := by
        intro before x after h hne
        cases before with
        | nil => exact absurd rfl hne
        | cons y before =>
            obtain ⟨rfl, hmore⟩ : a = y ∧ _ := by simpa using h
            simpa using goOn_letsIn (cost a) rest before x after hmore
      have hstops : Stops cost budget (a :: (goOn cost budget (cost a) rest).1)
          (goOn cost budget (cost a) rest).2 := by
        intro x after h
        simpa using goOn_stops (cost a) rest x after h
      have hcut := GreedyCut.cons (by simp) hlets hstops ih
      rw [List.cons_append, goOn_append] at hcut
      rw [cut_cons]
      exact hcut

/-- A segment takes what may be taken, however that is split off. -/
theorem goOn_eq (weight : Nat) (taken following : List α)
    (hlets : ∀ before a after, taken = before ++ a :: after →
      weight + weigh cost before < budget ∧ weight + weigh cost before + cost a ≤ budget)
    (hstops : ∀ a after, following = a :: after →
      budget ≤ weight + weigh cost taken ∨ budget < weight + weigh cost taken + cost a) :
    goOn cost budget weight (taken ++ following) = (taken, following) := by
  induction taken generalizing weight with
  | nil =>
      cases following with
      | nil => rfl
      | cons a after =>
          have hfull : isFull budget weight (cost a) = true :=
            isFull_eq_true.mpr (by simpa using hstops a after rfl)
          simp [goOn, hfull]
  | cons x taken ih =>
      have hroom : isFull budget weight (cost x) = false :=
        isFull_eq_false.mpr (by simpa using hlets [] x taken rfl)
      have hlater : goOn cost budget (weight + cost x) (taken ++ following)
          = (taken, following) := by
        refine ih (weight + cost x) ?_ ?_
        · intro before a after h
          have := hlets (x :: before) a after (by rw [h]; rfl)
          rw [weigh_cons] at this
          omega
        · intro a after h
          have := hstops a after h
          rw [weigh_cons] at this
          omega
      simp [goOn, hroom, hlater]

/-- **A list has one greedy cut.** -/
theorem GreedyCut.eq_cut {l : List α} {segments : List (List α)}
    (h : GreedyCut cost budget l segments) : segments = cut cost budget l := by
  induction h with
  | nil => simp
  | @cons segment following segments hne hlets hstops _ ih =>
      obtain ⟨a, taken, rfl⟩ := List.exists_cons_of_ne_nil hne
      have hgo : goOn cost budget (cost a) (taken ++ following) = (taken, following) := by
        refine goOn_eq (cost a) taken following ?_ ?_
        · intro before x after h
          simpa using hlets (a :: before) x after (by rw [h]; rfl) (by simp)
        · intro x after h
          simpa using hstops x after h
      rw [List.cons_append, cut_cons, hgo, ih]

theorem mem_of_mem_goOn {b : α} (weight : Nat) (l : List α)
    (h : b ∈ (goOn cost budget weight l).2) : b ∈ l := by
  rw [← goOn_append cost budget weight l]
  exact List.mem_append_right _ h

theorem goOn_map {f : β → α} {cost' : β → Nat} (weight : Nat) (l : List β)
    (h : ∀ b ∈ l, cost (f b) = cost' b) :
    goOn cost budget weight (l.map f)
      = ((goOn cost' budget weight l).1.map f, (goOn cost' budget weight l).2.map f) := by
  induction l generalizing weight with
  | nil => rfl
  | cons b rest ih =>
      have hrest := fun w => ih w fun c hc => h c (List.mem_cons_of_mem b hc)
      simp only [List.map_cons, goOn, h b (by simp)]
      split
      · rfl
      · simp [hrest]

/-- Elements that are named anew and cost the same fall into the same segments. -/
theorem cut_map {f : β → α} {cost' : β → Nat} (l : List β) (h : ∀ b ∈ l, cost (f b) = cost' b) :
    cut cost budget (l.map f) = (cut cost' budget l).map (·.map f) := by
  induction l using cut.induct cost' budget with
  | case1 => simp
  | case2 b rest ih =>
      have hrest : ∀ c ∈ rest, cost (f c) = cost' c := fun c hc => h c (List.mem_cons_of_mem b hc)
      have hleft := ih fun c hc => hrest c (mem_of_mem_goOn _ rest hc)
      rw [List.map_cons, cut_cons, cut_cons, h b (by simp), goOn_map _ rest hrest]
      simpa using hleft

end Bitext.Packing
