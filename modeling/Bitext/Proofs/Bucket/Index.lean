/-
What a bucket index holds.

An index keeps the same fact in four places: the offsets of a bucket, the size kept
beside them, the total kept beside the buckets, and the presence of the bucket itself.
`Coherent` is that the four agree.  It holds of the empty index and survives filing and
taking, so it holds of every index that was made that way; this is what `Made` says.

Two views carry the rest of the development.  `offsets` is a queue for each key, and
every operation changes the queue of one key only.  `allOffsets` is all of them together,
and an operation adds or takes away one entry of it.
-/
import Mathlib.Algebra.Order.Ring.Nat
import Bitext.Bucket.Index

namespace Bitext

namespace Queue

variable {α : Type}

/-- The size kept beside the elements is their number. -/
def Counted (q : Queue α) : Prop := q.size = q.toList.length

theorem counted_empty : (empty : Queue α).Counted := rfl

theorem counted_push {q : Queue α} (h : q.Counted) (a : α) : (q.push a).Counted := by
  have hsize : q.size = q.toList.length := h
  show q.size + 1 = (q.push a).toList.length
  rw [toList_push, List.length_append, List.length_singleton, hsize]

theorem size_of_pop? {q rest : Queue α} {a : α} (h : q.pop? = some (a, rest)) :
    rest.size = q.size - 1 := by
  unfold pop? at h
  split at h
  · obtain ⟨-, rfl⟩ : _ ∧ _ = rest := by simpa using h
    rfl
  · split at h
    · obtain ⟨-, rfl⟩ : _ ∧ _ = rest := by simpa using h
      rfl
    · simp at h

theorem counted_of_pop? {q rest : Queue α} {a : α} (hq : q.Counted)
    (h : q.pop? = some (a, rest)) : rest.Counted := by
  have hsize : q.size = q.toList.length := hq
  have hlength := congrArg List.length (toList_of_pop? h)
  show rest.size = rest.toList.length
  rw [size_of_pop? h, hsize, hlength]
  simp

/-- A queue that holds something gives its oldest element. -/
theorem pop?_of_toList_cons {q : Queue α} {a : α} {l : List α} (h : q.toList = a :: l) :
    ∃ left, q.pop? = some (a, left) ∧ left.toList = l := by
  cases hpop : q.pop? with
  | none =>
      rw [pop?_eq_none_iff, h] at hpop
      simp at hpop
  | some popped =>
      obtain ⟨b, left⟩ := popped
      have hview := toList_of_pop? hpop
      rw [h] at hview
      obtain ⟨rfl, rfl⟩ := List.cons.inj hview
      exact ⟨left, rfl, rfl⟩

theorem isEmpty_iff {q : Queue α} (h : q.Counted) : q.isEmpty = true ↔ q.toList = [] := by
  have hsize : q.size = q.toList.length := h
  simp [isEmpty, hsize]

end Queue

namespace Index

/-- The entries of buckets, by ascending key and oldest first. -/
def filed (buckets : Std.ExtTreeMap Nat (Queue Nat)) : List (Nat × Nat) :=
  buckets.toList.flatMap fun entry => entry.2.toList.map (entry.1, ·)

theorem allOffsets_eq_filed (index : Index) : index.allOffsets = filed index.buckets := rfl

/-- What the index keeps in several places agrees. -/
structure Coherent (index : Index) : Prop where
  /-- The size of every bucket is the number of its offsets. -/
  counted : ∀ {key : Nat} {q : Queue Nat}, index.bucket? key = some q → q.Counted
  /-- A bucket without offsets is not there. -/
  live : ∀ {key : Nat} {q : Queue Nat}, index.bucket? key = some q → q.toList ≠ []
  /-- The total is the number of all offsets. -/
  total : index.total = index.allOffsets.length

/-- An index that was made by filing offsets and taking them. -/
inductive Made : Index → Prop where
  | empty : Made .empty
  | insert {index : Index} (key offset : Nat) : Made index → Made (index.insert key offset)
  | pop {index rest : Index} {key offset : Nat} :
      Made index → index.pop? key = some (offset, rest) → Made rest

/-! ### One bucket against all others

Setting a bucket aside splits the entries into its own and those of the buckets that
are left.  Filing and taking change a bucket that is set aside, so both come down to
this one split.
-/

/-- The buckets in key order are the one of a key and all others. -/
theorem toList_perm_erase {V : Type} (m : Std.ExtTreeMap Nat V) (key : Nat) :
    m.toList.Perm ((m[key]?.map fun v => (key, v)).toList ++ (m.erase key).toList) := by
  have hnodup : ∀ m : Std.ExtTreeMap Nat V, m.toList.Nodup := by
    intro m
    refine m.distinct_keys_toList.imp ?_
    intro a b hne hab
    exact hne (by simp [hab])
  rw [List.perm_ext_iff_of_nodup (hnodup m)]
  · intro entry
    obtain ⟨k, v⟩ := entry
    rw [List.mem_append, Std.ExtTreeMap.mem_toList_iff_getElem?_eq_some,
      Std.ExtTreeMap.mem_toList_iff_getElem?_eq_some, Std.ExtTreeMap.getElem?_erase]
    by_cases hkey : key = k
    · subst hkey
      cases m[key]? <;> simp [eq_comm]
    · simp [hkey]
  · refine List.nodup_append.mpr ⟨?_, hnodup _, ?_⟩
    · cases m[key]? <;> simp
    · intro a ha b hb hab
      obtain ⟨k, v⟩ := b
      rw [Std.ExtTreeMap.mem_toList_iff_getElem?_eq_some, Std.ExtTreeMap.getElem?_erase] at hb
      have hk : k = key := by
        subst hab
        cases hm : m[key]? with
        | none => simp [hm] at ha
        | some w =>
            simp only [hm, Option.map_some, Option.toList_some, List.mem_singleton,
              Prod.mk.injEq] at ha
            exact ha.1
      simp [hk] at hb

/-- The entries are those of one key and those of all other buckets. -/
theorem filed_perm (buckets : Std.ExtTreeMap Nat (Queue Nat)) (key : Nat) :
    (filed buckets).Perm
      (((buckets[key]?.map Queue.toList).getD []).map (key, ·) ++ filed (buckets.erase key)) := by
  unfold filed
  refine ((toList_perm_erase buckets key).flatMap_right _).trans ?_
  rw [List.flatMap_append]
  cases buckets[key]? <;> simp

theorem erase_insert (buckets : Std.ExtTreeMap Nat (Queue Nat)) (key : Nat) (q : Queue Nat) :
    (buckets.insert key q).erase key = buckets.erase key := by
  refine Std.ExtTreeMap.ext_getElem? fun k => ?_
  rw [Std.ExtTreeMap.getElem?_erase, Std.ExtTreeMap.getElem?_erase,
    Std.ExtTreeMap.getElem?_insert]
  by_cases hkey : key = k <;> simp [hkey]

/-- The entries after a bucket was put in place. -/
theorem filed_insert (buckets : Std.ExtTreeMap Nat (Queue Nat)) (key : Nat) (q : Queue Nat) :
    (filed (buckets.insert key q)).Perm (q.toList.map (key, ·) ++ filed (buckets.erase key)) := by
  have hperm := filed_perm (buckets.insert key q) key
  rw [erase_insert] at hperm
  simpa using hperm

/-! ### Filing -/

@[simp] theorem offsets_empty (key : Nat) : empty.offsets key = [] := by
  simp [offsets, bucket?, empty]

theorem offsets_of_bucket? {index : Index} {key : Nat} {q : Queue Nat}
    (h : index.bucket? key = some q) : index.offsets key = q.toList := by
  simp [offsets, h]

theorem bucket?_insert (index : Index) (key offset k : Nat) :
    (index.insert key offset).bucket? k
      = if key = k then some (((index.bucket? key).getD .empty).push offset)
        else index.bucket? k := by
  show (index.buckets.insert key _)[k]? = _
  rw [Std.ExtTreeMap.getElem?_insert]
  by_cases hkey : key = k <;> simp [hkey, bucket?]

theorem toList_getD_empty (index : Index) (key : Nat) :
    ((index.bucket? key).getD .empty).toList = index.offsets key := by
  unfold offsets
  cases index.bucket? key <;> simp

/-- An offset goes to the end of its own queue and touches no other. -/
theorem offsets_insert (index : Index) (key offset k : Nat) :
    (index.insert key offset).offsets k
      = if key = k then index.offsets k ++ [offset] else index.offsets k := by
  have hbucket := bucket?_insert index key offset k
  by_cases hkey : key = k
  · subst hkey
    rw [if_pos rfl] at hbucket ⊢
    rw [offsets_of_bucket? hbucket, Queue.toList_push, toList_getD_empty]
  · rw [if_neg hkey] at hbucket ⊢
    simp [offsets, hbucket]

theorem allOffsets_insert (index : Index) (key offset : Nat) :
    (index.insert key offset).allOffsets.Perm ((key, offset) :: index.allOffsets) := by
  show (filed (index.buckets.insert key _)).Perm ((key, offset) :: filed index.buckets)
  refine (filed_insert index.buckets key _).trans ?_
  rw [Queue.toList_push, toList_getD_empty, List.map_append, List.append_assoc]
  refine List.perm_middle.trans ?_
  exact ((filed_perm index.buckets key).symm).cons _

theorem coherent_empty : Coherent empty where
  counted h := by simp [bucket?, empty] at h
  live h := by simp [bucket?, empty] at h
  total := by
    have hnone : (∅ : Std.ExtTreeMap Nat (Queue Nat)).toList = [] :=
      Std.ExtTreeMap.toList_eq_nil_iff.mpr rfl
    simp [allOffsets_eq_filed, filed, empty, hnone]

theorem Coherent.insert {index : Index} (h : index.Coherent) (key offset : Nat) :
    (index.insert key offset).Coherent where
  counted := by
    intro k q hq
    rw [bucket?_insert] at hq
    split at hq
    · obtain rfl := Option.some.inj hq
      refine Queue.counted_push ?_ offset
      cases hold : index.bucket? key with
      | none => exact Queue.counted_empty
      | some old => exact h.counted hold
    · exact h.counted hq
  live := by
    intro k q hq
    rw [bucket?_insert] at hq
    split at hq
    · obtain rfl := Option.some.inj hq
      simp
    · exact h.live hq
  total := by
    have hlength := (allOffsets_insert index key offset).length_eq
    have htotal := h.total
    show index.total + 1 = _
    rw [hlength, List.length_cons, htotal]

/-! ### Putting a bucket back

Taking from a bucket leaves a queue that goes back in its place, or nothing at all when
the queue has run out.
-/

/-- The index whose bucket of a key is what is left of it, with a new total. -/
def setBucket (index : Index) (key : Nat) (rest : Queue Nat) (total : Nat) : Index :=
  ⟨index.putBack key rest, total⟩

section setBucket

variable (index : Index) (key total : Nat) {rest : Queue Nat}

theorem bucket?_setBucket (hrest : rest.Counted) (k : Nat) :
    (index.setBucket key rest total).bucket? k
      = if key = k then (if rest.toList = [] then none else some rest) else index.bucket? k := by
  have hempty := Queue.isEmpty_iff hrest
  show (index.putBack key rest)[k]? = _
  unfold putBack
  by_cases hnil : rest.toList = []
  · rw [if_pos (hempty.mpr hnil), Std.ExtTreeMap.getElem?_erase]
    by_cases hkey : key = k <;> simp [hkey, hnil, bucket?]
  · rw [if_neg (fun hc => hnil (hempty.mp hc)), Std.ExtTreeMap.getElem?_insert]
    by_cases hkey : key = k <;> simp [hkey, hnil, bucket?]

theorem offsets_setBucket (hrest : rest.Counted) (k : Nat) :
    (index.setBucket key rest total).offsets k
      = if key = k then rest.toList else index.offsets k := by
  have hbucket := bucket?_setBucket index key total hrest k
  by_cases hkey : key = k
  · rw [if_pos hkey] at hbucket ⊢
    by_cases hnil : rest.toList = []
    · rw [if_pos hnil] at hbucket
      simp [offsets, hbucket, hnil]
    · rw [if_neg hnil] at hbucket
      exact offsets_of_bucket? hbucket
  · rw [if_neg hkey] at hbucket ⊢
    simp [offsets, hbucket]

theorem allOffsets_setBucket (hrest : rest.Counted) :
    (index.setBucket key rest total).allOffsets.Perm
      (rest.toList.map (key, ·) ++ filed (index.buckets.erase key)) := by
  have hempty := Queue.isEmpty_iff hrest
  show (filed (index.putBack key rest)).Perm _
  unfold putBack
  by_cases hnil : rest.toList = []
  · rw [if_pos (hempty.mpr hnil), hnil]
    exact List.Perm.refl _
  · rw [if_neg (fun hc => hnil (hempty.mp hc))]
    exact filed_insert index.buckets key rest

/-- A bucket from whose front something was taken goes back coherently when the total has
gone down by as much. -/
theorem Coherent.setBucket {index : Index} {key : Nat} (h : index.Coherent) (hrest : rest.Counted)
    {taken : List Nat} (htaken : index.offsets key = taken ++ rest.toList) :
    (index.setBucket key rest (index.total - taken.length)).Coherent where
  counted := by
    intro k q hq
    rw [bucket?_setBucket _ _ _ hrest] at hq
    split at hq
    · split at hq
      · simp at hq
      · obtain rfl := Option.some.inj hq
        exact hrest
    · exact h.counted hq
  live := by
    intro k q hq
    rw [bucket?_setBucket _ _ _ hrest] at hq
    split at hq
    · split at hq
      · simp at hq
      · rename_i hne
        obtain rfl := Option.some.inj hq
        exact hne
    · exact h.live hq
  total := by
    have hafter := (allOffsets_setBucket index key (index.total - taken.length) hrest).length_eq
    have hbefore := (filed_perm index.buckets key).length_eq
    have hsplit : (index.buckets[key]?.map Queue.toList).getD [] = taken ++ rest.toList := htaken
    have htotal := h.total
    rw [hsplit] at hbefore
    rw [allOffsets_eq_filed] at htotal
    show index.total - taken.length = _
    rw [hafter, htotal, hbefore]
    simp only [List.length_append, List.length_map]
    omega

end setBucket

/-! ### Taking -/

/-- Taking succeeds on a queue that holds something, and gives back what is behind the
oldest offset. -/
theorem pop?_eq_some {index rest : Index} {key offset : Nat}
    (h : index.pop? key = some (offset, rest)) :
    ∃ q left, index.bucket? key = some q ∧ q.pop? = some (offset, left) ∧
      rest = index.setBucket key left (index.total - 1) := by
  unfold pop? at h
  split at h
  · rename_i popped left hpop
    obtain ⟨q, hq, hleft⟩ := Option.bind_eq_some_iff.mp hpop
    obtain ⟨rfl, rfl⟩ : popped = offset ∧ _ = rest := by simpa using h
    exact ⟨q, left, hq, hleft, rfl⟩
  · simp at h

theorem Coherent.pop {index rest : Index} {key offset : Nat} (h : index.Coherent)
    (hpop : index.pop? key = some (offset, rest)) : rest.Coherent := by
  obtain ⟨q, left, hq, hleft, rfl⟩ := pop?_eq_some hpop
  have hoffsets : index.offsets key = [offset] ++ left.toList := by
    rw [offsets_of_bucket? hq, Queue.toList_of_pop? hleft]
    rfl
  exact h.setBucket (Queue.counted_of_pop? (h.counted hq) hleft) hoffsets

/-- **However an index was made, it is coherent.** -/
theorem Made.coherent {index : Index} (h : index.Made) : index.Coherent := by
  induction h with
  | empty => exact coherent_empty
  | insert key offset _ ih => exact ih.insert key offset
  | pop _ hpop ih => exact ih.pop hpop

/-! ### All entries and the queues -/

theorem mem_allOffsets {index : Index} {key offset : Nat} :
    (key, offset) ∈ index.allOffsets ↔ offset ∈ index.offsets key := by
  rw [allOffsets_eq_filed, (filed_perm index.buckets key).mem_iff]
  have hothers : (key, offset) ∉ filed (index.buckets.erase key) := by
    intro hmem
    obtain ⟨⟨k, q⟩, hk, hoffset⟩ := List.mem_flatMap.mp hmem
    rw [Std.ExtTreeMap.mem_toList_iff_getElem?_eq_some, Std.ExtTreeMap.getElem?_erase] at hk
    obtain ⟨-, hkey⟩ : _ ∧ k = key := by simpa using hoffset
    simp [hkey] at hk
  rw [List.mem_append]
  simp [hothers, offsets, bucket?]

/-- No bucket holds more than the total. -/
theorem Coherent.length_offsets_le {index : Index} (h : index.Coherent) (key : Nat) :
    (index.offsets key).length ≤ index.total := by
  have hsplit := (filed_perm index.buckets key).length_eq
  rw [List.length_append, List.length_map] at hsplit
  rw [h.total, allOffsets_eq_filed, hsplit]
  exact Nat.le_add_right _ _

/-- With nothing left in total, no queue holds anything. -/
theorem Coherent.offsets_of_total_zero {index : Index} (h : index.Coherent)
    (hzero : index.total = 0) (key : Nat) : index.offsets key = [] := by
  have hle := h.length_offsets_le key
  exact List.eq_nil_of_length_eq_zero (by omega)

/-! ### What the index keeps beside its queues -/

section

variable {index : Index}

/-- A bucket is the queue of its key, with its length beside it. -/
theorem Coherent.of_bucket? (h : index.Coherent) {key : Nat} {q : Queue Nat}
    (hbucket : index.bucket? key = some q) :
    q.toList = index.offsets key ∧ q.size = (index.offsets key).length ∧ 0 < q.size := by
  have hlist := offsets_of_bucket? hbucket
  have hsize : q.size = q.toList.length := h.counted hbucket
  refine ⟨hlist.symm, by rw [hlist, hsize], ?_⟩
  rw [hsize]
  exact List.length_pos_iff.mpr (h.live hbucket)

/-- There is no bucket exactly where the queue is empty. -/
theorem Coherent.bucket?_eq_none_iff (h : index.Coherent) {key : Nat} :
    index.bucket? key = none ↔ index.offsets key = [] := by
  cases hbucket : index.bucket? key with
  | none => simp [offsets, hbucket]
  | some q =>
      have hlist := offsets_of_bucket? hbucket
      have hlive := h.live hbucket
      simp [hlist, hlive]

/-- The counts name the keys that hold something, with what they hold. -/
theorem Coherent.mem_counts_iff (h : index.Coherent) {key n : Nat} :
    (key, n) ∈ index.counts ↔ n = (index.offsets key).length ∧ 0 < n := by
  constructor
  · intro hmem
    obtain ⟨⟨k, q⟩, hentry, heq⟩ := List.mem_map.mp hmem
    obtain ⟨rfl, rfl⟩ : k = key ∧ q.size = n := by simpa using heq
    obtain ⟨-, hsize, hpos⟩ := h.of_bucket? (Std.ExtTreeMap.mem_toList_iff_getElem?_eq_some.mp hentry)
    exact ⟨hsize, hpos⟩
  · rintro ⟨rfl, hpos⟩
    cases hbucket : index.bucket? key with
    | none =>
        rw [h.bucket?_eq_none_iff.mp hbucket] at hpos
        exact absurd hpos (Nat.lt_irrefl 0)
    | some q =>
        obtain ⟨-, hsize, -⟩ := h.of_bucket? hbucket
        refine List.mem_map.mpr ⟨(key, q), ?_, by rw [hsize]⟩
        exact Std.ExtTreeMap.mem_toList_iff_getElem?_eq_some.mpr hbucket

/-- The counts of a coherent index add up to its total. -/
theorem Coherent.sum_counts (h : index.Coherent) :
    (index.counts.map (·.2)).sum = index.total := by
  rw [h.total, allOffsets, List.length_flatMap, counts, List.map_map]
  congr 1
  refine List.map_congr_left fun entry hentry => ?_
  obtain ⟨key, q⟩ := entry
  have hbucket : index.bucket? key = some q :=
    Std.ExtTreeMap.mem_toList_iff_getElem?_eq_some.mp hentry
  have hsize : q.size = q.toList.length := h.counted hbucket
  simpa using hsize

theorem pairwise_keys_counts (index : Index) : (index.counts.map (·.1)).Pairwise (· < ·) := by
  have hkeys := index.buckets.ordered_keys_toList
  rw [counts, List.map_map, List.pairwise_map]
  refine hkeys.imp fun hless => ?_
  exact Nat.compare_eq_lt.mp hless

/-- Nothing is left in total exactly when every queue is empty. -/
theorem Coherent.total_eq_zero_iff (h : index.Coherent) :
    index.total = 0 ↔ ∀ key, index.offsets key = [] := by
  constructor
  · exact h.offsets_of_total_zero
  · intro hempty
    have hnone : index.allOffsets = [] := by
      refine List.eq_nil_iff_forall_not_mem.mpr fun entry hentry => ?_
      have hoffset := mem_allOffsets.mp hentry
      rw [hempty] at hoffset
      cases hoffset
    rw [h.total, hnone, List.length_nil]

theorem Coherent.isEmpty_iff (h : index.Coherent) : index.isEmpty = true ↔ index.total = 0 := by
  rw [h.total_eq_zero_iff, isEmpty, Std.ExtTreeMap.isEmpty_iff]
  constructor
  · intro hbuckets key
    rw [← h.bucket?_eq_none_iff, bucket?, hbuckets, Std.ExtTreeMap.getElem?_empty]
  · intro hempty
    refine Std.ExtTreeMap.ext_getElem? fun key => ?_
    rw [Std.ExtTreeMap.getElem?_empty]
    exact h.bucket?_eq_none_iff.mpr (hempty key)

end

end Index

end Bitext
