/-
The index is a queue for each key.

An index can be asked to file an offset, to take the oldest offset of a key, to show it, and to
show a whole bucket.  What it is asked and what it answers is a history, and from a history alone
one can tell what was filed under a key and what was taken from it, in order.

The law of the index is that what was filed under a key is what was taken from it and, behind
that, what it still holds.  So what is taken comes in the order in which it was filed, and the next
to come is the oldest offset that has not been taken.  One request keeps the law, because it
changes the queue of its own key only, at one end; all requests keep it by going through them.
-/
import Mathlib.Logic.Function.Basic
import Bitext.Proofs.Bucket.Index

namespace Bitext

/-- What an index can be asked. -/
inductive Request where
  /-- To file an offset under a key. -/
  | insert (key offset : Nat)
  /-- To take the oldest offset of a key. -/
  | pop (key : Nat)
  /-- To show the oldest offset of a key. -/
  | front (key : Nat)
  /-- To show the bucket of a key. -/
  | bucket (key : Nat)

/-- What a request is answered. -/
inductive Answer where
  | done
  | offset (found : Option Nat)
  | bucket (found : Option (Queue Nat))

/-- What was asked and what was answered, in order. -/
abbrev History := List (Request × Answer)

namespace Request

/-- The key that a request is about. -/
def key : Request → Nat
  | .insert key _ | .pop key | .front key | .bucket key => key

/-- What a request does to a queue for each key. -/
def onQueues (queues : Nat → List Nat) : Request → Nat → List Nat
  | .insert key offset => Function.update queues key (queues key ++ [offset])
  | .pop key => Function.update queues key (queues key).tail
  | .front _ | .bucket _ => queues

theorem onQueues_of_ne {queues : Nat → List Nat} {request : Request} {key : Nat}
    (h : key ≠ request.key) : request.onQueues queues key = queues key := by
  cases request with
  | insert own offset => exact Function.update_of_ne h _ _
  | pop own => exact Function.update_of_ne h _ _
  | front own => rfl
  | bucket own => rfl

end Request

namespace History

/-- What a request files under a key. -/
def filedBy (key : Nat) : Request × Answer → List Nat
  | (.insert own offset, _) => if own = key then [offset] else []
  | _ => []

/-- What a request has taken from a key. -/
def takenBy (key : Nat) : Request × Answer → List Nat
  | (.pop own, .offset (some offset)) => if own = key then [offset] else []
  | _ => []

/-- The offsets that were filed under a key, oldest first. -/
def inserted (key : Nat) (history : History) : List Nat := history.flatMap (filedBy key)

/-- The offsets that were taken from a key, in the order in which they were taken. -/
def popped (key : Nat) (history : History) : List Nat := history.flatMap (takenBy key)

end History

namespace Index

variable {index : Index}

/-- The answer to a request, and the index after it. -/
def serve (index : Index) : Request → Answer × Index
  | .insert key offset => (.done, index.insert key offset)
  | .pop key =>
      match index.pop? key with
      | some (offset, rest) => (.offset (some offset), rest)
      | none => (.offset none, index)
  | .front key => (.offset (index.front? key), index)
  | .bucket key => (.bucket (index.bucket? key), index)

/-- The history of requests that are made one after the other, and the index in the end. -/
def serveAll (index : Index) : List Request → History × Index
  | [] => ([], index)
  | request :: rest =>
      let (answer, next) := index.serve request
      let (history, last) := next.serveAll rest
      ((request, answer) :: history, last)

/-! ### One request -/

section pop

variable {key offset : Nat} {rest : Index}

theorem serve_pop_of_none (h : index.pop? key = none) :
    index.serve (.pop key) = (.offset none, index) := by
  simp only [serve, h]

theorem serve_pop_of_some (h : index.pop? key = some (offset, rest)) :
    index.serve (.pop key) = (.offset (some offset), rest) := by
  simp only [serve, h]

/-- Nothing can be taken from a key exactly when its queue is empty. -/
theorem pop?_eq_none_iff : index.pop? key = none ↔ index.offsets key = [] := by
  unfold pop? offsets
  cases index.bucket? key with
  | none => simp
  | some q =>
      cases hpop : q.pop? with
      | none =>
          have hempty := Queue.pop?_eq_none_iff.mp hpop
          simp [hpop, hempty]
      | some popped =>
          obtain ⟨offset, left⟩ := popped
          have hlist := Queue.toList_of_pop? hpop
          simp [hpop, hlist]

/-- What is taken is the oldest offset of its key, and no other queue is touched. -/
theorem Coherent.offsets_of_pop? (h : index.Coherent)
    (hpop : index.pop? key = some (offset, rest)) :
    index.offsets key = offset :: rest.offsets key ∧
      rest.offsets = Function.update index.offsets key (index.offsets key).tail := by
  obtain ⟨q, left, hq, hleft, rfl⟩ := pop?_eq_some hpop
  have hcounted := Queue.counted_of_pop? (h.counted hq) hleft
  have hlist : index.offsets key = offset :: left.toList := by
    rw [offsets_of_bucket? hq, Queue.toList_of_pop? hleft]
  refine ⟨?_, ?_⟩
  · rw [hlist, offsets_setBucket _ _ _ hcounted, if_pos rfl]
  · funext k
    rw [offsets_setBucket _ _ _ hcounted, hlist]
    by_cases hkey : key = k
    · subst hkey
      simp
    · rw [if_neg hkey, Function.update_of_ne (Ne.symm hkey)]

/-- Whoever takes from a key is given its oldest offset, if there is one. -/
theorem Coherent.answer_pop (h : index.Coherent) (key : Nat) :
    (index.serve (.pop key)).1 = .offset (index.offsets key).head? := by
  cases hpop : index.pop? key with
  | none => rw [serve_pop_of_none hpop, pop?_eq_none_iff.mp hpop]; rfl
  | some popped =>
      obtain ⟨offset, rest⟩ := popped
      rw [serve_pop_of_some hpop, (h.offsets_of_pop? hpop).1]
      rfl

end pop

theorem front?_eq_head? (key : Nat) : index.front? key = (index.offsets key).head? := by
  unfold front? offsets
  cases index.bucket? key <;> simp

theorem Made.serve (h : index.Made) (request : Request) : (index.serve request).2.Made := by
  cases request with
  | insert key offset => exact h.insert key offset
  | pop key =>
      cases hpop : index.pop? key with
      | none => rw [serve_pop_of_none hpop]; exact h
      | some popped => rw [serve_pop_of_some hpop]; exact h.pop hpop
  | front key => exact h
  | bucket key => exact h

/-- **A request does to the index what it does to a queue for each key.** -/
theorem Coherent.offsets_serve (h : index.Coherent) (request : Request) :
    (index.serve request).2.offsets = request.onQueues index.offsets := by
  cases request with
  | insert key offset =>
      funext k
      show (index.insert key offset).offsets k
        = Function.update index.offsets key (index.offsets key ++ [offset]) k
      rw [offsets_insert]
      by_cases hkey : key = k
      · subst hkey
        simp
      · rw [if_neg hkey, Function.update_of_ne (Ne.symm hkey)]
  | pop key =>
      cases hpop : index.pop? key with
      | none =>
          have hempty := pop?_eq_none_iff.mp hpop
          rw [serve_pop_of_none hpop]
          show index.offsets = Function.update index.offsets key (index.offsets key).tail
          rw [hempty, List.tail_nil, ← hempty, Function.update_eq_self]
      | some popped =>
          rw [serve_pop_of_some hpop]
          exact (h.offsets_of_pop? hpop).2
  | front key => rfl
  | bucket key => rfl

/-- One request keeps the balance of a key: what it holds and what is filed under it is what is
taken from it and what it holds afterwards. -/
theorem Coherent.balance_serve (h : index.Coherent) (request : Request) (key : Nat) :
    index.offsets key ++ History.filedBy key (request, (index.serve request).1)
      = History.takenBy key (request, (index.serve request).1)
        ++ (index.serve request).2.offsets key := by
  rw [h.offsets_serve]
  cases request with
  | insert own offset =>
      show index.offsets key ++ (if own = key then [offset] else [])
        = Function.update index.offsets own (index.offsets own ++ [offset]) key
      by_cases hkey : own = key
      · subst hkey
        simp
      · rw [if_neg hkey, List.append_nil, Function.update_of_ne (Ne.symm hkey)]
  | pop own =>
      rw [h.answer_pop]
      show index.offsets key ++ [] = _ ++ Function.update index.offsets own _ key
      by_cases hkey : own = key
      · subst hkey
        cases index.offsets own <;> simp [History.takenBy]
      · rw [Function.update_of_ne (Ne.symm hkey), List.append_nil]
        cases index.offsets own <;> simp [History.takenBy, hkey]
  | front own => exact List.append_nil _
  | bucket own => exact List.append_nil _

/-! ### All requests -/

theorem Made.serveAll (requests : List Request) :
    ∀ {index : Index}, index.Made → (index.serveAll requests).2.Made := by
  induction requests with
  | nil => intro index h; exact h
  | cons request rest ih => intro index h; exact ih (h.serve request)

/-- **Requests keep the balance of every key.** -/
theorem Made.balance_serveAll (requests : List Request) (key : Nat) :
    ∀ {index : Index}, index.Made →
      index.offsets key ++ (index.serveAll requests).1.inserted key
        = (index.serveAll requests).1.popped key ++ (index.serveAll requests).2.offsets key := by
  induction requests with
  | nil => intro index _; exact List.append_nil _
  | cons request rest ih =>
      intro index h
      have hfirst := h.coherent.balance_serve request key
      have hothers := ih (h.serve request)
      show index.offsets key ++ (History.filedBy key (request, (index.serve request).1)
          ++ ((index.serve request).2.serveAll rest).1.inserted key)
        = (History.takenBy key (request, (index.serve request).1)
          ++ ((index.serve request).2.serveAll rest).1.popped key) ++ _
      rw [← List.append_assoc, hfirst, List.append_assoc, hothers, List.append_assoc]
      rfl

/-! ### The law of the index -/

/-- **The index is a map of queues.**  After any requests to an index that was empty, what was
filed under a key is what was taken from it, in the same order, and behind that its queue.  The
next request is answered by the queues: to be shown or to be taken, the oldest offset of the key,
if there is one.  It changes the queue of its own key only, and a request to take something that
is not there changes nothing.  A key has a bucket exactly when its queue is not empty, and then
the bucket is that queue with its length.  The counts are the lengths of the queues that are not
empty, by ascending key, and the total is their sum; it is zero exactly when no bucket is left, and
exactly when everything that was filed has been taken. -/
theorem index_is_a_queue_for_each_key (requests : List Request) :
    let history := (empty.serveAll requests).1
    let index := (empty.serveAll requests).2
    (∀ key, history.inserted key = history.popped key ++ index.offsets key) ∧
    (∀ key, (index.serve (.pop key)).1 = .offset (index.offsets key).head? ∧
      index.serve (.front key) = (.offset (index.offsets key).head?, index)) ∧
    (∀ request, (index.serve request).2.offsets = request.onQueues index.offsets) ∧
    (∀ request key, key ≠ request.key → (index.serve request).2.offsets key = index.offsets key) ∧
    (∀ key, index.offsets key = [] → index.serve (.pop key) = (.offset none, index)) ∧
    (∀ key, index.bucket? key = none ↔ index.offsets key = []) ∧
    (∀ key q, index.bucket? key = some q →
      q.toList = index.offsets key ∧ q.size = (index.offsets key).length ∧ 0 < q.size) ∧
    (∀ key n, (key, n) ∈ index.counts ↔ n = (index.offsets key).length ∧ 0 < n) ∧
    (index.counts.map (·.1)).Pairwise (· < ·) ∧
    (index.counts.map (·.2)).sum = index.total ∧
    (index.isEmpty = true ↔ index.total = 0) ∧
    (index.total = 0 ↔ ∀ key, history.popped key = history.inserted key) := by
  intro history index
  have hmade : index.Made := Made.serveAll requests .empty
  have h := hmade.coherent
  have hbalance : ∀ key, history.inserted key = history.popped key ++ index.offsets key := by
    intro key
    have hkept := Made.balance_serveAll requests key .empty
    rw [offsets_empty, List.nil_append] at hkept
    exact hkept
  refine ⟨hbalance, fun key => ⟨h.answer_pop key, ?_⟩, h.offsets_serve, fun request key hkey => ?_,
    fun key hempty => serve_pop_of_none (pop?_eq_none_iff.mpr hempty),
    fun key => h.bucket?_eq_none_iff, fun key q => h.of_bucket?, fun key n => h.mem_counts_iff,
    pairwise_keys_counts index, h.sum_counts, h.isEmpty_iff, ?_⟩
  · rw [serve, front?_eq_head?]
  · rw [h.offsets_serve, Request.onQueues_of_ne hkey]
  · rw [h.total_eq_zero_iff]
    refine forall_congr' fun key => ?_
    rw [hbalance key]
    simp

/-- Two keys, from one of which an offset is taken and from another nothing. -/
example :
    (empty.serveAll [.insert 1 10, .insert 2 20, .insert 1 11, .pop 1, .pop 3]).1.popped 1 = [10] ∧
      (empty.serveAll [.insert 1 10, .insert 2 20, .insert 1 11, .pop 1, .pop 3]).2.counts
        = [(1, 1), (2, 1)] := by
  decide

end Index

end Bitext
