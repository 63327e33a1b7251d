/-
First-in first-out queues.

Offsets join a bucket in corpus order while the index is built and leave it in the same
order while batches are packed.  Both ends have to be cheap, so the queue is two lists:
what was added since the last turn stands in `back`, latest first, and is turned over
when `front` has run out.  The number of elements is kept beside them, since every draw
asks for it.

The view of a queue is `toList`, oldest first.
-/
namespace Bitext

/-- A first-in first-out queue. -/
structure Queue (α : Type) where
  front : List α
  back : List α
  size : Nat

namespace Queue

variable {α : Type}

/-- The queue that holds nothing. -/
def empty : Queue α := ⟨[], [], 0⟩

/-- The elements, oldest first. -/
def toList (q : Queue α) : List α := q.front ++ q.back.reverse

/-- The queue with an element added at its end. -/
def push (q : Queue α) (a : α) : Queue α := { q with back := a :: q.back, size := q.size + 1 }

/-- The oldest element and the queue without it. -/
def pop? (q : Queue α) : Option (α × Queue α) :=
  match q.front with
  | a :: rest => some (a, { q with front := rest, size := q.size - 1 })
  | [] =>
      match q.back.reverse with
      | a :: rest => some (a, ⟨rest, [], q.size - 1⟩)
      | [] => none

/-- The oldest element. -/
def front? (q : Queue α) : Option α :=
  match q.front with
  | a :: _ => some a
  | [] => q.back.getLast?

/-- A queue whose size says that it holds nothing. -/
def isEmpty (q : Queue α) : Bool := q.size == 0

@[simp] theorem toList_empty : (empty : Queue α).toList = [] := rfl

@[simp] theorem toList_push (q : Queue α) (a : α) : (q.push a).toList = q.toList ++ [a] := by
  simp [toList, push]

/-- Popping takes the oldest element away, and fails only when there is none. -/
theorem toList_pop? (q : Queue α) :
    q.pop?.map (fun popped => (popped.1, popped.2.toList))
      = q.toList.head?.map fun a => (a, q.toList.tail) := by
  obtain ⟨front, back, size⟩ := q
  cases front with
  | cons a rest => simp [pop?, toList]
  | nil =>
      unfold pop? toList
      cases h : back.reverse with
      | nil => simp
      | cons a rest => simp

/-- A popped queue holds one element less. -/
theorem toList_of_pop? {q rest : Queue α} {a : α} (h : q.pop? = some (a, rest)) :
    q.toList = a :: rest.toList := by
  have view := toList_pop? q
  rw [h] at view
  cases hl : q.toList with
  | nil => rw [hl] at view; simp at view
  | cons b tail =>
      rw [hl] at view
      obtain ⟨rfl, rfl⟩ : a = b ∧ rest.toList = tail := by simpa using view
      rfl

theorem pop?_eq_none_iff {q : Queue α} : q.pop? = none ↔ q.toList = [] := by
  have view := toList_pop? q
  constructor
  · intro h
    rw [h] at view
    cases hl : q.toList with
    | nil => rfl
    | cons b tail => rw [hl] at view; simp at view
  · intro h
    rw [h] at view
    simpa using view

@[simp] theorem front?_eq (q : Queue α) : q.front? = q.toList.head? := by
  obtain ⟨front, back, size⟩ := q
  cases front with
  | cons a rest => rfl
  | nil => simp [front?, toList]

end Queue

end Bitext
