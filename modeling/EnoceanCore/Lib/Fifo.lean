import Mathlib.Data.List.Basic

/-!
# Bounded queues

`Fifo` is a queue of at most `capacity` elements, first in, first out. `Moved` says what a
sequence of pushes and pops leaves of a queue: the elements pushed come out in order, and
none is lost or duplicated.
-/

namespace Lib

variable {α : Type}

/-- A queue within its capacity. -/
structure Fifo (α : Type) where
  capacity : Nat
  pending : List α
  bounded : pending.length ≤ capacity

namespace Fifo

@[ext] theorem ext {q r : Fifo α} (hcapacity : q.capacity = r.capacity)
    (hpending : q.pending = r.pending) : q = r := by
  cases q
  cases r
  cases hcapacity
  cases hpending
  rfl

def empty (capacity : Nat) : Fifo α := ⟨capacity, [], Nat.zero_le _⟩

/-- The number of elements that can still be pushed. -/
def free (q : Fifo α) : Nat := q.capacity - q.pending.length

/-- The queue with an element at its end, unless it is full. -/
def push (q : Fifo α) (a : α) : Option (Fifo α) :=
  if h : q.pending.length < q.capacity then
    some ⟨q.capacity, q.pending ++ [a], by
      rw [List.length_append]
      exact h⟩
  else none

/-- The first element and the rest, unless the queue is empty. -/
def pop (q : Fifo α) : Option (α × Fifo α) :=
  match hq : q.pending with
  | [] => none
  | a :: rest => some (a, ⟨q.capacity, rest, by
      have hbound := q.bounded
      rw [hq, List.length_cons] at hbound
      exact Nat.le_of_succ_le hbound⟩)

theorem push_eq_none {q : Fifo α} {a : α} : q.push a = none ↔ q.pending.length = q.capacity := by
  unfold push
  split
  · rename_i h
    exact iff_of_false (fun hnone => by cases hnone) (Nat.ne_of_lt h)
  · rename_i h
    exact iff_of_true rfl (Nat.le_antisymm q.bounded (Nat.not_lt.mp h))

theorem push_eq_some {q r : Fifo α} {a : α} :
    q.push a = some r ↔ q.pending.length < q.capacity ∧ r.capacity = q.capacity ∧
      r.pending = q.pending ++ [a] := by
  unfold push
  split
  · rename_i h
    constructor
    · rintro ⟨⟩
      exact ⟨h, rfl, rfl⟩
    · intro h
      rcases h with ⟨-, hcapacity, hpending⟩
      exact congrArg some (Fifo.ext hcapacity.symm hpending.symm)
  · rename_i h
    exact iff_of_false (fun hsome => by cases hsome) fun hand => h hand.1

theorem pop_eq_none {q : Fifo α} : q.pop = none ↔ q.pending = [] := by
  obtain ⟨capacity, pending, hbounded⟩ := q
  cases pending with
  | nil => exact iff_of_true rfl rfl
  | cons a rest => exact iff_of_false (fun h => by cases h) (fun h => by cases h)

theorem pop_eq_some {q r : Fifo α} {a : α} :
    q.pop = some (a, r) ↔ q.pending = a :: r.pending ∧ r.capacity = q.capacity := by
  obtain ⟨capacity, pending, hbounded⟩ := q
  cases pending with
  | nil => exact iff_of_false (fun h => by cases h) (fun h => by cases h.1)
  | cons b rest =>
    constructor
    · rintro ⟨⟩
      exact ⟨rfl, rfl⟩
    · intro h
      rcases h with ⟨hpending, hcapacity⟩
      cases hpending
      exact congrArg some (Prod.ext rfl (Fifo.ext hcapacity.symm rfl))

end Fifo

/-! ## What comes out is what went in -/

/-- An element enters or leaves a queue. -/
inductive FifoEvent (α : Type) where
  | pushed (a : α)
  | popped (a : α)
  deriving DecidableEq, Repr

namespace FifoEvent

def pushed? : FifoEvent α → Option α
  | pushed a => some a
  | popped _ => none

def popped? : FifoEvent α → Option α
  | pushed _ => none
  | popped a => some a

end FifoEvent

/-- **Conservation.** What was in the queue and what was pushed, in this order, is what was
popped and what is left, in this order. -/
def Moved (before : List α) (events : List (FifoEvent α)) (after : List α) : Prop :=
  before ++ events.filterMap FifoEvent.pushed? =
    events.filterMap FifoEvent.popped? ++ after

namespace Moved

theorem nil (pending : List α) : Moved pending [] pending := List.append_nil pending

theorem push (pending : List α) (a : α) : Moved pending [.pushed a] (pending ++ [a]) := rfl

theorem pop (a : α) (rest : List α) : Moved (a :: rest) [.popped a] rest :=
  List.append_nil (a :: rest)

theorem trans {p q r : List α} {es fs : List (FifoEvent α)} (hpq : Moved p es q)
    (hqr : Moved q fs r) : Moved p (es ++ fs) r := by
  rw [Moved, List.filterMap_append, List.filterMap_append, ← List.append_assoc, hpq,
    List.append_assoc, hqr, List.append_assoc]

/-- What comes out was there or was put in. -/
theorem mem_of_popped {p q : List α} {es : List (FifoEvent α)} (h : Moved p es q) {a : α}
    (ha : FifoEvent.popped a ∈ es) : a ∈ p ∨ FifoEvent.pushed a ∈ es := by
  have hout : a ∈ es.filterMap FifoEvent.popped? ++ q :=
    List.mem_append_left q (List.mem_filterMap.mpr ⟨_, ha, rfl⟩)
  rw [← h, List.mem_append, List.mem_filterMap] at hout
  rcases hout with hthere | ⟨e, he, hin⟩
  · exact Or.inl hthere
  · cases e with
    | pushed b =>
      cases hin
      exact Or.inr he
    | popped b => cases hin

end Moved

end Lib
