import Mathlib.Data.List.Count
import Mathlib.Data.List.Basic

/-!
# Handles that are acquired and released

A `Ledger` follows a sequence of `HandleEvent`s: the handles held now, the largest number
held at one time, and the releases of handles that were not held. `count_after` is the
conservation law: what was held or acquired is held or was released.
-/

namespace Lib

variable {η : Type}

/-- A handle is acquired or released. -/
inductive HandleEvent (η : Type) where
  | acquire (handle : η)
  | release (handle : η)
  deriving DecidableEq, Repr

/-- The handles held, the most held at one time, and the releases of handles not held. -/
structure Ledger (η : Type) where
  held : List η := []
  peak : Nat := 0
  strays : List η := []
  deriving DecidableEq, Repr

namespace Ledger

variable [DecidableEq η]

/-- The ledger after one event. -/
def next (l : Ledger η) : HandleEvent η → Ledger η
  | .acquire h => { l with held := h :: l.held, peak := max l.peak (l.held.length + 1) }
  | .release h =>
      if h ∈ l.held then { l with held := l.held.erase h }
      else { l with strays := h :: l.strays }

/-- The ledger after a sequence of events. -/
def after (l : Ledger η) (events : List (HandleEvent η)) : Ledger η := events.foldl next l

@[simp] theorem next_acquire (l : Ledger η) (h : η) :
    l.next (.acquire h) =
      { l with held := h :: l.held, peak := max l.peak (l.held.length + 1) } := rfl

/-- The handle acquired last is released. -/
theorem next_release_head {l : Ledger η} {h : η} {rest : List η} (hl : l.held = h :: rest) :
    l.next (.release h) = { l with held := rest } := by
  rw [next, if_pos (by rw [hl]; exact List.mem_cons_self), hl, List.erase_cons_head]

@[simp] theorem after_nil (l : Ledger η) : l.after [] = l := rfl

@[simp] theorem after_cons (l : Ledger η) (e : HandleEvent η) (es : List (HandleEvent η)) :
    l.after (e :: es) = (l.next e).after es := rfl

theorem after_append (l : Ledger η) (es fs : List (HandleEvent η)) :
    l.after (es ++ fs) = (l.after es).after fs := List.foldl_append

theorem count_next (l : Ledger η) (e : HandleEvent η) (h : η) :
    l.held.count h + [e].count (.acquire h) + (l.next e).strays.count h =
      (l.next e).held.count h + [e].count (.release h) + l.strays.count h := by
  cases e with
  | acquire g =>
    rw [List.count_singleton, List.count_singleton, next_acquire, List.count_cons]
    simp
  | release g =>
    rw [List.count_singleton, List.count_singleton, next]
    by_cases hg : g ∈ l.held
    · have hpos : 0 < l.held.count g := List.count_pos_iff.mpr hg
      rw [if_pos hg, List.count_erase]
      by_cases hgh : g = h
      · subst hgh
        simp
        omega
      · simp [hgh]
    · rw [if_neg hg, List.count_cons]
      simp
      omega

/-- **Conservation.** What was held or acquired is held or was released, except for the
releases of handles that were not held. -/
theorem count_after (l : Ledger η) (es : List (HandleEvent η)) (h : η) :
    l.held.count h + es.count (.acquire h) + (l.after es).strays.count h =
      (l.after es).held.count h + es.count (.release h) + l.strays.count h := by
  induction es generalizing l with
  | nil => simp
  | cons e es ih =>
    have hone := count_next l e h
    have hrest := ih (l.next e)
    rw [← List.singleton_append, List.count_append, List.count_append, List.singleton_append,
      after_cons]
    omega

/-- Nothing held at either end and nothing released that was not held: every handle was
released as often as it was acquired. -/
theorem count_acquire_eq_release {l : Ledger η} {es : List (HandleEvent η)}
    (hstart : l.held = []) (hnone : l.strays = []) (hend : (l.after es).held = [])
    (hstrays : (l.after es).strays = []) (h : η) :
    es.count (.acquire h) = es.count (.release h) := by
  have hall := count_after l es h
  rw [hstart, hnone, hend, hstrays] at hall
  simpa using hall

end Ledger

end Lib
