import Mathlib.Data.List.Basic
import Mathlib.Tactic.Common

/-!
# Framed lists

A framing finds the complete unit in front of a list, if there is one, without looking behind
it (`Framing.stable`). A list then splits in exactly one way into units and a tail with no unit
in front (`splits_split`, `Splits.unique`), and a loop that takes one unit after another is a
fold over these units (`loop_eq_foldl`).
-/

namespace Lib

/-- The size of the unit in front of a list. -/
structure Framing (α : Type) where
  size : List α → Option Nat
  pos : ∀ {xs n}, size xs = some n → 0 < n
  fits : ∀ {xs n}, size xs = some n → n ≤ xs.length
  stable : ∀ {xs n}, size xs = some n → ∀ ys, size (xs.take n ++ ys) = some n

namespace Framing

variable {α : Type} (f : Framing α)

/-- The list is one complete unit. -/
def IsUnit (u : List α) : Prop := f.size u = some u.length

instance : DecidablePred f.IsUnit := fun _ => inferInstanceAs (Decidable (_ = _))

/-- The list is the beginning of a unit that is not complete. -/
def IsPartial (t : List α) : Prop := ∃ more, more ≠ [] ∧ f.IsUnit (t ++ more)

/-- The list is these units and this tail, which has no unit in front. -/
structure Splits (xs : List α) (units : List (List α)) (tail : List α) : Prop where
  join : units.flatten ++ tail = xs
  units : ∀ u ∈ units, f.IsUnit u
  tail : f.size tail = none

/-- Take units from the front as long as there are any. -/
def split (xs : List α) : List (List α) × List α :=
  match _h : f.size xs with
  | none => ([], xs)
  | some n => (xs.take n :: (split (xs.drop n)).1, (split (xs.drop n)).2)
termination_by xs.length
decreasing_by
  all_goals
    have hpos := f.pos _h
    have hfits := f.fits _h
    rw [List.length_drop]
    omega

variable {f}

/-! ## Units -/

theorem isUnit_take {xs : List α} {n : Nat} (h : f.size xs = some n) : f.IsUnit (xs.take n) := by
  have hstable := f.stable h []
  rw [List.append_nil] at hstable
  rw [IsUnit, hstable, List.length_take, Nat.min_eq_left (f.fits h)]

/-- What follows a unit does not matter. -/
theorem IsUnit.size_append {u : List α} (h : f.IsUnit u) (ys : List α) :
    f.size (u ++ ys) = some u.length := by
  have hstable := f.stable h ys
  rw [List.take_length] at hstable
  exact hstable

/-- The beginning of a unit has no unit in front. -/
theorem IsPartial.size_eq_none {t : List α} (h : f.IsPartial t) : f.size t = none := by
  obtain ⟨more, hmore, hunit⟩ := h
  cases hsize : f.size t with
  | none => rfl
  | some n =>
    have hfits := f.fits hsize
    have hstable := f.stable hsize (t.drop n ++ more)
    rw [← List.append_assoc, List.take_append_drop, hunit, List.length_append] at hstable
    have hlen := List.length_pos_iff.mpr hmore
    have heq := Option.some.inj hstable
    omega

/-! ## Splitting -/

theorem split_of_none {xs : List α} (h : f.size xs = none) : f.split xs = ([], xs) := by
  unfold split
  split
  · rfl
  · rename_i n hn
    rw [h] at hn
    cases hn

theorem split_of_some {xs : List α} {n : Nat} (h : f.size xs = some n) :
    f.split xs = (xs.take n :: (f.split (xs.drop n)).1, (f.split (xs.drop n)).2) := by
  rw [split]
  split
  · rename_i hn
    rw [h] at hn
    cases hn
  · rename_i m hm
    obtain rfl : n = m := Option.some.inj (h.symm.trans hm)
    rfl

theorem splits_split (xs : List α) : f.Splits xs (f.split xs).1 (f.split xs).2 := by
  cases h : f.size xs with
  | none =>
    rw [split_of_none h]
    exact ⟨rfl, nofun, h⟩
  | some n =>
    have hrest := splits_split (xs.drop n)
    rw [split_of_some h]
    refine ⟨?_, ?_, hrest.tail⟩
    · rw [List.flatten_cons, List.append_assoc, hrest.join, List.take_append_drop]
    · intro u hu
      rcases List.mem_cons.mp hu with rfl | hu
      · exact isUnit_take h
      · exact hrest.units u hu
termination_by xs.length
decreasing_by
  have hpos := f.pos h
  have hfits := f.fits h
  rw [List.length_drop]
  omega

/-- Behind its first unit a split list splits further. -/
theorem Splits.of_cons {xs u tail : List α} {units : List (List α)}
    (h : f.Splits xs (u :: units) tail) :
    f.size xs = some u.length ∧ xs.take u.length = u ∧
      f.Splits (xs.drop u.length) units tail := by
  have hunit := h.units u List.mem_cons_self
  have hjoin : u ++ (units.flatten ++ tail) = xs := by
    rw [← h.join, List.flatten_cons, List.append_assoc]
  subst hjoin
  refine ⟨hunit.size_append _, List.take_left, ?_⟩
  rw [List.drop_left]
  exact ⟨rfl, fun v hv => h.units v (List.mem_cons_of_mem u hv), h.tail⟩

theorem Splits.of_nil {xs tail : List α} (h : f.Splits xs [] tail) :
    tail = xs ∧ f.size xs = none := by
  have hjoin : tail = xs := h.join
  exact ⟨hjoin, hjoin ▸ h.tail⟩

/-- A list splits in one way. -/
theorem Splits.unique {xs tail tail' : List α} {units units' : List (List α)}
    (h : f.Splits xs units tail) (h' : f.Splits xs units' tail') :
    units' = units ∧ tail' = tail := by
  induction units generalizing xs units' with
  | nil =>
    obtain ⟨rfl, hnone⟩ := h.of_nil
    cases units' with
    | nil => exact ⟨rfl, h'.of_nil.1⟩
    | cons u units' =>
      rw [h'.of_cons.1] at hnone
      cases hnone
  | cons u units ih =>
    obtain ⟨hsize, htake, hrest⟩ := h.of_cons
    cases units' with
    | nil =>
      rw [h'.of_nil.2] at hsize
      cases hsize
    | cons u' units' =>
      obtain ⟨hsize', htake', hrest'⟩ := h'.of_cons
      have hlen : u'.length = u.length := Option.some.inj (hsize'.symm.trans hsize)
      rw [hlen] at htake' hrest'
      obtain ⟨hunits, htail⟩ := ih hrest hrest'
      exact ⟨by rw [hunits, ← htake', htake], htail⟩

/-! ## Loops -/

/-- A loop over the indices of a list that takes the unit in front, or stops if there is none,
folds over the units. -/
theorem loop_eq_foldl {σ : Type} {xs : List α} {loop : Nat → σ → σ} {step : σ → List α → σ}
    (hstop : ∀ i s, f.size (xs.drop i) = none → loop i s = s)
    (hstep : ∀ i s n, f.size (xs.drop i) = some n →
      loop i s = loop (i + n) (step s ((xs.drop i).take n)))
    (i : Nat) (s : σ) : loop i s = (f.split (xs.drop i)).1.foldl step s := by
  cases h : f.size (xs.drop i) with
  | none =>
    rw [hstop i s h, split_of_none h]
    rfl
  | some n =>
    rw [hstep i s n h, split_of_some h, List.foldl_cons, List.drop_drop]
    exact loop_eq_foldl hstop hstep (i + n) _
termination_by xs.length - i
decreasing_by
  have hpos := f.pos h
  have hfits := f.fits h
  rw [List.length_drop] at hfits
  omega

end Framing

end Lib
