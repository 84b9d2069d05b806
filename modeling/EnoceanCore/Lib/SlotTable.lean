import Mathlib.Data.Fintype.Card
import Mathlib.Data.Fin.Tuple.Basic
import Mathlib.Order.Fin.Basic

/-!
# Slot tables with first-fit allocation

A slot table of `n` slots is a function `Fin n → Option κ`: each slot is free or holds one
key. Keys enter at the first free slot and are never moved or removed. Under that
discipline (`Step`) no key is stored twice and the occupied slots stay a prefix of the
table (`Step.wellFormed`), and the number of occupied slots grows by one with each key that
enters (`Step.occupied`).
-/

namespace Lib

/-- Each slot is free or holds one key. -/
abbrev SlotTable (n : Nat) (κ : Type) : Type := Fin n → Option κ

namespace SlotTable

variable {n : Nat} {κ : Type}

/-- No key is stored twice, and the occupied slots form a prefix of the table. -/
structure WellFormed (t : SlotTable n κ) : Prop where
  distinct : ∀ {i j k}, t i = some k → t j = some k → i = j
  packed : ∀ {i j}, i < j → (t j).isSome → (t i).isSome

/-- The table in which every slot is free. -/
def empty : SlotTable n κ := fun _ => none

/-- The first free slot. -/
def firstFree (t : SlotTable n κ) : Option (Fin n) := Fin.find? fun i => (t i).isNone

/-- The number of occupied slots. -/
def occupied (t : SlotTable n κ) : Nat := (Finset.univ.filter fun i => (t i).isSome).card

/-- Store the key `k` in slot `i`. -/
def insert (t : SlotTable n κ) (i : Fin n) (k : κ) : SlotTable n κ :=
  Function.update t i (some k)

/-- One use of the table: nothing happens, or a new key enters at the first free slot. -/
inductive Step (t : SlotTable n κ) : Option κ → SlotTable n κ → Prop
  | stay : Step t none t
  | enter {i : Fin n} {k : κ} (free : firstFree t = some i) (fresh : ∀ j, t j ≠ some k) :
      Step t (some k) (t.insert i k)

theorem firstFree_eq_some_iff {t : SlotTable n κ} {i : Fin n} :
    firstFree t = some i ↔ t i = none ∧ ∀ j < i, (t j).isSome := by
  rw [firstFree, Fin.find?_eq_some_iff]
  simp [Option.isSome_iff_ne_none]

theorem insert_self (t : SlotTable n κ) (i : Fin n) (k : κ) : t.insert i k i = some k := by
  rw [SlotTable.insert, Function.update_self]

theorem insert_of_ne (t : SlotTable n κ) {i j : Fin n} (k : κ) (h : j ≠ i) :
    t.insert i k j = t j := by
  rw [SlotTable.insert, Function.update_of_ne h]

/-! ## Well-formedness -/

theorem wellFormed_empty : WellFormed (empty : SlotTable n κ) :=
  ⟨fun h => (by cases h), fun _ h => (by cases h)⟩

theorem WellFormed.insert {t : SlotTable n κ} {i : Fin n} {k : κ} (h : WellFormed t)
    (hfree : firstFree t = some i) (hfresh : ∀ j, t j ≠ some k) : WellFormed (t.insert i k) := by
  obtain ⟨hi, hbefore⟩ := firstFree_eq_some_iff.mp hfree
  constructor
  · intro a b c ha hb
    by_cases hai : a = i
    · by_cases hbi : b = i
      · rw [hai, hbi]
      · rw [insert_of_ne t k hbi] at hb
        rw [hai, insert_self] at ha
        exact absurd (hb.trans ha.symm) (hfresh b)
    · rw [insert_of_ne t k hai] at ha
      by_cases hbi : b = i
      · rw [hbi, insert_self] at hb
        exact absurd (ha.trans hb.symm) (hfresh a)
      · rw [insert_of_ne t k hbi] at hb
        exact h.distinct ha hb
  · intro a b hab hb
    by_cases hai : a = i
    · rw [hai, insert_self]
      rfl
    · rw [insert_of_ne t k hai]
      by_cases hbi : b = i
      · exact hbefore a (hbi ▸ hab)
      · rw [insert_of_ne t k hbi] at hb
        exact h.packed hab hb

theorem Step.wellFormed {t t' : SlotTable n κ} {entered : Option κ} (h : Step t entered t')
    (ht : WellFormed t) : WellFormed t' := by
  cases h with
  | stay => exact ht
  | enter free fresh => exact ht.insert free fresh

/-! ## Counting -/

theorem occupied_le (t : SlotTable n κ) : occupied t ≤ n := by
  simpa [occupied] using Finset.card_filter_le Finset.univ fun i => (t i).isSome = true

@[simp] theorem occupied_empty : occupied (empty : SlotTable n κ) = 0 := by
  simp [occupied, empty]

theorem occupied_insert {t : SlotTable n κ} {i : Fin n} (k : κ) (hfree : t i = none) :
    occupied (t.insert i k) = occupied t + 1 := by
  have hset : (Finset.univ.filter fun j => (t.insert i k j).isSome) =
      Insert.insert i (Finset.univ.filter fun j => (t j).isSome) := by
    ext j
    by_cases hj : j = i
    · subst hj
      simp [insert_self]
    · simp [insert_of_ne t k hj, hj]
  have hnot : i ∉ Finset.univ.filter fun j => (t j).isSome := by
    simp [hfree]
  rw [occupied, hset, Finset.card_insert_of_notMem hnot]
  rfl

/-- Each key that enters is one more occupied slot. -/
theorem Step.occupied {t t' : SlotTable n κ} {entered : Option κ} (h : Step t entered t') :
    t'.occupied = t.occupied + if entered.isSome then 1 else 0 := by
  cases h with
  | stay => rfl
  | enter free _ => exact occupied_insert _ (firstFree_eq_some_iff.mp free).1

end SlotTable

end Lib
