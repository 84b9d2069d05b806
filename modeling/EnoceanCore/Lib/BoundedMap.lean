import EnoceanCore.Lib.SlotTable
import Mathlib.Data.Set.Card

/-!
# Partial maps with a bounded number of keys

A `BoundedMap n κ ν` is a partial map with at most `n` keys: what a slot table of `n` slots
is for, without its slots and their order. `Represents t value m` says that the slot table
`t`, whose slot `i` keeps the value `value i`, stores the map `m`. First-fit allocation
implements the map: a table has a free slot exactly when the map has room (`room_iff`),
a value written to the slot of a key is set in the map (`Represents.write`), and a key that
enters at the first free slot is inserted (`Represents.enter`).
-/

namespace Lib

/-- A partial map with at most `n` keys. -/
structure BoundedMap (n : Nat) (κ ν : Type) where
  lookup : κ → Option ν
  bounded : {k | (lookup k).isSome}.encard ≤ n

namespace BoundedMap

variable {n : Nat} {κ ν : Type}

/-- The keys that have a value. -/
def keys (m : BoundedMap n κ ν) : Set κ := {k | (m.lookup k).isSome}

/-- The number of keys. -/
noncomputable def size (m : BoundedMap n κ ν) : Nat := m.keys.ncard

@[ext] theorem ext {m m' : BoundedMap n κ ν} (h : ∀ k, m.lookup k = m'.lookup k) : m = m' := by
  obtain ⟨f, hf⟩ := m
  obtain ⟨g, hg⟩ := m'
  obtain rfl : f = g := funext h
  rfl

theorem mem_keys {m : BoundedMap n κ ν} {k : κ} : k ∈ m.keys ↔ ∃ v, m.lookup k = some v :=
  Option.isSome_iff_exists

theorem keys_finite (m : BoundedMap n κ ν) : m.keys.Finite :=
  Set.finite_of_encard_le_coe m.bounded

/-- The map without keys. -/
def empty : BoundedMap n κ ν where
  lookup _ := none
  bounded := by simp

@[simp] theorem lookup_empty (k : κ) : (empty : BoundedMap n κ ν).lookup k = none := rfl

@[simp] theorem size_empty : (empty : BoundedMap n κ ν).size = 0 := by simp [size, keys]

section Update

variable [DecidableEq κ]

/-- The map with the value of a key it has replaced; a map without the key is left alone. -/
def set (m : BoundedMap n κ ν) (k : κ) (v : ν) : BoundedMap n κ ν where
  lookup j := if j = k then (m.lookup k).map fun _ => v else m.lookup j
  bounded := by
    have hkeys : {j | (if j = k then (m.lookup k).map fun _ => v else m.lookup j).isSome} =
        m.keys := by
      ext j
      by_cases hj : j = k <;> simp [hj, keys]
    rw [hkeys]
    exact m.bounded

/-- The map with one more key. -/
def insert (m : BoundedMap n κ ν) (k : κ) (v : ν) (hroom : m.size < n) :
    BoundedMap n κ ν where
  lookup := Function.update m.lookup k (some v)
  bounded := by
    have hkeys : {j | (Function.update m.lookup k (some v) j).isSome} =
        Insert.insert k m.keys := by
      ext j
      by_cases hj : j = k
      · subst hj
        simp
      · simp [hj, keys]
    rw [hkeys]
    apply le_trans (Set.encard_insert_le _ _)
    rw [← m.keys_finite.cast_ncard_eq]
    exact_mod_cast hroom

theorem lookup_set {m : BoundedMap n κ ν} {k : κ} (hk : (m.lookup k).isSome) (v : ν) (j : κ) :
    (m.set k v).lookup j = if j = k then some v else m.lookup j := by
  obtain ⟨old, hold⟩ := Option.isSome_iff_exists.mp hk
  simp only [set, hold, Option.map_some]

theorem lookup_insert {m : BoundedMap n κ ν} (hroom : m.size < n) (k : κ) (v : ν) (j : κ) :
    (m.insert k v hroom).lookup j = if j = k then some v else m.lookup j :=
  Function.update_apply _ _ _ _

/-- Setting a key to its value changes nothing. -/
theorem set_lookup {m : BoundedMap n κ ν} {k : κ} {v : ν} (hk : m.lookup k = some v) :
    m.set k v = m := by
  ext1 j
  rw [lookup_set (by rw [hk]; rfl)]
  split
  · rename_i hj
    rw [hj, hk]
  · rfl

theorem size_set (m : BoundedMap n κ ν) (k : κ) (v : ν) : (m.set k v).size = m.size := by
  have hkeys : (m.set k v).keys = m.keys := by
    ext j
    by_cases hj : j = k <;> simp [hj, keys, set]
  rw [size, hkeys, size]

theorem size_insert {m : BoundedMap n κ ν} {k : κ} (hk : m.lookup k = none) (v : ν)
    (hroom : m.size < n) : (m.insert k v hroom).size = m.size + 1 := by
  have hkeys : (m.insert k v hroom).keys = Insert.insert k m.keys := by
    ext j
    by_cases hj : j = k
    · subst hj
      simp [keys, lookup_insert]
    · simp [hj, keys, lookup_insert]
  have hfresh : k ∉ m.keys := by simp [keys, hk]
  rw [size, hkeys, Set.ncard_insert_of_notMem hfresh m.keys_finite, size]

theorem size_le_insert {m : BoundedMap n κ ν} (hroom : m.size < n) (k : κ) (v : ν) :
    m.size ≤ (m.insert k v hroom).size := by
  apply Set.ncard_le_ncard _ (keys_finite _)
  intro j hj
  obtain ⟨w, hw⟩ := mem_keys.mp hj
  apply mem_keys.mpr
  rw [lookup_insert]
  by_cases hjk : j = k
  · exact ⟨v, if_pos hjk⟩
  · exact ⟨w, by rw [if_neg hjk, hw]⟩

end Update

end BoundedMap

/-! ## Slot tables that store a map -/

namespace SlotTable

variable {n : Nat} {κ ν : Type}

/-- The slot table `t`, whose slot `i` keeps the value `value i`, stores the map `m`. -/
structure Represents (t : SlotTable n κ) (value : Fin n → ν) (m : BoundedMap n κ ν) : Prop where
  wellFormed : t.WellFormed
  lookup : ∀ k v, m.lookup k = some v ↔ ∃ i, t i = some k ∧ value i = v

theorem represents_empty (value : Fin n → ν) :
    Represents (empty : SlotTable n κ) value BoundedMap.empty := by
  refine ⟨wellFormed_empty, fun k v => iff_of_false (by simp) ?_⟩
  rintro ⟨i, hi, -⟩
  cases hi

section Represents

variable {t : SlotTable n κ} {value : Fin n → ν} {m : BoundedMap n κ ν}

theorem Represents.of_slot (h : Represents t value m) {i : Fin n} {k : κ} (hi : t i = some k) :
    m.lookup k = some (value i) := (h.lookup k (value i)).mpr ⟨i, hi, rfl⟩

theorem Represents.of_none (h : Represents t value m) {k : κ} (hk : ∀ i, t i ≠ some k) :
    m.lookup k = none := by
  apply Option.eq_none_iff_forall_ne_some.mpr
  intro v hv
  obtain ⟨i, hi, -⟩ := (h.lookup k v).mp hv
  exact hk i hi

/-- As many keys as occupied slots. -/
theorem Represents.size (h : Represents t value m) : m.size = t.occupied := by
  have himage : Option.some '' m.keys = t '' {i | (t i).isSome} := by
    ext o
    constructor
    · rintro ⟨k, hk, rfl⟩
      obtain ⟨v, hv⟩ := BoundedMap.mem_keys.mp hk
      obtain ⟨i, hi, -⟩ := (h.lookup k v).mp hv
      exact ⟨i, by simp [hi], hi⟩
    · rintro ⟨i, hi, rfl⟩
      obtain ⟨k, hk⟩ := Option.isSome_iff_exists.mp hi
      exact ⟨k, BoundedMap.mem_keys.mpr ⟨_, h.of_slot hk⟩, hk.symm⟩
  have hinj : Set.InjOn t {i | (t i).isSome} := by
    intro i hi j _ hij
    obtain ⟨k, hk⟩ := Option.isSome_iff_exists.mp hi
    exact h.wellFormed.distinct hk (hij ▸ hk)
  calc m.size = (Option.some '' m.keys).ncard :=
        (Set.ncard_image_of_injective _ (Option.some_injective κ)).symm
    _ = {i | (t i).isSome}.ncard := by rw [himage, hinj.ncard_image]
    _ = t.occupied := by
        rw [occupied, ← Set.ncard_coe_finset]
        simp

/-- A slot is free exactly when the map has room. -/
theorem Represents.room_iff (h : Represents t value m) :
    m.size < n ↔ ∃ i, firstFree t = some i := by
  rw [h.size, ← Option.isSome_iff_exists, firstFree, Fin.isSome_find?_iff]
  constructor
  · intro hlt
    by_contra hfull
    have hall : ∀ i, (t i).isSome = true := by
      intro i
      by_contra hi
      exact hfull ⟨i, by simpa using hi⟩
    have : t.occupied = n := by simp [occupied, hall]
    omega
  · intro hfree
    rcases hfree with ⟨i, hi⟩
    have hlt : (Finset.univ.filter fun j => (t j).isSome) ⊂ Finset.univ := by
      rw [Finset.filter_ssubset]
      exact ⟨i, Finset.mem_univ i, by simpa using hi⟩
    simpa [occupied] using Finset.card_lt_card hlt

variable [DecidableEq κ]

/-- A value written to the slot of a key. -/
theorem Represents.write (h : Represents t value m) {i : Fin n} {k : κ} (hi : t i = some k)
    (value' : Fin n → ν) (hother : ∀ j, j ≠ i → value' j = value j) :
    Represents t value' (m.set k (value' i)) := by
  refine ⟨h.wellFormed, fun j v => ?_⟩
  rw [BoundedMap.lookup_set (by rw [h.of_slot hi]; rfl)]
  by_cases hj : j = k
  · subst hj
    rw [if_pos rfl]
    constructor
    · intro hv
      exact ⟨i, hi, Option.some.inj hv⟩
    · rintro ⟨i', hi', rfl⟩
      rw [h.wellFormed.distinct hi hi']
  · rw [if_neg hj, h.lookup]
    have hne : ∀ i', t i' = some j → i' ≠ i := by
      rintro i' hi' rfl
      exact hj (Option.some.inj (hi'.symm.trans hi))
    constructor
    · rintro ⟨i', hi', rfl⟩
      exact ⟨i', hi', hother i' (hne i' hi')⟩
    · rintro ⟨i', hi', rfl⟩
      exact ⟨i', hi', (hother i' (hne i' hi')).symm⟩

/-- A key that enters at the first free slot. -/
theorem Represents.enter (h : Represents t value m) {i : Fin n} {k : κ}
    (hfree : firstFree t = some i) (hfresh : ∀ j, t j ≠ some k) (value' : Fin n → ν)
    (hother : ∀ j, j ≠ i → value' j = value j) (hroom : m.size < n) :
    Represents (t.insert i k) value' (m.insert k (value' i) hroom) := by
  refine ⟨h.wellFormed.insert hfree hfresh, fun j v => ?_⟩
  rw [BoundedMap.lookup_insert]
  have hi := (firstFree_eq_some_iff.mp hfree).1
  by_cases hj : j = k
  · subst hj
    rw [if_pos rfl]
    constructor
    · intro hv
      exact ⟨i, insert_self t i j, Option.some.inj hv⟩
    · rintro ⟨i', hi', rfl⟩
      by_cases hii : i' = i
      · rw [hii]
      · rw [insert_of_ne t j hii] at hi'
        exact absurd hi' (hfresh i')
  · rw [if_neg hj, h.lookup]
    constructor
    · rintro ⟨i', hi', rfl⟩
      have hii : i' ≠ i := by
        rintro rfl
        rw [hi] at hi'
        cases hi'
      exact ⟨i', by rw [insert_of_ne t k hii, hi'], hother i' hii⟩
    · rintro ⟨i', hi', rfl⟩
      have hii : i' ≠ i := by
        rintro rfl
        rw [insert_self] at hi'
        exact hj (Option.some.inj hi').symm
      rw [insert_of_ne t k hii] at hi'
      exact ⟨i', hi', (hother i' hii).symm⟩

end Represents

end SlotTable

end Lib
