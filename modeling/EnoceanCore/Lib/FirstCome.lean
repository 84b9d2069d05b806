import Mathlib.Data.List.Basic
import Mathlib.Tactic.Common

/-!
# First come, first served

A bounded store takes the first `n` different keys that are offered to it (`firstCome`), each of
them once. One more offer adds its key at the end, unless the key is there or the store is full.
-/

namespace Lib

variable {κ : Type} [DecidableEq κ]

/-- One more element is new, or it changes nothing. -/
theorem eraseDups_concat (xs : List κ) (x : κ) :
    (xs ++ [x]).eraseDups = if x ∈ xs then xs.eraseDups else xs.eraseDups ++ [x] := by
  rw [List.eraseDups_append]
  by_cases hx : x ∈ xs
  · have hnone : [x].removeAll xs = [] := by simp [List.removeAll, hx]
    rw [if_pos hx, hnone, List.eraseDups_nil, List.append_nil]
  · have hone : [x].removeAll xs = [x] := by simp [List.removeAll, hx]
    rw [if_neg hx, hone]
    rfl

/-- The first `n` different elements. -/
def firstCome (n : Nat) (xs : List κ) : List κ := xs.eraseDups.take n

variable {n : Nat} {xs : List κ} {x : κ}

@[simp] theorem firstCome_nil : firstCome n ([] : List κ) = [] := List.take_nil

theorem mem_of_mem_firstCome (h : x ∈ firstCome n xs) : x ∈ xs :=
  List.mem_eraseDups.mp (List.mem_of_mem_take h)

/-- As long as there is room, every element is among the first. -/
theorem firstCome_of_room (hroom : (firstCome n xs).length < n) :
    firstCome n xs = xs.eraseDups := by
  have hlength : (firstCome n xs).length = min n xs.eraseDups.length := List.length_take
  exact List.take_of_length_le (by omega)

theorem mem_firstCome_of_room (hroom : (firstCome n xs).length < n) :
    x ∈ firstCome n xs ↔ x ∈ xs := by
  rw [firstCome_of_room hroom, List.mem_eraseDups]

/-- The element is there, or there is no room for it. -/
theorem firstCome_concat_of_not_new (h : x ∈ firstCome n xs ∨ n ≤ (firstCome n xs).length) :
    firstCome n (xs ++ [x]) = firstCome n xs := by
  rw [firstCome, eraseDups_concat]
  split
  · rfl
  · rename_i hx
    have hfull : n ≤ (firstCome n xs).length :=
      h.resolve_left fun hmem => hx (mem_of_mem_firstCome hmem)
    have hlength : (firstCome n xs).length = min n xs.eraseDups.length := List.length_take
    rw [List.take_append_of_le_length (by omega)]
    rfl

/-- The element is new and there is room for it. -/
theorem firstCome_concat_of_new (hx : x ∉ firstCome n xs) (hroom : (firstCome n xs).length < n) :
    firstCome n (xs ++ [x]) = firstCome n xs ++ [x] := by
  have hall := firstCome_of_room hroom
  rw [hall, List.mem_eraseDups] at hx
  rw [firstCome, eraseDups_concat, if_neg hx, hall]
  apply List.take_of_length_le
  rw [List.length_append, List.length_singleton, ← hall]
  exact hroom

end Lib
