import EnoceanCore.Lib.Run
import Mathlib.Data.List.Destutter
import Mathlib.Data.List.Sort

/-!
# Records of a list

The records of a list of keyed items above a bound: each item with a key larger than the bound
and than every record before it. A receiver that stores the last number it took and takes only
larger ones takes exactly the records of what it hears (`run_records`). Records come in
increasing order, so if the items are copies of a list that is itself increasing, whatever was
lost, repeated or reordered on the way, the records are a sublist of it (`records_sublist`); if
it arrives in order and nothing is lost, they are all of it (`records_destutter`).
-/

namespace Lib

section Records

variable {ι β : Type} [LT β] [DecidableLT β]

/-- The items with a larger key than the bound and every record before. -/
def records (key : ι → β) (bound : β) : List ι → List ι
  | [] => []
  | i :: is => if bound < key i then i :: records key (key i) is else records key bound is

/-- The bound after a list: the key of its last record. -/
def lastRecord (key : ι → β) (bound : β) : List ι → β
  | [] => bound
  | i :: is => if bound < key i then lastRecord key (key i) is else lastRecord key bound is

variable {key : ι → β} {bound : β}

@[simp] theorem records_nil : records key bound [] = [] := rfl

@[simp] theorem lastRecord_nil : lastRecord key bound [] = bound := rfl

theorem records_cons_of_lt {i : ι} (h : bound < key i) (is : List ι) :
    records key bound (i :: is) = i :: records key (key i) is := if_pos h

theorem records_cons_of_not_lt {i : ι} (h : ¬ bound < key i) (is : List ι) :
    records key bound (i :: is) = records key bound is := if_neg h

theorem lastRecord_cons_of_lt {i : ι} (h : bound < key i) (is : List ι) :
    lastRecord key bound (i :: is) = lastRecord key (key i) is := if_pos h

theorem lastRecord_cons_of_not_lt {i : ι} (h : ¬ bound < key i) (is : List ι) :
    lastRecord key bound (i :: is) = lastRecord key bound is := if_neg h

theorem mem_of_mem_records {is : List ι} {i : ι} (h : i ∈ records key bound is) : i ∈ is := by
  induction is generalizing bound with
  | nil => exact h
  | cons j js ih =>
    by_cases hj : bound < key j
    · rw [records_cons_of_lt hj] at h
      rcases List.mem_cons.mp h with rfl | h
      · exact List.mem_cons_self
      · exact List.mem_cons_of_mem j (ih h)
    · rw [records_cons_of_not_lt hj] at h
      exact List.mem_cons_of_mem j (ih h)

/-- **Receivers.** Suppose the inputs that are not relevant, and the relevant ones with no larger
key than the stored number, keep the relation `R` to that number and show nothing, and a
relevant input with a larger key makes it the number and shows `out`. Then a run shows the
`out` of the records of its relevant inputs, and ends with the key of the last record. -/
theorem run_records {σ ε δ : Type} {step : σ → ι → Traced ε σ} (key : ι → β)
    (visible : ε → Option δ) (relevant : ι → Bool) (out : ι → List δ) {P : ι → Prop}
    {R : σ → β → Prop}
    (hidle : ∀ s b i, R s b → P i → (relevant i = true → ¬ b < key i) →
      R (step s i).val b ∧ (step s i).proj visible = [])
    (htake : ∀ s b i, R s b → P i → relevant i = true → b < key i →
      R (step s i).val (key i) ∧ (step s i).proj visible = out i)
    {s : σ} (hs : R s bound) (is : List ι) (hP : ∀ i ∈ is, P i) :
    (run step s is).proj visible = (records key bound (is.filter relevant)).flatMap out ∧
      R (run step s is).val (lastRecord key bound (is.filter relevant)) := by
  induction is generalizing s bound with
  | nil => exact ⟨rfl, hs⟩
  | cons i is ih =>
    obtain ⟨hi, his⟩ := List.forall_mem_cons.mp hP
    rw [run_cons, Traced.proj_bind, Traced.val_bind]
    by_cases htaken : relevant i = true ∧ bound < key i
    · obtain ⟨hrelevant, hlt⟩ := htaken
      obtain ⟨hR, hout⟩ := htake s bound i hs hi hrelevant hlt
      obtain ⟨hrest, hend⟩ := ih hR his
      rw [List.filter_cons_of_pos hrelevant, records_cons_of_lt hlt, lastRecord_cons_of_lt hlt,
        List.flatMap_cons, hout, hrest]
      exact ⟨rfl, hend⟩
    · obtain ⟨hR, hnone⟩ := hidle s bound i hs hi fun h hlt => htaken ⟨h, hlt⟩
      obtain ⟨hrest, hend⟩ := ih hR his
      rw [hnone, List.nil_append, hrest]
      cases hrelevant : relevant i with
      | false =>
        rw [List.filter_cons_of_neg (by simp [hrelevant])]
        exact ⟨rfl, hend⟩
      | true =>
        have hno : ¬ bound < key i := fun hlt => htaken ⟨hrelevant, hlt⟩
        rw [List.filter_cons_of_pos hrelevant, records_cons_of_not_lt hno,
          lastRecord_cons_of_not_lt hno]
        exact ⟨rfl, hend⟩

end Records

section Order

variable {ι γ β : Type} [LT β] [DecidableLT β] (hirrefl : ∀ b : β, ¬ b < b)
  (htrans : ∀ {a b c : β}, a < b → b < c → a < c) {key : ι → β} {bound : β}

include htrans in
/-- Records are above the bound and come in increasing order. -/
theorem records_increasing (is : List ι) :
    (records key bound is).Pairwise (fun i j => key i < key j) ∧
      ∀ i ∈ records key bound is, bound < key i := by
  induction is generalizing bound with
  | nil => exact ⟨List.Pairwise.nil, fun i hi => by cases hi⟩
  | cons i is ih =>
    by_cases hlt : bound < key i
    · obtain ⟨hpair, habove⟩ := @ih (key i)
      rw [records_cons_of_lt hlt]
      refine ⟨List.Pairwise.cons habove hpair, ?_⟩
      intro j hj
      rcases List.mem_cons.mp hj with rfl | hj
      · exact hlt
      · exact htrans hlt (habove j hj)
    · rw [records_cons_of_not_lt hlt]
      exact ih

include hirrefl htrans in
/-- **At most once, in order.** If the items are copies of a list that is increasing, their
records are copies of a sublist of it. -/
theorem records_sublist {copy : ι → γ} {number : γ → β} {sent : List γ}
    (hsent : sent.Pairwise fun x y => number x < number y) {is : List ι}
    (hcopy : ∀ i ∈ is, copy i ∈ sent ∧ number (copy i) = key i) :
    ((records key bound is).map copy).Sublist sent := by
  have hpair : ((records key bound is).map copy).Pairwise fun x y => number x < number y := by
    rw [List.pairwise_map]
    refine (records_increasing htrans is).1.imp_of_mem ?_
    intro i j hi hj hlt
    rw [(hcopy i (mem_of_mem_records hi)).2, (hcopy j (mem_of_mem_records hj)).2]
    exact hlt
  have hsub : (records key bound is).map copy ⊆ sent := by
    intro x hx
    obtain ⟨i, hi, rfl⟩ := List.mem_map.mp hx
    exact (hcopy i (mem_of_mem_records hi)).1
  have : Std.Irrefl fun x y : γ => number x < number y := ⟨fun x => hirrefl (number x)⟩
  have : Std.Antisymm fun x y : γ => number x < number y :=
    ⟨fun x y hxy hyx => absurd (htrans hxy hyx) (hirrefl _)⟩
  exact List.sublist_of_subperm_of_pairwise (List.subperm_of_subset hpair.nodup hsub) hpair hsent

/-- The list without repetitions in a row starts with the same item. -/
theorem destutter'_head [DecidableEq γ] (x : γ) (xs : List γ) :
    ∃ rest, xs.destutter' (· ≠ ·) x = x :: rest := by
  induction xs with
  | nil => exact ⟨[], List.destutter'_nil _⟩
  | cons y ys ih =>
    by_cases hne : x ≠ y
    · exact ⟨_, List.destutter'_cons_pos ys hne⟩
    · rw [List.destutter'_cons_neg ys hne]
      exact ih

include hirrefl in
/-- From an item that has arrived on, the records are what comes after it. -/
theorem records_destutter' [DecidableEq γ] {copy : ι → γ} {number : γ → β} {is : List ι} {x : γ}
    {rest : List γ} (hcopy : ∀ i ∈ is, number (copy i) = key i)
    (hpair : (x :: rest).Pairwise fun x y => number x < number y)
    (harrive : (is.map copy).destutter' (· ≠ ·) x = x :: rest) :
    (records key (number x) is).map copy = rest := by
  induction is generalizing x rest with
  | nil =>
    rw [List.map_nil, List.destutter'_nil] at harrive
    exact (List.cons.inj harrive).2
  | cons i is ih =>
    obtain ⟨hi, his⟩ := List.forall_mem_cons.mp hcopy
    rw [List.map_cons] at harrive
    by_cases hne : x ≠ copy i
    · rw [List.destutter'_cons_pos _ hne] at harrive
      obtain ⟨-, hnext⟩ := List.cons.inj harrive
      obtain ⟨rest', hrest'⟩ := destutter'_head (copy i) (is.map copy)
      rw [hrest'] at hnext
      rw [← hnext] at hpair
      obtain ⟨hfirst, hpair'⟩ := List.pairwise_cons.mp hpair
      have hlt : number x < key i := hi ▸ hfirst (copy i) List.mem_cons_self
      rw [records_cons_of_lt hlt, List.map_cons, ← hi, ih his hpair' hrest', hnext]
    · rw [List.destutter'_cons_neg _ hne] at harrive
      have hsame : copy i = x := (not_not.mp hne).symm
      have hno : ¬ number x < key i := by
        rw [← hi, hsame]
        exact hirrefl _
      rw [records_cons_of_not_lt hno]
      exact ih his hpair harrive

include hirrefl in
/-- **Exactly once.** If all of an increasing list above the bound arrives in order, each item any
number of times in a row, the records are copies of the whole list. -/
theorem records_destutter [DecidableEq γ] {copy : ι → γ} {number : γ → β} {sent : List γ}
    (hsent : sent.Pairwise fun x y => number x < number y) (habove : ∀ x ∈ sent, bound < number x)
    {is : List ι} (hcopy : ∀ i ∈ is, number (copy i) = key i)
    (harrive : (is.map copy).destutter (· ≠ ·) = sent) :
    (records key bound is).map copy = sent := by
  cases is with
  | nil => exact harrive
  | cons i is =>
    obtain ⟨hi, his⟩ := List.forall_mem_cons.mp hcopy
    rw [List.map_cons, List.destutter_cons'] at harrive
    obtain ⟨rest, hrest⟩ := destutter'_head (copy i) (is.map copy)
    rw [hrest] at harrive
    subst harrive
    have hlt : bound < key i := hi ▸ habove (copy i) List.mem_cons_self
    rw [records_cons_of_lt hlt, List.map_cons, ← hi, records_destutter' hirrefl his hsent hrest]

end Order

end Lib
