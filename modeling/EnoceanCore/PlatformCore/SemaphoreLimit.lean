import EnoceanCore.PlatformCore.Semaphore

/-!
# The limit of a semaphore

One semaphore on both platforms (`SemaphorePair`), used by any number of threads in any
order. Only `k_sem_init` is given the limit, so the POSIX semaphore passes it with the first
`give` at the limit; and `sem_init` refuses an initial count above `SEM_VALUE_MAX`, so the
POSIX semaphore then has no units to take.

`Follows` is the invariant until then: both platforms have the units of one bounded
semaphore. The limit holds and the takes agree if and only if no step is one of these two
(`limitHolds_iff`).
-/

namespace EnoceanCore.PlatformCore

open Lib

variable {σ τ : Type}

/-- A use of the semaphore by a thread, with the timeout of each platform. -/
inductive SemaphoreOp where
  | init
  | take (thread : Nat) (absTimeout : Option Timespec) (ticks : KTimeout)
  | give (thread : Nat)
  deriving DecidableEq, Repr

/-- What comes of a use. A take that goes on waiting has no result. -/
inductive SemaphoreOutcome where
  | initialised (result : SemaphoreResult)
  | took (result : Option SemaphoreResult)
  | gave
  | terminated

/-- The outcome is a successful take. -/
def SemaphoreOutcome.isTake : SemaphoreOutcome → Bool
  | took (some (.ok _)) => true
  | _ => false

/-- The semaphore on both platforms. -/
structure SemaphorePair (σ τ : Type) where
  posix : Guarded σ
  zephyr : Guarded τ
  deriving DecidableEq, Repr

/-- A take, with the semaphore left as it is while the thread waits. -/
def tookFrom (s : Guarded σ) :
    Option (SemaphoreResult × Guarded σ) → SemaphoreOutcome × Guarded σ
  | none => (.took none, s)
  | some (result, s') => (.took (some result), s')

/-- A give, with the program terminated if there is no semaphore after it. -/
def gaveTo (s : Guarded σ) : Option (Guarded σ) → SemaphoreOutcome × Guarded σ
  | none => (.terminated, s)
  | some s' => (.gave, s')

section Machine

variable (posix : PosixSem σ) (zephyr : KSem τ) (config : SemaphoreConfig)

def posixUse (s : Guarded σ) : SemaphoreOp → SemaphoreOutcome × Guarded σ
  | .init =>
    match Posix.Semaphore.init posix config s with
    | (result, s) => (.initialised result, s)
  | .take _ absTimeout _ => tookFrom s (Posix.Semaphore.take posix absTimeout s)
  | .give _ => gaveTo s (Posix.Semaphore.give posix s)

def zephyrUse (s : Guarded τ) : SemaphoreOp → SemaphoreOutcome × Guarded τ
  | .init =>
    match Zephyr.Semaphore.init zephyr config s with
    | (result, s) => (.initialised result, s)
  | .take _ _ ticks => tookFrom s (Zephyr.Semaphore.take zephyr ticks s)
  | .give _ => gaveTo s (Zephyr.Semaphore.give zephyr s)

/-- A step records the outcome on each platform. -/
def semaphoreStep (pair : SemaphorePair σ τ) (op : SemaphoreOp) :
    Traced (SemaphoreOutcome × SemaphoreOutcome) (SemaphorePair σ τ) := do
  let (posixOutcome, posixAfter) := posixUse posix config pair.posix op
  let (zephyrOutcome, zephyrAfter) := zephyrUse zephyr config pair.zephyr op
  Traced.emit (posixOutcome, zephyrOutcome)
  return { posix := posixAfter, zephyr := zephyrAfter }

end Machine

/-! ## What is expected -/

/-- What the kernel objects count, and the limit of the Zephyr one. -/
structure Counts (σ τ : Type) where
  posix : σ → Nat
  zephyr : τ → Nat
  limit : τ → Nat

def Counts.posixUnits (counts : Counts σ τ) (pair : SemaphorePair σ τ) : Option Nat :=
  units counts.posix pair.posix

def Counts.zephyrUnits (counts : Counts σ τ) (pair : SemaphorePair σ τ) : Option Nat :=
  units counts.zephyr pair.zephyr

/-- The units are within the limit and a take succeeds on both platforms or on none. -/
structure WithinLimit (counts : Counts σ τ) (config : SemaphoreConfig)
    (t : Transition (SemaphorePair σ τ) SemaphoreOp (SemaphoreOutcome × SemaphoreOutcome)) :
    Prop where
  posix : ∀ n, counts.posixUnits t.outcome.val = some n → n ≤ config.countLimit.toNat
  zephyr : ∀ n, counts.zephyrUnits t.outcome.val = some n → n ≤ config.countLimit.toNat
  takes : ∀ o ∈ t.outcome.log, o.1.isTake = o.2.isTake

/-- The number of successful takes on each platform is within the limit. -/
structure TakesWithin (config : SemaphoreConfig)
    (log : List (SemaphoreOutcome × SemaphoreOutcome)) : Prop where
  posix : log.countP (fun o => o.1.isTake) ≤ config.countLimit.toNat
  zephyr : log.countP (fun o => o.2.isTake) ≤ config.countLimit.toNat

/-- The op gives no unit. -/
def SemaphoreOp.GivesNothing : SemaphoreOp → Prop
  | give _ => False
  | _ => True

/-- A give at the limit of the POSIX semaphore, or a take of a unit that only the Zephyr
semaphore has because `sem_init` refuses the initial count. -/
def Overruns (counts : Counts σ τ) (config : SemaphoreConfig)
    (t : Transition (SemaphorePair σ τ) SemaphoreOp (SemaphoreOutcome × SemaphoreOutcome)) :
    Prop :=
  match t.input with
  | .init => False
  | .take .. => SEM_VALUE_MAX < config.initCount.toNat ∧ Available (counts.zephyrUnits t.before)
  | .give _ => counts.posixUnits t.before = some config.countLimit.toNat

instance (counts : Counts σ τ) (config : SemaphoreConfig)
    (t : Transition (SemaphorePair σ τ) SemaphoreOp (SemaphoreOutcome × SemaphoreOutcome)) :
    Decidable (Overruns counts config t) :=
  match t with
  | ⟨_, .init, _⟩ => isFalse id
  | ⟨_, .take .., _⟩ => inferInstanceAs (Decidable (_ ∧ _))
  | ⟨_, .give _, _⟩ => inferInstanceAs (Decidable (_ = _))

/-! ## The bounded semaphore that both platforms follow -/

/-- Both platforms have the units of one semaphore within the limit, except that the POSIX
one stays uninitialised if `sem_init` refuses the initial count. -/
structure Follows (counts : Counts σ τ) (config : SemaphoreConfig) (pair : SemaphorePair σ τ) :
    Prop where
  limit : Zephyr.Semaphore.HasLimit counts.limit config.countLimit.toNat pair.zephyr
  bound : ∀ n, counts.zephyrUnits pair = some n → n ≤ config.countLimit.toNat
  same : counts.posixUnits pair =
    if config.initCount.toNat ≤ SEM_VALUE_MAX then counts.zephyrUnits pair else none

theorem tookFrom_spec {count : σ → Nat} {s : Guarded σ}
    {taken : Option (SemaphoreResult × Guarded σ)} (h : TakesFrom count (units count s) taken) :
    ((tookFrom s taken).1.isTake = true ↔ Available (units count s)) ∧
      units count (tookFrom s taken).2 = afterTake (units count s) := by
  cases taken with
  | none =>
    have hnone : ¬ Available (units count s) := h
    refine ⟨iff_of_false Bool.false_ne_true hnone, ?_⟩
    show units count s = afterTake (units count s)
    cases hunits : units count s with
    | none => rfl
    | some n =>
      rw [hunits, available_some, Nat.pos_iff_ne_zero, not_not] at hnone
      rw [hnone]
      rfl
  | some after =>
    obtain ⟨result, s'⟩ := after
    obtain ⟨hok, hunits⟩ := h
    refine ⟨?_, hunits⟩
    rw [← hok]
    cases result with
    | ok u => exact iff_of_true rfl rfl
    | error e => exact iff_of_false Bool.false_ne_true fun h => by cases h

section Step

variable {posix : PosixSem σ} {zephyr : KSem τ} {counts : Counts σ τ} {config : SemaphoreConfig}
  {pair : SemaphorePair σ τ}

theorem semaphoreStep_val (op : SemaphoreOp) :
    (semaphoreStep posix zephyr config pair op).val =
      { posix := (posixUse posix config pair.posix op).2
        zephyr := (zephyrUse zephyr config pair.zephyr op).2 } := rfl

theorem Follows.posixBound (h : Follows counts config pair) {n : Nat}
    (hn : counts.posixUnits pair = some n) : n ≤ config.countLimit.toNat := by
  rw [h.same] at hn
  split at hn
  · exact h.bound n hn
  · cases hn

/-- The limit holds after a step that both platforms follow. -/
theorem Follows.withinLimit {op : SemaphoreOp}
    (h : Follows counts config (semaphoreStep posix zephyr config pair op).val)
    (htakes : (posixUse posix config pair.posix op).1.isTake =
      (zephyrUse zephyr config pair.zephyr op).1.isTake) :
    WithinLimit counts config ⟨pair, op, semaphoreStep posix zephyr config pair op⟩ where
  posix _ hn := h.posixBound hn
  zephyr := h.bound
  takes o ho := by
    rcases List.mem_singleton.mp ho with rfl
    exact htakes

section Lawful

theorem init_follows (hposix : posix.Lawful counts.posix)
    (hzephyr : zephyr.Lawful counts.zephyr counts.limit)
    (hle : config.initCount ≤ config.countLimit) (hpos : 1 ≤ config.countLimit)
    (h : Follows counts config pair) :
    Follows counts config (semaphoreStep posix zephyr config pair .init).val := by
  have hposixUnits : units counts.posix (Posix.Semaphore.init posix config pair.posix).2 = _ :=
    Posix.Semaphore.units_init hposix pair.posix
  obtain ⟨hlimit, hzephyrUnits⟩ := Zephyr.Semaphore.units_init hzephyr hpos hle h.limit
  have hsame : units counts.posix pair.posix =
      if config.initCount.toNat ≤ SEM_VALUE_MAX then units counts.zephyr pair.zephyr else none :=
    h.same
  refine ⟨hlimit, fun n hn => ?_, ?_⟩
  · have hn : units counts.zephyr (Zephyr.Semaphore.init zephyr config pair.zephyr).2 = some n := hn
    rw [hzephyrUnits] at hn
    cases hunits : units counts.zephyr pair.zephyr with
    | none =>
      rw [hunits] at hn
      cases hn
      exact hle
    | some m =>
      rw [hunits] at hn
      cases hn
      exact h.bound _ hunits
  · show units counts.posix (Posix.Semaphore.init posix config pair.posix).2 =
      if _ then units counts.zephyr (Zephyr.Semaphore.init zephyr config pair.zephyr).2 else none
    rw [hposixUnits, hzephyrUnits, hsame]
    by_cases hfits : config.initCount.toNat ≤ SEM_VALUE_MAX
    · rw [if_pos hfits, if_pos hfits, if_pos hfits]
    · rw [if_neg hfits, if_neg hfits, if_neg hfits]
      rfl

/-- A take leaves the units of both platforms with one less, if there is one. -/
theorem take_follows (hposix : posix.Lawful counts.posix)
    (hzephyr : zephyr.Lawful counts.zephyr counts.limit) (h : Follows counts config pair)
    (thread : Nat) (absTimeout : Option Timespec) (ticks : KTimeout) :
    Follows counts config
        (semaphoreStep posix zephyr config pair (.take thread absTimeout ticks)).val ∧
      ((posixUse posix config pair.posix (.take thread absTimeout ticks)).1.isTake = true ↔
        Available (counts.posixUnits pair)) ∧
      ((zephyrUse zephyr config pair.zephyr (.take thread absTimeout ticks)).1.isTake = true ↔
        Available (counts.zephyrUnits pair)) := by
  obtain ⟨hposixTook, hposixUnits⟩ :=
    tookFrom_spec (Posix.Semaphore.take_takesFrom hposix absTimeout pair.posix)
  obtain ⟨hzephyrTook, hzephyrUnits⟩ :=
    tookFrom_spec (Zephyr.Semaphore.take_takesFrom hzephyr ticks pair.zephyr)
  let after := (semaphoreStep posix zephyr config pair (.take thread absTimeout ticks)).val
  have hposixUnits : counts.posixUnits after = afterTake (counts.posixUnits pair) := hposixUnits
  have hzephyrUnits : counts.zephyrUnits after = afterTake (counts.zephyrUnits pair) :=
    hzephyrUnits
  refine ⟨⟨?_, fun n hn => ?_, ?_⟩, hposixTook, hzephyrTook⟩
  · show Zephyr.Semaphore.HasLimit _ _ (tookFrom _ (Zephyr.Semaphore.take zephyr ticks _)).2
    cases htake : Zephyr.Semaphore.take zephyr ticks pair.zephyr with
    | none => exact h.limit
    | some after => exact Zephyr.Semaphore.take_hasLimit hzephyr h.limit htake
  · have hn : counts.zephyrUnits after = some n := hn
    rw [hzephyrUnits, afterTake, Option.map_eq_some_iff] at hn
    obtain ⟨m, hm, rfl⟩ := hn
    exact Nat.le_trans (Nat.sub_le m 1) (h.bound m hm)
  · show counts.posixUnits after = if _ then counts.zephyrUnits after else none
    rw [hposixUnits, hzephyrUnits, h.same]
    split <;> rfl

/-- A give adds a unit on both platforms, but only the Zephyr one stops at the limit. -/
theorem give_units (hposix : posix.Lawful counts.posix)
    (hzephyr : zephyr.Lawful counts.zephyr counts.limit) (h : Follows counts config pair)
    (thread : Nat) :
    let after := (semaphoreStep posix zephyr config pair (.give thread)).val
    (posixUse posix config pair.posix (.give thread)).1.isTake =
        (zephyrUse zephyr config pair.zephyr (.give thread)).1.isTake ∧
      counts.posixUnits after = (counts.posixUnits pair).map (· + 1) ∧
      Zephyr.Semaphore.HasLimit counts.limit config.countLimit.toNat after.zephyr ∧
      counts.zephyrUnits after =
        (counts.zephyrUnits pair).map fun n => min (n + 1) config.countLimit.toNat := by
  obtain ⟨s, hgive, hunits⟩ := Posix.Semaphore.give_units hposix pair.posix
  obtain ⟨ks, hkgive, hlimit, hkunits⟩ :=
    Zephyr.Semaphore.give_units hzephyr h.limit h.bound
  have hposixUse : posixUse posix config pair.posix (.give thread) = (.gave, s) := by
    rw [posixUse, hgive, gaveTo]
  have hzephyrUse : zephyrUse zephyr config pair.zephyr (.give thread) = (.gave, ks) := by
    rw [zephyrUse, hkgive, gaveTo]
  have hafter : (semaphoreStep posix zephyr config pair (.give thread)).val = ⟨s, ks⟩ := by
    rw [semaphoreStep_val, hposixUse, hzephyrUse]
  rw [hafter, hposixUse, hzephyrUse]
  exact ⟨rfl, hunits, hlimit, hkunits⟩

/-- Both platforms follow a give below the limit. -/
theorem give_follows (hposix : posix.Lawful counts.posix)
    (hzephyr : zephyr.Lawful counts.zephyr counts.limit) (h : Follows counts config pair)
    (thread : Nat) (hbelow : counts.posixUnits pair ≠ some config.countLimit.toNat) :
    Follows counts config (semaphoreStep posix zephyr config pair (.give thread)).val := by
  obtain ⟨-, hposixUnits, hlimit, hzephyrUnits⟩ := give_units hposix hzephyr h thread
  refine ⟨hlimit, fun n hn => ?_, ?_⟩
  · rw [hzephyrUnits, Option.map_eq_some_iff] at hn
    obtain ⟨m, -, rfl⟩ := hn
    exact Nat.min_le_right _ _
  · rw [hposixUnits, hzephyrUnits]
    rw [h.same] at hbelow ⊢
    split
    · rename_i hfits
      rw [if_pos hfits] at hbelow
      cases hunits : counts.zephyrUnits pair with
      | none => rfl
      | some n =>
        have hn := h.bound n hunits
        have hne : n ≠ config.countLimit.toNat := fun heq => hbelow (by rw [hunits, heq])
        show some (n + 1) = some (min (n + 1) config.countLimit.toNat)
        rw [Nat.min_eq_left (by omega)]
    · rfl

/-- **Steps.** The limit holds after a step if and only if the step is not one of the two that
overrun it. -/
theorem withinLimit_iff (hposix : posix.Lawful counts.posix)
    (hzephyr : zephyr.Lawful counts.zephyr counts.limit)
    (hle : config.initCount ≤ config.countLimit) (hpos : 1 ≤ config.countLimit)
    (h : Follows counts config pair) (op : SemaphoreOp) :
    WithinLimit counts config ⟨pair, op, semaphoreStep posix zephyr config pair op⟩ ↔
      ¬ Overruns counts config ⟨pair, op, semaphoreStep posix zephyr config pair op⟩ := by
  cases op with
  | init =>
    exact iff_of_true ((init_follows hposix hzephyr hle hpos h).withinLimit rfl) id
  | take thread absTimeout ticks =>
    obtain ⟨hfollows, hposixTook, hzephyrTook⟩ :=
      take_follows hposix hzephyr h thread absTimeout ticks
    have hsame := h.same
    by_cases hfits : config.initCount.toNat ≤ SEM_VALUE_MAX
    · rw [if_pos hfits] at hsame
      refine iff_of_true (hfollows.withinLimit ?_) fun hover => ?_
      · rw [Bool.eq_iff_iff, hposixTook, hzephyrTook, hsame]
      · exact absurd hfits (Nat.not_le.mpr hover.1)
    · rw [if_neg hfits] at hsame
      rw [hsame, iff_false_right not_available_none, Bool.not_eq_true] at hposixTook
      constructor
      · rintro hwithin ⟨-, havailable⟩
        have htakes : (posixUse posix config pair.posix (.take thread absTimeout ticks)).1.isTake =
            (zephyrUse zephyr config pair.zephyr (.take thread absTimeout ticks)).1.isTake :=
          hwithin.takes _ List.mem_cons_self
        rw [hposixTook, hzephyrTook.mpr havailable] at htakes
        exact Bool.false_ne_true htakes
      · intro hover
        apply hfollows.withinLimit
        rw [hposixTook, eq_comm, ← Bool.not_eq_true, hzephyrTook]
        exact fun havailable => hover ⟨Nat.not_le.mp hfits, havailable⟩
  | give thread =>
    obtain ⟨htakes, hposixUnits, -, -⟩ := give_units hposix hzephyr h thread
    by_cases hat : counts.posixUnits pair = some config.countLimit.toNat
    · refine iff_of_false (fun hwithin => ?_) fun hover => hover hat
      rw [hat] at hposixUnits
      exact absurd (hwithin.posix _ hposixUnits) (Nat.not_succ_le_self _)
    · exact iff_of_true ((give_follows hposix hzephyr h thread hat).withinLimit htakes) hat

/-- Good steps keep both platforms together. -/
theorem follows_of_withinLimit (hposix : posix.Lawful counts.posix)
    (hzephyr : zephyr.Lawful counts.zephyr counts.limit)
    (hle : config.initCount ≤ config.countLimit) (hpos : 1 ≤ config.countLimit)
    (h : Follows counts config pair) (op : SemaphoreOp)
    (hgood : WithinLimit counts config ⟨pair, op, semaphoreStep posix zephyr config pair op⟩) :
    Follows counts config (semaphoreStep posix zephyr config pair op).val := by
  cases op with
  | init => exact init_follows hposix hzephyr hle hpos h
  | take thread absTimeout ticks =>
    exact (take_follows hposix hzephyr h thread absTimeout ticks).1
  | give thread =>
    exact give_follows hposix hzephyr h thread
      ((withinLimit_iff hposix hzephyr hle hpos h _).mp hgood)

end Lawful

end Step

/-! ## Takes without gives -/

/-- The takes that a platform can still make without a give. -/
def takesLeft (config : SemaphoreConfig) (a : Option Nat) : Nat := a.getD config.initCount.toNat

section Budget

variable {posix : PosixSem σ} {zephyr : KSem τ} {counts : Counts σ τ} {config : SemaphoreConfig}

theorem takesLeft_take {a : Option Nat} {took : Bool} (h : took = true ↔ Available a) :
    (if took then 1 else 0) + takesLeft config (afterTake a) ≤ takesLeft config a := by
  cases took with
  | false =>
    cases a with
    | none => simp [takesLeft, afterTake]
    | some n => simp [takesLeft, afterTake]
  | true =>
    obtain ⟨n, rfl⟩ := h.mp rfl
    simp [takesLeft, afterTake, Nat.add_comm]

theorem takesLeft_or (a : Option Nat) {b : Option Nat}
    (hb : b = some config.initCount.toNat ∨ b = none) :
    takesLeft config (a.or b) ≤ takesLeft config a := by
  cases a with
  | some n => exact Nat.le_refl n
  | none =>
    rcases hb with rfl | rfl
    · exact Nat.le_refl _
    · exact Nat.le_refl _

theorem takesLeft_le {a : Option Nat} {bound : Nat} (hinit : config.initCount.toNat ≤ bound)
    (h : ∀ n, a = some n → n ≤ bound) : takesLeft config a ≤ bound := by
  cases a with
  | none => exact hinit
  | some n => exact h n rfl

variable {pair : SemaphorePair σ τ}

/-- A step that gives nothing pays for its takes, on both platforms. -/
theorem takesLeft_step (hposix : posix.Lawful counts.posix)
    (hzephyr : zephyr.Lawful counts.zephyr counts.limit)
    (hle : config.initCount ≤ config.countLimit) (hpos : 1 ≤ config.countLimit)
    (h : Follows counts config pair) {op : SemaphoreOp} (hop : op.GivesNothing) :
    let after := semaphoreStep posix zephyr config pair op
    after.log.countP (fun o => o.1.isTake) + takesLeft config (counts.posixUnits after.val) ≤
        takesLeft config (counts.posixUnits pair) ∧
      after.log.countP (fun o => o.2.isTake) + takesLeft config (counts.zephyrUnits after.val) ≤
        takesLeft config (counts.zephyrUnits pair) := by
  intro after
  have hlog : after.log = [((posixUse posix config pair.posix op).1,
      (zephyrUse zephyr config pair.zephyr op).1)] := rfl
  rw [hlog, List.countP_singleton, List.countP_singleton]
  cases op with
  | init =>
    have hposixUnits : counts.posixUnits after.val = _ :=
      Posix.Semaphore.units_init hposix pair.posix
    have hzephyrUnits : counts.zephyrUnits after.val = _ :=
      (Zephyr.Semaphore.units_init hzephyr hpos hle h.limit).2
    rw [hposixUnits, hzephyrUnits]
    constructor
    · show 0 + _ ≤ takesLeft config (units counts.posix pair.posix)
      rw [Nat.zero_add]
      split
      · exact takesLeft_or _ (Or.inl rfl)
      · exact takesLeft_or _ (Or.inr rfl)
    · show 0 + _ ≤ takesLeft config (units counts.zephyr pair.zephyr)
      rw [Nat.zero_add]
      exact takesLeft_or _ (Or.inl rfl)
  | take thread absTimeout ticks =>
    obtain ⟨hposixTook, hposixUnits⟩ :=
      tookFrom_spec (Posix.Semaphore.take_takesFrom hposix absTimeout pair.posix)
    obtain ⟨hzephyrTook, hzephyrUnits⟩ :=
      tookFrom_spec (Zephyr.Semaphore.take_takesFrom hzephyr ticks pair.zephyr)
    have hposixUnits : counts.posixUnits after.val = _ := hposixUnits
    have hzephyrUnits : counts.zephyrUnits after.val = _ := hzephyrUnits
    rw [hposixUnits, hzephyrUnits]
    exact ⟨takesLeft_take hposixTook, takesLeft_take hzephyrTook⟩
  | give thread => exact absurd hop id

/-- **Takes without gives.** A run without a give takes no more units than the limit. -/
theorem takesWithin_of_givesNothing (hposix : posix.Lawful counts.posix)
    (hzephyr : zephyr.Lawful counts.zephyr counts.limit)
    (hle : config.initCount ≤ config.countLimit) (hpos : 1 ≤ config.countLimit)
    (h : Follows counts config pair) (ops : List SemaphoreOp)
    (hops : ∀ op ∈ ops, op.GivesNothing) :
    TakesWithin config (run (semaphoreStep posix zephyr config) pair ops).log := by
  have hkeep : ∀ (pair : SemaphorePair σ τ) (op : SemaphoreOp), Follows counts config pair →
      op.GivesNothing → Follows counts config (semaphoreStep posix zephyr config pair op).val := by
    intro pair op h hop
    cases op with
    | init => exact init_follows hposix hzephyr hle hpos h
    | take thread absTimeout ticks =>
      exact (take_follows hposix hzephyr h thread absTimeout ticks).1
    | give thread => exact absurd hop id
  have hposixRun := run_budget (fun o => o.1.isTake)
    (fun pair => takesLeft config (counts.posixUnits pair)) hkeep
    (fun _ _ h hop => (takesLeft_step hposix hzephyr hle hpos h hop).1) h ops hops
  have hzephyrRun := run_budget (fun o => o.2.isTake)
    (fun pair => takesLeft config (counts.zephyrUnits pair)) hkeep
    (fun _ _ h hop => (takesLeft_step hposix hzephyr hle hpos h hop).2) h ops hops
  have hinit : config.initCount.toNat ≤ config.countLimit.toNat := hle
  have hposixLeft := takesLeft_le hinit fun _ hn => h.posixBound hn
  have hzephyrLeft := takesLeft_le hinit h.bound
  exact ⟨by omega, by omega⟩

end Budget

/-! ## Two kernels -/

/-- A POSIX semaphore that is its count. -/
def countingSem : PosixSem Nat where
  semInit s value :=
    if value.toNat ≤ SEM_VALUE_MAX then ({ result := 0 }, value.toNat)
    else ({ result := -1, errno := EINVAL }, s)
  semDestroy s := ({ result := 0 }, s)
  semWait
    | 0 => none
    | n + 1 => some ({ result := 0 }, n)
  semTimedwait
    | 0, _ => some ({ result := -1, errno := ETIMEDOUT }, 0)
    | n + 1, _ => some ({ result := 0 }, n)
  semPost s := ({ result := 0 }, s + 1)

theorem countingSem_lawful : countingSem.Lawful id where
  init s value hle := by
    show (if _ then _ else _ : Answer × Nat).1.result = 0 ∧
      id (if _ then _ else _ : Answer × Nat).2 = _
    rw [if_pos hle]
    exact ⟨rfl, rfl⟩
  initRefused s value hlt := by
    show (if _ then _ else _ : Answer × Nat).1 = _
    rw [if_neg (Nat.not_le.mpr hlt)]
  wait := {
    granted := by
      rintro (- | n) hpos
      · cases hpos
      · exact ⟨_, n, rfl, rfl, rfl⟩
    failed := by
      rintro s a s' (rfl : s = 0) hcall
      cases hcall }
  timedwait ts := {
    granted := by
      rintro (- | n) hpos
      · cases hpos
      · exact ⟨_, n, rfl, rfl, rfl⟩
    failed := by
      rintro s a s' (rfl : s = 0) hcall
      cases hcall
      exact ⟨by decide, rfl⟩ }
  post s := ⟨rfl, rfl⟩

/-- A Zephyr semaphore that is its count and its limit. -/
def boundedSem : KSem (Nat × Nat) where
  init s initialCount limit :=
    if limit = 0 ∨ limit < initialCount then (-Zephyr.EINVAL, s)
    else (0, (initialCount.toNat, limit.toNat))
  take
    | (0, _), .forever => none
    | (0, limit), .ticks n => some (if n = 0 then -Zephyr.EBUSY else -Zephyr.EAGAIN, (0, limit))
    | (n + 1, limit), _ => some (0, (n, limit))
  give s := (if s.1 = s.2 then s.1 else s.1 + 1, s.2)

theorem boundedSem_lawful : boundedSem.Lawful Prod.fst Prod.snd where
  init s initialCount bound hpos hle := by
    have hnot : ¬ (bound = 0 ∨ bound < initialCount) := by
      intro hcase
      rcases hcase with rfl | hlt
      · cases hpos
      · exact absurd hle (Nat.not_le.mpr hlt)
    show (if _ then _ else _ : Int × Nat × Nat).1 = 0 ∧ _ ∧ _
    unfold boundedSem
    dsimp only
    rw [if_neg hnot]
    exact ⟨rfl, rfl, rfl⟩
  take ticks := {
    granted := by
      rintro ⟨- | n, limit⟩ hpos
      · cases hpos
      · exact ⟨0, (n, limit), rfl, rfl, rfl⟩
    failed := by
      rintro ⟨s, limit⟩ r s' (rfl : s = 0) hcall
      cases ticks with
      | forever => cases hcall
      | ticks n =>
        cases hcall
        refine ⟨?_, rfl⟩
        split <;> decide }
  takeLimit := by
    rintro ⟨- | n, limit⟩ (- | ticks) r s' hcall <;> cases hcall <;> rfl
  give s hle := by
    refine ⟨?_, rfl⟩
    show (if s.1 = s.2 then s.1 else s.1 + 1) = min (s.1 + 1) s.2
    split
    · rw [Nat.min_eq_right (by omega)]
      assumption
    · rw [Nat.min_eq_left (by omega)]

/-! ## Whole runs -/

/-- The semaphore as it is constructed. -/
def constructed (sem : σ) (ksem : τ) : SemaphorePair σ τ :=
  { posix := { object := sem }, zephyr := { object := ksem } }

/-- The limit holds throughout a run, and takes that are not followed by a give are within it
from any point on. -/
structure LimitHolds (posix : PosixSem σ) (zephyr : KSem τ) (counts : Counts σ τ)
    (config : SemaphoreConfig) (pair : SemaphorePair σ τ) (ops : List SemaphoreOp) : Prop where
  within : ∀ t ∈ history (semaphoreStep posix zephyr config) pair ops,
    WithinLimit counts config t
  takes : ∀ before segment after, ops = before ++ segment ++ after →
    (∀ op ∈ segment, op.GivesNothing) →
    TakesWithin config (run (semaphoreStep posix zephyr config)
      (run (semaphoreStep posix zephyr config) pair before).val segment).log

theorem constructed_follows (counts : Counts σ τ) (config : SemaphoreConfig) (sem : σ)
    (ksem : τ) : Follows counts config (constructed sem ksem) where
  limit h := by cases h
  bound n h := by cases h
  same := by
    show none = if _ then none else none
    split <;> rfl

/-- **The limit.** In a run of a semaphore on both platforms the limit holds and the same takes
succeed if and only if no step gives at the limit of the POSIX semaphore, and none takes a unit
while `sem_init` has refused the initial count. -/
theorem limitHolds_iff {posix : PosixSem σ} {zephyr : KSem τ} {counts : Counts σ τ}
    (hposix : posix.Lawful counts.posix)
    (hzephyr : zephyr.Lawful counts.zephyr counts.limit) (config : SemaphoreConfig)
    (hle : config.initCount ≤ config.countLimit) (hpos : 1 ≤ config.countLimit) (sem : σ)
    (ksem : τ) (ops : List SemaphoreOp) :
    LimitHolds posix zephyr counts config (constructed sem ksem) ops ↔
      ∀ t ∈ history (semaphoreStep posix zephyr config) (constructed sem ksem) ops,
        ¬ Overruns counts config t := by
  have hkeep : ∀ (pair : SemaphorePair σ τ) (op : SemaphoreOp), Follows counts config pair →
      WithinLimit counts config ⟨pair, op, semaphoreStep posix zephyr config pair op⟩ →
      Follows counts config (semaphoreStep posix zephyr config pair op).val :=
    fun _ op h hgood => follows_of_withinLimit hposix hzephyr hle hpos h op hgood
  have hiff : (∀ t ∈ history (semaphoreStep posix zephyr config) (constructed sem ksem) ops,
        WithinLimit counts config t) ↔
      ∀ t ∈ history (semaphoreStep posix zephyr config) (constructed sem ksem) ops,
        ¬ Overruns counts config t :=
    history_forall_iff_of_good
      (fun _ op h => withinLimit_iff hposix hzephyr hle hpos h op) hkeep
      (constructed_follows counts config sem ksem) ops
  rw [← hiff]
  refine ⟨LimitHolds.within, fun hwithin => ⟨hwithin, ?_⟩⟩
  intro before segment after heq hsegment
  subst heq
  apply takesWithin_of_givesNothing hposix hzephyr hle hpos _ segment hsegment
  apply run_invariant_of_good hkeep (constructed_follows counts config sem ksem) before
  intro t ht
  rw [List.append_assoc, history_append] at hwithin
  exact hwithin t (List.mem_append_left _ ht)

/-- What the two kernels count. -/
def plainCounts : Counts Nat (Nat × Nat) := { posix := id, zephyr := Prod.fst, limit := Prod.snd }

/-- Two units of three are taken and given back by two threads. -/
theorem limitHolds_below :
    LimitHolds countingSem boundedSem plainCounts { initCount := 2, countLimit := 3 }
      (constructed 0 (0, 0))
      [.take 0 none .noWait, .init, .take 0 none .forever, .take 1 (some ⟨1, 0⟩) (.ticks 5),
        .take 1 (some ⟨1, 0⟩) (.ticks 5), .give 0, .give 1, .init, .give 1] :=
  (limitHolds_iff countingSem_lawful boundedSem_lawful _ (by decide) (by decide) 0 (0, 0) _).mpr
    (by decide)

/-- A unit given at a limit of one: the POSIX semaphore has two units then. -/
theorem not_limitHolds_of_give_at_limit :
    countingSem.Lawful id ∧ boundedSem.Lawful Prod.fst Prod.snd ∧
      ¬ LimitHolds countingSem boundedSem plainCounts { initCount := 1, countLimit := 1 }
        (constructed 0 (0, 0)) [.init, .give 0] := by
  refine ⟨countingSem_lawful, boundedSem_lawful, fun h => ?_⟩
  have hgive := h.within _ (List.mem_of_getElem? (i := 1) rfl)
  exact absurd (hgive.posix 2 rfl) (by decide)

end EnoceanCore.PlatformCore
