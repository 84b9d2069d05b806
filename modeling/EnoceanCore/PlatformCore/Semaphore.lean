import EnoceanCore.PlatformCore.Kernel

/-!
# Semaphores

`Semaphore` of `posix_core` and `zephyr_core` over the calls of their kernels, `PosixSem`
and `KSem`. `PosixSem.Lawful` and `KSem.Lawful` say what the calls do to the count.

The name of a semaphore is left out, no function reads it.
-/

namespace EnoceanCore.PlatformCore

inductive SemaphoreError where
  | invalidParameter
  | insufficientMemory
  | resourceLimitExceeded
  | timeout
  | interrupted
  | notInitialized
  | alreadyInitialized
  | invalidSemaphore
  | permissionDenied
  | countOverflow
  | deleted
  | waitAborted
  | callerError
  | unknown
  deriving DecidableEq, Repr

/-- The result of an operation of a semaphore. -/
abbrev SemaphoreResult : Type := Except SemaphoreError Unit

/-- The members of `ISemaphore` that the constructor sets. -/
structure SemaphoreConfig where
  initCount : UInt32
  countLimit : UInt32
  deriving DecidableEq, Repr

/-! ## The kernels -/

/-- The semaphore calls of a POSIX system on an object of type `σ`. -/
structure PosixSem (σ : Type) where
  semInit : σ → UInt32 → Answer × σ
  semDestroy : σ → Answer × σ
  semWait : σ → Option (Answer × σ)
  semTimedwait : σ → Timespec → Option (Answer × σ)
  semPost : σ → Answer × σ

/-- The semaphore calls of Zephyr on an object of type `τ`. -/
structure KSem (τ : Type) where
  init : τ → (initialCount limit : UInt32) → Int × τ
  take : τ → KTimeout → Option (Int × τ)
  give : τ → τ

/-- The greatest value `sem_init` accepts. -/
abbrev SEM_VALUE_MAX : Nat := 2147483647

section Contracts

variable {σ τ α : Type}

/-- A wait takes a unit if there is one. If there is none it waits or fails. -/
structure TakesUnit (count : σ → Nat) (ok : α → Prop) (call : σ → Option (α × σ)) : Prop where
  granted : ∀ s, 0 < count s → ∃ a s', call s = some (a, s') ∧ ok a ∧ count s' + 1 = count s
  failed : ∀ s a s', count s = 0 → call s = some (a, s') → ¬ ok a ∧ count s' = 0

/-- What POSIX documents; `sem_post` increments the count. -/
structure PosixSem.Lawful (kernel : PosixSem σ) (count : σ → Nat) : Prop where
  init : ∀ s value, value.toNat ≤ SEM_VALUE_MAX →
    (kernel.semInit s value).1.result = 0 ∧ count (kernel.semInit s value).2 = value.toNat
  initRefused : ∀ s value, SEM_VALUE_MAX < value.toNat →
    (kernel.semInit s value).1 = { result := -1, errno := EINVAL }
  wait : TakesUnit count (fun a => a.result = 0) kernel.semWait
  timedwait : ∀ ts, TakesUnit count (fun a => a.result = 0) (kernel.semTimedwait · ts)
  post : ∀ s, (kernel.semPost s).1.result = 0 ∧ count (kernel.semPost s).2 = count s + 1

/-- What Zephyr documents; `k_sem_give` saturates at the limit. -/
structure KSem.Lawful (kernel : KSem τ) (count limit : τ → Nat) : Prop where
  init : ∀ s initialCount bound, 0 < bound.toNat → initialCount.toNat ≤ bound.toNat →
    (kernel.init s initialCount bound).1 = 0 ∧
      count (kernel.init s initialCount bound).2 = initialCount.toNat ∧
      limit (kernel.init s initialCount bound).2 = bound.toNat
  take : ∀ ticks, TakesUnit count (fun r => r = 0) (kernel.take · ticks)
  takeLimit : ∀ s ticks r s', kernel.take s ticks = some (r, s') → limit s' = limit s
  give : ∀ s, count s ≤ limit s →
    count (kernel.give s) = min (count s + 1) (limit s) ∧ limit (kernel.give s) = limit s

end Contracts

/-! ## Units

What a user sees of a semaphore: `none` before it is initialised, then its units. -/

section Units

variable {σ : Type}

def units (count : σ → Nat) (s : Guarded σ) : Option Nat :=
  if s.initialized then some (count s.object) else none

theorem units_of_initialized {count : σ → Nat} {s : Guarded σ} (h : s.initialized = true) :
    units count s = some (count s.object) := if_pos h

theorem units_update {count : σ → Nat} {s : Guarded σ} (h : s.initialized = true) (sem : σ) :
    units count { s with object := sem } = some (count sem) := if_pos h

theorem units_of_not_initialized {count : σ → Nat} {s : Guarded σ}
    (h : s.initialized = false) : units count s = none := by
  rw [units, h, if_neg Bool.false_ne_true]

/-- There is a unit to take. -/
def Available (a : Option Nat) : Prop := ∃ n, a = some (n + 1)

@[simp] theorem not_available_none : ¬ Available none := by
  intro h
  rcases h with ⟨n, hn⟩
  cases hn

@[simp] theorem available_some (n : Nat) : Available (some n) ↔ 0 < n := by
  constructor
  · intro h
    rcases h with ⟨m, hm⟩
    cases hm
    exact Nat.succ_pos m
  · intro h
    exact ⟨n - 1, by rw [Nat.sub_add_cancel h]⟩

instance (a : Option Nat) : Decidable (Available a) :=
  match a with
  | none => isFalse not_available_none
  | some n => decidable_of_iff (0 < n) (available_some n).symm

/-- The units after an attempt to take one. -/
def afterTake (a : Option Nat) : Option Nat := a.map (· - 1)

/-- A take succeeds exactly when there is a unit. If there is none it fails or waits. -/
def TakesFrom (count : σ → Nat) (a : Option Nat) : Option (SemaphoreResult × Guarded σ) → Prop
  | none => ¬ Available a
  | some (r, s) => (r = .ok () ↔ Available a) ∧ units count s = afterTake a

/-- `ISemaphore::take` around a `do_take` that makes one call and translates its answer. -/
theorem TakesUnit.wait_takesFrom {α : Type} {count : σ → Nat} {ok : α → Prop}
    {call : σ → Option (α × σ)} (h : TakesUnit count ok call) {result : α → SemaphoreResult}
    (hresult : ∀ a, result a = .ok () ↔ ok a)
    {doTake : Guarded σ → Option (SemaphoreResult × Guarded σ)}
    (hdo : ∀ s, doTake s = (call s.object).map fun a => (result a.1, { s with object := a.2 }))
    (s : Guarded σ) :
    TakesFrom count (units count s) (Guarded.wait .notInitialized doTake s) := by
  cases hinit : s.initialized with
  | false =>
    rw [Guarded.wait_of_not_initialized hinit, units_of_not_initialized hinit]
    refine ⟨⟨fun h => ?_, fun h => absurd h not_available_none⟩, units_of_not_initialized hinit⟩
    cases h
  | true =>
    rw [Guarded.wait_of_initialized hinit, units_of_initialized hinit, hdo]
    rcases Nat.eq_zero_or_pos (count s.object) with hzero | hpos
    · have hnone : ¬ Available (some (count s.object)) := by
        rw [available_some]
        omega
      cases hcall : call s.object with
      | none => exact hnone
      | some after =>
        obtain ⟨a, sem⟩ := after
        obtain ⟨hfail, hcount⟩ := h.failed s.object a sem hzero hcall
        refine ⟨iff_of_false (fun hok => hfail ((hresult a).mp hok)) hnone, ?_⟩
        rw [units_update hinit]
        rw [hzero]
        exact congrArg some hcount
    · obtain ⟨a, sem, hcall, hok, hcount⟩ := h.granted s.object hpos
      rw [hcall]
      refine ⟨iff_of_true ((hresult a).mpr hok) ((available_some _).mpr hpos), ?_⟩
      rw [units_update hinit]
      show some (count sem) = some (count s.object - 1)
      rw [← hcount, Nat.add_sub_cancel]

end Units

/-! ## The POSIX semaphore -/

namespace Posix.Semaphore

variable {σ : Type} (kernel : PosixSem σ) (config : SemaphoreConfig)

def errnoToSemaphoreError (errorCode : Int) : SemaphoreError :=
  if errorCode = EINVAL then .invalidParameter
  else if errorCode = ENOMEM then .insufficientMemory
  else if errorCode = ENOSPC then .resourceLimitExceeded
  else if errorCode = ETIMEDOUT then .timeout
  else if errorCode = EINTR then .interrupted
  else if errorCode = EACCES then .permissionDenied
  else if errorCode = EOVERFLOW then .countOverflow
  else if errorCode = EALREADY then .alreadyInitialized
  else .unknown

/-- The part of `do_init` from `sem_init` on. -/
def initSem (s : Guarded σ) : SemaphoreResult × Guarded σ :=
  match kernel.semInit s.object config.initCount with
  | (a, sem) =>
    if a.result = 0 then (.ok (), { object := sem, initialized := true })
    else (.error (errnoToSemaphoreError a.errno), { s with object := sem })

def doInit (s : Guarded σ) : SemaphoreResult × Guarded σ :=
  if s.initialized then
    match kernel.semDestroy s.object with
    | (a, sem) =>
      if a.result ≠ 0 then
        (.error (errnoToSemaphoreError a.errno), { s with object := sem })
      else initSem kernel config { object := sem, initialized := false }
  else initSem kernel config s

/-- `sem_wait` or `sem_timedwait`, by the timeout. -/
def takeCall (absTimeout : Option Timespec) (sem : σ) : Option (Answer × σ) :=
  match absTimeout with
  | none => kernel.semWait sem
  | some ts => kernel.semTimedwait sem ts

def doTake (absTimeout : Option Timespec) (s : Guarded σ) :
    Option (SemaphoreResult × Guarded σ) := do
  let (a, sem) ← takeCall kernel absTimeout s.object
  if a.result = 0 then return (.ok (), { s with object := sem })
  return (.error (errnoToSemaphoreError a.errno), { s with object := sem })

def doGive (s : Guarded σ) : Option (Guarded σ) :=
  match kernel.semPost s.object with
  | (a, sem) => if a.result ≠ 0 then none else some { s with object := sem }

def init : Guarded σ → SemaphoreResult × Guarded σ :=
  Guarded.init .alreadyInitialized (doInit kernel config)

def take (absTimeout : Option Timespec) : Guarded σ → Option (SemaphoreResult × Guarded σ) :=
  Guarded.wait .notInitialized (doTake kernel absTimeout)

def give : Guarded σ → Option (Guarded σ) := Guarded.release (doGive kernel)

section Lemmas

variable {kernel config} {count : σ → Nat}

/-- An initialised semaphore has the initial count, unless `sem_init` refuses it. -/
theorem units_init (hkernel : kernel.Lawful count) (s : Guarded σ) :
    units count (init kernel config s).2 = (units count s).or
      (if config.initCount.toNat ≤ SEM_VALUE_MAX then some config.initCount.toNat else none) := by
  cases hinit : s.initialized with
  | true =>
    rw [init, Guarded.init_of_initialized hinit, units_of_initialized hinit]
    rfl
  | false =>
    rw [units_of_not_initialized hinit, Option.none_or, init, Guarded.init,
      if_pos (by simp [hinit]), doInit, if_neg (by simp [hinit]), initSem]
    dsimp only
    by_cases hle : config.initCount.toNat ≤ SEM_VALUE_MAX
    · obtain ⟨hok, hcount⟩ := hkernel.init s.object config.initCount hle
      rw [if_pos hok, if_pos hle]
      exact congrArg some hcount
    · rw [hkernel.initRefused s.object config.initCount (Nat.not_le.mp hle), if_neg (by decide),
        if_neg hle]
      exact units_of_not_initialized hinit

/-- The result of a take from the answer of its call. -/
def takeResult (a : Answer) : SemaphoreResult :=
  if a.result = 0 then .ok () else .error (errnoToSemaphoreError a.errno)

theorem takeResult_eq_ok (a : Answer) : takeResult a = .ok () ↔ a.result = 0 := by
  unfold takeResult
  split <;> simp [*]

theorem doTake_eq (absTimeout : Option Timespec) (s : Guarded σ) :
    doTake kernel absTimeout s = (takeCall kernel absTimeout s.object).map fun a =>
      (takeResult a.1, { s with object := a.2 }) := by
  unfold doTake
  cases takeCall kernel absTimeout s.object with
  | none => rfl
  | some after =>
    show (if _ then _ else _) = some (if _ then _ else _, _)
    split <;> rfl

theorem take_takesFrom (hkernel : kernel.Lawful count) (absTimeout : Option Timespec)
    (s : Guarded σ) : TakesFrom count (units count s) (take kernel absTimeout s) := by
  have hcall : TakesUnit count (fun a => a.result = 0) (takeCall kernel absTimeout) := by
    cases absTimeout with
    | none => exact hkernel.wait
    | some ts => exact hkernel.timedwait ts
  exact hcall.wait_takesFrom takeResult_eq_ok (doTake_eq absTimeout) s

/-- Giving never fails and adds a unit, whatever the limit. -/
theorem give_units (hkernel : kernel.Lawful count) (s : Guarded σ) :
    ∃ s', give kernel s = some s' ∧ units count s' = (units count s).map (· + 1) := by
  cases hinit : s.initialized with
  | false =>
    refine ⟨s, Guarded.release_of_not_initialized hinit _, ?_⟩
    rw [units_of_not_initialized hinit]
    rfl
  | true =>
    obtain ⟨hok, hcount⟩ := hkernel.post s.object
    refine ⟨{ s with object := (kernel.semPost s.object).2 }, ?_, ?_⟩
    · rw [give, Guarded.release_of_initialized hinit, doGive]
      dsimp only
      rw [if_neg (not_not_intro hok)]
    · rw [units_of_initialized hinit]
      exact (units_update hinit _).trans (congrArg some hcount)

end Lemmas

end Posix.Semaphore

/-! ## The Zephyr semaphore -/

namespace Zephyr.Semaphore

variable {τ : Type} (kernel : KSem τ) (config : SemaphoreConfig)

def errnoToSemaphoreError (errorCode : Int) : SemaphoreError :=
  if errorCode = Zephyr.EINVAL then .invalidParameter
  else if errorCode = Zephyr.ETIMEDOUT ∨ errorCode = Zephyr.EBUSY ∨
    errorCode = Zephyr.EAGAIN then .timeout
  else if errorCode = Zephyr.EALREADY then .alreadyInitialized
  else .unknown

def doInit (s : Guarded τ) : SemaphoreResult × Guarded τ :=
  if s.initialized then (.error .alreadyInitialized, s)
  else
    match kernel.init s.object config.initCount config.countLimit with
    | (result, sem) =>
      if result ≠ 0 then (.error (errnoToSemaphoreError (-result)), { s with object := sem })
      else (.ok (), { object := sem, initialized := true })

def doTake (ticks : KTimeout) (s : Guarded τ) : Option (SemaphoreResult × Guarded τ) := do
  let (result, sem) ← kernel.take s.object ticks
  if result = 0 then return (.ok (), { s with object := sem })
  return (.error (errnoToSemaphoreError (-result)), { s with object := sem })

def doGive (s : Guarded τ) : Option (Guarded τ) := some { s with object := kernel.give s.object }

def init : Guarded τ → SemaphoreResult × Guarded τ :=
  Guarded.init .alreadyInitialized (doInit kernel config)

def take (ticks : KTimeout) : Guarded τ → Option (SemaphoreResult × Guarded τ) :=
  Guarded.wait .notInitialized (doTake kernel ticks)

def give : Guarded τ → Option (Guarded τ) := Guarded.release (doGive kernel)

section Lemmas

variable {kernel config} {count limit : τ → Nat}

/-- The limit of an initialised semaphore is the one of its constructor. -/
def HasLimit (limit : τ → Nat) (bound : Nat) (s : Guarded τ) : Prop :=
  s.initialized = true → limit s.object = bound

theorem units_init (hkernel : kernel.Lawful count limit) (hpos : 0 < config.countLimit.toNat)
    (hle : config.initCount.toNat ≤ config.countLimit.toNat) {s : Guarded τ}
    (hs : HasLimit limit config.countLimit.toNat s) :
    HasLimit limit config.countLimit.toNat (init kernel config s).2 ∧
      units count (init kernel config s).2 =
        (units count s).or (some config.initCount.toNat) := by
  cases hinit : s.initialized with
  | true =>
    rw [init, Guarded.init_of_initialized hinit, units_of_initialized hinit]
    exact ⟨hs, rfl⟩
  | false =>
    obtain ⟨hok, hcount, hlimit⟩ := hkernel.init s.object _ _ hpos hle
    rw [units_of_not_initialized hinit, init, Guarded.init, if_pos (by simp [hinit]), doInit,
      if_neg (by simp [hinit])]
    dsimp only
    rw [if_neg (not_not_intro hok)]
    exact ⟨fun _ => hlimit, congrArg some hcount⟩

/-- The result of a take from the answer of its call. -/
def takeResult (r : Int) : SemaphoreResult :=
  if r = 0 then .ok () else .error (errnoToSemaphoreError (-r))

theorem takeResult_eq_ok (r : Int) : takeResult r = .ok () ↔ r = 0 := by
  unfold takeResult
  split <;> simp [*]

theorem doTake_eq (ticks : KTimeout) (s : Guarded τ) :
    doTake kernel ticks s = (kernel.take s.object ticks).map fun a =>
      (takeResult a.1, { s with object := a.2 }) := by
  unfold doTake
  cases kernel.take s.object ticks with
  | none => rfl
  | some after =>
    show (if _ then _ else _) = some (if _ then _ else _, _)
    split <;> rfl

theorem take_takesFrom (hkernel : kernel.Lawful count limit) (ticks : KTimeout)
    (s : Guarded τ) : TakesFrom count (units count s) (take kernel ticks s) :=
  (hkernel.take ticks).wait_takesFrom takeResult_eq_ok (doTake_eq ticks) s

theorem take_hasLimit (hkernel : kernel.Lawful count limit) {ticks : KTimeout} {bound : Nat}
    {s s' : Guarded τ} {r : SemaphoreResult} (hs : HasLimit limit bound s)
    (h : take kernel ticks s = some (r, s')) : HasLimit limit bound s' := by
  cases hinit : s.initialized with
  | false =>
    rw [take, Guarded.wait_of_not_initialized hinit] at h
    cases h
    exact hs
  | true =>
    rw [take, Guarded.wait_of_initialized hinit, doTake_eq, Option.map_eq_some_iff] at h
    obtain ⟨⟨a, sem⟩, hcall, hafter⟩ := h
    cases hafter
    exact fun _ => (hkernel.takeLimit _ _ _ _ hcall).trans (hs hinit)

/-- Giving adds a unit up to the limit. -/
theorem give_units (hkernel : kernel.Lawful count limit) {bound : Nat} {s : Guarded τ}
    (hs : HasLimit limit bound s) (hle : ∀ n, units count s = some n → n ≤ bound) :
    ∃ s', give kernel s = some s' ∧ HasLimit limit bound s' ∧
      units count s' = (units count s).map fun n => min (n + 1) bound := by
  cases hinit : s.initialized with
  | false =>
    refine ⟨s, Guarded.release_of_not_initialized hinit _, hs, ?_⟩
    rw [units_of_not_initialized hinit]
    rfl
  | true =>
    rw [units_of_initialized hinit] at hle ⊢
    have hcount : count s.object ≤ limit s.object := by
      rw [hs hinit]
      exact hle _ rfl
    obtain ⟨hgive, hlimit⟩ := hkernel.give s.object hcount
    refine ⟨{ s with object := kernel.give s.object }, ?_, fun _ => hlimit.trans (hs hinit), ?_⟩
    · rw [give, Guarded.release_of_initialized hinit, doGive]
    · rw [units_update hinit]
      show some (count (kernel.give s.object)) = some (min (count s.object + 1) bound)
      rw [hgive, hs hinit]

end Lemmas

end Zephyr.Semaphore

end EnoceanCore.PlatformCore
