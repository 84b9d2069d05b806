import EnoceanCore.PlatformCore.Mutex
import EnoceanCore.Lib.Locking

/-!
# `MutexLocker`

`IMutexLocker` on both platforms: the constructor locks the mutex, and the destructor unlocks it
if that succeeded. `IMutex` looks at `initialized_` before each call of the kernel
(`construct_eq`, `Guarded.release`); here these are two steps.

What the two kernels promise of a mutex is stated for its owner (`ErrorcheckMutex`,
`RecursiveMutex`). With it a locker is an exclusive lock for the sections of threads that construct
no second one inside.
-/

namespace EnoceanCore.PlatformCore

open Lib

/-! ## The kernels -/

/-- The mutexes of a POSIX system with `PTHREAD_MUTEX_ERRORCHECK`, and the thread that owns one.
An owner that locks again gets an error. -/
structure ErrorcheckMutex (σ : Type) extends PosixMutex σ where
  owner : σ → Option Nat
  owner_init : ∀ m, (mutexInit m).1 = 0 → owner (mutexInit m).2 = none
  owner_attrDestroy : ∀ m, owner (mutexattrDestroy m).2 = owner m
  owner_lock : ∀ {m t r m'}, mutexLock m t = some (r, m') →
    if r = 0 then owner m = none ∧ owner m' = some t else owner m' = owner m
  owner_timedlock : ∀ {m t ts r m'}, mutexTimedlock m t ts = some (r, m') →
    if r = 0 then owner m = none ∧ owner m' = some t else owner m' = owner m
  owner_unlock : ∀ {m t}, owner m = some t →
    (mutexUnlock m t).1 = 0 ∧ owner (mutexUnlock m t).2 = none

/-- The mutexes of Zephyr, the thread that owns one, and how often it has locked it. -/
structure RecursiveMutex (τ : Type) extends KMutex τ where
  owner : τ → Option (Nat × Nat)
  owner_init : ∀ m, (init m).1 = 0 → owner (init m).2 = none
  owner_lock : ∀ {m t timeout r m'}, lock m t timeout = some (r, m') →
    if r = 0 then
      owner m = none ∧ owner m' = some (t, 1) ∨
        ∃ n, owner m = some (t, n) ∧ owner m' = some (t, n + 1)
    else owner m' = owner m
  owner_unlock : ∀ {m t}, owner m = some (t, 1) → owner (unlock m t).2 = none

/-- A mutex that is its owner. -/
def Posix.errorcheckMutex : ErrorcheckMutex (Option Nat) where
  mutexDestroy m := (0, m)
  mutexattrInit m := (0, m)
  mutexattrSettype m := (0, m)
  mutexattrDestroy m := (0, m)
  mutexInit _ := (0, none)
  mutexLock m t :=
    match m with
    | none => some (0, some t)
    | some u => if u = t then some (EDEADLK, m) else none
  mutexTimedlock m t _ :=
    match m with
    | none => some (0, some t)
    | some u => some (if u = t then EDEADLK else ETIMEDOUT, m)
  mutexUnlock m t := if m = some t then (0, none) else (EPERM, m)
  owner m := m
  owner_init _ _ := rfl
  owner_attrDestroy _ := rfl
  owner_lock {m t r m'} h := by
    cases m with
    | none =>
      obtain ⟨rfl, rfl⟩ := Prod.mk.inj (Option.some.inj h)
      exact ⟨rfl, rfl⟩
    | some u =>
      dsimp only at h
      split at h
      · obtain ⟨rfl, rfl⟩ := Prod.mk.inj (Option.some.inj h)
        rfl
      · cases h
  owner_timedlock {m t ts r m'} h := by
    cases m with
    | none =>
      obtain ⟨rfl, rfl⟩ := Prod.mk.inj (Option.some.inj h)
      exact ⟨rfl, rfl⟩
    | some u =>
      obtain ⟨rfl, rfl⟩ := Prod.mk.inj (Option.some.inj h)
      by_cases hu : u = t
      · rw [if_pos hu, if_neg (by decide)]
      · rw [if_neg hu, if_neg (by decide)]
  owner_unlock {m t} h := by
    rw [if_pos h]
    exact ⟨rfl, rfl⟩

/-- A mutex that is its owner and its lock count. -/
def Zephyr.recursiveMutex : RecursiveMutex (Option (Nat × Nat)) where
  init _ := (0, none)
  lock m t timeout :=
    match m with
    | none => some (0, some (t, 1))
    | some (u, n) =>
      if u = t then some (0, some (t, n + 1))
      else
        match timeout with
        | .forever => none
        | .ticks _ => some (-Zephyr.EAGAIN, m)
  unlock m t :=
    match m with
    | none => (-Zephyr.EINVAL, m)
    | some (u, n) =>
      if u = t then (0, if n = 1 then none else some (u, n - 1)) else (-Zephyr.EPERM, m)
  owner m := m
  owner_init _ _ := rfl
  owner_lock {m t timeout r m'} h := by
    cases m with
    | none =>
      obtain ⟨rfl, rfl⟩ := Prod.mk.inj (Option.some.inj h)
      exact Or.inl ⟨rfl, rfl⟩
    | some owner =>
      obtain ⟨u, n⟩ := owner
      dsimp only at h
      by_cases hu : u = t
      · rw [if_pos hu] at h
        obtain ⟨rfl, rfl⟩ := Prod.mk.inj (Option.some.inj h)
        exact Or.inr ⟨n, by rw [hu], rfl⟩
      · rw [if_neg hu] at h
        cases timeout with
        | forever => cases h
        | ticks ticks =>
          obtain ⟨rfl, rfl⟩ := Prod.mk.inj (Option.some.inj h)
          rfl
  owner_unlock {m t} h := by
    rw [h]
    simp

/-! ## The lockers -/

/-- The constructor of `IMutexLocker` around `lock`; it yields `locked_`. -/
def lockerOf {σ : Type} (lock : Guarded σ → Option (MutexResult × Guarded σ)) (m : Guarded σ) :
    Option (Bool × Guarded σ) := do
  let (result, m) ← lock m
  return (result.isOk, m)

/-- A locker looks at `initialized_` and goes on to lock. -/
theorem lockerOf_wait {σ : Type} (e : MutexError)
    (doLock : Guarded σ → Option (MutexResult × Guarded σ)) (m : Guarded σ) :
    lockerOf (Guarded.wait e doLock) m =
      if m.initialized then lockerOf doLock m else some (false, m) := by
  unfold lockerOf
  cases hinit : m.initialized with
  | false =>
    rw [Guarded.wait_of_not_initialized hinit]
    rfl
  | true =>
    rw [Guarded.wait_of_initialized hinit]
    rfl

namespace Posix.MutexLocker

variable {σ : Type} (kernel : ErrorcheckMutex σ)

/-- If the mutex is initialised, no thread owns it. -/
def Free (m : Guarded σ) : Prop := m.initialized = true → kernel.owner m.object = none

def Held (m : Guarded σ) (t : Nat) : Prop := m.initialized = true ∧ kernel.owner m.object = some t

def construct (absTimeout : Option Timespec) (m : Guarded σ) (t : Nat) :
    Option (Bool × Guarded σ) :=
  lockerOf (Mutex.lock kernel.toPosixMutex t absTimeout) m

/-- The locker behind the look at `initialized_`. -/
def lock (absTimeout : Option Timespec) (m : Guarded σ) (t : Nat) : Option (Bool × Guarded σ) :=
  lockerOf (Mutex.doLock kernel.toPosixMutex t absTimeout) m

theorem construct_eq (absTimeout : Option Timespec) (m : Guarded σ) (t : Nat) :
    construct kernel absTimeout m t =
      if m.initialized then lock kernel absTimeout m t else some (false, m) :=
  lockerOf_wait _ _ m

theorem owner_lockCall {absTimeout : Option Timespec} {m : σ} {t : Nat} {r : Int} {m' : σ}
    (h : Mutex.lockCall kernel.toPosixMutex t absTimeout m = some (r, m')) :
    if r = 0 then kernel.owner m = none ∧ kernel.owner m' = some t
    else kernel.owner m' = kernel.owner m := by
  cases absTimeout with
  | none => exact kernel.owner_lock h
  | some ts => exact kernel.owner_timedlock h

/-- The owner after a locker has locked or given up. -/
theorem owner_of_lock {absTimeout : Option Timespec} {m m' : Guarded σ} {t : Nat} {locked : Bool}
    (h : lock kernel absTimeout m t = some (locked, m')) :
    m'.initialized = m.initialized ∧
      if locked = true then kernel.owner m.object = none ∧ kernel.owner m'.object = some t
      else kernel.owner m'.object = kernel.owner m.object := by
  unfold lock lockerOf at h
  rw [Mutex.doLock_eq] at h
  cases hcall : Mutex.lockCall kernel.toPosixMutex t absTimeout m.object with
  | none =>
    rw [hcall] at h
    cases h
  | some answer =>
    obtain ⟨r, mtx⟩ := answer
    rw [hcall] at h
    obtain ⟨rfl, rfl⟩ := Prod.mk.inj (Option.some.inj h)
    refine ⟨rfl, ?_⟩
    have howner := owner_lockCall kernel hcall
    by_cases hr : r = 0
    · rw [if_pos hr] at howner
      rw [Mutex.lockResult, if_pos hr]
      exact howner
    · rw [if_neg hr] at howner
      rw [Mutex.lockResult, if_neg hr]
      exact howner

/-- The locker of a section. -/
def exclusive (absTimeout : Option Timespec) : ExclusiveLock (Guarded σ) where
  ready m := m.initialized
  lock := lock kernel absTimeout
  unlock m t := Mutex.doUnlock kernel.toPosixMutex t m
  Free := Free kernel
  Held := Held kernel
  held_of_taken {m t m'} _ hready h := by
    obtain ⟨hsame, -, howner⟩ := owner_of_lock kernel h
    exact ⟨hsame.trans hready, howner⟩
  free_of_refused {m t m'} hfree hready h := by
    obtain ⟨-, howner⟩ := owner_of_lock kernel h
    exact fun _ => Eq.trans howner (hfree hready)
  held_by_other {m t u locked m'} hheld hne h := by
    obtain ⟨hsame, howner⟩ := owner_of_lock kernel h
    cases locked with
    | false => exact ⟨rfl, hsame.trans hheld.1, Eq.trans howner hheld.2⟩
    | true =>
      rw [if_pos rfl, hheld.2] at howner
      cases howner.1
  ready_of_lock {m t locked m'} hready h := (owner_of_lock kernel h).1.trans hready
  ready_of_held {m t} hheld := hheld.1
  released {m t} hheld := by
    obtain ⟨hzero, hnone⟩ := kernel.owner_unlock hheld.2
    refine ⟨{ m with object := (kernel.mutexUnlock m.object t).2 }, ?_, fun _ => hnone, hheld.1⟩
    exact if_neg (not_not.mpr hzero)

end Posix.MutexLocker

namespace Zephyr.MutexLocker

variable {τ : Type} (kernel : RecursiveMutex τ)

/-- If the mutex is initialised, no thread owns it. -/
def Free (m : Guarded τ) : Prop := m.initialized = true → kernel.owner m.object = none

/-- The thread has locked the mutex once. -/
def Held (m : Guarded τ) (t : Nat) : Prop :=
  m.initialized = true ∧ kernel.owner m.object = some (t, 1)

def construct (timeout : KTimeout) (m : Guarded τ) (t : Nat) : Option (Bool × Guarded τ) :=
  lockerOf (Mutex.lock kernel.toKMutex t timeout) m

/-- The locker behind the look at `initialized_`. -/
def lock (timeout : KTimeout) (m : Guarded τ) (t : Nat) : Option (Bool × Guarded τ) :=
  lockerOf (Mutex.doLock kernel.toKMutex t timeout) m

theorem construct_eq (timeout : KTimeout) (m : Guarded τ) (t : Nat) :
    construct kernel timeout m t =
      if m.initialized then lock kernel timeout m t else some (false, m) :=
  lockerOf_wait _ _ m

/-- The owner after a locker has locked or given up. -/
theorem owner_of_lock {timeout : KTimeout} {m m' : Guarded τ} {t : Nat} {locked : Bool}
    (h : lock kernel timeout m t = some (locked, m')) :
    m'.initialized = m.initialized ∧
      if locked = true then
        kernel.owner m.object = none ∧ kernel.owner m'.object = some (t, 1) ∨
          ∃ n, kernel.owner m.object = some (t, n) ∧ kernel.owner m'.object = some (t, n + 1)
      else kernel.owner m'.object = kernel.owner m.object := by
  unfold lock lockerOf at h
  rw [Mutex.doLock_eq] at h
  cases hcall : kernel.lock m.object t timeout with
  | none =>
    rw [hcall] at h
    cases h
  | some answer =>
    obtain ⟨r, mtx⟩ := answer
    rw [hcall] at h
    obtain ⟨rfl, rfl⟩ := Prod.mk.inj (Option.some.inj h)
    refine ⟨rfl, ?_⟩
    have howner := kernel.owner_lock hcall
    by_cases hr : r = 0
    · rw [if_pos hr] at howner
      rw [Mutex.lockResult, if_pos hr]
      exact howner
    · rw [if_neg hr] at howner
      rw [Mutex.lockResult, if_neg hr]
      exact howner

/-- The locker of a section. -/
def exclusive (timeout : KTimeout) : ExclusiveLock (Guarded τ) where
  ready m := m.initialized
  lock := lock kernel timeout
  unlock m t := Mutex.doUnlock kernel.toKMutex t m
  Free := Free kernel
  Held := Held kernel
  held_of_taken {m t m'} hfree hready h := by
    obtain ⟨hsame, howner⟩ := owner_of_lock kernel h
    rcases howner with ⟨-, hone⟩ | ⟨n, hbefore, -⟩
    · exact ⟨hsame.trans hready, hone⟩
    · rw [hfree hready] at hbefore
      cases hbefore
  free_of_refused {m t m'} hfree hready h := by
    obtain ⟨-, howner⟩ := owner_of_lock kernel h
    exact fun _ => Eq.trans howner (hfree hready)
  held_by_other {m t u locked m'} hheld hne h := by
    obtain ⟨hsame, howner⟩ := owner_of_lock kernel h
    cases locked with
    | false => exact ⟨rfl, hsame.trans hheld.1, Eq.trans howner hheld.2⟩
    | true =>
      rw [if_pos rfl, hheld.2] at howner
      rcases howner with ⟨hnone, -⟩ | ⟨n, hsome, -⟩
      · cases hnone
      · exact absurd (Prod.mk.inj (Option.some.inj hsome)).1.symm hne
  ready_of_lock {m t locked m'} hready h := (owner_of_lock kernel h).1.trans hready
  ready_of_held {m t} hheld := hheld.1
  released {m t} hheld :=
    ⟨{ m with object := (kernel.unlock m.object t).2 }, rfl,
      fun _ => kernel.owner_unlock hheld.2, hheld.1⟩

end Zephyr.MutexLocker

end EnoceanCore.PlatformCore
