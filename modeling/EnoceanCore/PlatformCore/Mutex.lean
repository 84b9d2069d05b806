import EnoceanCore.PlatformCore.Kernel

/-!
# Mutexes

`Mutex` of `posix_core` and `zephyr_core` over the calls of their kernels, `PosixMutex` and
`KMutex`. A call knows the thread that makes it.

The name of a mutex is left out, no function reads it.
-/

namespace EnoceanCore.PlatformCore

inductive MutexError where
  | invalidParameter
  | insufficientMemory
  | resourceLimitExceeded
  | timeout
  | interrupted
  | notInitialized
  | alreadyInitialized
  | deadlock
  | invalidMutex
  | permissionDenied
  | busy
  | deleted
  | waitAborted
  | callerError
  | unknown
  deriving DecidableEq, Repr

/-- The result of an operation of a mutex. -/
abbrev MutexResult : Type := Except MutexError Unit

/-! ## The kernels -/

/-- The mutex calls of a POSIX system on an object of type `σ`. They answer an error number;
the attribute object lives in `σ` too. -/
structure PosixMutex (σ : Type) where
  mutexDestroy : σ → Int × σ
  mutexattrInit : σ → Int × σ
  /-- With `PTHREAD_MUTEX_ERRORCHECK`. -/
  mutexattrSettype : σ → Int × σ
  mutexattrDestroy : σ → Int × σ
  mutexInit : σ → Int × σ
  mutexLock : σ → (thread : Nat) → Option (Int × σ)
  mutexTimedlock : σ → (thread : Nat) → Timespec → Option (Int × σ)
  mutexUnlock : σ → (thread : Nat) → Int × σ

/-- The mutex calls of Zephyr on an object of type `τ`. -/
structure KMutex (τ : Type) where
  init : τ → Int × τ
  lock : τ → (thread : Nat) → KTimeout → Option (Int × τ)
  unlock : τ → (thread : Nat) → Int × τ

/-! ## The POSIX mutex -/

namespace Posix.Mutex

variable {σ : Type} (kernel : PosixMutex σ)

def errnoToMutexError (errorCode : Int) : MutexError :=
  if errorCode = EINVAL then .invalidParameter
  else if errorCode = ENOMEM then .insufficientMemory
  else if errorCode = EAGAIN then .resourceLimitExceeded
  else if errorCode = ETIMEDOUT then .timeout
  else if errorCode = EINTR then .interrupted
  else if errorCode = EDEADLK then .deadlock
  else if errorCode = EBUSY then .busy
  else if errorCode = EPERM then .permissionDenied
  else if errorCode = EALREADY then .alreadyInitialized
  else .unknown

/-- The part of `do_init` from `pthread_mutex_init` on. -/
def initMutex (m : Guarded σ) : MutexResult × Guarded σ :=
  match kernel.mutexInit m.object with
  | (initRc, mtx) =>
    match kernel.mutexattrDestroy mtx with
    | (attrDestroyRc, mtx) =>
      if attrDestroyRc ≠ 0 then
        let mtx := if initRc = 0 then (kernel.mutexDestroy mtx).2 else mtx
        (.error (errnoToMutexError attrDestroyRc), { m with object := mtx })
      else if initRc ≠ 0 then (.error (errnoToMutexError initRc), { m with object := mtx })
      else (.ok (), { object := mtx, initialized := true })

/-- The part of `do_init` from `pthread_mutexattr_init` on. -/
def initAttr (m : Guarded σ) : MutexResult × Guarded σ :=
  match kernel.mutexattrInit m.object with
  | (attrInitRc, mtx) =>
    if attrInitRc ≠ 0 then (.error (errnoToMutexError attrInitRc), { m with object := mtx })
    else
      match kernel.mutexattrSettype mtx with
      | (setTypeRc, mtx) =>
        if setTypeRc ≠ 0 then
          (.error (errnoToMutexError setTypeRc),
            { m with object := (kernel.mutexattrDestroy mtx).2 })
        else initMutex kernel { m with object := mtx }

def doInit (m : Guarded σ) : MutexResult × Guarded σ :=
  if m.initialized then
    match kernel.mutexDestroy m.object with
    | (destroyRc, mtx) =>
      if destroyRc ≠ 0 then (.error (errnoToMutexError destroyRc), { m with object := mtx })
      else initAttr kernel { object := mtx, initialized := false }
  else initAttr kernel m

/-- `pthread_mutex_lock` or `pthread_mutex_timedlock`, by the timeout. -/
def lockCall (thread : Nat) (absTimeout : Option Timespec) (mtx : σ) : Option (Int × σ) :=
  match absTimeout with
  | none => kernel.mutexLock mtx thread
  | some ts => kernel.mutexTimedlock mtx thread ts

def doLock (thread : Nat) (absTimeout : Option Timespec) (m : Guarded σ) :
    Option (MutexResult × Guarded σ) := do
  let (result, mtx) ← lockCall kernel thread absTimeout m.object
  if result = 0 then return (.ok (), { m with object := mtx })
  return (.error (errnoToMutexError result), { m with object := mtx })

def doUnlock (thread : Nat) (m : Guarded σ) : Option (Guarded σ) :=
  match kernel.mutexUnlock m.object thread with
  | (r, mtx) => if r ≠ 0 then none else some { m with object := mtx }

def init : Guarded σ → MutexResult × Guarded σ :=
  Guarded.init .alreadyInitialized (doInit kernel)

def lock (thread : Nat) (absTimeout : Option Timespec) :
    Guarded σ → Option (MutexResult × Guarded σ) :=
  Guarded.wait .notInitialized (doLock kernel thread absTimeout)

def unlock (thread : Nat) : Guarded σ → Option (Guarded σ) :=
  Guarded.release (doUnlock kernel thread)

/-- The result of a lock from the answer of its call. -/
def lockResult (r : Int) : MutexResult :=
  if r = 0 then .ok () else .error (errnoToMutexError r)

theorem doLock_eq (thread : Nat) (absTimeout : Option Timespec) (m : Guarded σ) :
    doLock kernel thread absTimeout m =
      (lockCall kernel thread absTimeout m.object).map fun a =>
        (lockResult a.1, { m with object := a.2 }) := by
  unfold doLock
  cases lockCall kernel thread absTimeout m.object with
  | none => rfl
  | some after =>
    show (if _ then _ else _) = some (if _ then _ else _, _)
    split <;> rfl

end Posix.Mutex

/-! ## The Zephyr mutex -/

namespace Zephyr.Mutex

variable {τ : Type} (kernel : KMutex τ)

def errnoToMutexError (errorCode : Int) : MutexError :=
  if errorCode = Zephyr.EINVAL then .invalidParameter
  else if errorCode = Zephyr.ETIMEDOUT ∨ errorCode = Zephyr.EBUSY then .timeout
  else if errorCode = Zephyr.EDEADLK then .deadlock
  else if errorCode = Zephyr.EALREADY then .alreadyInitialized
  else .unknown

def doInit (m : Guarded τ) : MutexResult × Guarded τ :=
  if m.initialized then (.error .alreadyInitialized, m)
  else
    match kernel.init m.object with
    | (result, mtx) =>
      if result ≠ 0 then (.error (errnoToMutexError (-result)), { m with object := mtx })
      else (.ok (), { object := mtx, initialized := true })

def doLock (thread : Nat) (timeout : KTimeout) (m : Guarded τ) :
    Option (MutexResult × Guarded τ) := do
  let (result, mtx) ← kernel.lock m.object thread timeout
  if result = 0 then return (.ok (), { m with object := mtx })
  return (.error (errnoToMutexError (-result)), { m with object := mtx })

def doUnlock (thread : Nat) (m : Guarded τ) : Option (Guarded τ) :=
  some { m with object := (kernel.unlock m.object thread).2 }

def init : Guarded τ → MutexResult × Guarded τ :=
  Guarded.init .alreadyInitialized (doInit kernel)

def lock (thread : Nat) (timeout : KTimeout) : Guarded τ → Option (MutexResult × Guarded τ) :=
  Guarded.wait .notInitialized (doLock kernel thread timeout)

def unlock (thread : Nat) : Guarded τ → Option (Guarded τ) :=
  Guarded.release (doUnlock kernel thread)

/-- The result of a lock from the answer of its call. -/
def lockResult (r : Int) : MutexResult :=
  if r = 0 then .ok () else .error (errnoToMutexError (-r))

theorem doLock_eq (thread : Nat) (timeout : KTimeout) (m : Guarded τ) :
    doLock kernel thread timeout m = (kernel.lock m.object thread timeout).map fun a =>
      (lockResult a.1, { m with object := a.2 }) := by
  unfold doLock
  cases kernel.lock m.object thread timeout with
  | none => rfl
  | some after =>
    show (if _ then _ else _) = some (if _ then _ else _, _)
    split <;> rfl

end Zephyr.Mutex

end EnoceanCore.PlatformCore
