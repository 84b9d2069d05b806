import EnoceanCore.PlatformCore.Thread
import EnoceanCore.Lib.Run

/-!
# Objects of the two kernels

What the mutexes, semaphores and queues of `posix_core` and `zephyr_core` have in common:
the error numbers, the timeouts, and the guards that `IMutex` and `ISemaphore` put around
the functions of a platform.

A call that waits answers an `Option`: with `none` its thread goes on waiting. The attempt
that ends the wait comes later in the run.
-/

namespace EnoceanCore.PlatformCore

/-! ## Error numbers -/

abbrev EINTR : Int := 4
abbrev EBADF : Int := 9
abbrev EACCES : Int := 13
abbrev EBUSY : Int := 16
abbrev EEXIST : Int := 17
abbrev ENFILE : Int := 23
abbrev EMFILE : Int := 24
abbrev ENOSPC : Int := 28
abbrev EOVERFLOW : Int := 75
abbrev ETIMEDOUT : Int := 110

namespace Zephyr

abbrev EPERM : Int := 1
abbrev EAGAIN : Int := 11
abbrev ENOMEM : Int := 12
abbrev EBUSY : Int := 16
abbrev EINVAL : Int := 22
abbrev ENOMSG : Int := 35
abbrev EDEADLK : Int := 45
abbrev ETIMEDOUT : Int := 116
abbrev EALREADY : Int := 120

end Zephyr

/-! ## Answers and timeouts -/

/-- The answer of a POSIX call: its result, and `errno` after it. -/
structure Answer where
  result : Int
  errno : Int := 0
  deriving DecidableEq, Repr

/-- `struct timespec`, a time of `CLOCK_REALTIME`. -/
structure Timespec where
  tvSec : Int
  tvNsec : Int
  deriving DecidableEq, Repr

/-- `k_timeout_t`; `K_NO_WAIT` is no tick. -/
inductive KTimeout where
  | forever
  | ticks (n : UInt64)
  deriving DecidableEq, Repr

def KTimeout.noWait : KTimeout := .ticks 0

/-! ## The guards of the interfaces -/

/-- A platform object with the `initialized_` flag of its interface. -/
structure Guarded (σ : Type) where
  object : σ
  initialized : Bool := false
  deriving DecidableEq, Repr

namespace Guarded

variable {σ ε : Type}

/-- `init` of `IMutex` and `ISemaphore`, around `do_init`. -/
def init (alreadyInitialized : ε) (doInit : Guarded σ → Except ε Unit × Guarded σ)
    (o : Guarded σ) : Except ε Unit × Guarded σ :=
  if !o.initialized then
    match doInit o with
    | (.ok _, o) => (.ok (), { o with initialized := true })
    | (.error e, o) => (.error e, o)
  else (.error alreadyInitialized, o)

/-- `IMutex::lock` and `ISemaphore::take`, around `do_lock` and `do_take`. -/
def wait (notInitialized : ε) (doWait : Guarded σ → Option (Except ε Unit × Guarded σ))
    (o : Guarded σ) : Option (Except ε Unit × Guarded σ) :=
  if !o.initialized then some (.error notInitialized, o)
  else doWait o

/-- `IMutex::unlock` and `ISemaphore::give`, around `do_unlock` and `do_give`. With `none` the
program is terminated. -/
def release (doRelease : Guarded σ → Option (Guarded σ)) (o : Guarded σ) : Option (Guarded σ) :=
  if !o.initialized then some o
  else doRelease o

section Lemmas

variable {o : Guarded σ} {e : ε}

theorem init_of_initialized (h : o.initialized = true)
    (doInit : Guarded σ → Except ε Unit × Guarded σ) : init e doInit o = (.error e, o) := by
  rw [init, if_neg (by simp [h])]

theorem wait_of_not_initialized (h : o.initialized = false)
    (doWait : Guarded σ → Option (Except ε Unit × Guarded σ)) :
    wait e doWait o = some (.error e, o) := by
  rw [wait, if_pos (by simp [h])]

theorem wait_of_initialized (h : o.initialized = true)
    (doWait : Guarded σ → Option (Except ε Unit × Guarded σ)) : wait e doWait o = doWait o := by
  rw [wait, if_neg (by simp [h])]

theorem release_of_not_initialized (h : o.initialized = false)
    (doRelease : Guarded σ → Option (Guarded σ)) : release doRelease o = some o := by
  rw [release, if_pos (by simp [h])]

theorem release_of_initialized (h : o.initialized = true)
    (doRelease : Guarded σ → Option (Guarded σ)) : release doRelease o = doRelease o := by
  rw [release, if_neg (by simp [h])]

end Lemmas

end Guarded

end EnoceanCore.PlatformCore
