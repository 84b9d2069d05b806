import EnoceanCore.PlatformCore.Mutex
import EnoceanCore.PlatformCore.SemaphoreLimit
import EnoceanCore.PlatformCore.TimedQueue

/-!
# Waits that expire

A mutex, a semaphore and a queue, each on both platforms (`pairStep`), used by any number of
threads while the waits of both platforms are granted and expire in the same order
(`SameOrder`). Every use is reported alike on both platforms, and an expired wait as a
timeout, except for these (`reportedAlike_iff`):

* the Zephyr mutex does not know `-EAGAIN`, so an expired lock is `Unknown` there;
* the Zephyr queue takes `-EAGAIN` for a full or an empty queue;
* an unlock or a give that POSIX refuses terminates the program there.
-/

namespace EnoceanCore.PlatformCore

open Lib

/-! ## Mutexes -/

/-- A use of a mutex, with the finite timeout of each platform. -/
inductive MutexOp where
  | lock (thread : Nat) (deadline : Timespec) (ticks : UInt64)
  | unlock (thread : Nat)
  deriving DecidableEq, Repr

section Mutex

variable {σ τ : Type} (posix : PosixMutex σ) (zephyr : KMutex τ)

def posixMutex : Platform (Guarded σ) MutexOp MutexResult where
  use m
    | .lock thread deadline _ => waited m (Posix.Mutex.lock posix thread (some deadline) m)
    | .unlock thread => released (.ok ()) m (Posix.Mutex.unlock posix thread m)
  fate m
    | .lock thread deadline _ =>
      .ofErrno ((posix.mutexTimedlock m.object thread deadline).map Prod.fst)
    | .unlock _ => .granted

def zephyrMutex : Platform (Guarded τ) MutexOp MutexResult where
  use m
    | .lock thread _ ticks => waited m (Zephyr.Mutex.lock zephyr thread (.ticks ticks) m)
    | .unlock thread => released (.ok ()) m (Zephyr.Mutex.unlock zephyr thread m)
  fate m
    | .lock thread _ ticks => .ofResult ((zephyr.lock m.object thread (.ticks ticks)).map Prod.fst)
    | .unlock _ => .granted

/-- A lock that expires, or an unlock that POSIX refuses because the thread does not hold the
mutex. -/
def MutexDiffers (s : Guarded σ × Guarded τ) : MutexOp → Prop
  | .lock thread deadline ticks =>
    (posixMutex posix).fate s.1 (.lock thread deadline ticks) = .expired
  | .unlock thread => (posix.mutexUnlock s.1.object thread).1 ≠ 0

instance (s : Guarded σ × Guarded τ) (op : MutexOp) : Decidable (MutexDiffers posix s op) :=
  match op with
  | .lock .. => inferInstanceAs (Decidable (_ = Fate.expired))
  | .unlock _ => inferInstanceAs (Decidable (_ ≠ _))

theorem posix_lock_reports {m : Guarded σ} (hm : m.initialized = true) (thread : Nat)
    (deadline : Timespec) (ticks : UInt64) :
    ((posixMutex posix).use m (.lock thread deadline ticks)).2.initialized = true ∧
      Reports ((posixMutex posix).use m (.lock thread deadline ticks)).1
        ((posixMutex posix).fate m (.lock thread deadline ticks)) (.ok ()) (.error .timeout) := by
  have huse : (posixMutex posix).use m (.lock thread deadline ticks) = waited m
      ((posix.mutexTimedlock m.object thread deadline).map fun a =>
        (Posix.Mutex.lockResult a.1, { m with object := a.2 })) := by
    show waited m (Posix.Mutex.lock posix thread (some deadline) m) = _
    rw [Posix.Mutex.lock, Guarded.wait_of_initialized hm, Posix.Mutex.doLock_eq]
    rfl
  rw [huse]
  apply guarded_reports hm
  · intro r hr
    exact if_pos (eq_of_beq hr)
  · intro r hr hexpired
    rw [eq_of_beq hexpired]
    rfl

theorem zephyr_lock_reports {m : Guarded τ} (hm : m.initialized = true) (thread : Nat)
    (deadline : Timespec) (ticks : UInt64) :
    ((zephyrMutex zephyr).use m (.lock thread deadline ticks)).2.initialized = true ∧
      Reports ((zephyrMutex zephyr).use m (.lock thread deadline ticks)).1
        ((zephyrMutex zephyr).fate m (.lock thread deadline ticks)) (.ok ())
        (.error .unknown) := by
  have huse : (zephyrMutex zephyr).use m (.lock thread deadline ticks) = waited m
      ((zephyr.lock m.object thread (.ticks ticks)).map fun a =>
        (Zephyr.Mutex.lockResult a.1, { m with object := a.2 })) := by
    show waited m (Zephyr.Mutex.lock zephyr thread (.ticks ticks) m) = _
    rw [Zephyr.Mutex.lock, Guarded.wait_of_initialized hm, Zephyr.Mutex.doLock_eq]
  rw [huse]
  apply guarded_reports hm
  · intro r hr
    exact if_pos (eq_of_beq hr)
  · intro r hr hexpired
    rw [eq_of_beq hexpired]
    rfl

variable {posix zephyr}

/-- A step of a mutex that is initialised on both platforms. -/
theorem mutex_step (s : Guarded σ × Guarded τ) (op : MutexOp) (hs : BothInitialized s)
    (horder : SameOrder (posixMutex posix) (zephyrMutex zephyr)
      ⟨s, op, pairStep (posixMutex posix) (zephyrMutex zephyr) s op⟩) :
    BothInitialized (pairStep (posixMutex posix) (zephyrMutex zephyr) s op).val ∧
      (Alike ((posixMutex posix).fate s.1 op) (.error .timeout)
        ((posixMutex posix).use s.1 op).1 ((zephyrMutex zephyr).use s.2 op).1 ↔
          ¬ MutexDiffers posix s op) := by
  cases op with
  | lock thread deadline ticks =>
    obtain ⟨hposix, hreports⟩ := posix_lock_reports posix hs.1 thread deadline ticks
    obtain ⟨hzephyr, hzreports⟩ := zephyr_lock_reports zephyr hs.2 thread deadline ticks
    obtain ⟨hsame, hfate⟩ := horder
    refine ⟨⟨hposix, hzephyr⟩, ?_⟩
    dsimp only at hsame hfate
    rw [← hsame] at hzreports
    rw [hreports.alike_iff hzreports hfate]
    exact ⟨fun h hlate => absurd (h hlate) (by simp), fun h hlate => absurd hlate h⟩
  | unlock thread => exact guarded_release hs _ _ rfl rfl

end Mutex

/-! ## Semaphores -/

/-- A use of a semaphore, with the finite timeout of each platform. -/
inductive TimedSemaphoreOp where
  | take (thread : Nat) (deadline : Timespec) (ticks : UInt64)
  | give (thread : Nat)
  deriving DecidableEq, Repr

section Semaphore

variable {σ τ : Type} (posix : PosixSem σ) (zephyr : KSem τ)

def posixSemaphore : Platform (Guarded σ) TimedSemaphoreOp SemaphoreResult where
  use s
    | .take _ deadline _ => waited s (Posix.Semaphore.take posix (some deadline) s)
    | .give _ => released (.ok ()) s (Posix.Semaphore.give posix s)
  fate s
    | .take _ deadline _ =>
      .ofAnswer (· == 0) ((posix.semTimedwait s.object deadline).map Prod.fst)
    | .give _ => .granted

def zephyrSemaphore : Platform (Guarded τ) TimedSemaphoreOp SemaphoreResult where
  use s
    | .take _ _ ticks => waited s (Zephyr.Semaphore.take zephyr (.ticks ticks) s)
    | .give _ => released (.ok ()) s (Zephyr.Semaphore.give zephyr s)
  fate s
    | .take _ _ ticks => .ofResult ((zephyr.take s.object (.ticks ticks)).map Prod.fst)
    | .give _ => .granted

/-- A give that POSIX refuses because the count would overflow. -/
def SemaphoreDiffers (s : Guarded σ × Guarded τ) : TimedSemaphoreOp → Prop
  | .take .. => False
  | .give _ => (posix.semPost s.1.object).1.result ≠ 0

instance (s : Guarded σ × Guarded τ) (op : TimedSemaphoreOp) :
    Decidable (SemaphoreDiffers posix s op) :=
  match op with
  | .take .. => inferInstanceAs (Decidable False)
  | .give _ => inferInstanceAs (Decidable (_ ≠ _))

theorem posix_take_reports {s : Guarded σ} (hs : s.initialized = true) (thread : Nat)
    (deadline : Timespec) (ticks : UInt64) :
    ((posixSemaphore posix).use s (.take thread deadline ticks)).2.initialized = true ∧
      Reports ((posixSemaphore posix).use s (.take thread deadline ticks)).1
        ((posixSemaphore posix).fate s (.take thread deadline ticks)) (.ok ())
        (.error .timeout) := by
  have huse : (posixSemaphore posix).use s (.take thread deadline ticks) = waited s
      ((posix.semTimedwait s.object deadline).map fun a =>
        (Posix.Semaphore.takeResult a.1, { s with object := a.2 })) := by
    show waited s (Posix.Semaphore.take posix (some deadline) s) = _
    rw [Posix.Semaphore.take, Guarded.wait_of_initialized hs, Posix.Semaphore.doTake_eq]
    rfl
  rw [huse]
  apply guarded_reports hs
  · intro a ha
    exact if_pos (eq_of_beq ha)
  · intro a ha hexpired
    rw [Posix.Semaphore.takeResult, if_neg (ne_of_beq_false ha), eq_of_beq hexpired]
    rfl

theorem zephyr_take_reports {s : Guarded τ} (hs : s.initialized = true) (thread : Nat)
    (deadline : Timespec) (ticks : UInt64) :
    ((zephyrSemaphore zephyr).use s (.take thread deadline ticks)).2.initialized = true ∧
      Reports ((zephyrSemaphore zephyr).use s (.take thread deadline ticks)).1
        ((zephyrSemaphore zephyr).fate s (.take thread deadline ticks)) (.ok ())
        (.error .timeout) := by
  have huse : (zephyrSemaphore zephyr).use s (.take thread deadline ticks) = waited s
      ((zephyr.take s.object (.ticks ticks)).map fun a =>
        (Zephyr.Semaphore.takeResult a.1, { s with object := a.2 })) := by
    show waited s (Zephyr.Semaphore.take zephyr (.ticks ticks) s) = _
    rw [Zephyr.Semaphore.take, Guarded.wait_of_initialized hs, Zephyr.Semaphore.doTake_eq]
  rw [huse]
  apply guarded_reports hs
  · intro r hr
    exact if_pos (eq_of_beq hr)
  · intro r hr hexpired
    rw [eq_of_beq hexpired]
    rfl

variable {posix zephyr}

/-- A step of a semaphore that is initialised on both platforms. -/
theorem semaphore_step (s : Guarded σ × Guarded τ) (op : TimedSemaphoreOp)
    (hs : BothInitialized s)
    (horder : SameOrder (posixSemaphore posix) (zephyrSemaphore zephyr)
      ⟨s, op, pairStep (posixSemaphore posix) (zephyrSemaphore zephyr) s op⟩) :
    BothInitialized (pairStep (posixSemaphore posix) (zephyrSemaphore zephyr) s op).val ∧
      (Alike ((posixSemaphore posix).fate s.1 op) (.error .timeout)
        ((posixSemaphore posix).use s.1 op).1 ((zephyrSemaphore zephyr).use s.2 op).1 ↔
          ¬ SemaphoreDiffers posix s op) := by
  cases op with
  | take thread deadline ticks =>
    obtain ⟨hposix, hreports⟩ := posix_take_reports posix hs.1 thread deadline ticks
    obtain ⟨hzephyr, hzreports⟩ := zephyr_take_reports zephyr hs.2 thread deadline ticks
    obtain ⟨hsame, hfate⟩ := horder
    refine ⟨⟨hposix, hzephyr⟩, ?_⟩
    dsimp only at hsame hfate
    rw [← hsame] at hzreports
    rw [hreports.alike_iff hzreports hfate]
    exact iff_of_true (fun _ => rfl) id
  | give thread => exact guarded_release hs _ _ rfl rfl

end Semaphore

/-! ## Kernels -/

/-- A POSIX mutex that is its owner. -/
def ownedMutex : PosixMutex (Option Nat) where
  mutexDestroy s := (0, s)
  mutexattrInit s := (0, s)
  mutexattrSettype s := (0, s)
  mutexattrDestroy s := (0, s)
  mutexInit _ := (0, none)
  mutexLock
    | none, thread => some (0, some thread)
    | some owner, thread => if owner = thread then some (EDEADLK, some owner) else none
  mutexTimedlock
    | none, thread, _ => some (0, some thread)
    | some owner, thread, _ =>
      some (if owner = thread then EDEADLK else ETIMEDOUT, some owner)
  mutexUnlock owner thread := if owner = some thread then (0, none) else (EPERM, owner)

/-- A Zephyr mutex that is its owner and how often it was locked. -/
def countedMutex : KMutex (Option (Nat × Nat)) where
  init _ := (0, none)
  lock
    | none, thread, _ => some (0, some (thread, 1))
    | some (owner, n), thread, timeout =>
      if owner = thread then some (0, some (owner, n + 1))
      else
        match timeout with
        | .forever => none
        | .ticks m => some (if m = 0 then -Zephyr.EBUSY else -Zephyr.EAGAIN, some (owner, n))
  unlock
    | none, _ => (-Zephyr.EINVAL, none)
    | some (owner, n), thread =>
      if owner = thread then (0, if n = 1 then none else some (owner, n - 1))
      else (-Zephyr.EPERM, some (owner, n))

/-- A POSIX system with one queue. -/
def oneQueue (α : Type) : PosixMq (Fifo α) α where
  mqOpen _ _ maxmsg := ({ result := 3 }, .empty maxmsg.toNat)
  mqSend s _ m := (s.push m).map fun q => ({ result := 0 }, q)
  mqTimedsend s _ m _ :=
    match s.push m with
    | some q => some ({ result := 0 }, q)
    | none => some ({ result := -1, errno := ETIMEDOUT }, s)
  mqReceive s _ _ := s.pop.map fun a => ({ result := 1 }, a.1, a.2)
  mqTimedreceive s _ m _ :=
    match s.pop with
    | some (first, q) => some ({ result := 1 }, first, q)
    | none => some ({ result := -1, errno := ETIMEDOUT }, m, s)
  mqGetattr s _ := ({ result := 0 }, { maxmsg := s.capacity, curmsgs := s.pending.length })
  clockGettime _ := { tvSec := 0, tvNsec := 0 }

theorem oneQueue_ordered (α : Type) : (oneQueue α).Ordered fun s _ => s.pending where
  send s mqd msg a s' h := by
    obtain ⟨q, hpush, heq⟩ := Option.map_eq_some_iff.mp h
    cases heq
    exact (Fifo.push_eq_some.mp hpush).2.2
  timedsend s mqd msg ts a s' h := by
    simp only [oneQueue] at h
    cases hpush : s.push msg with
    | some q =>
      rw [hpush] at h
      cases h
      exact (Fifo.push_eq_some.mp hpush).2.2
    | none =>
      rw [hpush] at h
      cases h
      rfl
  receive s mqd msg a msg' s' h := by
    obtain ⟨q, hpop, heq⟩ := Option.map_eq_some_iff.mp h
    cases heq
    exact (Fifo.pop_eq_some.mp hpop).1
  timedreceive s mqd msg ts a msg' s' h := by
    simp only [oneQueue] at h
    cases hpop : s.pop with
    | some q =>
      rw [hpop] at h
      cases h
      exact (Fifo.pop_eq_some.mp hpop).1
    | none =>
      rw [hpop] at h
      cases h
      rfl

theorem msgq_ordered (α : Type) : (msgq α).Ordered fun s => s.val.pending where
  put s msg timeout r s' h := by
    simp only [msgq] at h
    split at h
    · rename_i q hpush
      cases h
      exact (Fifo.push_eq_some.mp hpush).2.2
    · cases timeout with
      | forever => cases h
      | ticks n =>
        cases h
        unfold Appends
        split <;> rfl
  get s msg timeout r msg' s' h := by
    simp only [msgq] at h
    split at h
    · rename_i first q hpop
      cases h
      exact (Fifo.pop_eq_some.mp hpop).1
    · cases timeout with
      | forever => cases h
      | ticks n =>
        cases h
        unfold Removes
        split <;> rfl

/-- A mutex that no thread holds, initialised on both platforms. -/
def freeMutex : Guarded (Option Nat) × Guarded (Option (Nat × Nat)) :=
  ((Posix.Mutex.init ownedMutex { object := some 9 }).2,
    (Zephyr.Mutex.init countedMutex { object := none }).2)

/-- A semaphore of one unit, initialised on both platforms. -/
def oneUnit : Guarded Nat × Guarded (Nat × Nat) :=
  ((Posix.Semaphore.init countingSem { initCount := 1, countLimit := 1 } { object := 0 }).2,
    (Zephyr.Semaphore.init boundedSem { initCount := 1, countLimit := 1 } { object := (0, 0) }).2)

/-- An empty queue for two messages, initialised on both platforms. -/
def emptyQueue : QueueSystem (Fifo Nat) × Guarded (Msgq Nat) :=
  ((Posix.MessageQueue.init (oneQueue Nat) 2 (.construct [0x2F, 0x71], .empty 0)).2,
    (Zephyr.MessageQueue.init (msgq Nat) 64 2 { object := ⟨.empty 0, by decide⟩ }).2)

theorem emptyQueue_samePending :
    SamePending (fun s _ => s.pending) (fun s => s.val.pending) emptyQueue where
  posix := by decide
  zephyr := rfl
  same := rfl

/-! ## All three -/

/-- **Expired waits.** In a run of an initialised mutex, semaphore or queue whose waits are
granted and expire in the same order on both platforms, every use is reported alike, and an
expired wait as a timeout, if and only if

* no lock expires and POSIX refuses no unlock,
* POSIX refuses no give,
* no send and no receive expires. -/
theorem reportedAlike_iff {σm τm σs τs σq τq α : Type} {pmutex : PosixMutex σm}
    {zmutex : KMutex τm} {psem : PosixSem σs} {zsem : KSem τs} {pqueue : PosixMq σq α}
    {zqueue : KMsgq τq α} {pending : σq → Int → List α} {zpending : τq → List α}
    (hpqueue : pqueue.Ordered pending) (hzqueue : zqueue.Ordered zpending)
    {mutex : Guarded σm × Guarded τm} (hmutex : BothInitialized mutex)
    {sem : Guarded σs × Guarded τs} (hsem : BothInitialized sem)
    {queue : QueueSystem σq × Guarded τq} (hqueue : SamePending pending zpending queue)
    (mutexOps : List MutexOp) (semOps : List TimedSemaphoreOp)
    (queueOps : List (TimedQueueOp α))
    (hmutexOrder : RunInOrder (posixMutex pmutex) (zephyrMutex zmutex) mutex mutexOps)
    (hsemOrder : RunInOrder (posixSemaphore psem) (zephyrSemaphore zsem) sem semOps)
    (hqueueOrder : RunInOrder (posixQueue pqueue) (zephyrQueue zqueue) queue queueOps) :
    (RunAlike (posixMutex pmutex) (zephyrMutex zmutex) (.error .timeout) mutex mutexOps ↔
      RunMeets (posixMutex pmutex) (zephyrMutex zmutex)
        (fun s op => ¬ MutexDiffers pmutex s op) mutex mutexOps) ∧
    (RunAlike (posixSemaphore psem) (zephyrSemaphore zsem) (.error .timeout) sem semOps ↔
      RunMeets (posixSemaphore psem) (zephyrSemaphore zsem)
        (fun s op => ¬ SemaphoreDiffers psem s op) sem semOps) ∧
    (RunAlike (posixQueue pqueue) (zephyrQueue zqueue) (.error .timeout) queue queueOps ↔
      RunMeets (posixQueue pqueue) (zephyrQueue zqueue)
        (fun s op => ¬ QueueDiffers pqueue s op) queue queueOps) :=
  ⟨runAlike_iff mutex_step hmutex mutexOps hmutexOrder,
    runAlike_iff semaphore_step hsem semOps hsemOrder,
    runAlike_iff (queue_step hpqueue hzqueue) hqueue queueOps hqueueOrder⟩

/-- Two threads; the second one waits in vain for the unit of the semaphore. -/
theorem reportedAlike_twoThreads :
    RunAlike (posixMutex ownedMutex) (zephyrMutex countedMutex) (.error .timeout) freeMutex
        [.lock 0 ⟨1, 0⟩ 5, .unlock 0, .lock 1 ⟨2, 0⟩ 5, .unlock 1] ∧
      RunAlike (posixSemaphore countingSem) (zephyrSemaphore boundedSem) (.error .timeout)
        oneUnit [.take 0 ⟨1, 0⟩ 5, .take 1 ⟨2, 0⟩ 5, .give 0, .take 1 ⟨3, 0⟩ 5] ∧
      RunAlike (posixQueue (oneQueue Nat)) (zephyrQueue (msgq Nat)) (.error .timeout) emptyQueue
        [.send 0 7 100 5, .send 1 8 100 5, .receive 1 0 100 5, .receive 0 0 100 5] := by
  have hfree : BothInitialized freeMutex := ⟨rfl, rfl⟩
  have hunit : BothInitialized oneUnit := ⟨rfl, rfl⟩
  have hlocks : RunInOrder (posixMutex ownedMutex) (zephyrMutex countedMutex) freeMutex
      [.lock 0 ⟨1, 0⟩ 5, .unlock 0, .lock 1 ⟨2, 0⟩ 5, .unlock 1] := by decide
  have htakes : RunInOrder (posixSemaphore countingSem) (zephyrSemaphore boundedSem) oneUnit
      [.take 0 ⟨1, 0⟩ 5, .take 1 ⟨2, 0⟩ 5, .give 0, .take 1 ⟨3, 0⟩ 5] := by decide
  have hmessages : RunInOrder (posixQueue (oneQueue Nat)) (zephyrQueue (msgq Nat)) emptyQueue
      [.send 0 7 100 5, .send 1 8 100 5, .receive 1 0 100 5, .receive 0 0 100 5] := by decide
  obtain ⟨hmutex, hsem, hqueue⟩ := reportedAlike_iff (oneQueue_ordered Nat) (msgq_ordered Nat)
    hfree hunit emptyQueue_samePending _ _ _ hlocks htakes hmessages
  exact ⟨hmutex.mpr (by decide), hsem.mpr (by decide), hqueue.mpr (by decide)⟩

/-- A mutex that another thread holds, and an empty queue: the waits expire on both platforms,
which POSIX alone calls a timeout. -/
theorem not_runAlike_of_expired :
    RunInOrder (posixMutex ownedMutex) (zephyrMutex countedMutex) freeMutex
        [.lock 0 ⟨1, 0⟩ 5, .lock 1 ⟨2, 0⟩ 5] ∧
      ¬ RunAlike (posixMutex ownedMutex) (zephyrMutex countedMutex) (.error .timeout) freeMutex
        [.lock 0 ⟨1, 0⟩ 5, .lock 1 ⟨2, 0⟩ 5] ∧
      RunInOrder (posixQueue (oneQueue Nat)) (zephyrQueue (msgq Nat)) emptyQueue
        [.receive 0 0 100 5] ∧
      ¬ RunAlike (posixQueue (oneQueue Nat)) (zephyrQueue (msgq Nat)) (.error .timeout) emptyQueue
        [.receive 0 0 100 5] := by
  refine ⟨by decide, fun hmutex => ?_, by decide, fun hqueue => ?_⟩
  · have hlate := hmutex _ (List.mem_of_getElem? (i := 1) rfl) _ List.mem_cons_self
    exact absurd hlate.1 (by decide)
  · have hlate := hqueue _ List.mem_cons_self _ List.mem_cons_self
    exact absurd hlate.1 (by decide)

end EnoceanCore.PlatformCore
