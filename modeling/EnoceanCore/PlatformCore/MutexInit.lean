import EnoceanCore.PlatformCore.MutexLocker

/-!
# `init` of a mutex, step by step

`IMutex::init` looks at `initialized_`, and `do_init` of both platforms looks at it once more,
calls the kernel and sets it. Other threads may move between these steps; without them the steps
do what `Mutex.init` does in one piece (`run_initTask`).

As long as `initialized_` is not set, no locker touches the mutex. So one thread that initialises
it is not noticed by the lockers (`keeps_initTask`). Nothing stops a second thread that has looked
before the flag was set (`reaches_initTask`): it initialises the mutex again, and nobody owns it
then, whoever has locked it in between (`unowned_reinit`).
-/

namespace EnoceanCore.PlatformCore

open Lib

/-! ## `IMutex` -/

namespace Guarded

variable {σ ε α : Type}

def isInitialized (m : Guarded σ) : Bool × Guarded σ := (m.initialized, m)

def setInitialized (state : Bool) (m : Guarded σ) : Unit × Guarded σ :=
  ((), { m with initialized := state })

/-- A call of the kernel on the object. -/
def onObject (call : σ → α × σ) (m : Guarded σ) : α × Guarded σ :=
  ((call m.object).1, { m with object := (call m.object).2 })

/-- What `IMutex::init` does behind `do_init`. -/
def initEnd : Except ε Unit → Task (Guarded σ) (Except ε Unit)
  | .ok _ => do
    .call (setInitialized true)
    return .ok ()
  | .error e => return .error e

/-- The steps of `IMutex::init`, around those of `do_init`. -/
def initTask (alreadyInitialized : ε) (doInit : Task (Guarded σ) (Except ε Unit)) :
    Task (Guarded σ) (Except ε Unit) := do
  if !(← .call isInitialized) then doInit >>= initEnd
  else return .error alreadyInitialized

theorem run_initTask {e : ε} {doInitTask : Task (Guarded σ) (Except ε Unit)}
    {doInit : Guarded σ → Except ε Unit × Guarded σ}
    (h : ∀ m, doInitTask.run m = doInit m) (m : Guarded σ) :
    (initTask e doInitTask).run m = init e doInit m := by
  unfold initTask init
  rw [Task.run_bind, Task.run_call]
  show Task.run (if (!m.initialized) = true then _ else _) m = _
  by_cases hinit : (!m.initialized) = true
  · rw [if_pos hinit, if_pos hinit, Task.run_bind, h]
    cases hresult : doInit m with
    | mk result m' => cases result <;> rfl
  · rw [if_neg hinit, if_neg hinit]
    rfl

section Keeps

variable {L : ExclusiveLock (Guarded σ)} (hL : ∀ m, L.ready m = m.initialized) {o : σ}

include hL

/-- As long as the flag is not set, the others do nothing. -/
theorem keeps_call_bind {β : Type} {call : Guarded σ → α × Guarded σ}
    {next : α → Task (Guarded σ) β} {Q : β → Guarded σ → Prop}
    (hfree : L.Free (call ⟨o, false⟩).2)
    (hnext : (next (call ⟨o, false⟩).1).Keeps L Q (call ⟨o, false⟩).2) :
    (Task.call call >>= next).Keeps L Q ⟨o, false⟩ := by
  have hnot : L.ready ⟨o, false⟩ ≠ true := by
    rw [hL]
    exact Bool.false_ne_true
  intro m hm
  rcases hm with rfl | ⟨hready, -⟩
  · exact ⟨⟨fun _ => hfree, fun t hheld => absurd (L.ready_of_held hheld) hnot,
      fun hready => absurd hready hnot⟩, hnext⟩
  · exact absurd hready hnot

theorem keeps_onObject_bind (hfree : ∀ o, L.Free ⟨o, false⟩) {β : Type} {call : σ → α × σ}
    {next : α → Task (Guarded σ) β} {Q : β → Guarded σ → Prop}
    (hnext : (next (call o).1).Keeps L Q ⟨(call o).2, false⟩) :
    (Task.call (onObject call) >>= next).Keeps L Q ⟨o, false⟩ :=
  keeps_call_bind hL (hfree _) hnext

/-- What the lockers can see of a `do_init` that has ended. -/
def Finished (result : Except ε Unit) (m : Guarded σ) : Prop :=
  match result with
  | .ok _ => m.initialized = true
  | .error _ => True

/-- The last step of `do_init`. -/
theorem keeps_setInitialized (hfree : L.Free ⟨o, true⟩) :
    (do
      .call (setInitialized true)
      return .ok () : Task (Guarded σ) (Except ε Unit)).Keeps L Finished ⟨o, false⟩ :=
  keeps_call_bind hL hfree fun m hm => (hL m).symm.trans (hm.ready (hL _))

/-- One thread at `init` is not noticed by the lockers. -/
theorem keeps_initTask {e : ε} {doInit : Task (Guarded σ) (Except ε Unit)}
    (h : ∀ o, doInit.Keeps L Finished ⟨o, false⟩) (m : Guarded σ) :
    (initTask e doInit).Keeps L (fun _ _ => True) m := by
  refine fun m' _ => ⟨ExclusiveLock.unnoticed_refl m', ?_⟩
  obtain ⟨o, initialized⟩ := m'
  cases initialized with
  | true => exact fun _ _ => trivial
  | false =>
    show Task.Keeps L (doInit >>= _) _ ⟨o, false⟩
    refine Task.Keeps.bind (h o) fun result m hdone => ?_
    cases result with
    | error e => exact fun _ _ => trivial
    | ok _ =>
      intro m' hm'
      have hset : m'.initialized = true := by
        rw [← hL]
        exact hm'.ready ((hL m).trans hdone)
      have hsame : (setInitialized true m').2 = m' := by
        rw [setInitialized, ← hset]
      refine ⟨?_, fun _ _ => trivial⟩
      show L.Unnoticed m' (setInitialized true m').2
      rw [hsame]
      exact ExclusiveLock.unnoticed_refl m'

end Keeps

/-- A failed `do_init`. -/
theorem keeps_error (L : ExclusiveLock (Guarded σ)) (e : ε) (m : Guarded σ) :
    (pure (.error e) : Task (Guarded σ) (Except ε Unit)).Keeps L Finished m :=
  fun _ _ => trivial

end Guarded

/-! ## The POSIX mutex -/

namespace Posix.Mutex

variable {σ : Type}

section Steps

variable (kernel : PosixMutex σ)

/-- The steps of `initMutex`. -/
def initMutexTask : Task (Guarded σ) MutexResult := do
  let initRc ← .call (Guarded.onObject kernel.mutexInit)
  let attrDestroyRc ← .call (Guarded.onObject kernel.mutexattrDestroy)
  if attrDestroyRc ≠ 0 then
    if initRc = 0 then
      let _ ← .call (Guarded.onObject kernel.mutexDestroy)
      return .error (errnoToMutexError attrDestroyRc)
    else return .error (errnoToMutexError attrDestroyRc)
  else if initRc ≠ 0 then return .error (errnoToMutexError initRc)
  else do
    .call (Guarded.setInitialized true)
    return .ok ()

/-- The steps of `initAttr`. -/
def initAttrTask : Task (Guarded σ) MutexResult := do
  let attrInitRc ← .call (Guarded.onObject kernel.mutexattrInit)
  if attrInitRc ≠ 0 then return .error (errnoToMutexError attrInitRc)
  else
    let setTypeRc ← .call (Guarded.onObject kernel.mutexattrSettype)
    if setTypeRc ≠ 0 then
      let _ ← .call (Guarded.onObject kernel.mutexattrDestroy)
      return .error (errnoToMutexError setTypeRc)
    else initMutexTask kernel

/-- The steps of `do_init`. -/
def doInitTask : Task (Guarded σ) MutexResult := do
  if ← .call Guarded.isInitialized then
    let destroyRc ← .call (Guarded.onObject kernel.mutexDestroy)
    if destroyRc ≠ 0 then return .error (errnoToMutexError destroyRc)
    else do
      .call (Guarded.setInitialized false)
      initAttrTask kernel
  else initAttrTask kernel

def initTask : Task (Guarded σ) MutexResult :=
  Guarded.initTask .alreadyInitialized (doInitTask kernel)

theorem run_initMutexTask (m : Guarded σ) :
    (initMutexTask kernel).run m = initMutex kernel m := by
  unfold initMutexTask
  rw [Task.run_bind, Task.run_call, Task.run_bind, Task.run_call, Task.run_ite, Task.run_ite,
    Task.run_ite]
  cases hinit : kernel.mutexInit m.object with
  | mk initRc mtx =>
    cases hdestroy : kernel.mutexattrDestroy mtx with
    | mk attrDestroyRc mtx' =>
      simp only [Guarded.onObject, initMutex, hinit, hdestroy]
      split
      · split <;> rfl
      · rfl

theorem run_initAttrTask (m : Guarded σ) : (initAttrTask kernel).run m = initAttr kernel m := by
  unfold initAttrTask
  rw [Task.run_bind, Task.run_call, Task.run_ite]
  cases hinit : kernel.mutexattrInit m.object with
  | mk attrInitRc mtx =>
    simp only [Guarded.onObject, initAttr, hinit]
    split
    · rfl
    · rw [Task.run_bind, Task.run_call, Task.run_ite, run_initMutexTask]
      rfl

theorem run_doInitTask (m : Guarded σ) : (doInitTask kernel).run m = doInit kernel m := by
  unfold doInitTask doInit
  rw [Task.run_bind, Task.run_call, Task.run_ite]
  show (if m.initialized = true then _ else _) = _
  split
  · rw [Task.run_bind, Task.run_call, Task.run_ite, Task.run_bind, Task.run_call,
      run_initAttrTask]
    rfl
  · exact run_initAttrTask kernel m

/-- Without other threads the steps of `init` do what it does in one piece. -/
theorem run_initTask (m : Guarded σ) : (initTask kernel).run m = init kernel m :=
  Guarded.run_initTask (run_doInitTask kernel) m

end Steps

variable (kernel : ErrorcheckMutex σ) (absTimeout : Option Timespec)

theorem free_of_not_initialized (o : σ) :
    (MutexLocker.exclusive kernel absTimeout).Free ⟨o, false⟩ :=
  fun hinit => absurd hinit Bool.false_ne_true

theorem keeps_initMutexTask (o : σ) :
    (initMutexTask kernel.toPosixMutex).Keeps (MutexLocker.exclusive kernel absTimeout)
      Guarded.Finished ⟨o, false⟩ := by
  have hfree := free_of_not_initialized kernel absTimeout
  refine Guarded.keeps_onObject_bind (fun _ => rfl) hfree ?_
  refine Guarded.keeps_onObject_bind (fun _ => rfl) hfree ?_
  split
  · split
    · exact Guarded.keeps_onObject_bind (fun _ => rfl) hfree (Guarded.keeps_error _ _ _)
    · exact Guarded.keeps_error _ _ _
  · split
    · exact Guarded.keeps_error _ _ _
    · rename_i hzero
      refine Guarded.keeps_setInitialized (fun _ => rfl) fun _ => ?_
      exact (kernel.owner_attrDestroy _).trans (kernel.owner_init _ (not_not.mp hzero))

theorem keeps_doInitTask (o : σ) :
    (doInitTask kernel.toPosixMutex).Keeps (MutexLocker.exclusive kernel absTimeout)
      Guarded.Finished ⟨o, false⟩ := by
  have hfree := free_of_not_initialized kernel absTimeout
  refine Guarded.keeps_call_bind (fun _ => rfl) (hfree o) ?_
  refine Guarded.keeps_onObject_bind (fun _ => rfl) hfree ?_
  split
  · exact Guarded.keeps_error _ _ _
  · refine Guarded.keeps_onObject_bind (fun _ => rfl) hfree ?_
    split
    · exact Guarded.keeps_onObject_bind (fun _ => rfl) hfree (Guarded.keeps_error _ _ _)
    · exact keeps_initMutexTask kernel absTimeout _

theorem keeps_initTask (m : Guarded σ) :
    (initTask kernel.toPosixMutex).Keeps (MutexLocker.exclusive kernel absTimeout)
      (fun _ _ => True) m :=
  Guarded.keeps_initTask (fun _ => rfl) (keeps_doInitTask kernel absTimeout) m

/-- A thread that has looked twice before the flag was set initialises the mutex. -/
theorem reaches_initTask (kernel : PosixMutex σ) (o : σ) :
    (initTask kernel).Reaches ⟨o, false⟩ (initAttrTask kernel >>= Guarded.initEnd) ⟨o, false⟩ :=
  .step (.step (.here _ _))

end Posix.Mutex

/-- A kernel on which nothing fails and a mutex without an owner is locked at once. -/
structure ErrorcheckMutex.Willing {σ : Type} (kernel : ErrorcheckMutex σ) : Prop where
  attrInit : ∀ m, (kernel.mutexattrInit m).1 = 0
  attrSettype : ∀ m, (kernel.mutexattrSettype m).1 = 0
  attrDestroy : ∀ m, (kernel.mutexattrDestroy m).1 = 0
  init : ∀ m, (kernel.mutexInit m).1 = 0
  lock : ∀ m t, kernel.owner m = none → ∃ m', kernel.mutexLock m t = some (0, m')

namespace ErrorcheckMutex.Willing

open Posix

variable {σ : Type} {kernel : ErrorcheckMutex σ} (h : kernel.Willing)

include h

theorem initAttr_eq (m : Guarded σ) :
    ∃ o, Mutex.initAttr kernel.toPosixMutex m = (.ok (), ⟨o, true⟩) ∧ kernel.owner o = none := by
  let o := (kernel.mutexattrSettype (kernel.mutexattrInit m.object).2).2
  refine ⟨(kernel.mutexattrDestroy (kernel.mutexInit o).2).2, ?_, ?_⟩
  · rw [Mutex.initAttr]
    dsimp only
    rw [if_neg (not_not.mpr (h.attrInit _)), if_neg (not_not.mpr (h.attrSettype _)),
      Mutex.initMutex]
    dsimp only
    rw [if_neg (not_not.mpr (h.attrDestroy _)), if_neg (not_not.mpr (h.init _))]
  · rw [kernel.owner_attrDestroy]
    exact kernel.owner_init _ (h.init _)

/-- A mutex that is initialised once more is owned by nobody. -/
theorem unowned_reinit (m : Guarded σ) :
    let m' := ((Mutex.initAttrTask kernel.toPosixMutex >>= Guarded.initEnd).run m).2
    m'.initialized = true ∧ kernel.owner m'.object = none := by
  obtain ⟨o, hrun, howner⟩ := h.initAttr_eq m
  dsimp only
  rw [Task.run_bind, Mutex.run_initAttrTask, hrun]
  exact ⟨rfl, howner⟩

theorem exists_lock {m : Guarded σ} (hm : kernel.owner m.object = none) (t : Nat) :
    ∃ m', MutexLocker.lock kernel none m t = some (true, m') := by
  obtain ⟨o, ho⟩ := h.lock m.object t hm
  refine ⟨{ m with object := o }, ?_⟩
  rw [MutexLocker.lock, lockerOf, Mutex.doLock_eq, Mutex.lockCall, ho]
  rfl

end ErrorcheckMutex.Willing

theorem Posix.willing_errorcheckMutex : Posix.errorcheckMutex.Willing where
  attrInit _ := rfl
  attrSettype _ := rfl
  attrDestroy _ := rfl
  init _ := rfl
  lock m t h := ⟨some t, by rw [show m = none from h]; rfl⟩

/-! ## The Zephyr mutex -/

namespace Zephyr.Mutex

variable {τ : Type}

/-- The steps of `do_init` from `k_mutex_init` on. -/
def initObject (kernel : KMutex τ) : Task (Guarded τ) MutexResult := do
  let result ← .call (Guarded.onObject kernel.init)
  if result ≠ 0 then return .error (errnoToMutexError (-result))
  else do
    .call (Guarded.setInitialized true)
    return .ok ()

/-- The steps of `do_init`. -/
def doInitTask (kernel : KMutex τ) : Task (Guarded τ) MutexResult := do
  if ← .call Guarded.isInitialized then return .error .alreadyInitialized
  else initObject kernel

def initTask (kernel : KMutex τ) : Task (Guarded τ) MutexResult :=
  Guarded.initTask .alreadyInitialized (doInitTask kernel)

theorem run_doInitTask (kernel : KMutex τ) (m : Guarded τ) :
    (doInitTask kernel).run m = doInit kernel m := by
  unfold doInitTask doInit
  rw [Task.run_bind, Task.run_call, Task.run_ite]
  show (if m.initialized = true then _ else _) = _
  split
  · rfl
  · rw [initObject, Task.run_bind, Task.run_call, Task.run_ite]
    rfl

/-- Without other threads the steps of `init` do what it does in one piece. -/
theorem run_initTask (kernel : KMutex τ) (m : Guarded τ) :
    (initTask kernel).run m = init kernel m :=
  Guarded.run_initTask (run_doInitTask kernel) m

variable (kernel : RecursiveMutex τ) (timeout : KTimeout)

theorem keeps_doInitTask (o : τ) :
    (doInitTask kernel.toKMutex).Keeps (MutexLocker.exclusive kernel timeout)
      Guarded.Finished ⟨o, false⟩ := by
  have hfree : ∀ o, (MutexLocker.exclusive kernel timeout).Free ⟨o, false⟩ :=
    fun _ hinit => absurd hinit Bool.false_ne_true
  refine Guarded.keeps_call_bind (fun _ => rfl) (hfree o) ?_
  refine Guarded.keeps_onObject_bind (fun _ => rfl) hfree ?_
  split
  · exact Guarded.keeps_error _ _ _
  · rename_i hzero
    exact Guarded.keeps_setInitialized (fun _ => rfl) fun _ =>
      kernel.owner_init _ (not_not.mp hzero)

theorem keeps_initTask (m : Guarded τ) :
    (initTask kernel.toKMutex).Keeps (MutexLocker.exclusive kernel timeout)
      (fun _ _ => True) m :=
  Guarded.keeps_initTask (fun _ => rfl) (keeps_doInitTask kernel timeout) m

/-- A thread that has looked twice before the flag was set initialises the mutex. -/
theorem reaches_initTask (kernel : KMutex τ) (o : τ) :
    (initTask kernel).Reaches ⟨o, false⟩ (initObject kernel >>= Guarded.initEnd) ⟨o, false⟩ :=
  .step (.step (.here _ _))

end Zephyr.Mutex

/-- A kernel on which nothing fails and a mutex without an owner is locked at once. -/
structure RecursiveMutex.Willing {τ : Type} (kernel : RecursiveMutex τ) : Prop where
  init : ∀ m, (kernel.init m).1 = 0
  lock : ∀ m t, kernel.owner m = none → ∃ m', kernel.lock m t .forever = some (0, m')

namespace RecursiveMutex.Willing

open Zephyr

variable {τ : Type} {kernel : RecursiveMutex τ} (h : kernel.Willing)

include h

/-- A mutex that is initialised once more is owned by nobody. -/
theorem unowned_reinit (m : Guarded τ) :
    let m' := ((Mutex.initObject kernel.toKMutex >>= Guarded.initEnd).run m).2
    m'.initialized = true ∧ kernel.owner m'.object = none := by
  have hzero : ¬ (Guarded.onObject kernel.init m).1 ≠ 0 := not_not.mpr (h.init m.object)
  dsimp only
  rw [Task.run_bind, Mutex.initObject, Task.run_bind, Task.run_call, Task.run_ite, if_neg hzero]
  exact ⟨rfl, kernel.owner_init _ (h.init _)⟩

theorem exists_lock {m : Guarded τ} (hm : kernel.owner m.object = none) (t : Nat) :
    ∃ m', MutexLocker.lock kernel .forever m t = some (true, m') := by
  obtain ⟨o, ho⟩ := h.lock m.object t hm
  refine ⟨{ m with object := o }, ?_⟩
  rw [MutexLocker.lock, lockerOf, Mutex.doLock_eq, ho]
  rfl

end RecursiveMutex.Willing

theorem Zephyr.willing_recursiveMutex : Zephyr.recursiveMutex.Willing where
  init _ := rfl
  lock m t h := ⟨some (t, 1), by rw [show m = none from h]; rfl⟩

end EnoceanCore.PlatformCore
