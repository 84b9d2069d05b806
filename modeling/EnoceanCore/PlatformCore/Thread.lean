import EnoceanCore.Lib.Prog

/-!
# Threads on POSIX

`IThread::create` and `Thread::os_create` with a parameter, as programs over the pthread
calls they make. A thread object that is active refuses to be created again and makes no
call (`create_of_active`); if every call succeeds, an inactive one starts one thread and is
active afterwards (`wp_create`).

The name, the stack information and the priority kept by `IThread` are left out, no function
modelled here reads them.
-/

namespace EnoceanCore.PlatformCore

open Lib

/-! ## Errors -/

inductive ThreadError where
  | invalidParameter
  | insufficientMemory
  | resourceLimitExceeded
  | permissionDenied
  | threadNotFound
  | alreadyCreated
  | deadlock
  | invalidThread
  | deleted
  | callerError
  | invalidStack
  | invalidPriority
  | creationFailed
  | unknown
  deriving DecidableEq, Repr

abbrev EPERM : Int := 1
abbrev ESRCH : Int := 3
abbrev EAGAIN : Int := 11
abbrev ENOMEM : Int := 12
abbrev EINVAL : Int := 22
abbrev EDEADLK : Int := 35
abbrev EALREADY : Int := 114

def errnoToThreadError (errorCode : Int) : ThreadError :=
  if errorCode = EINVAL then .invalidParameter
  else if errorCode = ENOMEM then .insufficientMemory
  else if errorCode = EAGAIN then .resourceLimitExceeded
  else if errorCode = EPERM then .permissionDenied
  else if errorCode = ESRCH then .threadNotFound
  else if errorCode = EDEADLK then .deadlock
  else if errorCode = EALREADY then .alreadyCreated
  else .unknown

/-! ## Calls -/

inductive SchedPolicy where
  | other
  | fifo
  deriving DecidableEq, Repr

inductive InheritSched where
  | inherit
  | explicit
  deriving DecidableEq, Repr

/-- A pthread or scheduler call. A thread is started with its entry and its parameter. -/
inductive PthreadCall where
  | attrInit
  | attrDestroy
  | attrSetstacksize (size : UInt64)
  | attrSetschedpolicy (policy : SchedPolicy)
  | attrSetschedparam (priority : Int)
  | attrSetinheritsched (sched : InheritSched)
  | schedGetPriorityMin (policy : SchedPolicy)
  | schedGetPriorityMax (policy : SchedPolicy)
  | create (entry : Nat) (param : UInt64)
  deriving DecidableEq, Repr

/-- The answer means success: no error code, or a priority. -/
def PthreadCall.Succeeds : PthreadCall → Int → Prop
  | schedGetPriorityMin _, r => r ≠ -1
  | schedGetPriorityMax _, r => r ≠ -1
  | _, r => r = 0

/-! ## Creation -/

/-- A thread function, by the number of its arguments; `one` is the POSIX type. -/
inductive ThreadFunctionVariant where
  | one (entry : Nat)
  | two (entry : Nat)
  | three (entry : Nat)
  deriving DecidableEq, Repr

inductive ThreadParamVariant where
  | param1 (param : UInt64)
  | param2 (param1 param2 : UInt64)
  | param3 (param1 param2 param3 : UInt64)
  | value (value : UInt64)
  deriving DecidableEq, Repr

/-- The state of a thread object. -/
structure Thread where
  active : Bool := false
  deriving DecidableEq, Repr

/-- The test `guard && (call(...) == 0)`. -/
def andZero (guard : Bool) (c : PthreadCall) : Prog PthreadCall Bool :=
  if guard then do
    let r ← .perform c
    return r == 0
  else return false

def configurePriority (priority : Int) : Prog PthreadCall Int := do
  if priority < 0 then
    let _ ← .perform (.attrSetinheritsched .inherit)
    return 0
  let minPriority ← .perform (.schedGetPriorityMin .fifo)
  let maxPriority ← .perform (.schedGetPriorityMax .fifo)
  if minPriority = -1 ∨ maxPriority = -1 then
    let _ ← .perform (.attrSetinheritsched .inherit)
    return -EINVAL
  let clamped := if priority < minPriority then minPriority
    else if maxPriority < priority then maxPriority else priority
  let policyOk ← andZero true (.attrSetschedpolicy .fifo)
  let paramOk ← andZero policyOk (.attrSetschedparam clamped)
  let explicitOk ← andZero paramOk (.attrSetinheritsched .explicit)
  if explicitOk then return 0
  let _ ← .perform (.attrSetschedpolicy .other)
  let _ ← .perform (.attrSetinheritsched .inherit)
  return -EPERM

/-- The least stack size of the platform, `PTHREAD_STACK_MIN` unless that is zero. -/
def minimumStackSize (pthreadStackMin : UInt64) : UInt64 :=
  if pthreadStackMin = 0 then 16384 else pthreadStackMin

def sanitizeStackSize (pthreadStackMin requested : UInt64) : UInt64 :=
  let minStack := minimumStackSize pthreadStackMin
  if requested = 0 then minStack
  else
    let wordAlign : UInt64 := 7
    let aligned := (requested + wordAlign) &&& ~~~wordAlign
    max aligned minStack

/-- The lambda `attempt_create` of `os_create`. -/
def attemptCreate (threadFunction : ThreadFunctionVariant) (stackSize : UInt64) (priority : Int)
    (param : UInt64) (forceInherit : Bool) : Prog PthreadCall Int := do
  let initErr ← .perform .attrInit
  if initErr ≠ 0 then return initErr
  let stackErr ← .perform (.attrSetstacksize stackSize)
  if stackErr ≠ 0 then
    let _ ← .perform .attrDestroy
    return stackErr
  let _ ← if forceInherit then do
      let _ ← .perform (.attrSetschedpolicy .other)
      .perform (.attrSetinheritsched .inherit)
    else configurePriority priority
  match threadFunction with
  | .one entry =>
    let err ← .perform (.create entry param)
    let _ ← .perform .attrDestroy
    return err
  | _ =>
    let _ ← .perform .attrDestroy
    return EINVAL

/-- The pointer a parameter is passed as, if it is a single one. -/
def threadParamToPointer : ThreadParamVariant → Option UInt64
  | .value value => some value
  | .param1 param => some param
  | _ => none

def osCreate (pthreadStackMin : UInt64) (thread : Thread)
    (threadFunction : ThreadFunctionVariant) (stackSize : UInt64) (priority : Int)
    (params : ThreadParamVariant) : Prog PthreadCall (Except ThreadError Unit × Thread) := do
  let stackSize := sanitizeStackSize pthreadStackMin stackSize
  match threadParamToPointer params with
  | none => return (.error .invalidParameter, thread)
  | some param =>
    let err ← attemptCreate threadFunction stackSize priority param false
    let err ← if err = EPERM ∧ priority ≥ 0 then
        attemptCreate threadFunction stackSize priority param true
      else pure err
    if err = 0 then return (.ok (), { thread with active := true })
    return (.error (errnoToThreadError err), thread)

def create (pthreadStackMin : UInt64) (thread : Thread) (threadFunction : ThreadFunctionVariant)
    (stackSize : UInt64) (priority : Int) (params : ThreadParamVariant) :
    Prog PthreadCall (Except ThreadError Unit × Thread) := do
  if thread.active then return (.error .alreadyCreated, thread)
  let (result, thread) ← osCreate pthreadStackMin thread threadFunction stackSize priority params
  match result with
  | .ok _ => return (result, { thread with active := true })
  | .error _ => return (result, thread)

theorem create_of_active (pthreadStackMin : UInt64) {thread : Thread} (h : thread.active = true)
    (threadFunction : ThreadFunctionVariant) (stackSize : UInt64) (priority : Int)
    (params : ThreadParamVariant) :
    create pthreadStackMin thread threadFunction stackSize priority params =
      pure (.error .alreadyCreated, thread) := by
  rw [create, if_pos h]

/-! ## Creation when every call succeeds -/

/-- The call starts no thread. -/
def PthreadCall.Passive : PthreadCall → Prop
  | create .. => False
  | _ => True

/-- The call only reads or sets how threads are scheduled. -/
def PthreadCall.Scheduling : PthreadCall → Prop
  | attrSetschedpolicy _ => True
  | attrSetschedparam _ => True
  | attrSetinheritsched _ => True
  | schedGetPriorityMin _ => True
  | schedGetPriorityMax _ => True
  | _ => False

theorem PthreadCall.Scheduling.passive {c : PthreadCall} (h : c.Scheduling) : c.Passive := by
  cases c with
  | create entry param => exact h
  | _ => trivial

theorem configurePriority_calls (priority : Int) :
    (configurePriority priority).Calls PthreadCall.Scheduling := by
  have hand : ∀ (b : Bool) (c : PthreadCall), c.Scheduling →
      (andZero b c).Calls PthreadCall.Scheduling := fun b c hc =>
    Prog.calls_ite ((Prog.calls_perform hc).bind fun _ => Prog.calls_pure _) (Prog.calls_pure _)
  have hinherit : ∀ r : Int, (do
      let _ ← .perform (.attrSetinheritsched .inherit)
      return r : Prog PthreadCall Int).Calls PthreadCall.Scheduling :=
    fun r => (Prog.calls_perform trivial).bind fun _ => Prog.calls_pure _
  unfold configurePriority
  apply Prog.calls_ite (hinherit _)
  refine (Prog.calls_perform trivial).bind fun _ => (Prog.calls_perform trivial).bind fun _ => ?_
  apply Prog.calls_ite (hinherit _)
  refine (hand _ (.attrSetschedpolicy .fifo) trivial).bind fun _ => ?_
  refine (hand _ (.attrSetschedparam _) trivial).bind fun _ => ?_
  refine (hand _ (.attrSetinheritsched _) trivial).bind fun _ => ?_
  exact Prog.calls_ite (Prog.calls_pure _) ((Prog.calls_perform trivial).bind fun _ => hinherit _)

section Success

variable {ω : Type} {world : ω → PthreadCall → Int → ω} {started : ω → ω}

/-- A ghost state that notices the threads started and nothing else. -/
structure CountsStarts (world : ω → PthreadCall → Int → ω) (started : ω → ω) : Prop where
  create : ∀ w entry param, world w (.create entry param) 0 = started w
  other : ∀ w c r, c.Passive → world w c r = w

theorem wp_attemptCreate (hw : CountsStarts world started) (entry : Nat) (stackSize : UInt64)
    (priority : Int) (param : UInt64) (w : ω) :
    Prog.wp PthreadCall.Succeeds world
      (attemptCreate (.one entry) stackSize priority param false)
      (fun err w' => err = 0 ∧ w' = started w) w := by
  have hfinish : Prog.wp PthreadCall.Succeeds world (do
      let err ← .perform (.create entry param)
      let _ ← .perform .attrDestroy
      return err) (fun err w' => err = 0 ∧ w' = started w) w := by
    simp only [Prog.wp_bind, Prog.wp_perform, Prog.wp_pure]
    rintro err (rfl : err = 0) r -
    exact ⟨rfl, by rw [hw.create, hw.other _ .attrDestroy r trivial]⟩
  unfold attemptCreate
  simp only [Prog.wp_bind, Prog.wp_perform]
  rintro r (rfl : r = 0)
  rw [if_neg (by decide), hw.other _ .attrInit 0 trivial]
  simp only [Prog.wp_bind, Prog.wp_perform]
  rintro r (rfl : r = 0)
  rw [if_neg (by decide), hw.other _ (.attrSetstacksize _) 0 trivial]
  rw [if_neg (by decide), Prog.wp_bind]
  apply Prog.wp_of_calls (configurePriority_calls priority)
    (fun c r hc => hw.other w c r hc.passive)
  exact fun _ => hfinish

/-- An inactive thread object starts its thread and is active. -/
theorem wp_create (hw : CountsStarts world started) (pthreadStackMin : UInt64) {thread : Thread}
    (h : thread.active = false) (entry : Nat) (stackSize : UInt64) (priority : Int)
    (param : UInt64) (w : ω) :
    Prog.wp PthreadCall.Succeeds world
      (create pthreadStackMin thread (.one entry) stackSize priority (.param1 param))
      (fun r w' => r.1 = .ok () ∧ r.2.active = true ∧ w' = started w) w := by
  rw [create, if_neg (by simp [h]), Prog.wp_bind, osCreate]
  simp only [threadParamToPointer, Prog.wp_bind]
  apply Prog.wp_mono (wp_attemptCreate hw entry _ priority param w)
  rintro err w' ⟨rfl, rfl⟩
  rw [if_neg fun h => absurd h.1 (by decide), Prog.wp_bind, Prog.wp_pure, if_pos rfl,
    Prog.wp_pure]
  exact ⟨rfl, rfl, rfl⟩

end Success

end EnoceanCore.PlatformCore
