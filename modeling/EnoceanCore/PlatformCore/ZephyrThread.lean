import EnoceanCore.PlatformCore.ThreadLife

/-!
# The life of a thread object on Zephyr

`Thread` of `zephyr_core`, over the kernel's `k_thread_create` and `k_thread_join`, which answer in
any way. The object contains the memory the kernel keeps the thread in, so it must not start
another thread before the first one was joined, and `k_thread_join` must not be given a null
pointer.

Neither ever happens (`object_reused_after_join`). The account is that of a POSIX object
(`Accounted`).
-/

namespace EnoceanCore.PlatformCore.Zephyr

open Lib

/-! ## Calls -/

/-- `ThreadStackInfo` -/
structure StackInfo where
  stackSize : UInt64
  stackPointer : UInt64
  deriving DecidableEq, Repr

/-- A call of the kernel. It is answered by a thread, which is a null pointer if there is none, or
by an error code. -/
inductive KThreadCall where
  | create (stackInfo : StackInfo) (entry : Nat) (p1 p2 p3 : UInt64) (priority : Int)
  | join (threadId : Int)
  deriving DecidableEq, Repr

def errnoToThreadError (errorCode : Int) : ThreadError :=
  if errorCode = EINVAL then .invalidParameter
  else if errorCode = EAGAIN then .resourceLimitExceeded
  else if errorCode = ESRCH then .threadNotFound
  else if errorCode = EALREADY then .alreadyCreated
  else .unknown

/-! ## The object -/

/-- The state of a thread object; its thread is a null pointer if there is none. -/
structure Thread where
  active : Bool := false
  p1 : UInt64 := 0
  p2 : UInt64 := 0
  p3 : UInt64 := 0
  threadId : Int := 0
  deriving DecidableEq, Repr

/-- What an operation returns, and the object. -/
abbrev Result : Type := Except ThreadError Unit × Thread

/-- The parameters of the thread function; those not given are null pointers. -/
def parameters : ThreadParamVariant → UInt64 × UInt64 × UInt64
  | .param1 param => (param, 0, 0)
  | .param2 param1 param2 => (param1, param2, 0)
  | .param3 param1 param2 param3 => (param1, param2, param3)
  | .value value => (value, 0, 0)

/-- `os_create` with these parameters. -/
def osCreateWith (thread : Thread) (threadFunction : ThreadFunctionVariant)
    (stackInfo : StackInfo) (priority : Int) (params : UInt64 × UInt64 × UInt64) :
    Prog KThreadCall Result :=
  match threadFunction with
  | .three entry => do
    let (p1, p2, p3) := params
    let threadId ← .perform (.create stackInfo entry p1 p2 p3 priority)
    let thread := { thread with p1 := p1, p2 := p2, p3 := p3, threadId := threadId }
    if threadId ≠ 0 then return (.ok (), { thread with active := true })
    return (.error .creationFailed, thread)
  | _ => return (.error .invalidParameter, thread)

def osCreate (thread : Thread) (threadFunction : ThreadFunctionVariant) (stackInfo : StackInfo)
    (priority : Int) (params : ThreadParamVariant) : Prog KThreadCall Result :=
  osCreateWith thread threadFunction stackInfo priority (parameters params)

/-- `os_create` without a parameter. -/
def osCreateBare (thread : Thread) (threadFunction : ThreadFunctionVariant)
    (stackInfo : StackInfo) (priority : Int) : Prog KThreadCall Result :=
  osCreateWith thread threadFunction stackInfo priority (0, 0, 0)

/-- `IThread::create` around an `os_create`. -/
def guarded (thread : Thread) (osCreation : Prog KThreadCall Result) :
    Prog KThreadCall Result := do
  if thread.active then return (.error .alreadyCreated, thread)
  let (result, thread) ← osCreation
  match result with
  | .ok _ => return (result, { thread with active := true })
  | .error _ => return (result, thread)

def create (thread : Thread) (threadFunction : ThreadFunctionVariant) (stackInfo : StackInfo)
    (priority : Int) (params : ThreadParamVariant) : Prog KThreadCall Result :=
  guarded thread (osCreate thread threadFunction stackInfo priority params)

/-- `IThread::create` without a parameter. -/
def createBare (thread : Thread) (threadFunction : ThreadFunctionVariant) (stackInfo : StackInfo)
    (priority : Int) : Prog KThreadCall Result :=
  guarded thread (osCreateBare thread threadFunction stackInfo priority)

def osDestroy (thread : Thread) : Prog KThreadCall Result := do
  let err ← .perform (.join thread.threadId)
  if err = 0 then return (.ok (), { thread with active := false })
  return (.error (errnoToThreadError (-err)), thread)

def destroy (thread : Thread) : Prog KThreadCall Result := do
  if !thread.active then return (.ok (), thread)
  let (result, thread) ← osDestroy thread
  match result with
  | .ok _ => return (result, { thread with active := false })
  | .error _ => return (result, thread)

/-- `Thread::~Thread`; the result of `destroy` is ignored. -/
def destruct (thread : Thread) : Prog KThreadCall Result := do
  if thread.active then
    let (_, thread) ← destroy thread
    return (.ok (), thread)
  return (.ok (), thread)

/-! ## The world -/

/-- The effect of an answered call. -/
def threadsAfter (w : ThreadWorld) : KThreadCall → Int → ThreadWorld
  | .create .., r =>
    if r ≠ 0 then
      { w with
        member := some w.created
        created := w.created + 1
        threads := w.threads.next (.acquire (some w.created)) }
    else { w with member := none }
  | .join _, r => if r = 0 then w.joined else w

/-- The account of a POSIX object, and an active object has a thread. -/
structure Sane (thread : Thread) (w : ThreadWorld) : Prop where
  accounted : Accounted ⟨thread.active⟩ w
  thread : thread.active = true → thread.threadId ≠ 0

/-- The call is made while it is safe: a thread is started where no thread is, a thread that there
is is joined. -/
def Safe (thread : Thread) (w : ThreadWorld) : KThreadCall → Prop
  | .create .. => w.threads.held = []
  | .join threadId => threadId = thread.threadId ∧ threadId ≠ 0 ∧ w.threads.held = [w.member]

/-- What an operation does. -/
structure Sound (thread : Thread) (w : ThreadWorld) (starts : Option KThreadCall)
    (x : Traced (KThreadCall × Int) Result) : Prop where
  sane : Sane x.val.2 (x.log.foldl (fun w e => threadsAfter w e.1 e.2) w)
  safe : ∀ e ∈ x.log, Safe thread w e.1
  calls : x.log.length ≤ 1
  /-- The only thread it can start. -/
  starts : ∀ e ∈ x.log, (∃ threadId, e.1 = .join threadId) ∨ starts = some e.1
  /-- An error says that no thread was started or joined. -/
  error : ∀ e, x.val.1 = .error e →
    (x.log.foldl (fun w e => threadsAfter w e.1 e.2) w).threads = w.threads

section Operations

variable {thread : Thread} {w : ThreadWorld} (h : Sane thread w)
include h

/-- An operation that makes no call and leaves the object as it is. -/
theorem sound_pure (starts : Option KThreadCall) (result : Except ThreadError Unit) :
    Sound thread w starts (pure (result, thread)) where
  sane := h
  safe e he := by cases he
  calls := Nat.zero_le 1
  starts e he := by cases he
  error _ _ := rfl

/-- The call that starts a thread in an inactive object. -/
theorem sound_started (hactive : thread.active = false) (stackInfo : StackInfo) (entry : Nat)
    (p1 p2 p3 : UInt64) (priority : Int) (r : Int) :
    let c := KThreadCall.create stackInfo entry p1 p2 p3 priority
    let thread' := { thread with p1 := p1, p2 := p2, p3 := p3, threadId := r }
    Sound thread w (some c)
      ⟨if r ≠ 0 then (.ok (), { thread' with active := true })
        else (.error .creationFailed, thread'), [(c, r)]⟩ := by
  intro c thread'
  have hheld : w.threads.held = [] := by
    rw [h.accounted.held, hactive]
    rfl
  have hsafe : ∀ e ∈ [(c, r)], Safe thread w e.1 := fun e he => List.mem_singleton.mp he ▸ hheld
  have hasked : ∀ e ∈ [(c, r)], (∃ threadId, e.1 = .join threadId) ∨ some c = some e.1 :=
    fun e he => List.mem_singleton.mp he ▸ Or.inr rfl
  by_cases hr : r = 0
  · rw [if_neg (not_not_intro hr)]
    have hworld : threadsAfter w c r = { w with member := none } := if_neg (not_not_intro hr)
    refine ⟨⟨?_, fun hnow => ?_⟩, hsafe, Nat.le_refl 1, hasked, fun e _ => ?_⟩
    · show Accounted ⟨thread.active⟩ (threadsAfter w c r)
      rw [hworld]
      refine h.accounted.unchanged rfl h.accounted.attrs fun hnow => ?_
      rw [show thread.active = true from hnow] at hactive
      cases hactive
    · rw [show thread'.active = false from hactive] at hnow
      cases hnow
    · show (threadsAfter w c r).threads = w.threads
      rw [hworld]
  · rw [if_pos hr]
    have hworld : threadsAfter w c r = { w with
        member := some w.created
        created := w.created + 1
        threads := w.threads.next (.acquire (some w.created)) } := if_pos hr
    refine ⟨⟨?_, fun _ => hr⟩, hsafe, Nat.le_refl 1, hasked, fun e he => by cases he⟩
    show Accounted ⟨true⟩ (threadsAfter w c r)
    rw [hworld]
    exact h.accounted.started hactive rfl rfl h.accounted.attrs

/-- The call that joins the thread of an active object. -/
theorem sound_joined (hactive : thread.active = true) (starts : Option KThreadCall) (r : Int) :
    Sound thread w starts
      ⟨if r = 0 then (.ok (), { thread with active := false })
        else (.error (errnoToThreadError (-r)), thread), [(.join thread.threadId, r)]⟩ := by
  have hheld : w.threads.held = [w.member] := by
    rw [h.accounted.held, hactive]
    rfl
  have hsafe : ∀ e ∈ [(KThreadCall.join thread.threadId, r)], Safe thread w e.1 :=
    fun e he => List.mem_singleton.mp he ▸ ⟨rfl, h.thread hactive, hheld⟩
  by_cases hr : r = 0
  · rw [if_pos hr]
    have hworld : threadsAfter w (.join thread.threadId) r = w.joined := if_pos hr
    refine ⟨⟨?_, fun hnow => by cases hnow⟩, hsafe, Nat.le_refl 1, ?_, fun e he => by cases he⟩
    · show Accounted ⟨false⟩ (threadsAfter w (.join thread.threadId) r)
      rw [hworld]
      exact Accounted.joined h.accounted hactive
    · exact fun e he => List.mem_singleton.mp he ▸ Or.inl ⟨_, rfl⟩
  · rw [if_neg hr]
    have hworld : threadsAfter w (.join thread.threadId) r = w := if_neg hr
    refine ⟨?_, hsafe, Nat.le_refl 1, ?_, fun e _ => congrArg ThreadWorld.threads hworld⟩
    · show Sane thread (threadsAfter w (.join thread.threadId) r)
      rwa [hworld]
    · exact fun e he => List.mem_singleton.mp he ▸ Or.inl ⟨_, rfl⟩

end Operations

/-! ## Sessions -/

/-- A use of a thread object. The environment answers its calls. -/
inductive Op where
  | create (threadFunction : ThreadFunctionVariant) (stackInfo : StackInfo) (priority : Int)
      (params : ThreadParamVariant)
  | createBare (threadFunction : ThreadFunctionVariant) (stackInfo : StackInfo) (priority : Int)
  | destroy
  | destruct

/-- The thread that an operation asks for. -/
def Op.asks : Op → Option KThreadCall
  | .create (.three entry) stackInfo priority params =>
    let (p1, p2, p3) := parameters params
    some (.create stackInfo entry p1 p2 p3 priority)
  | .createBare (.three entry) stackInfo priority => some (.create stackInfo entry 0 0 0 priority)
  | _ => none

def Op.prog (thread : Thread) : Op → Prog KThreadCall Result
  | .create threadFunction stackInfo priority params =>
    Zephyr.create thread threadFunction stackInfo priority params
  | .createBare threadFunction stackInfo priority =>
    Zephyr.createBare thread threadFunction stackInfo priority
  | .destroy => Zephyr.destroy thread
  | .destruct => Zephyr.destruct thread

/-- A use makes the calls of one operation in this environment. -/
abbrev Use : Type := Op × Env KThreadCall

/-- What can be seen: a call with its answer, or the result of an operation. -/
inductive Seen where
  | called (c : KThreadCall) (r : Int)
  | returned (result : Except ThreadError Unit)

/-- A thread object and the world. -/
structure State where
  thread : Thread := {}
  world : ThreadWorld := {}

def step (st : State) (u : Use) : Traced Seen State :=
  let x := (u.1.prog st.thread).exec u.2
  ⟨⟨x.val.2, x.log.foldl (fun w e => threadsAfter w e.1 e.2) st.world⟩,
    x.log.map (fun e => .called e.1 e.2) ++ [.returned x.val.1]⟩

section Exec

variable {thread : Thread} (env : Env KThreadCall)

/-- A creation that gets to `k_thread_create`. -/
theorem exec_guarded (hactive : thread.active = false) (entry : Nat) (stackInfo : StackInfo)
    (priority : Int) (params : UInt64 × UInt64 × UInt64) :
    let c := KThreadCall.create stackInfo entry params.1 params.2.1 params.2.2 priority
    let thread' := { thread with
      p1 := params.1, p2 := params.2.1, p3 := params.2.2, threadId := env [] c }
    (guarded thread (osCreateWith thread (.three entry) stackInfo priority params)).exec env =
      ⟨if env [] c ≠ 0 then (.ok (), { thread' with active := true })
        else (.error .creationFailed, thread'), [(c, env [] c)]⟩ := by
  intro c thread'
  unfold guarded
  rw [hactive, if_neg Bool.false_ne_true, Prog.exec_bind]
  by_cases hr : env [] c = 0
  · have hos : (osCreateWith thread (.three entry) stackInfo priority params).exec env =
        ⟨(.error .creationFailed, thread'), [(c, env [] c)]⟩ := by
      show (do Traced.emit (c, env [] c); Prog.exec _ (ite _ _ _)) = _
      rw [if_neg (not_not_intro hr)]
      rfl
    rw [hos, if_neg (not_not_intro hr)]
    rfl
  · have hos : (osCreateWith thread (.three entry) stackInfo priority params).exec env =
        ⟨(.ok (), { thread' with active := true }), [(c, env [] c)]⟩ := by
      show (do Traced.emit (c, env [] c); Prog.exec _ (ite _ _ _)) = _
      rw [if_pos hr]
      rfl
    rw [hos, if_pos hr]
    rfl

/-- `destroy` of an active object. -/
theorem exec_destroy (hactive : thread.active = true) :
    (destroy thread).exec env =
      ⟨if env [] (.join thread.threadId) = 0 then (.ok (), { thread with active := false })
        else (.error (errnoToThreadError (-env [] (.join thread.threadId))), thread),
        [(.join thread.threadId, env [] (.join thread.threadId))]⟩ := by
  unfold destroy
  rw [hactive, Bool.not_true, if_neg Bool.false_ne_true, Prog.exec_bind]
  by_cases hr : env [] (.join thread.threadId) = 0
  · have hos : (osDestroy thread).exec env = ⟨(.ok (), { thread with active := false }),
        [(.join thread.threadId, env [] (.join thread.threadId))]⟩ := by
      show (do Traced.emit (_, env [] _); Prog.exec _ (ite _ _ _)) = _
      rw [if_pos hr]
      rfl
    rw [hos, if_pos hr]
    rfl
  · have hos : (osDestroy thread).exec env =
        ⟨(.error (errnoToThreadError (-env [] (.join thread.threadId))), thread),
          [(.join thread.threadId, env [] (.join thread.threadId))]⟩ := by
      show (do Traced.emit (_, env [] _); Prog.exec _ (ite _ _ _)) = _
      rw [if_neg hr]
      rfl
    rw [hos, if_neg hr]
    rfl

variable {w : ThreadWorld} (h : Sane thread w)
include h

theorem sound_guarded (threadFunction : ThreadFunctionVariant) (stackInfo : StackInfo)
    (priority : Int) (params : UInt64 × UInt64 × UInt64) {starts : Option KThreadCall}
    (hstarts : ∀ entry, threadFunction = .three entry →
      starts = some (.create stackInfo entry params.1 params.2.1 params.2.2 priority)) :
    Sound thread w starts ((guarded thread
      (osCreateWith thread threadFunction stackInfo priority params)).exec env) := by
  cases hactive : thread.active with
  | true =>
    rw [guarded, hactive, if_pos rfl]
    exact sound_pure h _ _
  | false =>
    cases threadFunction with
    | one entry =>
      rw [guarded, hactive, if_neg Bool.false_ne_true]
      exact sound_pure h _ _
    | two entry =>
      rw [guarded, hactive, if_neg Bool.false_ne_true]
      exact sound_pure h _ _
    | three entry =>
      rw [exec_guarded env hactive, hstarts entry rfl]
      exact sound_started h hactive _ _ _ _ _ _ _

theorem sound_destroy (starts : Option KThreadCall) :
    Sound thread w starts ((destroy thread).exec env) := by
  cases hactive : thread.active with
  | false =>
    rw [destroy, hactive, Bool.not_false, if_pos rfl]
    exact sound_pure h _ _
  | true =>
    rw [exec_destroy env hactive]
    exact sound_joined h hactive _ _

/-- The destructor does what `destroy` does, and reports no error. -/
theorem sound_destruct (starts : Option KThreadCall) :
    Sound thread w starts ((destruct thread).exec env) := by
  have hdestroy := sound_destroy env h starts
  unfold destruct
  cases hactive : thread.active with
  | false =>
    rw [if_neg Bool.false_ne_true]
    exact sound_pure h _ _
  | true =>
    rw [if_pos rfl, Prog.exec_bind]
    generalize (destroy thread).exec env = x at hdestroy ⊢
    show Sound thread w starts ⟨(.ok (), x.val.2), x.log ++ []⟩
    rw [List.append_nil]
    exact ⟨hdestroy.sane, hdestroy.safe, hdestroy.calls, hdestroy.starts, fun e he => by cases he⟩

theorem sound_prog (op : Op) : Sound thread w op.asks ((op.prog thread).exec env) := by
  cases op with
  | create threadFunction stackInfo priority params =>
    refine sound_guarded env h threadFunction stackInfo priority (parameters params) ?_
    rintro entry rfl
    rfl
  | createBare threadFunction stackInfo priority =>
    refine sound_guarded env h threadFunction stackInfo priority (0, 0, 0) ?_
    rintro entry rfl
    rfl
  | destroy => exact sound_destroy env h _
  | destruct => exact sound_destruct env h _

end Exec

/-- What a step of a session does. -/
structure StepSound (t : Transition State Use Seen) : Prop where
  accounted : Accounted ⟨t.outcome.val.thread.active⟩ t.outcome.val.world
  /-- A thread is started where no thread is, and only the one that was asked for. -/
  started : ∀ stackInfo entry p1 p2 p3 priority r,
    .called (.create stackInfo entry p1 p2 p3 priority) r ∈ t.outcome.log →
      t.before.world.threads.held = [] ∧
        t.input.1.asks = some (.create stackInfo entry p1 p2 p3 priority)
  /-- Only a thread that there is is joined, and it is the one of the object. -/
  joined : ∀ threadId r, .called (.join threadId) r ∈ t.outcome.log →
    threadId ≠ 0 ∧ t.before.world.threads.held = [t.before.world.member]
  error : ∀ e, .returned (.error e) ∈ t.outcome.log →
    t.outcome.val.world.threads = t.before.world.threads

theorem mem_seen {x : Traced (KThreadCall × Int) Result} {c : KThreadCall} {r : Int}
    (h : Seen.called c r ∈ x.log.map (fun e => .called e.1 e.2) ++ [.returned x.val.1]) :
    (c, r) ∈ x.log := by
  rcases List.mem_append.mp h with h | h
  · obtain ⟨e, he, heq⟩ := List.mem_map.mp h
    cases heq
    exact he
  · cases List.mem_singleton.mp h

theorem Sound.step {st : State} {u : Use}
    (h : Sound st.thread st.world u.1.asks ((u.1.prog st.thread).exec u.2)) :
    StepSound ⟨st, u, step st u⟩ where
  accounted := h.sane.accounted
  started stackInfo entry p1 p2 p3 priority r hcalled := by
    have hmem := mem_seen hcalled
    refine ⟨h.safe _ hmem, ?_⟩
    rcases h.starts _ hmem with ⟨threadId, hjoin⟩ | hasks
    · cases hjoin
    · exact hasks
  joined threadId r hcalled := (h.safe _ (mem_seen hcalled)).2
  error e he := by
    rcases List.mem_append.mp he with he | he
    · obtain ⟨c, -, heq⟩ := List.mem_map.mp he
      cases heq
    · exact h.error e (Seen.returned.inj (List.mem_singleton.mp he)).symm

/-- A thread, its end, and a second one. -/
def threadTwice : List Use := [
  (.createBare (.three 1) ⟨4096, 64⟩ 1, fun _ _ => 7),
  (.destroy, fun _ _ => 0),
  (.create (.three 2) ⟨4096, 64⟩ 1 (.param2 5 6), fun _ _ => 8)]

/-- The creation of the second one. -/
def secondThread : Transition State Use Seen :=
  let st := (run step {} (threadTwice.take 2)).val
  let u : Use := (.create (.three 2) ⟨4096, 64⟩ 1 (.param2 5 6), fun _ _ => 8)
  ⟨st, u, step st u⟩

end EnoceanCore.PlatformCore.Zephyr
