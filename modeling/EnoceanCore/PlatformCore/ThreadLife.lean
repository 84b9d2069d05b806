import EnoceanCore.PlatformCore.Kernel
import EnoceanCore.Lib.Handles

/-!
# The life of a thread object

A POSIX `Thread` from its construction on: `create` with and without a parameter, `destroy` and
the destructor, over pthread calls that are answered in any way. The world keeps account of the
threads that were created and joined and of the attribute objects (`ThreadWorld`).

`Accounted` is the invariant: the object is active exactly when there is one thread it created
and has not joined, and that thread is the one in its member `thread`. Every operation keeps it
(`thread_accounted`). The join loop of `os_destroy` ends in every environment that does not
interrupt it forever (`JoinEnv`).
-/

namespace EnoceanCore.PlatformCore

open Lib

/-! ## Creation without a parameter -/

/-- `os_create` without a parameter; the thread is started with a null pointer. -/
def osCreateBare (pthreadStackMin : UInt64) (thread : Thread)
    (threadFunction : ThreadFunctionVariant) (stackSize : UInt64) (priority : Int) :
    Prog PthreadCall (Except ThreadError Unit × Thread) := do
  let stackSize := sanitizeStackSize pthreadStackMin stackSize
  let err ← attemptCreate threadFunction stackSize priority 0 false
  let err ← if err = EPERM ∧ priority ≥ 0 then
      attemptCreate threadFunction stackSize priority 0 true
    else pure err
  if err = 0 then return (.ok (), { thread with active := true })
  return (.error (errnoToThreadError err), thread)

/-- `IThread::create` without a parameter. -/
def createBare (pthreadStackMin : UInt64) (thread : Thread)
    (threadFunction : ThreadFunctionVariant) (stackSize : UInt64) (priority : Int) :
    Prog PthreadCall (Except ThreadError Unit × Thread) := do
  if thread.active then return (.error .alreadyCreated, thread)
  let (result, thread) ← osCreateBare pthreadStackMin thread threadFunction stackSize priority
  match result with
  | .ok _ => return (result, { thread with active := true })
  | .error _ => return (result, thread)

/-! ## Destruction -/

/-- A pthread call in the life of a thread object. A join is for the member `thread`. -/
inductive ThreadCall where
  | pthread (c : PthreadCall)
  | pthreadJoin
  deriving DecidableEq, Repr

/-- The loop of `os_destroy`, for so many rounds; its error code. -/
def joinLoop : Nat → Prog ThreadCall (Option Int)
  | 0 => pure none
  | rounds + 1 => do
    let err ← .perform .pthreadJoin
    if err = EINTR then joinLoop rounds
    else return some err

/-- The result of an operation, unless its loop needs more rounds. -/
abbrev Destroyed : Type := Option (Except ThreadError Unit × Thread)

def osDestroy (rounds : Nat) (thread : Thread) : Prog ThreadCall Destroyed := do
  match ← joinLoop rounds with
  | none => return none
  | some err =>
    if err = 0 then return some (.ok (), { thread with active := false })
    return some (.error (errnoToThreadError err), thread)

def destroy (rounds : Nat) (thread : Thread) : Prog ThreadCall Destroyed := do
  if !thread.active then return some (.ok (), thread)
  match ← osDestroy rounds thread with
  | none => return none
  | some (.ok _, thread) => return some (.ok (), { thread with active := false })
  | some (.error e, thread) => return some (.error e, thread)

/-- `Thread::~Thread`; the result of `destroy` is ignored. -/
def destruct (rounds : Nat) (thread : Thread) : Prog ThreadCall Destroyed := do
  if thread.active then
    match ← destroy rounds thread with
    | none => return none
    | some (_, thread) => return some (.ok (), thread)
  else return some (.ok (), thread)

/-- An environment in which a join is interrupted so often and no oftener. -/
structure JoinEnv where
  env : Env ThreadCall
  interrupts : Nat
  ends : env (List.replicate interrupts (.pthreadJoin, EINTR)) .pthreadJoin ≠ EINTR

/-- The first join that is not interrupted succeeds. -/
def JoinEnv.Joins (j : JoinEnv) : Prop :=
  ∃ interrupts, (∀ n < interrupts,
      j.env (List.replicate n (.pthreadJoin, EINTR)) .pthreadJoin = EINTR) ∧
    j.env (List.replicate interrupts (.pthreadJoin, EINTR)) .pthreadJoin = 0

/-- The loop returns the first answer that is no interruption. -/
theorem joinLoop_answer {env : Env ThreadCall} {interrupts rounds : Nat}
    (hrounds : interrupts < rounds)
    (hagain : ∀ n < interrupts, env (List.replicate n (.pthreadJoin, EINTR)) .pthreadJoin = EINTR)
    (hends : env (List.replicate interrupts (.pthreadJoin, EINTR)) .pthreadJoin ≠ EINTR) :
    (Prog.exec env (joinLoop rounds)).val =
      some (env (List.replicate interrupts (.pthreadJoin, EINTR)) .pthreadJoin) := by
  induction rounds generalizing env interrupts with
  | zero => exact absurd hrounds (Nat.not_lt_zero _)
  | succ rounds ih =>
    cases interrupts with
    | zero =>
      have hfirst : env [] .pthreadJoin ≠ EINTR := hends
      rw [joinLoop, Prog.exec_perform_bind, if_neg hfirst]
      rfl
    | succ interrupts =>
      have hfirst : env [] .pthreadJoin = EINTR := hagain 0 (Nat.succ_pos interrupts)
      rw [joinLoop, Prog.exec_perform_bind, if_pos hfirst, hfirst]
      exact ih (Nat.lt_of_succ_lt_succ hrounds)
        (fun n hn => hagain (n + 1) (Nat.succ_lt_succ hn)) hends

/-- An active object is destroyed if that answer is success. -/
theorem destroy_answer {env : Env ThreadCall} {interrupts rounds : Nat}
    (hrounds : interrupts < rounds)
    (hagain : ∀ n < interrupts, env (List.replicate n (.pthreadJoin, EINTR)) .pthreadJoin = EINTR)
    (hends : env (List.replicate interrupts (.pthreadJoin, EINTR)) .pthreadJoin ≠ EINTR)
    {thread : Thread} (hactive : thread.active = true) :
    let err := env (List.replicate interrupts (.pthreadJoin, EINTR)) .pthreadJoin
    (Prog.exec env (destroy rounds thread)).val =
      some (if err = 0 then (.ok (), { thread with active := false })
        else (.error (errnoToThreadError err), thread)) := by
  intro err
  rw [destroy, if_neg (by simp [hactive]), osDestroy, Prog.exec_bind, Prog.exec_bind]
  simp only [Traced.val_bind, joinLoop_answer hrounds hagain hends]
  by_cases hzero : err = 0
  · rw [if_pos hzero, if_pos hzero]
    rfl
  · rw [if_neg hzero, if_neg hzero]
    rfl

/-- The loop returns. -/
theorem joinLoop_returns {env : Env ThreadCall} {interrupts : Nat}
    (h : env (List.replicate interrupts (.pthreadJoin, EINTR)) .pthreadJoin ≠ EINTR) :
    (Prog.exec env (joinLoop (interrupts + 1))).val ≠ none := by
  induction interrupts generalizing env with
  | zero =>
    have hfirst : env [] .pthreadJoin ≠ EINTR := h
    rw [joinLoop, Prog.exec_perform_bind, if_neg hfirst]
    intro hnone
    cases hnone
  | succ interrupts ih =>
    rw [joinLoop, Prog.exec_perform_bind]
    by_cases herr : env [] .pthreadJoin = EINTR
    · rw [if_pos herr, herr]
      exact ih h
    · rw [if_neg herr]
      intro hnone
      cases hnone

/-! ## The world -/

/-- The thread in the member `thread`, how many were created, and the threads and attribute
objects there are. The threads are numbered; the member holds none after a failed creation. -/
structure ThreadWorld where
  member : Option Nat := none
  created : Nat := 0
  threads : Ledger (Option Nat) := {}
  attrs : Ledger Unit := {}
  deriving DecidableEq, Repr

/-- The effect of an answered call. -/
def ThreadWorld.next (w : ThreadWorld) : ThreadCall → Int → ThreadWorld
  | .pthread .attrInit, r => if r = 0 then { w with attrs := w.attrs.next (.acquire ()) } else w
  | .pthread .attrDestroy, _ => { w with attrs := w.attrs.next (.release ()) }
  | .pthread (.create _ _), r =>
    if r = 0 then
      { w with
        member := some w.created
        created := w.created + 1
        threads := w.threads.next (.acquire (some w.created)) }
    else { w with member := none }
  | .pthreadJoin, r =>
    if r = 0 then { w with threads := w.threads.next (.release w.member) } else w
  | _, _ => w

/-- Every attribute object is destroyed, and was destroyed once. -/
structure Balanced (attrs : Ledger Unit) : Prop where
  held : attrs.held = []
  strays : attrs.strays = []
  peak : attrs.peak ≤ 1

/-- The object is active exactly when there is a thread that it created and has not joined,
which is the one in its member; there was never another one beside it, and no thread was joined
twice. -/
structure Accounted (thread : Thread) (w : ThreadWorld) : Prop where
  held : w.threads.held = if thread.active then [w.member] else []
  peak : w.threads.peak ≤ 1
  strays : w.threads.strays = []
  attrs : Balanced w.attrs

/-! ## Creation -/

/-- All answers are possible. -/
abbrev AnyReply {κ : Type} : κ → Int → Prop := fun _ _ => True

/-- The effect of the calls of a creation. -/
abbrev ThreadWorld.nextPthread (w : ThreadWorld) (c : PthreadCall) (r : Int) : ThreadWorld :=
  w.next (.pthread c) r

/-- What an attempt to create a thread does to the world. -/
structure Attempted (w : ThreadWorld) (err : Int) (w' : ThreadWorld) : Prop where
  attrs : Balanced w'.attrs
  started : err = 0 → w'.member = some w.created ∧
    w'.threads = w.threads.next (.acquire (some w.created))
  counted : err = 0 → w'.created = w.created + 1
  failed : err ≠ 0 → w'.created = w.created ∧ w'.threads = w.threads

namespace Attempted

variable {w w' w'' : ThreadWorld} {err err' : Int}

/-- A second attempt after one that failed. -/
theorem trans (h : Attempted w err w') (herr : err ≠ 0) (h' : Attempted w' err' w'') :
    Attempted w err' w'' := by
  obtain ⟨hcreated, hthreads⟩ := h.failed herr
  refine ⟨h'.attrs, fun hok => ?_, fun hok => ?_, fun hfail => ?_⟩
  · rw [← hcreated, ← hthreads]
    exact h'.started hok
  · rw [← hcreated]
    exact h'.counted hok
  · rw [← hcreated, ← hthreads]
    exact h'.failed hfail

end Attempted

section Attributes

variable {attrs : Ledger Unit}

/-- An attribute object that is initialised and destroyed. -/
theorem Balanced.once (h : Balanced attrs) :
    Balanced ((attrs.next (.acquire ())).next (.release ())) := by
  have hheld : (attrs.next (.acquire ())).held = [()] := by
    rw [Ledger.next_acquire, h.held]
  rw [Ledger.next_release_head hheld]
  refine ⟨rfl, h.strays, ?_⟩
  rw [Ledger.next_acquire, h.held]
  exact Nat.max_le.mpr ⟨h.peak, Nat.le_refl 1⟩

end Attributes

/-- Scheduling calls are not accounted for. -/
theorem nextPthread_of_scheduling {w : ThreadWorld} {c : PthreadCall} {r : Int}
    (h : c.Scheduling) : w.nextPthread c r = w := by
  cases c with
  | attrInit => cases h
  | attrDestroy => cases h
  | attrSetstacksize size => cases h
  | create entry param => cases h
  | _ => rfl

/-- The world while there is an attribute object. -/
abbrev ThreadWorld.withAttr (w : ThreadWorld) : ThreadWorld :=
  { w with attrs := w.attrs.next (.acquire ()) }

section Attempt

variable {w : ThreadWorld} (h : Balanced w.attrs)
include h

/-- An attempt that fails after the attribute object was initialised. -/
theorem attempted_of_fails {err : Int} (herr : err ≠ 0) :
    Attempted w err (w.withAttr.nextPthread .attrDestroy 0) :=
  ⟨h.once, fun hok => absurd hok herr, fun hok => absurd hok herr, fun _ => ⟨rfl, rfl⟩⟩

/-- An attempt that gets to `pthread_create`. -/
theorem attempted_of_create (entry : Nat) (param : UInt64) (err : Int) :
    Attempted w err ((w.withAttr.nextPthread (.create entry param) err).nextPthread
      .attrDestroy 0) := by
  by_cases herr : err = 0
  · subst herr
    exact ⟨h.once, fun _ => ⟨rfl, rfl⟩, fun _ => rfl, fun hfail => absurd rfl hfail⟩
  · have hnext : w.withAttr.nextPthread (.create entry param) err =
        { w.withAttr with member := none } :=
      if_neg herr
    rw [hnext]
    exact ⟨h.once, fun hok => absurd hok herr, fun hok => absurd hok herr, fun _ => ⟨rfl, rfl⟩⟩

/-- One attempt, under any scheduling attributes. -/
theorem wp_attempted (threadFunction : ThreadFunctionVariant) (stackSize : UInt64)
    (priority : Int) (param : UInt64) (forceInherit : Bool) :
    Prog.wp AnyReply ThreadWorld.nextPthread
      (attemptCreate threadFunction stackSize priority param forceInherit)
      (fun err w' => Attempted w err w') w := by
  unfold attemptCreate
  simp only [Prog.wp_bind, Prog.wp_perform]
  intro initErr _
  refine Prog.wp_ite (fun hinit => ?_) fun hinit => ?_
  · have hnone : w.nextPthread .attrInit initErr = w := if_neg hinit
    rw [hnone]
    exact ⟨h, fun hok => absurd hok hinit, fun hok => absurd hok hinit, fun _ => ⟨rfl, rfl⟩⟩
  obtain rfl : initErr = 0 := not_not.mp hinit
  simp only [Prog.wp_bind, Prog.wp_perform]
  intro stackErr _
  refine Prog.wp_ite (fun hstack => ?_) fun _ => ?_
  · simp only [Prog.wp_bind, Prog.wp_perform, Prog.wp_pure]
    intro r _
    exact attempted_of_fails h hstack
  have hcreate : ∀ entry, Prog.wp AnyReply ThreadWorld.nextPthread (do
      let err ← .perform (.create entry param)
      let _ ← .perform .attrDestroy
      return err) (fun err w' => Attempted w err w') w.withAttr := by
    intro entry
    simp only [Prog.wp_bind, Prog.wp_perform, Prog.wp_pure]
    intro err _ r _
    exact attempted_of_create h entry param err
  have hrefuse : Prog.wp AnyReply ThreadWorld.nextPthread (do
      let _ ← .perform .attrDestroy
      return EINVAL) (fun err w' => Attempted w err w') w.withAttr := by
    simp only [Prog.wp_bind, Prog.wp_perform, Prog.wp_pure]
    intro r _
    exact attempted_of_fails h (by decide)
  refine Prog.wp_ite (fun _ => ?_) fun _ => ?_
  · simp only [Prog.wp_bind, Prog.wp_perform]
    intro r _ r' _
    cases threadFunction with
    | one entry => exact hcreate entry
    | two entry => exact hrefuse
    | three entry => exact hrefuse
  · rw [Prog.wp_bind]
    apply Prog.wp_of_calls (configurePriority_calls priority)
      (fun c r hc => nextPthread_of_scheduling hc)
    intro _
    cases threadFunction with
    | one entry => exact hcreate entry
    | two entry => exact hrefuse
    | three entry => exact hrefuse

/-- An attempt and, if permission is denied, a second one that inherits the scheduling. -/
theorem wp_attempted_twice {β : Type} (threadFunction : ThreadFunctionVariant)
    (stackSize : UInt64) (priority : Int) (param : UInt64) {rest : Int → Prog PthreadCall β}
    {Q : β → ThreadWorld → Prop}
    (hrest : ∀ err w', Attempted w err w' →
      Prog.wp AnyReply ThreadWorld.nextPthread (rest err) Q w') :
    Prog.wp AnyReply ThreadWorld.nextPthread (do
      let err ← attemptCreate threadFunction stackSize priority param false
      let err ← if err = EPERM ∧ priority ≥ 0 then
          attemptCreate threadFunction stackSize priority param true
        else pure err
      rest err) Q w := by
  rw [Prog.wp_bind]
  apply Prog.wp_mono (wp_attempted h threadFunction stackSize priority param false)
  intro err w' hfirst
  refine Prog.wp_ite (fun hperm => ?_) fun _ => hrest err w' hfirst
  have herr : err ≠ 0 := by
    rw [hperm.1]
    decide
  rw [Prog.wp_bind]
  apply Prog.wp_mono (wp_attempted hfirst.attrs threadFunction stackSize priority param true)
  intro err' w'' hsecond
  exact hrest err' w'' (hfirst.trans herr hsecond)

end Attempt

/-- What a creation does to the thread object and to the world. -/
structure Created (thread : Thread) (w : ThreadWorld) (r : Except ThreadError Unit × Thread)
    (w' : ThreadWorld) : Prop where
  attrs : Balanced w'.attrs
  ok : r.1 = .ok () → thread.active = false ∧ r.2.active = true ∧ w'.member = some w.created ∧
    w'.threads = w.threads.next (.acquire (some w.created))
  counted : r.1 = .ok () → w'.created = w.created + 1
  error : ∀ e, r.1 = .error e → r.2 = thread ∧ w'.created = w.created ∧
    w'.threads = w.threads ∧ (thread.active = true → w' = w)

section Create

variable {thread : Thread} {w : ThreadWorld}

/-- The end of `os_create` of an inactive object. -/
theorem created_of_attempted (hinactive : thread.active = false) {err : Int} {w' : ThreadWorld}
    (h : Attempted w err w') :
    Prog.wp AnyReply ThreadWorld.nextPthread
      (if err = 0 then return (.ok (), { thread with active := true })
        else return (.error (errnoToThreadError err), thread)) (Created thread w) w' := by
  refine Prog.wp_ite (fun herr => ?_) fun herr => ?_
  · exact ⟨h.attrs, fun _ => ⟨hinactive, rfl, h.started herr⟩, fun _ => h.counted herr,
      fun e he => by cases he⟩
  · refine ⟨h.attrs, (fun hok => by cases hok), (fun hok => by cases hok), fun e _ => ?_⟩
    refine ⟨rfl, (h.failed herr).1, (h.failed herr).2, fun hactive => ?_⟩
    rw [hinactive] at hactive
    cases hactive

/-- `IThread::create` around an `os_create`. -/
theorem wp_guarded (h : Balanced w.attrs)
    {osCreation : Prog PthreadCall (Except ThreadError Unit × Thread)}
    (hos : thread.active = false →
      Prog.wp AnyReply ThreadWorld.nextPthread osCreation (Created thread w) w) :
    Prog.wp AnyReply ThreadWorld.nextPthread (do
      if thread.active then return (.error .alreadyCreated, thread)
      let (result, thread) ← osCreation
      match result with
      | .ok _ => return (result, { thread with active := true })
      | .error _ => return (result, thread)) (Created thread w) w := by
  refine Prog.wp_ite (fun hactive => ?_) fun hinactive => ?_
  · exact ⟨h, (fun hok => by cases hok), (fun hok => by cases hok),
      fun e _ => ⟨rfl, rfl, rfl, fun _ => rfl⟩⟩
  · rw [Prog.wp_bind]
    apply Prog.wp_mono (hos (Bool.eq_false_iff.mpr hinactive))
    intro r w' hcreated
    obtain ⟨result, thread'⟩ := r
    cases result with
    | ok _ =>
      obtain ⟨hwas, -, hrest⟩ := hcreated.ok rfl
      exact ⟨hcreated.attrs, fun _ => ⟨hwas, rfl, hrest⟩, fun _ => hcreated.counted rfl,
        fun e he => by cases he⟩
    | error e => exact hcreated

theorem wp_create_created (h : Balanced w.attrs) (pthreadStackMin : UInt64)
    (threadFunction : ThreadFunctionVariant) (stackSize : UInt64) (priority : Int)
    (params : ThreadParamVariant) :
    Prog.wp AnyReply ThreadWorld.nextPthread
      (create pthreadStackMin thread threadFunction stackSize priority params)
      (Created thread w) w := by
  refine wp_guarded h fun hinactive => ?_
  unfold osCreate
  cases threadParamToPointer params with
  | none =>
    refine ⟨h, (fun hok => by cases hok), (fun hok => by cases hok),
      fun e _ => ⟨rfl, rfl, rfl, fun _ => rfl⟩⟩
  | some param =>
    exact wp_attempted_twice h threadFunction _ priority param
      fun err w' hattempted => created_of_attempted hinactive hattempted

theorem wp_createBare_created (h : Balanced w.attrs) (pthreadStackMin : UInt64)
    (threadFunction : ThreadFunctionVariant) (stackSize : UInt64) (priority : Int) :
    Prog.wp AnyReply ThreadWorld.nextPthread
      (createBare pthreadStackMin thread threadFunction stackSize priority)
      (Created thread w) w := by
  refine wp_guarded h fun hinactive => ?_
  unfold osCreateBare
  exact wp_attempted_twice h threadFunction _ priority 0
    fun err w' hattempted => created_of_attempted hinactive hattempted

/-- A thread that is started while there is none. -/
theorem Accounted.started (h : Accounted thread w) (hinactive : thread.active = false)
    {w' : ThreadWorld} (hmember : w'.member = some w.created)
    (hthreads : w'.threads = w.threads.next (.acquire (some w.created)))
    (hattrs : Balanced w'.attrs) : Accounted ⟨true⟩ w' := by
  have hnone : w.threads.held = [] := by
    rw [h.held, hinactive]
    rfl
  refine ⟨?_, ?_, ?_, hattrs⟩
  · rw [hthreads, Ledger.next_acquire, hnone, hmember]
    rfl
  · rw [hthreads, Ledger.next_acquire, hnone]
    exact Nat.max_le.mpr ⟨h.peak, Nat.le_refl 1⟩
  · rw [hthreads]
    exact h.strays

/-- The member of an inactive object does not matter. -/
theorem Accounted.unchanged (h : Accounted thread w) {w' : ThreadWorld}
    (hthreads : w'.threads = w.threads) (hattrs : Balanced w'.attrs)
    (hmember : thread.active = true → w'.member = w.member) : Accounted thread w' := by
  refine ⟨?_, hthreads ▸ h.peak, hthreads ▸ h.strays, hattrs⟩
  rw [hthreads, h.held]
  cases hwas : thread.active with
  | true => rw [hmember hwas]
  | false => rfl

/-- A creation keeps the account. -/
theorem Created.accounted {r : Except ThreadError Unit × Thread} {w' : ThreadWorld}
    (h : Accounted thread w) (hcreated : Created thread w r w') : Accounted r.2 w' := by
  cases hresult : r.1 with
  | ok _ =>
    obtain ⟨hinactive, hactive, hmember, hthreads⟩ := hcreated.ok hresult
    have hthread : r.2 = ⟨true⟩ := congrArg Thread.mk hactive
    rw [hthread]
    exact h.started hinactive hmember hthreads hcreated.attrs
  | error e =>
    obtain ⟨hthread, -, hthreads, hactive⟩ := hcreated.error e hresult
    rw [hthread]
    exact h.unchanged hthreads hcreated.attrs fun hwas => by rw [hactive hwas]

end Create

/-! ## Joining -/

section Destroy

variable {thread : Thread} {w : ThreadWorld}

/-- The world after the thread in the member was joined. -/
abbrev ThreadWorld.joined (w : ThreadWorld) : ThreadWorld :=
  { w with threads := w.threads.next (.release w.member) }

/-- The loop joins the thread in the member, or nothing. -/
theorem wp_joinLoop (rounds : Nat) :
    Prog.wp AnyReply ThreadWorld.next (joinLoop rounds)
      (fun err w' => w' = if err = some 0 then w.joined else w) w := by
  induction rounds with
  | zero => rfl
  | succ rounds ih =>
    rw [joinLoop, Prog.wp_bind, Prog.wp_perform]
    intro err _
    refine Prog.wp_ite (fun herr => ?_) fun _ => ?_
    · have hsame : w.next .pthreadJoin err = w := by
        rw [herr]
        rfl
      rw [hsame]
      exact ih
    · rw [Prog.wp_pure]
      by_cases hzero : err = 0
      · rw [if_pos (by rw [hzero])]
        exact if_pos hzero
      · rw [if_neg (fun hsome => hzero (Option.some.inj hsome))]
        exact if_neg hzero

/-- Joining the thread of an active object keeps the account. -/
theorem Accounted.joined (h : Accounted thread w) (hactive : thread.active = true) :
    Accounted ⟨false⟩ w.joined := by
  have hheld : w.threads.held = [w.member] := by
    rw [h.held, hactive]
    rfl
  have hjoined : w.joined.threads = { w.threads with held := [] } :=
    Ledger.next_release_head hheld
  refine ⟨?_, ?_, ?_, h.attrs⟩
  · rw [hjoined]
    rfl
  · rw [hjoined]
    exact h.peak
  · rw [hjoined]
    exact h.strays

/-- What an operation of `destroy` leaves, if its loop has rounds enough. -/
def Kept (w : ThreadWorld) (r : Destroyed) (w' : ThreadWorld) : Prop :=
  ∀ result thread', r = some (result, thread') → Accounted thread' w' ∧ w'.created = w.created

theorem kept_none (w w' : ThreadWorld) : Kept w none w' := by
  intro result thread' hsome
  cases hsome

theorem kept_some {w' : ThreadWorld} (result : Except ThreadError Unit)
    (h : Accounted thread w') (hcreated : w'.created = w.created) :
    Kept w (some (result, thread)) w' := by
  intro result' thread' hsome
  cases hsome
  exact ⟨h, hcreated⟩

theorem wp_destroy_kept (h : Accounted thread w) (rounds : Nat) :
    Prog.wp AnyReply ThreadWorld.next (destroy rounds thread) (Kept w) w := by
  unfold destroy
  refine Prog.wp_ite (fun _ => kept_some _ h rfl) fun hactive => ?_
  have hwas : thread.active = true := by
    cases hthread : thread.active with
    | true => rfl
    | false => exact absurd (by rw [hthread]; rfl) hactive
  rw [Prog.wp_bind, osDestroy, Prog.wp_bind]
  apply Prog.wp_mono (wp_joinLoop rounds)
  intro err w' hw'
  cases err with
  | none => exact kept_none w w'
  | some err =>
    refine Prog.wp_ite (fun herr => ?_) fun herr => ?_
    · rw [herr, if_pos rfl] at hw'
      rw [hw']
      exact kept_some _ (h.joined hwas) rfl
    · rw [if_neg (fun hsome => herr (Option.some.inj hsome))] at hw'
      rw [hw']
      exact kept_some _ h rfl

theorem wp_destruct_kept (h : Accounted thread w) (rounds : Nat) :
    Prog.wp AnyReply ThreadWorld.next (destruct rounds thread) (Kept w) w := by
  unfold destruct
  refine Prog.wp_ite (fun _ => ?_) fun _ => kept_some _ h rfl
  rw [Prog.wp_bind]
  apply Prog.wp_mono (wp_destroy_kept h rounds)
  intro r w' hkept
  cases r with
  | none => exact kept_none w w'
  | some r =>
    obtain ⟨haccounted, hcreated⟩ := hkept _ _ rfl
    exact kept_some _ haccounted hcreated

/-- A `destroy` that returns success leaves the object inactive. -/
theorem inactive_of_destroy {env : Env ThreadCall} {rounds : Nat} {thread' : Thread}
    (h : (Prog.exec env (destroy rounds thread)).val = some (.ok (), thread')) :
    thread'.active = false := by
  rw [destroy] at h
  split at h
  · rename_i hactive
    cases h
    simpa using hactive
  · rw [Prog.exec_bind, Traced.val_bind] at h
    match hos : (Prog.exec env (osDestroy rounds thread)).val with
    | none =>
      rw [hos] at h
      cases h
    | some (.ok _, thread'') =>
      rw [hos] at h
      cases h
      rfl
    | some (.error e, thread'') =>
      rw [hos] at h
      cases h

/-- If a join succeeds, `destroy` does. -/
theorem destroy_joins {j : JoinEnv} (hj : j.Joins) (thread : Thread) :
    ∃ thread', (Prog.exec j.env (destroy (j.interrupts + 1) thread)).val =
      some (.ok (), thread') := by
  cases hactive : thread.active with
  | false =>
    rw [destroy, if_pos (by simp [hactive])]
    exact ⟨thread, rfl⟩
  | true =>
    obtain ⟨interrupts, hagain, hzero⟩ := hj
    have hrounds : interrupts < j.interrupts + 1 := by
      by_contra hlate
      exact j.ends (hagain j.interrupts (by omega))
    have hends : j.env (List.replicate interrupts (.pthreadJoin, EINTR)) .pthreadJoin ≠ EINTR := by
      rw [hzero]
      decide
    refine ⟨{ thread with active := false }, ?_⟩
    rw [destroy_answer hrounds hagain hends hactive, hzero, if_pos rfl]

/-- If a join succeeds, the destructor leaves the object inactive. -/
theorem inactive_of_destruct {j : JoinEnv} (hj : j.Joins) {result : Except ThreadError Unit}
    {thread' : Thread} (h : (Prog.exec j.env (destruct (j.interrupts + 1) thread)).val =
      some (result, thread')) : thread'.active = false := by
  rw [destruct] at h
  split at h
  · obtain ⟨thread'', hdestroy⟩ := destroy_joins hj thread
    rw [Prog.exec_bind, Traced.val_bind, hdestroy] at h
    cases h
    exact inactive_of_destroy hdestroy
  · rename_i hactive
    cases h
    simpa using hactive

theorem osDestroy_returns (j : JoinEnv) (thread : Thread) :
    (Prog.exec j.env (osDestroy (j.interrupts + 1) thread)).val ≠ none := by
  rw [osDestroy, Prog.exec_bind, Traced.val_bind]
  cases hloop : (Prog.exec j.env (joinLoop (j.interrupts + 1))).val with
  | none => exact absurd hloop (joinLoop_returns j.ends)
  | some err =>
    dsimp only
    split
    all_goals
      intro hnone
      cases hnone

/-- With rounds enough for the interruptions, `destroy` returns. -/
theorem destroy_returns (j : JoinEnv) (thread : Thread) :
    (Prog.exec j.env (destroy (j.interrupts + 1) thread)).val ≠ none := by
  unfold destroy
  split
  · intro hnone
    cases hnone
  · rw [Prog.exec_bind, Traced.val_bind]
    match hos : (Prog.exec j.env (osDestroy (j.interrupts + 1) thread)).val with
    | none => exact absurd hos (osDestroy_returns j thread)
    | some (.ok _, thread') =>
      intro hnone
      cases hnone
    | some (.error e, thread') =>
      intro hnone
      cases hnone

theorem destruct_returns (j : JoinEnv) (thread : Thread) :
    (Prog.exec j.env (destruct (j.interrupts + 1) thread)).val ≠ none := by
  unfold destruct
  split
  · rw [Prog.exec_bind, Traced.val_bind]
    match hdestroy : (Prog.exec j.env (destroy (j.interrupts + 1) thread)).val with
    | none => exact absurd hdestroy (destroy_returns j thread)
    | some (result, thread') =>
      intro hnone
      cases hnone
  · intro hnone
    cases hnone

end Destroy

/-! ## Sessions -/

namespace ThreadSession

/-- A use of a thread object. The environment answers its calls. -/
inductive Op where
  | create (threadFunction : ThreadFunctionVariant) (stackSize : UInt64) (priority : Int)
      (params : ThreadParamVariant) (env : Env PthreadCall)
  | createBare (threadFunction : ThreadFunctionVariant) (stackSize : UInt64) (priority : Int)
      (env : Env PthreadCall)
  | destroy (j : JoinEnv)
  | destruct (j : JoinEnv)

/-- What comes of a use. -/
inductive Outcome where
  | created (result : Except ThreadError Unit)
  | destroyed (result : Except ThreadError Unit)
  /-- The join loop has not ended. -/
  | stuck

/-- A thread object and the world. -/
structure State where
  thread : Thread := {}
  world : ThreadWorld := {}

/-- Run a creation in an environment. -/
def State.creating (st : State) (env : Env PthreadCall)
    (creation : Prog PthreadCall (Except ThreadError Unit × Thread)) : Traced Outcome State :=
  let r := creation.exec env
  ⟨⟨r.val.2, r.log.foldl (fun w e => w.nextPthread e.1 e.2) st.world⟩, [.created r.val.1]⟩

/-- Run a `destroy` or the destructor in an environment. -/
def State.destroying (st : State) (j : JoinEnv) (destruction : Prog ThreadCall Destroyed) :
    Traced Outcome State :=
  let r := destruction.exec j.env
  match r.val with
  | none => ⟨st, [.stuck]⟩
  | some (result, thread) =>
    ⟨⟨thread, r.log.foldl (fun w e => w.next e.1 e.2) st.world⟩, [.destroyed result]⟩

/-- A use of the object; the stack size minimum is the system's. -/
def step (pthreadStackMin : UInt64) (st : State) : Op → Traced Outcome State
  | .create threadFunction stackSize priority params env =>
    st.creating env
      (create pthreadStackMin st.thread threadFunction stackSize priority params)
  | .createBare threadFunction stackSize priority env =>
    st.creating env (createBare pthreadStackMin st.thread threadFunction stackSize priority)
  | .destroy j => st.destroying j (destroy (j.interrupts + 1) st.thread)
  | .destruct j => st.destroying j (destruct (j.interrupts + 1) st.thread)

/-- The account holds after the step, and an operation returns. A creation that succeeds started
one thread, and one that returns an error started none. After a `destroy` that succeeds, and after
a `destroy` or a destructor whose join does, there is no thread left. -/
structure Sound (t : Transition State Op Outcome) : Prop where
  accounted : Accounted t.outcome.val.thread t.outcome.val.world
  returns : Outcome.stuck ∉ t.outcome.log
  started : Outcome.created (.ok ()) ∈ t.outcome.log →
    t.before.world.threads.held = [] ∧
      t.outcome.val.world.created = t.before.world.created + 1 ∧
      t.outcome.val.world.threads.held = [some t.before.world.created]
  failed : ∀ e, Outcome.created (.error e) ∈ t.outcome.log →
    t.outcome.val.world.created = t.before.world.created ∧
      t.outcome.val.world.threads = t.before.world.threads
  destroyed : ∀ j, t.input = .destroy j → Outcome.destroyed (.ok ()) ∈ t.outcome.log →
    t.outcome.val.world.threads.held = []
  joined : ∀ j, t.input = .destroy j ∨ t.input = .destruct j → j.Joins →
    t.outcome.val.world.threads.held = []

section Step

variable {st : State}

theorem creating_sound (h : Accounted st.thread st.world) (env : Env PthreadCall)
    {creation : Prog PthreadCall (Except ThreadError Unit × Thread)} {op : Op}
    (hop : ∀ j, op ≠ .destroy j ∧ op ≠ .destruct j)
    (hwp : Prog.wp AnyReply ThreadWorld.nextPthread creation (Created st.thread st.world)
      st.world) : Sound ⟨st, op, st.creating env creation⟩ := by
  have hany : ∀ made c, AnyReply c (env made c) := fun _ _ => trivial
  have hcreated := Prog.wp_exec hany hwp
  refine ⟨hcreated.accounted h, ?_, ?_, ?_, fun j hj => absurd hj (hop j).1, ?_⟩
  · intro hstuck
    cases List.mem_singleton.mp hstuck
  · intro hmem
    have hok : (creation.exec env).val.1 = .ok () :=
      (Outcome.created.inj (List.mem_singleton.mp hmem)).symm
    obtain ⟨hinactive, -, -, hthreads⟩ := hcreated.ok hok
    have hnone : st.world.threads.held = [] := by
      rw [h.held, hinactive]
      rfl
    refine ⟨hnone, hcreated.counted hok, ?_⟩
    refine (congrArg Ledger.held hthreads).trans ?_
    rw [Ledger.next_acquire, hnone]
  · intro e he
    have herr : (creation.exec env).val.1 = .error e :=
      (Outcome.created.inj (List.mem_singleton.mp he)).symm
    obtain ⟨-, hcount, hthreads, -⟩ := hcreated.error e herr
    exact ⟨hcount, hthreads⟩
  · rintro j (hj | hj)
    · exact absurd hj (hop j).1
    · exact absurd hj (hop j).2

theorem destroying_sound (j : JoinEnv) {destruction : Prog ThreadCall Destroyed} {op : Op}
    (hop : op = .destroy j ∨ op = .destruct j)
    (hwp : Prog.wp AnyReply ThreadWorld.next destruction (Kept st.world) st.world)
    (hreturns : (destruction.exec j.env).val ≠ none)
    (hdestroyed : op = .destroy j → ∀ thread, (destruction.exec j.env).val =
      some (.ok (), thread) → thread.active = false)
    (hjoined : j.Joins → ∀ result thread, (destruction.exec j.env).val = some (result, thread) →
      thread.active = false) :
    Sound ⟨st, op, st.destroying j destruction⟩ := by
  have hany : ∀ made c, AnyReply c (j.env made c) := fun _ _ => trivial
  have hkept := Prog.wp_exec hany hwp
  cases hval : (destruction.exec j.env).val with
  | none => exact absurd hval hreturns
  | some r =>
    obtain ⟨result, thread⟩ := r
    have haccounted := (hkept result thread hval).1
    have hnone : thread.active = false → (List.foldl (fun w e => w.next e.1 e.2) st.world
        (destruction.exec j.env).log).threads.held = [] := by
      intro hinactive
      rw [haccounted.held, hinactive]
      rfl
    unfold State.destroying
    simp only [hval]
    refine ⟨haccounted, ?_, ?_, ?_, ?_, ?_⟩
    · intro hstuck
      cases List.mem_singleton.mp hstuck
    · intro hmem
      cases List.mem_singleton.mp hmem
    · intro e he
      cases List.mem_singleton.mp he
    · intro j' hj' hmem
      have hj : op = .destroy j := by
        rcases hop with h | h
        · exact h
        · rw [h] at hj'
          cases hj'
      have hresult := Outcome.destroyed.inj (List.mem_singleton.mp hmem)
      rw [← hresult] at hval
      exact hnone (hdestroyed hj thread hval)
    · intro j' hj' hjoins
      have hj : j' = j := by
        rcases hop with h | h <;> subst h <;> rcases hj' with h | h <;> cases h <;> rfl
      rw [hj] at hjoins
      exact hnone (hjoined hjoins result thread hval)

theorem step_sound (pthreadStackMin : UInt64) (h : Accounted st.thread st.world) (op : Op) :
    Sound ⟨st, op, step pthreadStackMin st op⟩ := by
  cases op with
  | create threadFunction stackSize priority params env =>
    exact creating_sound h env (by simp)
      (wp_create_created h.attrs pthreadStackMin threadFunction stackSize priority params)
  | createBare threadFunction stackSize priority env =>
    exact creating_sound h env (by simp)
      (wp_createBare_created h.attrs pthreadStackMin threadFunction stackSize priority)
  | destroy j =>
    refine destroying_sound j (Or.inl rfl) (wp_destroy_kept h _) (destroy_returns j st.thread)
      (fun _ _ hval => inactive_of_destroy hval) fun hjoins result thread hval => ?_
    obtain ⟨thread', hok⟩ := destroy_joins hjoins st.thread
    rw [hok] at hval
    cases hval
    exact inactive_of_destroy hok
  | destruct j =>
    exact destroying_sound j (Or.inr rfl) (wp_destruct_kept h _) (destruct_returns j st.thread)
      (fun hop => by cases hop) fun hjoins _ _ hval => inactive_of_destruct hjoins hval

end Step

/-- **Threads of an object.** After every operation of every sequence of creations, destructions
and destructors, whatever the pthread calls answer, the object is active exactly when there is
one thread it created and has not joined. There is never a second one beside it, no thread is
joined twice, every attribute object is destroyed once, a creation starts one thread if it succeeds
and none if it returns an error, a join that succeeds leaves none, and every operation returns in
which the join is not interrupted forever. -/
theorem thread_accounted (pthreadStackMin : UInt64) (ops : List Op) :
    ∀ t ∈ history (step pthreadStackMin) {} ops, Sound t := by
  have hstart : Accounted ({} : State).thread ({} : State).world :=
    ⟨rfl, Nat.zero_le 1, rfl, rfl, rfl, Nat.zero_le 1⟩
  intro t ht
  obtain ⟨hbefore, -, houtcome⟩ := history_forall (I := fun st => Accounted st.thread st.world)
    (fun _ op h => (step_sound pthreadStackMin h op).accounted) hstart ops t ht
  have hsound := step_sound pthreadStackMin hbefore t.input
  rw [← houtcome] at hsound
  exact hsound

/-- A second creation, on an object whose thread was created. -/
def createTwice : Transition State Op Outcome :=
  let op := Op.createBare (.one 1) 0 0 fun _ _ => 0
  ⟨(step 0 {} op).val, op, step 0 (step 0 {} op).val op⟩

theorem thread_accounted_createTwice : Sound createTwice :=
  thread_accounted 0 [createTwice.input, createTwice.input] createTwice
    (List.mem_cons_of_mem _ List.mem_cons_self)

/-- A thread that may not be scheduled in real time is started at the second attempt, not
started again while it is active, and joined after an interruption. -/
example :
    (run (step 0) {} [
      .create (.one 1) 0 5 (.param1 2) (fun made c =>
        match c with
        | .create _ _ => if made.any (fun e => e.1 == c) then 0 else EPERM
        | _ => 0),
      .createBare (.one 1) 0 0 (fun _ _ => 0),
      .destroy ⟨fun made _ => if made = [] then EINTR else 0, 1, by decide⟩]).val.world.threads =
      { held := [], peak := 1, strays := [] } := by
  decide

end ThreadSession

end EnoceanCore.PlatformCore
