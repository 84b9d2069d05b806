import EnoceanCore.PlatformCore.MessageQueue

/-!
# The Zephyr queue as a bounded queue

What a user may expect of a queue (`fifoStep`): a bounded queue that says when it is full or
empty. The Zephyr queue, used without waiting by any number of threads in any order, always
holds the messages of such a queue (`run_queueOf`). Its results are those of the
bounded queue as long as no message is sent to a full queue and none received from an empty
one: the kernel answers `-ENOMSG` then, which no table of the queue knows, so the result is
`Unknown` (`isBoundedFifo_iff`).
-/

namespace EnoceanCore.PlatformCore

open Lib

/-- A use of the queue by a thread, which does not wait. -/
inductive QueueOp (α : Type) where
  | init (buffer : UInt64) (capacity : UInt32)
  | send (thread : Nat) (msg : α)
  | receive (thread : Nat) (msg : α)
  | getFreeSpace (thread : Nat)
  deriving DecidableEq, Repr

/-- What comes of a use. A receive leaves its caller with a message. -/
inductive QueueOutcome (α : Type) where
  | initialised (result : QueueResult)
  | sent (msg : α) (result : QueueResult)
  | received (result : QueueResult) (msg : α)
  | waits
  | free (n : Nat)
  deriving DecidableEq

/-- The message that entered or left the queue. -/
def QueueOutcome.moved {α : Type} : QueueOutcome α → Option (FifoEvent α)
  | .sent msg (.ok _) => some (.pushed msg)
  | .received (.ok _) msg => some (.popped msg)
  | _ => none

variable {τ α : Type}

/-! ## What is expected -/

section Fifo

/-- A bounded queue is not there before its initialisation, which happens once. -/
def fifoInit (capacity : UInt32) : Option (Fifo α) → QueueResult × Option (Fifo α)
  | none =>
    if capacity = 0 then (.error .invalidParameter, none)
    else (.ok (), some (.empty capacity.toNat))
  | some q =>
    if capacity = 0 then (.error .invalidParameter, some q)
    else (.error .alreadyInitialized, some q)

def fifoSend (msg : α) : Option (Fifo α) → QueueResult × Option (Fifo α)
  | none => (.error .invalidQueue, none)
  | some q =>
    match q.push msg with
    | some q' => (.ok (), some q')
    | none => (.error .queueFull, some q)

def fifoReceive (msg : α) : Option (Fifo α) → QueueResult × α × Option (Fifo α)
  | none => (.error .invalidQueue, msg, none)
  | some q =>
    match q.pop with
    | some (first, q') => (.ok (), first, some q')
    | none => (.error .queueEmpty, msg, some q)

def fifoFree (q : Option (Fifo α)) : Nat := q.elim 0 Fifo.free

/-- A use of the bounded queue. -/
def fifoUse (q : Option (Fifo α)) : QueueOp α → QueueOutcome α × Option (Fifo α)
  | .init _ capacity => (.initialised (fifoInit capacity q).1, (fifoInit capacity q).2)
  | .send _ msg => (.sent msg (fifoSend msg q).1, (fifoSend msg q).2)
  | .receive _ msg =>
    (.received (fifoReceive msg q).1 (fifoReceive msg q).2.1, (fifoReceive msg q).2.2)
  | .getFreeSpace _ => (.free (fifoFree q), q)

end Fifo

/-- A step records its outcome. -/
def fifoStep (q : Option (Fifo α)) (op : QueueOp α) : Traced (QueueOutcome α) (Option (Fifo α)) :=
  ⟨(fifoUse q op).2, [(fifoUse q op).1]⟩

/-- The messages of a queue; none before its initialisation. -/
def pendingOf (q : Option (Fifo α)) : List α := q.elim [] Fifo.pending

/-- What one use moves. -/
theorem fifoUse_moved (q : Option (Fifo α)) (op : QueueOp α) :
    Moved (pendingOf q) ([(fifoUse q op).1].filterMap QueueOutcome.moved)
      (pendingOf (fifoUse q op).2) := by
  cases op with
  | init buffer capacity =>
    have hkeep : pendingOf (fifoInit capacity q).2 = pendingOf q := by
      cases q <;> rw [fifoInit] <;> split <;> rfl
    show Moved (pendingOf q) [] (pendingOf (fifoInit capacity q).2)
    rw [hkeep]
    exact Moved.nil _
  | send thread msg =>
    cases q with
    | none => exact Moved.nil _
    | some q =>
      cases hpush : q.push msg with
      | none =>
        simp only [fifoUse, fifoSend, hpush]
        exact Moved.nil _
      | some q' =>
        obtain ⟨-, -, hpending⟩ := Fifo.push_eq_some.mp hpush
        simp only [fifoUse, fifoSend, hpush]
        show Moved q.pending [.pushed msg] q'.pending
        rw [hpending]
        exact Moved.push _ _
  | receive thread msg =>
    cases q with
    | none => exact Moved.nil _
    | some q =>
      cases hpop : q.pop with
      | none =>
        simp only [fifoUse, fifoReceive, hpop]
        exact Moved.nil _
      | some first =>
        obtain ⟨hpending, -⟩ := Fifo.pop_eq_some.mp hpop
        simp only [fifoUse, fifoReceive, hpop]
        show Moved q.pending [.popped first.1] first.2.pending
        rw [hpending]
        exact Moved.pop _ _
  | getFreeSpace thread => exact Moved.nil _

/-- The messages come out of a bounded queue as they went in. -/
theorem fifo_moved (q : Option (Fifo α)) (ops : List (QueueOp α)) :
    Moved (pendingOf q) ((run fifoStep q ops).log.filterMap QueueOutcome.moved)
      (pendingOf (run fifoStep q ops).val) := by
  induction ops generalizing q with
  | nil => exact Moved.nil _
  | cons op ops ih =>
    rw [run_cons, Traced.log_bind, Traced.val_bind, List.filterMap_append]
    exact (fifoUse_moved q op).trans (ih _)

/-- A message is sent to a full queue or received from an empty one. -/
def Refused (t : Transition (Option (Fifo α)) (QueueOp α) (QueueOutcome α)) : Prop :=
  ∃ q, t.before = some q ∧
    match t.input with
    | .send _ _ => q.pending.length = q.capacity
    | .receive _ _ => q.pending = []
    | _ => False

instance (t : Transition (Option (Fifo α)) (QueueOp α) (QueueOutcome α)) :
    Decidable (Refused t) :=
  match t with
  | ⟨none, _, _⟩ => isFalse fun ⟨_, hnone, _⟩ => nomatch hnone
  | ⟨some q, .send _ _, _⟩ =>
    decidable_of_iff (q.pending.length = q.capacity)
      ⟨fun h => ⟨q, rfl, h⟩, fun ⟨_, hq, h⟩ => Option.some.inj hq ▸ h⟩
  | ⟨some q, .receive _ _, _⟩ =>
    decidable_of_iff (q.pending.length = 0)
      ⟨fun h => ⟨q, rfl, List.length_eq_zero_iff.mp h⟩,
        fun ⟨_, hq, h⟩ => List.length_eq_zero_iff.mpr (Option.some.inj hq ▸ h)⟩
  | ⟨some _, .init _ _, _⟩ => isFalse fun ⟨_, _, hfalse⟩ => hfalse
  | ⟨some _, .getFreeSpace _, _⟩ => isFalse fun ⟨_, _, hfalse⟩ => hfalse

/-! ## The Zephyr queue -/

/-- A step records its outcome; the queue is left as it is while a thread waits. -/
def queueStep (kernel : KMsgq τ α) (q : Guarded τ) :
    QueueOp α → Traced (QueueOutcome α) (Guarded τ)
  | .init buffer capacity =>
    match Zephyr.MessageQueue.init kernel buffer capacity q with
    | (result, q) => ⟨q, [.initialised result]⟩
  | .send _ msg =>
    match Zephyr.MessageQueue.send kernel msg .noWait q with
    | some (result, q) => ⟨q, [.sent msg result]⟩
    | none => ⟨q, [.waits]⟩
  | .receive _ msg =>
    match Zephyr.MessageQueue.receive kernel msg .noWait q with
    | some (result, msg, q) => ⟨q, [.received result msg]⟩
    | none => ⟨q, [.waits]⟩
  | .getFreeSpace _ => ⟨q, [.free (Zephyr.MessageQueue.getFreeSpace kernel q)]⟩

/-- The bounded queue that a Zephyr queue is. -/
def queueOf (contents : τ → Fifo α) (q : Guarded τ) : Option (Fifo α) :=
  if q.initialized then some (contents q.object) else none

section Step

variable {kernel : KMsgq τ α} {contents : τ → Fifo α}

theorem queueOf_of_initialized {q : Guarded τ} (h : q.initialized = true) :
    queueOf contents q = some (contents q.object) := if_pos h

theorem queueOf_of_not_initialized {q : Guarded τ} (h : q.initialized = false) :
    queueOf contents q = none := by
  rw [queueOf, h, if_neg Bool.false_ne_true]

theorem queueOf_update {q : Guarded τ} (h : q.initialized = true) (queue : τ) :
    queueOf contents { q with object := queue } = some (contents queue) := if_pos h

theorem init_eq (hkernel : kernel.Lawful contents) (q : Guarded τ) (buffer : UInt64)
    (capacity : UInt32) :
    (Zephyr.MessageQueue.init kernel buffer capacity q).1 =
        (fifoInit capacity (queueOf contents q)).1 ∧
      queueOf contents (Zephyr.MessageQueue.init kernel buffer capacity q).2 =
        (fifoInit capacity (queueOf contents q)).2 := by
  rw [Zephyr.MessageQueue.init, initQueue]
  cases hinit : q.initialized with
  | false =>
    rw [queueOf_of_not_initialized hinit, fifoInit]
    by_cases hzero : capacity = 0
    · rw [if_pos hzero, if_pos hzero]
      exact ⟨rfl, queueOf_of_not_initialized hinit⟩
    · rw [if_neg hzero, if_neg hzero, Zephyr.MessageQueue.initImpl, if_neg hzero, hinit,
        if_neg Bool.false_ne_true]
      exact ⟨rfl, congrArg some (hkernel.init q.object buffer capacity)⟩
  | true =>
    rw [queueOf_of_initialized hinit, fifoInit]
    by_cases hzero : capacity = 0
    · rw [if_pos hzero, if_pos hzero]
      exact ⟨rfl, queueOf_of_initialized hinit⟩
    · rw [if_neg hzero, if_neg hzero, Zephyr.MessageQueue.initImpl, if_neg hzero, hinit,
        if_pos rfl]
      exact ⟨rfl, queueOf_of_initialized hinit⟩

/-- A send that does not wait: the result of the bounded queue, but for a full one. -/
theorem send_eq (hkernel : kernel.Lawful contents) (q : Guarded τ) (msg : α) :
    ∃ result q', Zephyr.MessageQueue.send kernel msg .noWait q = some (result, q') ∧
      queueOf contents q' = (fifoSend msg (queueOf contents q)).2 ∧
      (result = (fifoSend msg (queueOf contents q)).1 ↔
        ∀ r, queueOf contents q = some r → r.pending.length ≠ r.capacity) := by
  cases hinit : q.initialized with
  | false =>
    refine ⟨.error .invalidQueue, q, ?_, ?_, ?_⟩
    · rw [Zephyr.MessageQueue.send, if_pos (by simp [hinit])]
      rfl
    · rw [queueOf_of_not_initialized hinit]
      rfl
    · rw [queueOf_of_not_initialized hinit]
      exact iff_of_true rfl fun r hr => by cases hr
  | true =>
    rw [queueOf_of_initialized hinit]
    cases hpush : (contents q.object).push msg with
    | some after =>
      obtain ⟨queue, hput, hcontents⟩ := hkernel.put q.object msg .noWait after hpush
      refine ⟨.ok (), { q with object := queue }, ?_, ?_, ?_⟩
      · rw [Zephyr.MessageQueue.send_eq kernel hinit, hput]
        rfl
      · rw [queueOf_update hinit, hcontents, fifoSend, hpush]
      · rw [fifoSend, hpush]
        refine iff_of_true rfl fun r hr => ?_
        cases hr
        exact Nat.ne_of_lt (Fifo.push_eq_some.mp hpush).1
    | none =>
      obtain ⟨queue, hput, hcontents⟩ := hkernel.putFull q.object msg hpush
      refine ⟨.error .unknown, { q with object := queue }, ?_, ?_, ?_⟩
      · rw [Zephyr.MessageQueue.send_eq kernel hinit, hput]
        rfl
      · rw [queueOf_update hinit, hcontents, fifoSend, hpush]
      · rw [fifoSend, hpush]
        refine iff_of_false (fun h => by cases h) fun h => ?_
        exact h _ rfl (Fifo.push_eq_none.mp hpush)

/-- A receive that does not wait: the result of the bounded queue, but for an empty one. -/
theorem receive_eq (hkernel : kernel.Lawful contents) (q : Guarded τ) (msg : α) :
    ∃ result msg' q', Zephyr.MessageQueue.receive kernel msg .noWait q = some (result, msg', q') ∧
      msg' = (fifoReceive msg (queueOf contents q)).2.1 ∧
      queueOf contents q' = (fifoReceive msg (queueOf contents q)).2.2 ∧
      (result = (fifoReceive msg (queueOf contents q)).1 ↔
        ∀ r, queueOf contents q = some r → r.pending ≠ []) := by
  cases hinit : q.initialized with
  | false =>
    refine ⟨.error .invalidQueue, msg, q, ?_, ?_, ?_, ?_⟩
    · rw [Zephyr.MessageQueue.receive, if_pos (by simp [hinit])]
      rfl
    · rw [queueOf_of_not_initialized hinit]
      rfl
    · rw [queueOf_of_not_initialized hinit]
      rfl
    · rw [queueOf_of_not_initialized hinit]
      exact iff_of_true rfl fun r hr => by cases hr
  | true =>
    rw [queueOf_of_initialized hinit]
    cases hpop : (contents q.object).pop with
    | some after =>
      obtain ⟨first, rest⟩ := after
      obtain ⟨queue, hget, hcontents⟩ := hkernel.get q.object msg .noWait first rest hpop
      refine ⟨.ok (), first, { q with object := queue }, ?_, ?_, ?_, ?_⟩
      · rw [Zephyr.MessageQueue.receive_eq kernel hinit, hget]
        rfl
      · rw [fifoReceive, hpop]
      · rw [queueOf_update hinit, hcontents, fifoReceive, hpop]
      · rw [fifoReceive, hpop]
        refine iff_of_true rfl fun r hr hempty => ?_
        cases hr
        rw [Fifo.pop_eq_none.mpr hempty] at hpop
        cases hpop
    | none =>
      obtain ⟨queue, hget, hcontents⟩ := hkernel.getEmpty q.object msg hpop
      refine ⟨.error .unknown, msg, { q with object := queue }, ?_, ?_, ?_, ?_⟩
      · rw [Zephyr.MessageQueue.receive_eq kernel hinit, hget]
        rfl
      · rw [fifoReceive, hpop]
      · rw [queueOf_update hinit, hcontents, fifoReceive, hpop]
      · rw [fifoReceive, hpop]
        refine iff_of_false (fun h => by cases h) fun h => ?_
        exact h _ rfl (Fifo.pop_eq_none.mp hpop)

theorem getFreeSpace_eq (hkernel : kernel.Lawful contents) (q : Guarded τ) :
    Zephyr.MessageQueue.getFreeSpace kernel q = fifoFree (queueOf contents q) := by
  unfold Zephyr.MessageQueue.getFreeSpace
  cases hinit : q.initialized with
  | false =>
    rw [queueOf_of_not_initialized hinit]
    rfl
  | true =>
    rw [queueOf_of_initialized hinit]
    exact hkernel.numFree q.object

/-- **Steps.** The Zephyr queue follows the bounded queue. A step records one outcome, the same
if and only if the bounded queue does not refuse the use. -/
theorem queueStep_follows (hkernel : kernel.Lawful contents) (q : Guarded τ) (op : QueueOp α) :
    queueOf contents (queueStep kernel q op).val = (fifoStep (queueOf contents q) op).val ∧
      (queueStep kernel q op).log.length = 1 ∧
      ((queueStep kernel q op).log = (fifoStep (queueOf contents q) op).log ↔
        ¬ Refused ⟨queueOf contents q, op, fifoStep (queueOf contents q) op⟩) := by
  cases op with
  | init buffer capacity =>
    obtain ⟨hresult, hqueue⟩ := init_eq hkernel q buffer capacity
    refine ⟨hqueue, rfl, iff_of_true ?_ fun ⟨_, _, hfalse⟩ => hfalse⟩
    show [QueueOutcome.initialised (Zephyr.MessageQueue.init kernel buffer capacity q).1] = _
    rw [hresult]
    rfl
  | send thread msg =>
    obtain ⟨result, q', hsend, hqueue, hresult⟩ := send_eq hkernel q msg
    have hstep : queueStep kernel q (.send thread msg) = ⟨q', [.sent msg result]⟩ := by
      rw [queueStep, hsend]
    rw [hstep]
    refine ⟨hqueue, rfl, ?_⟩
    have hlog : [QueueOutcome.sent msg result] = (fifoStep (queueOf contents q)
        (.send thread msg)).log ↔ result = (fifoSend msg (queueOf contents q)).1 := by
      simp [fifoStep, fifoUse]
    rw [hlog, hresult]
    constructor
    · rintro h ⟨r, hr, hfull⟩
      exact h r hr hfull
    · intro h r hr hfull
      exact h ⟨r, hr, hfull⟩
  | receive thread msg =>
    obtain ⟨result, msg', q', hreceive, hmsg, hqueue, hresult⟩ := receive_eq hkernel q msg
    have hstep : queueStep kernel q (.receive thread msg) = ⟨q', [.received result msg']⟩ := by
      rw [queueStep, hreceive]
    rw [hstep]
    refine ⟨hqueue, rfl, ?_⟩
    have hlog : [QueueOutcome.received result msg'] = (fifoStep (queueOf contents q)
        (.receive thread msg)).log ↔ result = (fifoReceive msg (queueOf contents q)).1 := by
      simp [fifoStep, fifoUse, hmsg]
    rw [hlog, hresult]
    constructor
    · rintro h ⟨r, hr, hempty⟩
      exact h r hr hempty
    · intro h r hr hempty
      exact h ⟨r, hr, hempty⟩
  | getFreeSpace thread =>
    refine ⟨rfl, rfl, iff_of_true ?_ fun ⟨_, _, hfalse⟩ => hfalse⟩
    show [QueueOutcome.free _] = [QueueOutcome.free _]
    rw [getFreeSpace_eq hkernel]

end Step

/-! ## Whole runs -/

/-- The results of a run are those of a bounded queue, and the messages come out of it in
order, without loss or duplication. -/
structure IsBoundedFifo (kernel : KMsgq τ α) (contents : τ → Fifo α) (q : Guarded τ)
    (ops : List (QueueOp α)) : Prop where
  results : (run (queueStep kernel) q ops).log = (run fifoStep (queueOf contents q) ops).log
  moved : Moved (pendingOf (queueOf contents q))
    ((run (queueStep kernel) q ops).log.filterMap QueueOutcome.moved)
    (pendingOf (queueOf contents (run (queueStep kernel) q ops).val))

theorem run_queueOf {kernel : KMsgq τ α} {contents : τ → Fifo α}
    (hkernel : kernel.Lawful contents) (q : Guarded τ) (ops : List (QueueOp α)) :
    queueOf contents (run (queueStep kernel) q ops).val =
      (run fifoStep (queueOf contents q) ops).val := by
  induction ops generalizing q with
  | nil => rfl
  | cons op ops ih =>
    rw [run_cons, run_cons, Traced.val_bind, Traced.val_bind, ih,
      (queueStep_follows hkernel q op).1]

/-- **The Zephyr queue.** From its construction on, a queue that does not wait gives the results
of a bounded queue if and only if no message is sent to a full queue and none is received from
an empty one. -/
theorem isBoundedFifo_iff {kernel : KMsgq τ α} {contents : τ → Fifo α}
    (hkernel : kernel.Lawful contents) (object : τ) (ops : List (QueueOp α)) :
    IsBoundedFifo kernel contents { object := object } ops ↔
      ∀ t ∈ history fifoStep none ops, ¬ Refused t := by
  have hiff : (run (queueStep kernel) { object := object } ops).log =
      (run fifoStep none ops).log ↔ ∀ t ∈ history fifoStep none ops, ¬ Refused t := by
    refine run_log_eq_iff (R := fun a q => a = queueOf contents q) ?_ ?_ ?_ rfl ops
    · intro a q op hop
      subst hop
      exact (queueStep_follows hkernel q op).1.symm
    · intro a q op hop
      subst hop
      exact (queueStep_follows hkernel q op).2.1
    · intro a q op hop
      subst hop
      exact (queueStep_follows hkernel q op).2.2
  rw [← hiff]
  refine ⟨fun h => h.results, fun hresults => ⟨hresults, ?_⟩⟩
  rw [hresults, run_queueOf hkernel]
  exact fifo_moved none ops

/-! ## A kernel -/

/-- A bounded queue whose capacity is a `uint32_t`. -/
abbrev Msgq (α : Type) : Type := { q : Fifo α // q.capacity < 4294967296 }

/-- A Zephyr queue that is a bounded queue. -/
def msgq (α : Type) : KMsgq (Msgq α) α where
  init _ _ maxMsgs := ⟨.empty maxMsgs.toNat, UInt32.toNat_lt maxMsgs⟩
  put s m timeout :=
    match h : s.val.push m with
    | some q => some (0, ⟨q, (Fifo.push_eq_some.mp h).2.1 ▸ s.property⟩)
    | none =>
      match timeout with
      | .forever => none
      | .ticks n => some (if n = 0 then -Zephyr.ENOMSG else -Zephyr.EAGAIN, s)
  get s m timeout :=
    match h : s.val.pop with
    | some (first, q) => some (0, first, ⟨q, (Fifo.pop_eq_some.mp h).2 ▸ s.property⟩)
    | none =>
      match timeout with
      | .forever => none
      | .ticks n => some (if n = 0 then -Zephyr.ENOMSG else -Zephyr.EAGAIN, m, s)
  numFree s := UInt32.ofNat s.val.free

theorem msgq_lawful (α : Type) : (msgq α).Lawful Subtype.val where
  init s buffer maxMsgs := rfl
  put s m timeout q hpush := by
    refine ⟨⟨q, (Fifo.push_eq_some.mp hpush).2.1 ▸ s.property⟩, ?_, rfl⟩
    simp only [msgq]
    split
    · rename_i after hafter
      rw [hpush] at hafter
      cases hafter
      rfl
    · rename_i hnone
      rw [hpush] at hnone
      cases hnone
  putFull s m hpush := by
    refine ⟨s, ?_, rfl⟩
    simp only [msgq]
    split
    · rename_i after hafter
      rw [hpush] at hafter
      cases hafter
    · rfl
  get s m timeout first q hpop := by
    refine ⟨⟨q, (Fifo.pop_eq_some.mp hpop).2 ▸ s.property⟩, ?_, rfl⟩
    simp only [msgq]
    split
    · rename_i first' q' hafter
      rw [hpop] at hafter
      cases hafter
      rfl
    · rename_i hnone
      rw [hpop] at hnone
      cases hnone
  getEmpty s m hpop := by
    refine ⟨s, ?_, rfl⟩
    simp only [msgq]
    split
    · rename_i first' q' hafter
      rw [hpop] at hafter
      cases hafter
    · rfl
  numFree s := by
    apply UInt32.toNat_ofNat_of_lt'
    exact Nat.lt_of_le_of_lt (Nat.sub_le _ _) s.property

/-- A queue of two messages, filled, emptied and initialised again on the way. -/
theorem isBoundedFifo_between :
    IsBoundedFifo (msgq Nat) Subtype.val { object := ⟨.empty 0, by decide⟩ }
      [.receive 0 0, .init 64 2, .send 0 10, .send 1 11, .init 64 5, .getFreeSpace 0,
        .receive 1 0, .send 0 12, .receive 1 0, .receive 0 0] :=
  (isBoundedFifo_iff (msgq_lawful Nat) ⟨.empty 0, by decide⟩ _).mpr (by decide)

/-- Nothing to receive: the result is not `QueueEmpty`. -/
theorem not_isBoundedFifo_of_receive :
    (msgq Nat).Lawful Subtype.val ∧
      ¬ IsBoundedFifo (msgq Nat) Subtype.val { object := ⟨.empty 0, by decide⟩ }
        [.init 64 1, .receive 0 7] :=
  ⟨msgq_lawful Nat, fun h => absurd h.results (by decide)⟩

end EnoceanCore.PlatformCore
