import EnoceanCore.PlatformCore.QueueFifo
import EnoceanCore.Lib.Handles

/-!
# The descriptor of a POSIX queue

A POSIX queue from its construction to its destructor, over a system that keeps account of the
descriptors `mq_open` returned (`PosixMqLife.ledgered`). `init_impl` overwrites `mqd_` with the
result of `mq_open` and asks neither whether it holds a descriptor already nor, before it
overwrites it, whether the call failed.

So a queue keeps its descriptor through a failed `init`, and closes every descriptor exactly
once, if and only if no `init` reaches `mq_open` while the queue has a descriptor
(`descriptorKept_iff`). The Zephyr queue refuses such an `init` and changes nothing.
-/

namespace EnoceanCore.PlatformCore

open Lib

/-! ## The destructor -/

/-- The calls of a POSIX system for the whole life of a queue. -/
structure PosixMqLife (σ α : Type) extends PosixMq σ α where
  mqClose : σ → (mqd : Int) → Answer × σ
  mqUnlink : σ → (name : List UInt8) → Answer × σ

/-- `MessageQueue::~MessageQueue`. -/
def Posix.MessageQueue.destroy {σ α : Type} (kernel : PosixMqLife σ α) (q : MessageQueue) (s : σ) :
    σ :=
  if q.mqd ≠ -1 then
    let s := (kernel.mqClose s q.mqd).2
    match q.queueName with
    | [] => s
    | _ :: _ => (kernel.mqUnlink s q.queueName).2
  else s

/-! ## Keeping account of descriptors -/

/-- A system and the message queue descriptors that are open. -/
structure Ledgered (σ : Type) where
  system : σ
  mqds : Ledger Int := {}

namespace PosixMqLife

variable {σ α : Type}

/-- The same system with an account of the descriptors of `mq_open`. -/
def ledgered (kernel : PosixMqLife σ α) : PosixMqLife (Ledgered σ) α where
  mqOpen s name maxmsg :=
    match kernel.mqOpen s.system name maxmsg with
    | (a, system) =>
      (a, ⟨system, if a.result = -1 then s.mqds else s.mqds.next (.acquire a.result)⟩)
  mqClose s mqd :=
    match kernel.mqClose s.system mqd with
    | (a, system) => (a, ⟨system, s.mqds.next (.release mqd)⟩)
  mqUnlink s name :=
    match kernel.mqUnlink s.system name with
    | (a, system) => (a, { s with system := system })
  mqSend s mqd msg :=
    (kernel.mqSend s.system mqd msg).map fun r => (r.1, { s with system := r.2 })
  mqTimedsend s mqd msg deadline :=
    (kernel.mqTimedsend s.system mqd msg deadline).map fun r => (r.1, { s with system := r.2 })
  mqReceive s mqd msg :=
    (kernel.mqReceive s.system mqd msg).map fun r => (r.1, r.2.1, { s with system := r.2.2 })
  mqTimedreceive s mqd msg deadline :=
    (kernel.mqTimedreceive s.system mqd msg deadline).map fun r =>
      (r.1, r.2.1, { s with system := r.2.2 })
  mqGetattr s mqd := kernel.mqGetattr s.system mqd
  clockGettime s := kernel.clockGettime s.system

/-- What POSIX documents: an `mq_open` that fails opens nothing and changes no queue. -/
def FailedOpenKeeps (kernel : PosixMqLife σ α) : Prop :=
  ∀ s name maxmsg, (kernel.mqOpen s name maxmsg).1.result = -1 →
    (kernel.mqOpen s name maxmsg).2 = s

end PosixMqLife

/-! ## Sessions -/

namespace QueueSession

/-- A use of the queue. -/
inductive Op (α : Type) where
  | init (capacity : UInt32)
  | send (msg : α) (timeoutMs : UInt32)
  | receive (msg : α) (timeoutMs : UInt32)
  | getFreeSpace
  deriving DecidableEq, Repr

/-- The queue object and its system. -/
abbrev State (σ : Type) : Type := Posix.MessageQueue × Ledgered σ

section Step

variable {σ α : Type} (kernel : PosixMqLife σ α)

/-- The calls of the queue, over a system that keeps account of descriptors. -/
abbrev system : PosixMq (Ledgered σ) α := kernel.ledgered.toPosixMq

/-- A use of the queue. A call that waits changes nothing. -/
def step (st : State σ) : Op α → Traced (QueueOutcome α) (State σ)
  | .init capacity =>
    match Posix.MessageQueue.init (system kernel) capacity st with
    | (result, st) => ⟨st, [.initialised result]⟩
  | .send msg timeoutMs =>
    match Posix.MessageQueue.send (system kernel) st.1 msg timeoutMs st.2 with
    | none => ⟨st, [.waits]⟩
    | some (result, s) => ⟨(st.1, s), [.sent msg result]⟩
  | .receive msg timeoutMs =>
    match Posix.MessageQueue.receive (system kernel) st.1 msg timeoutMs st.2 with
    | none => ⟨st, [.waits]⟩
    | some (result, msg, s) => ⟨(st.1, s), [.received result msg]⟩
  | .getFreeSpace => ⟨st, [.free (Posix.MessageQueue.getFreeSpace (system kernel) st.1 st.2)]⟩

/-- A queue of this name before its first use. -/
def start (name : List UInt8) (s : σ) : State σ :=
  (Posix.MessageQueue.construct name, { system := s })

/-- The descriptors after the queue is destroyed. -/
def descriptorsLeft (st : State σ) : Ledger Int :=
  (Posix.MessageQueue.destroy kernel.ledgered st.1 st.2).mqds

end Step

/-! ## What is expected -/

section Expected

variable {σ α : Type}

/-- An `init` that returns an error leaves the queue and its system as they were. -/
def KeptOnError (t : Transition (State σ) (Op α) (QueueOutcome α)) : Prop :=
  ∀ e, t.outcome.log = [.initialised (.error e)] → t.outcome.val = t.before

/-- Every descriptor was closed exactly once, and nothing else was closed. -/
structure ClosedOnce (mqds : Ledger Int) : Prop where
  held : mqds.held = []
  strays : mqds.strays = []

/-- An `init` with a capacity while the queue has a descriptor. -/
def Reopens (t : Transition (State σ) (Op α) (QueueOutcome α)) : Prop :=
  match t.input with
  | .init capacity => capacity ≠ 0 ∧ t.before.1.mqd ≠ -1
  | _ => False

/-- The open descriptor is the one of the queue, which has a name that `mq_open` takes. -/
structure Owned (st : State σ) : Prop where
  held : st.2.mqds.held = if st.1.mqd = -1 then [] else [st.1.mqd]
  strays : st.2.mqds.strays = []
  named : st.1.mqd ≠ -1 → st.1.queueName.head? = some 0x2F

end Expected

/-! ## What an `init` does -/

section Steps

variable {σ α : Type} {kernel : PosixMqLife σ α} {st : State σ}

/-- What becomes of an `init`. -/
inductive InitOutcome (kernel : PosixMqLife σ α) (st : State σ) (capacity : UInt32) : Prop
  /-- `mq_open` is not reached. -/
  | refused (hno : ¬ (capacity ≠ 0 ∧ st.1.queueName.head? = some 0x2F)) (e : MessageQueueError)
      (heq : step kernel st (.init capacity) = ⟨st, [.initialised (.error e)]⟩)
  /-- `mq_open` fails; the queue has no descriptor any more. -/
  | failed (hcapacity : capacity ≠ 0) (hname : st.1.queueName.head? = some 0x2F)
      (hopen : (kernel.mqOpen st.2.system st.1.queueName capacity).1.result = -1)
      (e : MessageQueueError)
      (heq : step kernel st (.init capacity) =
        ⟨({ st.1 with mqd := -1 },
          { st.2 with system := (kernel.mqOpen st.2.system st.1.queueName capacity).2 }),
          [.initialised (.error e)]⟩)
  /-- `mq_open` returns a descriptor. -/
  | opened (hcapacity : capacity ≠ 0) (hname : st.1.queueName.head? = some 0x2F) (mqd : Int)
      (hmqd : mqd ≠ -1) (after : σ)
      (heq : step kernel st (.init capacity) =
        ⟨({ st.1 with mqd := mqd }, ⟨after, st.2.mqds.next (.acquire mqd)⟩),
          [.initialised (.ok ())]⟩)

theorem init_outcome (kernel : PosixMqLife σ α) (st : State σ) (capacity : UInt32) :
    InitOutcome kernel st capacity := by
  by_cases hvalid : capacity ≠ 0 ∧ st.1.queueName.head? = some 0x2F
  · obtain ⟨hcapacity, hname⟩ := hvalid
    have hinit := Posix.MessageQueue.init_of_valid (system kernel) st.2 hcapacity hname
    by_cases hopen : (kernel.mqOpen st.2.system st.1.queueName capacity).1.result = -1
    · refine .failed hcapacity hname hopen (Posix.MessageQueue.errnoToError
        (kernel.mqOpen st.2.system st.1.queueName capacity).1.errno) ?_
      rw [step, hinit]
      simp [system, PosixMqLife.ledgered, hopen]
    · refine .opened hcapacity hname _ hopen
        (kernel.mqOpen st.2.system st.1.queueName capacity).2 ?_
      rw [step, hinit]
      simp [system, PosixMqLife.ledgered, hopen]
  · refine .refused hvalid .invalidParameter ?_
    rw [step, Posix.MessageQueue.init_of_invalid (system kernel) st.2 hvalid]

/-- The calls of a send leave the descriptors alone. -/
theorem mqds_sendCall {q : Posix.MessageQueue} {msg : α} {timeoutMs : UInt32}
    {s : Ledgered σ} {r : Answer × Ledgered σ}
    (h : Posix.MessageQueue.sendCall (system kernel) q msg timeoutMs s = some r) :
    r.2.mqds = s.mqds := by
  rw [Posix.MessageQueue.sendCall] at h
  split at h
  all_goals
    obtain ⟨r', -, rfl⟩ := Option.map_eq_some_iff.mp h
    rfl

/-- The calls of a receive leave the descriptors alone. -/
theorem mqds_receiveCall {q : Posix.MessageQueue} {msg : α} {timeoutMs : UInt32}
    {s : Ledgered σ} {r : Answer × α × Ledgered σ}
    (h : Posix.MessageQueue.receiveCall (system kernel) q msg timeoutMs s = some r) :
    r.2.2.mqds = s.mqds := by
  rw [Posix.MessageQueue.receiveCall] at h
  split at h
  all_goals
    obtain ⟨r', -, rfl⟩ := Option.map_eq_some_iff.mp h
    rfl

theorem mqds_send {q : Posix.MessageQueue} {msg : α} {timeoutMs : UInt32}
    {s : Ledgered σ} {r : QueueResult × Ledgered σ}
    (h : Posix.MessageQueue.send (system kernel) q msg timeoutMs s = some r) :
    r.2.mqds = s.mqds := by
  by_cases hq : q.mqd = -1
  · rw [Posix.MessageQueue.send_of_invalid (system kernel) hq] at h
    cases h
    rfl
  · rw [Posix.MessageQueue.send_eq (system kernel) hq] at h
    obtain ⟨r', hcall, rfl⟩ := Option.map_eq_some_iff.mp h
    exact mqds_sendCall hcall

theorem mqds_receive {q : Posix.MessageQueue} {msg : α} {timeoutMs : UInt32}
    {s : Ledgered σ} {r : QueueResult × α × Ledgered σ}
    (h : Posix.MessageQueue.receive (system kernel) q msg timeoutMs s = some r) :
    r.2.2.mqds = s.mqds := by
  by_cases hq : q.mqd = -1
  · rw [Posix.MessageQueue.receive_of_invalid (system kernel) hq] at h
    cases h
    rfl
  · rw [Posix.MessageQueue.receive_eq (system kernel) hq] at h
    obtain ⟨r', hcall, rfl⟩ := Option.map_eq_some_iff.mp h
    exact mqds_receiveCall hcall

/-- What the other uses leave alone. -/
structure Untouched (st : State σ) (x : Traced (QueueOutcome α) (State σ)) : Prop where
  queue : x.val.1 = st.1
  mqds : x.val.2.mqds = st.2.mqds
  noInit : ∀ result, x.log ≠ [.initialised result]

theorem step_other (kernel : PosixMqLife σ α) (st : State σ) {op : Op α}
    (h : ∀ capacity, op ≠ .init capacity) : Untouched st (step kernel st op) := by
  cases op with
  | init capacity => exact absurd rfl (h capacity)
  | send msg timeoutMs =>
    rw [step]
    split
    · exact ⟨rfl, rfl, fun _ heq => by cases heq⟩
    · rename_i hsend
      exact ⟨rfl, mqds_send hsend, fun _ heq => by cases heq⟩
  | receive msg timeoutMs =>
    rw [step]
    split
    · exact ⟨rfl, rfl, fun _ heq => by cases heq⟩
    · rename_i hreceive
      exact ⟨rfl, mqds_receive hreceive, fun _ heq => by cases heq⟩
  | getFreeSpace => exact ⟨rfl, rfl, fun _ heq => by cases heq⟩

/-- Only the destructor closes descriptors. -/
theorem held_length_mono (kernel : PosixMqLife σ α) (st : State σ) (op : Op α) :
    st.2.mqds.held.length ≤ (step kernel st op).val.2.mqds.held.length := by
  by_cases hinit : ∃ capacity, op = .init capacity
  · obtain ⟨capacity, rfl⟩ := hinit
    cases init_outcome kernel st capacity with
    | refused hno e heq =>
      apply Nat.le_of_eq
      rw [heq]
    | failed hcapacity hname hopen e heq =>
      apply Nat.le_of_eq
      rw [heq]
    | opened hcapacity hname mqd hmqd after heq =>
      rw [heq]
      exact Nat.le_succ _
  · apply Nat.le_of_eq
    rw [(step_other kernel st (not_exists.mp hinit)).mqds]

theorem owned_start (name : List UInt8) (s : σ) : Owned (start name s) :=
  ⟨rfl, rfl, fun hmqd => absurd rfl hmqd⟩

/-- A step that is no second opening keeps the descriptor, and keeps everything on an error. -/
theorem step_owned (hfail : kernel.FailedOpenKeeps) (h : Owned st) {op : Op α}
    (hno : ¬ Reopens ⟨st, op, step kernel st op⟩) :
    Owned (step kernel st op).val ∧ KeptOnError ⟨st, op, step kernel st op⟩ := by
  by_cases hinit : ∃ capacity, op = .init capacity
  · obtain ⟨capacity, rfl⟩ := hinit
    cases init_outcome kernel st capacity with
    | refused hrefused e heq =>
      rw [heq]
      exact ⟨h, fun _ _ => rfl⟩
    | failed hcapacity hname hopen e heq =>
      -- there was no descriptor before, and the failed call changes nothing
      have hmqd : st.1.mqd = -1 := by
        by_contra hmqd
        exact hno ⟨hcapacity, hmqd⟩
      have hsame : (step kernel st (.init capacity)).val = st := by
        rw [heq, hfail _ _ _ hopen, ← hmqd]
      exact ⟨hsame.symm ▸ h, fun _ _ => hsame⟩
    | opened hcapacity hname mqd hmqd after heq =>
      have hnone : st.1.mqd = -1 := by
        by_contra hmqd
        exact hno ⟨hcapacity, hmqd⟩
      rw [heq]
      refine ⟨⟨?_, h.strays, fun _ => hname⟩, fun e herr => by cases herr⟩
      show mqd :: st.2.mqds.held = if mqd = -1 then [] else [mqd]
      rw [h.held, if_pos hnone, if_neg hmqd]
  · have hother := step_other kernel st (not_exists.mp hinit)
    refine ⟨⟨?_, ?_, ?_⟩, fun e herr => absurd herr (hother.noInit _)⟩
    · rw [hother.mqds, hother.queue]
      exact h.held
    · rw [hother.mqds]
      exact h.strays
    · rw [hother.queue]
      exact h.named

/-- A second opening loses the descriptor there is: the queue has none after an error, or there
are two. -/
theorem step_of_reopens (h : Owned st) {op : Op α} (hre : Reopens ⟨st, op, step kernel st op⟩) :
    ¬ KeptOnError ⟨st, op, step kernel st op⟩ ∨
      2 ≤ (step kernel st op).val.2.mqds.held.length := by
  cases op with
  | init capacity =>
    obtain ⟨hcapacity, hmqd⟩ := hre
    cases init_outcome kernel st capacity with
    | refused hrefused e heq => exact absurd ⟨hcapacity, h.named hmqd⟩ hrefused
    | failed hcapacity hname hopen e heq =>
      left
      intro hkept
      rw [heq] at hkept
      have hsame := hkept e rfl
      exact hmqd (congrArg (fun st : State σ => st.1.mqd) hsame).symm
    | opened hcapacity hname mqd hnew after heq =>
      right
      rw [heq]
      show 2 ≤ (mqd :: st.2.mqds.held).length
      rw [h.held, if_neg hmqd]
      exact Nat.le_refl 2
  | send msg timeoutMs => cases hre
  | receive msg timeoutMs => cases hre
  | getFreeSpace => cases hre

end Steps

/-! ## The destructor -/

section Destructor

variable {σ α : Type} {kernel : PosixMqLife σ α} {st : State σ}

theorem descriptorsLeft_eq (kernel : PosixMqLife σ α) (st : State σ) :
    descriptorsLeft kernel st =
      if st.1.mqd = -1 then st.2.mqds else st.2.mqds.next (.release st.1.mqd) := by
  rw [descriptorsLeft, Posix.MessageQueue.destroy]
  by_cases hmqd : st.1.mqd = -1
  · rw [if_pos hmqd, if_neg (not_not.mpr hmqd)]
  · rw [if_neg hmqd, if_pos hmqd]
    dsimp only
    split <;> rfl

/-- The destructor closes the descriptor of the queue. -/
theorem closedOnce_of_owned (h : Owned st) : ClosedOnce (descriptorsLeft kernel st) := by
  rw [descriptorsLeft_eq]
  by_cases hmqd : st.1.mqd = -1
  · have hheld := h.held
    rw [if_pos hmqd] at hheld
    rw [if_pos hmqd]
    exact ⟨hheld, h.strays⟩
  · have hheld := h.held
    rw [if_neg hmqd] at hheld
    rw [if_neg hmqd, Ledger.next_release_head hheld]
    exact ⟨rfl, h.strays⟩

/-- It closes one descriptor at most. -/
theorem not_closedOnce_of_two (h : 2 ≤ st.2.mqds.held.length) :
    ¬ ClosedOnce (descriptorsLeft kernel st) := by
  intro hclosed
  have hheld := hclosed.held
  rw [descriptorsLeft_eq] at hheld
  have hlen := congrArg List.length hheld
  split at hlen
  · rw [List.length_nil] at hlen
    omega
  · rw [Ledger.next] at hlen
    split at hlen
    · rename_i hmem
      rw [List.length_erase_of_mem hmem, List.length_nil] at hlen
      omega
    · rw [List.length_nil] at hlen
      dsimp only at hlen
      omega

end Destructor

/-! ## Whole lives -/

section Life

variable {σ α : Type} {kernel : PosixMqLife σ α}

/-- The descriptors are in order at the end only if no `init` reopened the queue. -/
theorem not_reopens_of_closedOnce {st : State σ} (hfail : kernel.FailedOpenKeeps) (h : Owned st)
    (ops : List (Op α)) (hkept : ∀ t ∈ history (step kernel) st ops, KeptOnError t)
    (hclosed : ClosedOnce (descriptorsLeft kernel (run (step kernel) st ops).val)) :
    ∀ t ∈ history (step kernel) st ops, ¬ Reopens t := by
  induction ops generalizing st with
  | nil =>
    intro t ht
    cases ht
  | cons op ops ih =>
    rw [history_cons, List.forall_mem_cons] at hkept ⊢
    have hfirst : ¬ Reopens ⟨st, op, step kernel st op⟩ := by
      intro hre
      rcases step_of_reopens h hre with hlost | htwo
      · exact hlost hkept.1
      · -- nothing is closed before the destructor
        have hmono : (step kernel st op).val.2.mqds.held.length ≤
            (run (step kernel) (step kernel st op).val ops).val.2.mqds.held.length :=
          run_relation (I := fun _ => True) (P := fun _ => True)
            (R := fun a b : State σ => a.2.mqds.held.length ≤ b.2.mqds.held.length)
            (fun _ => Nat.le_refl _) Nat.le_trans (fun _ _ _ => trivial)
            (fun s i _ _ => held_length_mono kernel s i) trivial ops fun _ _ => trivial
        exact not_closedOnce_of_two (Nat.le_trans htwo hmono) hclosed
    exact ⟨hfirst, ih (step_owned hfail h hfirst).1 hkept.2 hclosed⟩

/-- A queue that is not reopened keeps its descriptor and closes it. -/
theorem closedOnce_of_not_reopens {st : State σ} (hfail : kernel.FailedOpenKeeps) (h : Owned st)
    (ops : List (Op α)) (hno : ∀ t ∈ history (step kernel) st ops, ¬ Reopens t) :
    (∀ t ∈ history (step kernel) st ops, KeptOnError t) ∧
      ClosedOnce (descriptorsLeft kernel (run (step kernel) st ops).val) := by
  constructor
  · exact history_forall_of_step (I := Owned) (fun _ _ hst hop => step_owned hfail hst hop)
      h ops hno
  · exact closedOnce_of_owned (run_invariant_of_good (I := Owned)
      (fun _ _ hst hop => (step_owned hfail hst hop).1) h ops hno)

/-- An `init` of a Zephyr queue that returns an error changes nothing. -/
theorem zephyr_init_error {τ : Type} (zephyr : KMsgq τ α) (buffer : UInt64) (capacity : UInt32)
    (q : Guarded τ) {e : MessageQueueError}
    (h : (Zephyr.MessageQueue.init zephyr buffer capacity q).1 = .error e) :
    (Zephyr.MessageQueue.init zephyr buffer capacity q).2 = q := by
  rw [Zephyr.MessageQueue.init, initQueue, Zephyr.MessageQueue.initImpl] at h ⊢
  by_cases hcapacity : capacity = 0
  · rw [if_pos hcapacity]
  · rw [if_neg hcapacity, if_neg hcapacity] at h ⊢
    by_cases hinitialized : q.initialized = true
    · rw [if_pos hinitialized]
    · rw [if_neg hinitialized] at h
      cases h

/-- A second `init` of a Zephyr queue is refused. -/
theorem zephyr_init_again {τ : Type} (zephyr : KMsgq τ α) (buffer : UInt64) (capacity : UInt32)
    {q : Guarded τ} (h : q.initialized = true) :
    ∃ e, (Zephyr.MessageQueue.init zephyr buffer capacity q).1 = .error e := by
  rw [Zephyr.MessageQueue.init, initQueue, Zephyr.MessageQueue.initImpl]
  by_cases hcapacity : capacity = 0
  · rw [if_pos hcapacity]
    exact ⟨_, rfl⟩
  · rw [if_neg hcapacity, if_neg hcapacity, if_pos h]
    exact ⟨_, rfl⟩

/-- **Descriptors of a queue.** Of every POSIX queue, every sequence of uses and every system in
which an `mq_open` that fails changes nothing: each `init` that returns an error leaves the queue
and the system as they were, and at the end of the destructor every descriptor that `mq_open`
returned is closed, once, if and only if no `init` with a capacity is made while the queue has a
descriptor. The Zephyr queue refuses such an `init`, and no `init` of it that returns an error
changes it. -/
theorem descriptorKept_iff (hfail : kernel.FailedOpenKeeps) (name : List UInt8) (s : σ)
    (ops : List (Op α)) :
    (((∀ t ∈ history (step kernel) (start name s) ops, KeptOnError t) ∧
        ClosedOnce (descriptorsLeft kernel (run (step kernel) (start name s) ops).val)) ↔
      ∀ t ∈ history (step kernel) (start name s) ops, ¬ Reopens t) ∧
    ∀ (τ : Type) (zephyr : KMsgq τ α) (buffer : UInt64) (capacity : UInt32) (q : Guarded τ),
      (q.initialized = true →
        ∃ e, (Zephyr.MessageQueue.init zephyr buffer capacity q).1 = .error e) ∧
      ∀ e, (Zephyr.MessageQueue.init zephyr buffer capacity q).1 = .error e →
        (Zephyr.MessageQueue.init zephyr buffer capacity q).2 = q := by
  refine ⟨⟨fun h => ?_, fun hno => ?_⟩, fun τ zephyr buffer capacity q => ⟨?_, ?_⟩⟩
  · exact not_reopens_of_closedOnce hfail (owned_start name s) ops h.1 h.2
  · exact closedOnce_of_not_reopens hfail (owned_start name s) ops hno
  · exact zephyr_init_again zephyr buffer capacity
  · exact fun _ => zephyr_init_error zephyr buffer capacity q

end Life

/-! ## A system with room for one queue -/

/-- The first `mq_open` returns descriptor 3, and the others find no room. -/
def oneDescriptor : PosixMqLife Bool Nat where
  mqOpen opened _ _ := if opened then (⟨-1, EMFILE⟩, opened) else (⟨3, 0⟩, true)
  mqClose _ _ := (⟨0, 0⟩, false)
  mqUnlink opened _ := (⟨0, 0⟩, opened)
  mqSend opened _ _ := some (⟨0, 0⟩, opened)
  mqTimedsend opened _ _ _ := some (⟨0, 0⟩, opened)
  mqReceive _ _ _ := none
  mqTimedreceive opened _ msg _ := some (⟨-1, ETIMEDOUT⟩, msg, opened)
  mqGetattr _ _ := (⟨0, 0⟩, ⟨4, 0⟩)
  clockGettime _ := ⟨0, 0⟩

theorem oneDescriptor_failedOpenKeeps : oneDescriptor.FailedOpenKeeps := by
  intro opened name maxmsg hopen
  cases opened with
  | true => rfl
  | false => cases hopen

/-- Initialised once, used, and destroyed. -/
theorem descriptorKept_once :
    ClosedOnce (descriptorsLeft oneDescriptor
      (run (step oneDescriptor) (start [0x2F, 0x71] false) [.init 4, .send 7 0]).val) := by
  obtain ⟨hiff, -⟩ := descriptorKept_iff oneDescriptor_failedOpenKeeps [0x2F, 0x71] false
    [.init 4, .send 7 0]
  refine (hiff.mpr fun t ht => ?_).2
  rcases List.mem_cons.mp ht with rfl | ht
  · exact fun hre => hre.2 rfl
  · rcases List.mem_singleton.mp ht with rfl
    exact id

/-- Initialised twice: the second `init` fails, and the descriptor of the first is lost. -/
theorem not_descriptorKept_twice :
    ¬ ((∀ t ∈ history (step oneDescriptor) (start [0x2F, 0x71] false) [.init 4, .init 4],
        KeptOnError t) ∧
      ClosedOnce (descriptorsLeft oneDescriptor
        (run (step oneDescriptor) (start [0x2F, 0x71] false) [.init 4, .init 4]).val)) := by
  intro h
  have hheld : (descriptorsLeft oneDescriptor
      (run (step oneDescriptor) (start [0x2F, 0x71] false) [.init 4, .init 4]).val).held = [3] :=
    rfl
  rw [h.2.held] at hheld
  cases hheld

end QueueSession

end EnoceanCore.PlatformCore
