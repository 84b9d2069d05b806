import EnoceanCore.PlatformCore.Kernel
import EnoceanCore.Lib.Fifo

/-!
# Message queues

`MessageQueue<T>` of `posix_core` and `zephyr_core`, for messages of any type, over the
calls of their kernels: `PosixMq` finds a queue by its descriptor, `KMsgq` is the queue
itself. `KMsgq.Lawful` says that the latter is a bounded queue.

A receive that fails leaves the message of its caller as it is. The destructor of the POSIX
queue stands with the calls it makes, in `QueueReinit`.
-/

namespace EnoceanCore.PlatformCore

open Lib

inductive MessageQueueError where
  | invalidParameter
  | insufficientMemory
  | resourceLimitExceeded
  | timeout
  | interrupted
  | queueFull
  | queueEmpty
  | invalidQueue
  | alreadyInitialized
  | permissionDenied
  | alreadyExists
  | unknown
  deriving DecidableEq, Repr

/-- The result of an operation of a queue. -/
abbrev QueueResult : Type := Except MessageQueueError Unit

/-- `IMessageQueue::init`, around `init_impl`. -/
def initQueue {ω : Type} (initImpl : UInt32 → ω → QueueResult × ω) (capacity : UInt32) (q : ω) :
    QueueResult × ω :=
  if capacity = 0 then (.error .invalidParameter, q)
  else initImpl capacity q

/-! ## The kernels -/

/-- `mq_maxmsg` and `mq_curmsgs` of `struct mq_attr`. -/
structure MqAttr where
  maxmsg : Int
  curmsgs : Int
  deriving DecidableEq, Repr

/-- The queue calls and the clock of a POSIX system. A queue is found by its descriptor. -/
structure PosixMq (σ α : Type) where
  mqOpen : σ → (name : List UInt8) → (maxmsg : UInt32) → Answer × σ
  mqSend : σ → (mqd : Int) → α → Option (Answer × σ)
  mqTimedsend : σ → (mqd : Int) → α → Timespec → Option (Answer × σ)
  mqReceive : σ → (mqd : Int) → α → Option (Answer × α × σ)
  mqTimedreceive : σ → (mqd : Int) → α → Timespec → Option (Answer × α × σ)
  mqGetattr : σ → (mqd : Int) → Answer × MqAttr
  clockGettime : σ → Timespec

/-- The queue calls of Zephyr on an object of type `τ`. -/
structure KMsgq (τ α : Type) where
  init : τ → (buffer : UInt64) → (maxMsgs : UInt32) → τ
  put : τ → α → KTimeout → Option (Int × τ)
  get : τ → α → KTimeout → Option (Int × α × τ)
  numFree : τ → UInt32

/-- What Zephyr documents: a queue of the capacity given to `k_msgq_init`, first in, first out,
whose calls answer `-ENOMSG` at once where they would have to wait. -/
structure KMsgq.Lawful {τ α : Type} (kernel : KMsgq τ α) (contents : τ → Fifo α) : Prop where
  init : ∀ s buffer maxMsgs, contents (kernel.init s buffer maxMsgs) = .empty maxMsgs.toNat
  put : ∀ s m timeout q, (contents s).push m = some q →
    ∃ s', kernel.put s m timeout = some (0, s') ∧ contents s' = q
  putFull : ∀ s m, (contents s).push m = none →
    ∃ s', kernel.put s m .noWait = some (-Zephyr.ENOMSG, s') ∧ contents s' = contents s
  get : ∀ s m timeout a q, (contents s).pop = some (a, q) →
    ∃ s', kernel.get s m timeout = some (0, a, s') ∧ contents s' = q
  getEmpty : ∀ s m, (contents s).pop = none →
    ∃ s', kernel.get s m .noWait = some (-Zephyr.ENOMSG, m, s') ∧ contents s' = contents s
  numFree : ∀ s, (kernel.numFree s).toNat = (contents s).free

/-! ## The POSIX queue -/

namespace Posix

/-- The members of a POSIX `MessageQueue`. -/
structure MessageQueue where
  queueName : List UInt8
  mqd : Int := -1
  deriving DecidableEq, Repr

namespace MessageQueue

/-- The name buffer of `IMessageQueue`, with its terminating zero. -/
abbrev queueNameSize : Nat := 32

/-- The constructor with a name given at run time. -/
def construct (name : List UInt8) : MessageQueue :=
  { queueName := name.take (min name.length (queueNameSize - 1)) }

def errnoToError (err : Int) : MessageQueueError :=
  if err = EINVAL ∨ err = EBADF then .invalidParameter
  else if err = ENOMEM then .insufficientMemory
  else if err = ENOSPC ∨ err = EMFILE ∨ err = ENFILE then .resourceLimitExceeded
  else if err = ETIMEDOUT then .timeout
  else if err = EINTR then .interrupted
  else if err = EAGAIN then .queueFull
  else if err = EACCES then .permissionDenied
  else if err = EEXIST then .alreadyExists
  else .unknown

/-- The greatest `time_t`. -/
abbrev maxSec : Int := 9223372036854775807

/-- `ms_to_timespec`, from the time that `clock_gettime` answers. -/
def msToTimespec (now : Timespec) (timeoutMs : UInt32) : Timespec :=
  let addSec : Int := (timeoutMs / 1000).toNat
  let addNsec : Int := (timeoutMs % 1000 * 1000000).toNat
  if maxSec - now.tvSec ≤ 0 then { tvSec := maxSec, tvNsec := 999999999 }
  else
    let safeSec := if addSec > maxSec - now.tvSec then maxSec - now.tvSec else addSec
    let sec := now.tvSec + safeSec
    let nsec := now.tvNsec + addNsec
    if nsec ≥ 1000000000 then
      if sec < maxSec then { tvSec := sec + 1, tvNsec := nsec - 1000000000 }
      else { tvSec := sec, tvNsec := 999999999 }
    else { tvSec := sec, tvNsec := nsec }

/-- `std::numeric_limits<std::uint32_t>::max()`. -/
abbrev infiniteTimeout : UInt32 := 4294967295

section Operations

variable {σ α : Type} (kernel : PosixMq σ α)

def initImpl (capacity : UInt32) : MessageQueue × σ → QueueResult × MessageQueue × σ
  | (q, s) =>
    match q.queueName with
    | [] => (.error .invalidParameter, q, s)
    | first :: _ =>
      if first ≠ 0x2F then (.error .invalidParameter, q, s)
      else
        match kernel.mqOpen s q.queueName capacity with
        | (a, s) =>
          let q := { q with mqd := a.result }
          if q.mqd = -1 then (.error (errnoToError a.errno), q, s) else (.ok (), q, s)

def init (capacity : UInt32) : MessageQueue × σ → QueueResult × MessageQueue × σ :=
  initQueue (initImpl kernel) capacity

/-- An `init` that does not get to `mq_open`. -/
theorem init_of_invalid {q : MessageQueue} {capacity : UInt32} (s : σ)
    (h : ¬ (capacity ≠ 0 ∧ q.queueName.head? = some 0x2F)) :
    init kernel capacity (q, s) = (.error .invalidParameter, q, s) := by
  rw [init, initQueue]
  by_cases hcapacity : capacity = 0
  · rw [if_pos hcapacity]
  · rw [if_neg hcapacity, initImpl]
    split
    · rfl
    · rename_i first rest hname
      have hfirst : first ≠ 0x2F := fun hfirst => h ⟨hcapacity, by rw [hname, hfirst]; rfl⟩
      rw [if_pos hfirst]

/-- An `init` that gets to `mq_open` takes its result for the descriptor. -/
theorem init_of_valid {q : MessageQueue} {capacity : UInt32} (s : σ) (hcapacity : capacity ≠ 0)
    (hname : q.queueName.head? = some 0x2F) :
    init kernel capacity (q, s) =
      (if (kernel.mqOpen s q.queueName capacity).1.result = -1
        then .error (errnoToError (kernel.mqOpen s q.queueName capacity).1.errno) else .ok (),
        { q with mqd := (kernel.mqOpen s q.queueName capacity).1.result },
        (kernel.mqOpen s q.queueName capacity).2) := by
  rw [init, initQueue, if_neg hcapacity, initImpl]
  split
  · rename_i hnil
    rw [hnil] at hname
    cases hname
  · rename_i first rest hcons
    have hfirst : ¬ first ≠ 0x2F := by
      rw [hcons] at hname
      exact fun hne => hne (Option.some.inj hname)
    rw [if_neg hfirst]
    dsimp only
    split <;> rfl

/-- `mq_send` or `mq_timedsend`, by the timeout. -/
def sendCall (q : MessageQueue) (msg : α) (timeoutMs : UInt32) (s : σ) : Option (Answer × σ) :=
  if timeoutMs = 0 ∨ timeoutMs = infiniteTimeout then kernel.mqSend s q.mqd msg
  else kernel.mqTimedsend s q.mqd msg (msToTimespec (kernel.clockGettime s) timeoutMs)

def send (q : MessageQueue) (msg : α) (timeoutMs : UInt32) (s : σ) : Option (QueueResult × σ) := do
  if q.mqd = -1 then return (.error .invalidQueue, s)
  let (a, s) ← sendCall kernel q msg timeoutMs s
  if a.result ≠ 0 then return (.error (errnoToError a.errno), s)
  return (.ok (), s)

/-- `mq_receive` or `mq_timedreceive`, by the timeout. -/
def receiveCall (q : MessageQueue) (msg : α) (timeoutMs : UInt32) (s : σ) :
    Option (Answer × α × σ) :=
  if timeoutMs = 0 ∨ timeoutMs = infiniteTimeout then kernel.mqReceive s q.mqd msg
  else kernel.mqTimedreceive s q.mqd msg (msToTimespec (kernel.clockGettime s) timeoutMs)

def receive (q : MessageQueue) (msg : α) (timeoutMs : UInt32) (s : σ) :
    Option (QueueResult × α × σ) := do
  if q.mqd = -1 then return (.error .invalidQueue, msg, s)
  let (a, msg, s) ← receiveCall kernel q msg timeoutMs s
  if a.result < 0 then return (.error (errnoToError a.errno), msg, s)
  return (.ok (), msg, s)

theorem send_of_invalid {q : MessageQueue} (hq : q.mqd = -1) (msg : α) (timeoutMs : UInt32)
    (s : σ) : send kernel q msg timeoutMs s = some (.error .invalidQueue, s) := by
  rw [send, if_pos hq]
  rfl

theorem receive_of_invalid {q : MessageQueue} (hq : q.mqd = -1) (msg : α) (timeoutMs : UInt32)
    (s : σ) : receive kernel q msg timeoutMs s = some (.error .invalidQueue, msg, s) := by
  rw [receive, if_pos hq]
  rfl

/-- The result of a send from the answer of its call. -/
def sendResult (a : Answer) : QueueResult :=
  if a.result ≠ 0 then .error (errnoToError a.errno) else .ok ()

/-- The result of a receive from the answer of its call. -/
def receiveResult (a : Answer) : QueueResult :=
  if a.result < 0 then .error (errnoToError a.errno) else .ok ()

theorem send_eq {q : MessageQueue} (hq : q.mqd ≠ -1) (msg : α) (timeoutMs : UInt32) (s : σ) :
    send kernel q msg timeoutMs s =
      (sendCall kernel q msg timeoutMs s).map fun a => (sendResult a.1, a.2) := by
  rw [send, if_neg hq]
  cases sendCall kernel q msg timeoutMs s with
  | none => rfl
  | some after =>
    show (if _ then _ else _) = some (if _ then _ else _, _)
    split <;> rfl

theorem receive_eq {q : MessageQueue} (hq : q.mqd ≠ -1) (msg : α) (timeoutMs : UInt32) (s : σ) :
    receive kernel q msg timeoutMs s =
      (receiveCall kernel q msg timeoutMs s).map fun a => (receiveResult a.1, a.2) := by
  rw [receive, if_neg hq]
  cases receiveCall kernel q msg timeoutMs s with
  | none => rfl
  | some after =>
    show (if _ then _ else _) = some (if _ then _ else _, _)
    split <;> rfl

def getFreeSpace (q : MessageQueue) (s : σ) : Nat :=
  if q.mqd = -1 then 0
  else
    match kernel.mqGetattr s q.mqd with
    | (a, attr) => if a.result = 0 then (UInt64.ofInt (attr.maxmsg - attr.curmsgs)).toNat else 0

end Operations

end MessageQueue

end Posix

/-! ## The Zephyr queue -/

namespace Zephyr.MessageQueue

variable {τ α : Type} (kernel : KMsgq τ α)

def kErrorToError (error : Int) : MessageQueueError :=
  if error = -Zephyr.EINVAL then .invalidParameter
  else if error = -Zephyr.EALREADY then .alreadyInitialized
  else if error = -Zephyr.EAGAIN ∨ error = -Zephyr.EBUSY ∨ error = -Zephyr.ETIMEDOUT then .timeout
  else if error = -Zephyr.ENOMEM then .insufficientMemory
  else .unknown

def initImpl (buffer : UInt64) (capacity : UInt32) (q : Guarded τ) : QueueResult × Guarded τ :=
  if capacity = 0 then (.error .invalidParameter, q)
  else if q.initialized then (.error .alreadyInitialized, q)
  else (.ok (), { object := kernel.init q.object buffer capacity, initialized := true })

def init (buffer : UInt64) (capacity : UInt32) : Guarded τ → QueueResult × Guarded τ :=
  initQueue (initImpl kernel buffer) capacity

def send (msg : α) (timeout : KTimeout) (q : Guarded τ) : Option (QueueResult × Guarded τ) := do
  if !q.initialized then return (.error .invalidQueue, q)
  let (result, queue) ← kernel.put q.object msg timeout
  let q := { q with object := queue }
  if result = 0 then return (.ok (), q)
  if result = -Zephyr.EAGAIN ∨ result = -Zephyr.EBUSY then return (.error .queueFull, q)
  return (.error (kErrorToError result), q)

def receive (msg : α) (timeout : KTimeout) (q : Guarded τ) :
    Option (QueueResult × α × Guarded τ) := do
  if !q.initialized then return (.error .invalidQueue, msg, q)
  let (result, msg, queue) ← kernel.get q.object msg timeout
  let q := { q with object := queue }
  if result = 0 then return (.ok (), msg, q)
  if result = -Zephyr.EAGAIN ∨ result = -Zephyr.EBUSY then return (.error .queueEmpty, msg, q)
  return (.error (kErrorToError result), msg, q)

/-- The result of a call from its answer; `refusal` is what a wait that is cut short means. -/
def callResult (refusal : MessageQueueError) (r : Int) : QueueResult :=
  if r = 0 then .ok ()
  else if r = -Zephyr.EAGAIN ∨ r = -Zephyr.EBUSY then .error refusal
  else .error (kErrorToError r)

theorem send_eq {q : Guarded τ} (hq : q.initialized = true) (msg : α) (timeout : KTimeout) :
    send kernel msg timeout q = (kernel.put q.object msg timeout).map fun a =>
      (callResult .queueFull a.1, { q with object := a.2 }) := by
  rw [send, if_neg (by simp [hq])]
  cases kernel.put q.object msg timeout with
  | none => rfl
  | some after =>
    show (if _ then _ else if _ then _ else _) = some (if _ then _ else if _ then _ else _, _)
    split
    · rfl
    · split <;> rfl

theorem receive_eq {q : Guarded τ} (hq : q.initialized = true) (msg : α) (timeout : KTimeout) :
    receive kernel msg timeout q = (kernel.get q.object msg timeout).map fun a =>
      (callResult .queueEmpty a.1, a.2.1, { q with object := a.2.2 }) := by
  rw [receive, if_neg (by simp [hq])]
  cases kernel.get q.object msg timeout with
  | none => rfl
  | some after =>
    show (if _ then _ else if _ then _ else _) = some (if _ then _ else if _ then _ else _, _)
    split
    · rfl
    · split <;> rfl

def getFreeSpace (q : Guarded τ) : Nat :=
  if !q.initialized then 0 else (kernel.numFree q.object).toNat

end Zephyr.MessageQueue

end EnoceanCore.PlatformCore
