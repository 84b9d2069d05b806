import EnoceanCore.PlatformCore.Waits
import EnoceanCore.PlatformCore.QueueFifo

/-!
# Queues with a timeout

A queue of both platforms, whose waits have the same fate. The kernels are assumed to keep the
order of the messages (`PosixMq.Ordered`, `KMsgq.Ordered`), so the same messages are pending on
both (`SamePending`), and a use is reported alike unless it expires (`queue_step`).
-/

namespace EnoceanCore.PlatformCore

open Lib

/-! ## Uses -/

/-- A use of a queue, with the timeout of each platform. -/
inductive TimedQueueOp (α : Type) where
  | send (thread : Nat) (msg : α) (timeoutMs : UInt32) (ticks : UInt64)
  | receive (thread : Nat) (msg : α) (timeoutMs : UInt32) (ticks : UInt64)
  deriving DecidableEq, Repr

/-- The result of a use of a queue, with the message that was received. -/
abbrev MessageResult (α : Type) : Type := Except MessageQueueError (Option α)

def sentResult {α : Type} : QueueResult → MessageResult α
  | .ok _ => .ok none
  | .error e => .error e

def receivedResult {α : Type} (msg : α) : QueueResult → MessageResult α
  | .ok _ => .ok (some msg)
  | .error e => .error e

/-! ## The order of the messages -/

section Contracts

variable {α : Type}

/-- A send puts its message behind those that are pending, if it is granted. -/
def Appends (granted : Bool) (msg : α) (before after : List α) : Prop :=
  after = if granted then before ++ [msg] else before

/-- A receive takes the first message that is pending, if it is granted. -/
def Removes (granted : Bool) (msg : α) (before after : List α) : Prop :=
  before = if granted then msg :: after else after

/-- The queue behind a descriptor keeps the order of its messages. -/
structure PosixMq.Ordered {σ : Type} (kernel : PosixMq σ α) (pending : σ → Int → List α) :
    Prop where
  send : ∀ s mqd msg a s', kernel.mqSend s mqd msg = some (a, s') →
    Appends (a.result == 0) msg (pending s mqd) (pending s' mqd)
  timedsend : ∀ s mqd msg ts a s', kernel.mqTimedsend s mqd msg ts = some (a, s') →
    Appends (a.result == 0) msg (pending s mqd) (pending s' mqd)
  receive : ∀ s mqd msg a msg' s', kernel.mqReceive s mqd msg = some (a, msg', s') →
    Removes (decide (0 ≤ a.result)) msg' (pending s mqd) (pending s' mqd)
  timedreceive : ∀ s mqd msg ts a msg' s',
    kernel.mqTimedreceive s mqd msg ts = some (a, msg', s') →
    Removes (decide (0 ≤ a.result)) msg' (pending s mqd) (pending s' mqd)

/-- A Zephyr queue keeps the order of its messages. -/
structure KMsgq.Ordered {τ : Type} (kernel : KMsgq τ α) (pending : τ → List α) : Prop where
  put : ∀ s msg timeout r s', kernel.put s msg timeout = some (r, s') →
    Appends (r == 0) msg (pending s) (pending s')
  get : ∀ s msg timeout r msg' s', kernel.get s msg timeout = some (r, msg', s') →
    Removes (r == 0) msg' (pending s) (pending s')

end Contracts

/-! ## Queues of both platforms -/

section Queue

variable {σ τ α : Type} (posix : PosixMq σ α) (zephyr : KMsgq τ α)

/-- A POSIX queue in its system. -/
abbrev QueueSystem (σ : Type) : Type := Posix.MessageQueue × σ

def posixQueue : Platform (QueueSystem σ) (TimedQueueOp α) (MessageResult α) where
  use s
    | .send _ msg timeoutMs _ =>
      waited s ((Posix.MessageQueue.send posix s.1 msg timeoutMs s.2).map fun a =>
        (sentResult a.1, (s.1, a.2)))
    | .receive _ msg timeoutMs _ =>
      waited s ((Posix.MessageQueue.receive posix s.1 msg timeoutMs s.2).map fun a =>
        (receivedResult a.2.1 a.1, (s.1, a.2.2)))
  fate s
    | .send _ msg timeoutMs _ => .ofAnswer (· == 0)
      ((Posix.MessageQueue.sendCall posix s.1 msg timeoutMs s.2).map Prod.fst)
    | .receive _ msg timeoutMs _ => .ofAnswer (fun r => decide (0 ≤ r))
      ((Posix.MessageQueue.receiveCall posix s.1 msg timeoutMs s.2).map Prod.fst)

def zephyrQueue : Platform (Guarded τ) (TimedQueueOp α) (MessageResult α) where
  use q
    | .send _ msg _ ticks =>
      waited q ((Zephyr.MessageQueue.send zephyr msg (.ticks ticks) q).map fun a =>
        (sentResult a.1, a.2))
    | .receive _ msg _ ticks =>
      waited q ((Zephyr.MessageQueue.receive zephyr msg (.ticks ticks) q).map fun a =>
        (receivedResult a.2.1 a.1, a.2.2))
  fate q
    | .send _ msg _ ticks => .ofResult ((zephyr.put q.object msg (.ticks ticks)).map Prod.fst)
    | .receive _ msg _ ticks => .ofResult ((zephyr.get q.object msg (.ticks ticks)).map Prod.fst)

/-- A send or a receive that expires. -/
def QueueDiffers (s : QueueSystem σ × Guarded τ) (op : TimedQueueOp α) : Prop :=
  (posixQueue posix).fate s.1 op = .expired

instance (s : QueueSystem σ × Guarded τ) (op : TimedQueueOp α) :
    Decidable (QueueDiffers posix s op) :=
  inferInstanceAs (Decidable (_ = Fate.expired))

/-- The queue is initialised on both platforms and the same messages are pending. -/
structure SamePending (pending : σ → Int → List α) (zpending : τ → List α)
    (s : QueueSystem σ × Guarded τ) : Prop where
  posix : s.1.1.mqd ≠ -1
  zephyr : s.2.initialized = true
  same : pending s.1.2 s.1.1.mqd = zpending s.2.object

variable {posix zephyr} {pending : σ → Int → List α} {zpending : τ → List α}

theorem sendCall_appends (hposix : posix.Ordered pending) {q : Posix.MessageQueue} {msg : α}
    {timeoutMs : UInt32} {s s' : σ} {a : Answer}
    (h : Posix.MessageQueue.sendCall posix q msg timeoutMs s = some (a, s')) :
    Appends (a.result == 0) msg (pending s q.mqd) (pending s' q.mqd) := by
  rw [Posix.MessageQueue.sendCall] at h
  split at h
  · exact hposix.send _ _ _ _ _ h
  · exact hposix.timedsend _ _ _ _ _ _ h

theorem receiveCall_removes (hposix : posix.Ordered pending) {q : Posix.MessageQueue}
    {msg msg' : α} {timeoutMs : UInt32} {s s' : σ} {a : Answer}
    (h : Posix.MessageQueue.receiveCall posix q msg timeoutMs s = some (a, msg', s')) :
    Removes (decide (0 ≤ a.result)) msg' (pending s q.mqd) (pending s' q.mqd) := by
  rw [Posix.MessageQueue.receiveCall] at h
  split at h
  · exact hposix.receive _ _ _ _ _ _ h
  · exact hposix.timedreceive _ _ _ _ _ _ _ h

/-- What a use does to the pending messages, by its fate. -/
def AppendsBy (fate : Fate) (msg : α) (before after : List α) : Prop :=
  Appends (decide (fate = .granted)) msg before after

def RemovesBy (fate : Fate) (msg : α) (before after : List α) : Prop :=
  Removes (decide (fate = .granted)) msg before after

theorem decide_granted {β : Type} (granted expired : β → Bool) (b : β) :
    decide (Fate.of granted expired (some b) = .granted) = granted b := by
  rw [Bool.eq_iff_iff, decide_eq_true_iff, Fate.of_some_eq_granted]

theorem posix_send_reports (hposix : posix.Ordered pending) {s : QueueSystem σ}
    (hs : s.1.mqd ≠ -1) (thread : Nat) (msg : α) (timeoutMs : UInt32) (ticks : UInt64) :
    let op : TimedQueueOp α := .send thread msg timeoutMs ticks
    let after := (posixQueue posix).use s op
    Reports after.1 ((posixQueue posix).fate s op) (.ok none) (.error .timeout) ∧
      after.2.1 = s.1 ∧
      AppendsBy ((posixQueue posix).fate s op) msg (pending s.2 s.1.mqd)
        (pending after.2.2 s.1.mqd) := by
  intro op after
  have hafter : after = waited s ((Posix.MessageQueue.sendCall posix s.1 msg timeoutMs s.2).map
      fun a => (sentResult (Posix.MessageQueue.sendResult a.1), (s.1, a.2))) := by
    show waited s ((Posix.MessageQueue.send posix s.1 msg timeoutMs s.2).map _) = _
    rw [Posix.MessageQueue.send_eq posix hs, Option.map_map]
    rfl
  have hfate : (posixQueue posix).fate s op = Fate.ofAnswer (· == 0)
      ((Posix.MessageQueue.sendCall posix s.1 msg timeoutMs s.2).map Prod.fst) := rfl
  rw [hafter, hfate]
  refine ⟨reports_of_call ?_ ?_, ?_⟩
  · rintro ⟨a, s'⟩ - ha
    rw [Posix.MessageQueue.sendResult, if_neg (not_not_intro (eq_of_beq ha))]
    rfl
  · rintro ⟨a, s'⟩ ha hlate
    rw [Posix.MessageQueue.sendResult, if_pos (ne_of_beq_false ha), eq_of_beq hlate]
    rfl
  · refine waited_state (fun fate (s' : QueueSystem σ) => s'.1 = s.1 ∧
      AppendsBy fate msg (pending s.2 s.1.mqd) (pending s'.2 s.1.mqd)) ⟨rfl, rfl⟩ ?_
    rintro ⟨a, s'⟩ hcall
    refine ⟨rfl, ?_⟩
    rw [AppendsBy, decide_granted]
    exact sendCall_appends hposix hcall

theorem zephyr_send_reports (hzephyr : zephyr.Ordered zpending) {q : Guarded τ}
    (hq : q.initialized = true) (thread : Nat) (msg : α) (timeoutMs : UInt32) (ticks : UInt64) :
    let op : TimedQueueOp α := .send thread msg timeoutMs ticks
    let after := (zephyrQueue zephyr).use q op
    Reports after.1 ((zephyrQueue zephyr).fate q op) (.ok none) (.error .queueFull) ∧
      after.2.initialized = true ∧
      AppendsBy ((zephyrQueue zephyr).fate q op) msg (zpending q.object)
        (zpending after.2.object) := by
  intro op after
  have hafter : after = waited q ((zephyr.put q.object msg (.ticks ticks)).map fun a =>
      (sentResult (Zephyr.MessageQueue.callResult .queueFull a.1), { q with object := a.2 })) := by
    show waited q ((Zephyr.MessageQueue.send zephyr msg (.ticks ticks) q).map _) = _
    rw [Zephyr.MessageQueue.send_eq zephyr hq, Option.map_map]
    rfl
  have hfate : (zephyrQueue zephyr).fate q op =
      Fate.ofResult ((zephyr.put q.object msg (.ticks ticks)).map Prod.fst) := rfl
  rw [hafter, hfate]
  refine ⟨reports_of_call ?_ ?_, ?_⟩
  · rintro ⟨r, s'⟩ - hr
    rw [Zephyr.MessageQueue.callResult, if_pos (eq_of_beq hr)]
    rfl
  · rintro ⟨r, s'⟩ hr hlate
    rw [eq_of_beq hlate]
    rfl
  · refine waited_state (fun fate (q' : Guarded τ) => q'.initialized = true ∧
      AppendsBy fate msg (zpending q.object) (zpending q'.object)) ⟨hq, rfl⟩ ?_
    rintro ⟨r, s'⟩ hcall
    refine ⟨hq, ?_⟩
    rw [AppendsBy, decide_granted]
    exact hzephyr.put _ _ _ _ _ hcall

theorem posix_receive_reports (hposix : posix.Ordered pending) {s : QueueSystem σ}
    (hs : s.1.mqd ≠ -1) (thread : Nat) (msg : α) (timeoutMs : UInt32) (ticks : UInt64) :
    let op : TimedQueueOp α := .receive thread msg timeoutMs ticks
    let after := (posixQueue posix).use s op
    ∃ first, Reports after.1 ((posixQueue posix).fate s op) (.ok (some first))
        (.error .timeout) ∧
      after.2.1 = s.1 ∧
      RemovesBy ((posixQueue posix).fate s op) first (pending s.2 s.1.mqd)
        (pending after.2.2 s.1.mqd) := by
  intro op after
  let call := Posix.MessageQueue.receiveCall posix s.1 msg timeoutMs s.2
  have hafter : after = waited s (call.map fun a =>
      (receivedResult a.2.1 (Posix.MessageQueue.receiveResult a.1), (s.1, a.2.2))) := by
    show waited s ((Posix.MessageQueue.receive posix s.1 msg timeoutMs s.2).map _) = _
    rw [Posix.MessageQueue.receive_eq posix hs, Option.map_map]
    rfl
  have hfate : (posixQueue posix).fate s op =
      Fate.ofAnswer (fun r => decide (0 ≤ r)) (call.map Prod.fst) := rfl
  rw [hafter, hfate]
  refine ⟨call.elim msg fun a => a.2.1, reports_of_call ?_ ?_, ?_⟩
  · rintro ⟨a, msg', s'⟩ hcall ha
    rw [Posix.MessageQueue.receiveResult, if_neg (Int.not_lt.mpr (of_decide_eq_true ha)), hcall]
    rfl
  · rintro ⟨a, msg', s'⟩ ha hlate
    rw [Posix.MessageQueue.receiveResult, if_pos (Int.not_le.mp (of_decide_eq_false ha)),
      eq_of_beq hlate]
    rfl
  · refine waited_state (fun fate (s' : QueueSystem σ) => s'.1 = s.1 ∧
      RemovesBy fate (call.elim msg fun a => a.2.1) (pending s.2 s.1.mqd)
        (pending s'.2 s.1.mqd)) ⟨rfl, rfl⟩ ?_
    rintro ⟨a, msg', s'⟩ hcall
    refine ⟨rfl, ?_⟩
    rw [RemovesBy, decide_granted, hcall]
    exact receiveCall_removes hposix hcall

theorem zephyr_receive_reports (hzephyr : zephyr.Ordered zpending) {q : Guarded τ}
    (hq : q.initialized = true) (thread : Nat) (msg : α) (timeoutMs : UInt32) (ticks : UInt64) :
    let op : TimedQueueOp α := .receive thread msg timeoutMs ticks
    let after := (zephyrQueue zephyr).use q op
    ∃ first, Reports after.1 ((zephyrQueue zephyr).fate q op) (.ok (some first))
        (.error .queueEmpty) ∧
      after.2.initialized = true ∧
      RemovesBy ((zephyrQueue zephyr).fate q op) first (zpending q.object)
        (zpending after.2.object) := by
  intro op after
  let call := zephyr.get q.object msg (.ticks ticks)
  have hafter : after = waited q (call.map fun a =>
      (receivedResult a.2.1 (Zephyr.MessageQueue.callResult .queueEmpty a.1),
        { q with object := a.2.2 })) := by
    show waited q ((Zephyr.MessageQueue.receive zephyr msg (.ticks ticks) q).map _) = _
    rw [Zephyr.MessageQueue.receive_eq zephyr hq, Option.map_map]
    rfl
  have hfate : (zephyrQueue zephyr).fate q op = Fate.ofResult (call.map Prod.fst) := rfl
  rw [hafter, hfate]
  refine ⟨call.elim msg fun a => a.2.1, reports_of_call ?_ ?_, ?_⟩
  · rintro ⟨r, msg', s'⟩ hcall hr
    rw [Zephyr.MessageQueue.callResult, if_pos (eq_of_beq hr), hcall]
    rfl
  · rintro ⟨r, msg', s'⟩ hr hlate
    rw [eq_of_beq hlate]
    rfl
  · refine waited_state (fun fate (q' : Guarded τ) => q'.initialized = true ∧
      RemovesBy fate (call.elim msg fun a => a.2.1) (zpending q.object) (zpending q'.object))
      ⟨hq, rfl⟩ ?_
    rintro ⟨r, msg', s'⟩ hcall
    refine ⟨hq, ?_⟩
    rw [RemovesBy, decide_granted, hcall]
    exact hzephyr.get _ _ _ _ _ _ hcall

/-- A step of a queue with the same messages pending on both platforms. -/
theorem queue_step (hposix : posix.Ordered pending) (hzephyr : zephyr.Ordered zpending)
    (s : QueueSystem σ × Guarded τ) (op : TimedQueueOp α) (hs : SamePending pending zpending s)
    (horder : SameOrder (posixQueue posix) (zephyrQueue zephyr)
      ⟨s, op, pairStep (posixQueue posix) (zephyrQueue zephyr) s op⟩) :
    SamePending pending zpending (pairStep (posixQueue posix) (zephyrQueue zephyr) s op).val ∧
      (Alike ((posixQueue posix).fate s.1 op) (.error .timeout)
        ((posixQueue posix).use s.1 op).1 ((zephyrQueue zephyr).use s.2 op).1 ↔
          ¬ QueueDiffers posix s op) := by
  obtain ⟨hfate, hrefused⟩ := horder
  dsimp only at hfate hrefused
  cases op with
  | send thread msg timeoutMs ticks =>
    obtain ⟨hreports, hq, happends⟩ :=
      posix_send_reports hposix hs.posix thread msg timeoutMs ticks
    obtain ⟨hzreports, hinit, hzappends⟩ :=
      zephyr_send_reports hzephyr hs.zephyr thread msg timeoutMs ticks
    rw [← hfate] at hzreports hzappends
    refine ⟨⟨hq ▸ hs.posix, hinit, ?_⟩, ?_⟩
    · rw [AppendsBy, Appends] at happends hzappends
      rw [← hs.same] at hzappends
      show pending _ (((posixQueue posix).use s.1 _).2.1).mqd = zpending _
      rw [hq]
      exact happends.trans hzappends.symm
    · rw [hreports.alike_iff hzreports hrefused]
      exact ⟨fun h hlate => absurd (h hlate) (by simp), fun h hlate => absurd hlate h⟩
  | receive thread msg timeoutMs ticks =>
    obtain ⟨first, hreports, hq, hremoves⟩ :=
      posix_receive_reports hposix hs.posix thread msg timeoutMs ticks
    obtain ⟨zfirst, hzreports, hinit, hzremoves⟩ :=
      zephyr_receive_reports hzephyr hs.zephyr thread msg timeoutMs ticks
    rw [← hfate] at hzreports hzremoves
    rw [RemovesBy, Removes] at hremoves hzremoves
    rw [← hs.same, hremoves] at hzremoves
    have hboth : pending ((posixQueue posix).use s.1 (.receive thread msg timeoutMs ticks)).2.2
          s.1.1.mqd =
        zpending ((zephyrQueue zephyr).use s.2 (.receive thread msg timeoutMs ticks)).2.object ∧
        Reports ((zephyrQueue zephyr).use s.2 (.receive thread msg timeoutMs ticks)).1
          ((posixQueue posix).fate s.1 (.receive thread msg timeoutMs ticks)) (.ok (some first))
          (.error .queueEmpty) := by
      by_cases hgranted :
          (posixQueue posix).fate s.1 (.receive thread msg timeoutMs ticks) = .granted
      · rw [if_pos (decide_eq_true hgranted), if_pos (decide_eq_true hgranted)] at hzremoves
        obtain ⟨hfirst, hrest⟩ := List.cons.inj hzremoves
        exact ⟨hrest, hfirst ▸ hzreports⟩
      · rw [if_neg (by simp [hgranted]), if_neg (by simp [hgranted])] at hzremoves
        exact ⟨hzremoves, hzreports.of_not_granted hgranted⟩
    obtain ⟨hsame, hzreports⟩ := hboth
    refine ⟨⟨hq ▸ hs.posix, hinit, ?_⟩, ?_⟩
    · show pending _ (((posixQueue posix).use s.1 _).2.1).mqd = zpending _
      rw [hq]
      exact hsame
    · rw [hreports.alike_iff hzreports hrefused]
      exact ⟨fun h hlate => absurd (h hlate) (by simp), fun h hlate => absurd hlate h⟩

end Queue

end EnoceanCore.PlatformCore
