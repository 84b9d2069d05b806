import EnoceanCore.PlatformCore.QueueFifo
import Mathlib.Logic.Function.Basic

/-!
# The names of POSIX queues

Any number of POSIX queues over a system that knows a queue by the exact name it is opened
with (`PosixMq.ByName`). The constructor keeps 31 bytes of a name for a label, and `init_impl`
gives what is kept to `mq_open`.

So the messages of a kept name stay together (`run_moved`), and no message sent through one
object is received through another if and only if their names differ in the first 31 bytes
(`separate_iff`).
-/

namespace EnoceanCore.PlatformCore

open Lib

/-! ## Queues by name -/

/-- From one state to another the elements `es` go into and out of the queue of `name`, and no
other queue changes. -/
def Moves {σ α : Type} (contents : σ → List UInt8 → List α) (s : σ) (name : List UInt8)
    (es : List (FifoEvent α)) (s' : σ) : Prop :=
  ∀ n, Moved (contents s n) (if n = name then es else []) (contents s' n)

/-- What POSIX documents: a descriptor stands for the name it was opened with, and the queue of
a name is first in, first out. `contents` has no messages for a name without a queue. -/
structure PosixMq.ByName {σ α : Type} (kernel : PosixMq σ α)
    (opened : σ → Int → Option (List UInt8)) (contents : σ → List UInt8 → List α) : Prop where
  open_names : ∀ s name maxmsg, (kernel.mqOpen s name maxmsg).1.result ≠ -1 →
    opened (kernel.mqOpen s name maxmsg).2 (kernel.mqOpen s name maxmsg).1.result = some name
  open_keeps : ∀ s name maxmsg mqd other, opened s mqd = some other →
    opened (kernel.mqOpen s name maxmsg).2 mqd = some other
  open_contents : ∀ s name maxmsg, contents (kernel.mqOpen s name maxmsg).2 = contents s
  send : ∀ s mqd name msg a s', opened s mqd = some name →
    kernel.mqSend s mqd msg = some (a, s') →
    opened s' = opened s ∧ Moves contents s name (if a.result = 0 then [.pushed msg] else []) s'
  timedsend : ∀ s mqd name msg deadline a s', opened s mqd = some name →
    kernel.mqTimedsend s mqd msg deadline = some (a, s') →
    opened s' = opened s ∧ Moves contents s name (if a.result = 0 then [.pushed msg] else []) s'
  receive : ∀ s mqd name msg a msg' s', opened s mqd = some name →
    kernel.mqReceive s mqd msg = some (a, msg', s') →
    opened s' = opened s ∧ Moves contents s name (if a.result < 0 then [] else [.popped msg']) s'
  timedreceive : ∀ s mqd name msg deadline a msg' s', opened s mqd = some name →
    kernel.mqTimedreceive s mqd msg deadline = some (a, msg', s') →
    opened s' = opened s ∧ Moves contents s name (if a.result < 0 then [] else [.popped msg']) s'

/-- The name that `init_impl` gives to `mq_open`. -/
def kernelName (name : List UInt8) : List UInt8 := (Posix.MessageQueue.construct name).queueName

theorem kernelName_eq (name : List UInt8) : kernelName name = name.take 31 := by
  show name.take (min name.length 31) = name.take 31
  rw [Nat.min_comm, ← List.take_eq_take_min]

namespace QueueNames

/-! ## Any number of queues -/

/-- A use of one of the queues. -/
inductive Op (ι α : Type) where
  | init (who : ι) (capacity : UInt32)
  | send (who : ι) (msg : α) (timeoutMs : UInt32)
  | receive (who : ι) (msg : α) (timeoutMs : UInt32)
  deriving DecidableEq, Repr

/-- The queues and the system. -/
structure State (ι σ : Type) where
  queue : ι → Posix.MessageQueue
  system : σ

/-- What comes of a use, and of which queue. -/
abbrev Event (ι α : Type) : Type := ι × QueueOutcome α

section Run

variable {ι σ α : Type} [DecidableEq ι]

/-- The queues after their construction. -/
def start (names : ι → List UInt8) (s : σ) : State ι σ :=
  ⟨fun i => Posix.MessageQueue.construct (names i), s⟩

/-- A use of a queue; everything is left as it is while a thread waits. -/
def step (kernel : PosixMq σ α) (st : State ι σ) : Op ι α → Traced (Event ι α) (State ι σ)
  | .init i capacity =>
    match Posix.MessageQueue.init kernel capacity (st.queue i, st.system) with
    | (result, q, s) => ⟨⟨Function.update st.queue i q, s⟩, [(i, .initialised result)]⟩
  | .send i msg timeoutMs =>
    match Posix.MessageQueue.send kernel (st.queue i) msg timeoutMs st.system with
    | some (result, s) => ⟨{ st with system := s }, [(i, .sent msg result)]⟩
    | none => ⟨st, [(i, .waits)]⟩
  | .receive i msg timeoutMs =>
    match Posix.MessageQueue.receive kernel (st.queue i) msg timeoutMs st.system with
    | some (result, msg, s) => ⟨{ st with system := s }, [(i, .received result msg)]⟩
    | none => ⟨st, [(i, .waits)]⟩

/-- The messages that enter or leave the queue of a name. -/
def movedIn (names : ι → List UInt8) (n : List UInt8) (e : Event ι α) : Option (FifoEvent α) :=
  if n = kernelName (names e.1) then e.2.moved else none

/-- No message sent through `i` is received through `j`: what is received through `j` was in the
queue that `j` opens, or was sent through another object than `i`. -/
def Separate (α : Type) (names : ι → List UInt8) (i j : ι) : Prop :=
  ∀ (σ : Type) (kernel : PosixMq σ α) (opened : σ → Int → Option (List UInt8))
    (contents : σ → List UInt8 → List α), kernel.ByName opened contents →
    ∀ (s : σ) (ops : List (Op ι α)) (m : α),
      (j, .received (.ok ()) m) ∈ (run (step kernel) (start names s) ops).log →
      m ∈ contents s (kernelName (names j)) ∨
        ∃ k ≠ i, (k, .sent m (.ok ())) ∈ (run (step kernel) (start names s) ops).log

/-- An object keeps the label of its name, and its descriptor stands for it. -/
structure Labelled (opened : σ → Int → Option (List UInt8)) (names : ι → List UInt8)
    (st : State ι σ) : Prop where
  queueName : ∀ i, (st.queue i).queueName = kernelName (names i)
  mqd : ∀ i, (st.queue i).mqd ≠ -1 →
    opened st.system (st.queue i).mqd = some (kernelName (names i))

end Run

/-! ## What a step moves -/

section Step

variable {ι σ α : Type} {kernel : PosixMq σ α}
variable {opened : σ → Int → Option (List UInt8)} {contents : σ → List UInt8 → List α}
variable {names : ι → List UInt8} {st : State ι σ}

theorem labelled_start (names : ι → List UInt8) (s : σ) :
    Labelled opened names (start names s) :=
  ⟨fun _ => rfl, fun _ hmqd => absurd rfl hmqd⟩

/-- What a step does: the labels stay, and what it records is what it moves. -/
structure Follows (opened : σ → Int → Option (List UInt8)) (contents : σ → List UInt8 → List α)
    (names : ι → List UInt8) (st : State ι σ) (x : Traced (Event ι α) (State ι σ)) : Prop where
  labelled : Labelled opened names x.val
  moved : ∀ n, Moved (contents st.system n) (x.log.filterMap (movedIn names n))
    (contents x.val.system n)

/-- A step that moves nothing. -/
theorem follows_of_unmoved {x : Traced (Event ι α) (State ι σ)} {e : Event ι α}
    (hlabelled : Labelled opened names x.val) (hlog : x.log = [e]) (he : e.2.moved = none)
    (hcontents : contents x.val.system = contents st.system) :
    Follows opened contents names st x := by
  refine ⟨hlabelled, fun n => ?_⟩
  have hnone : movedIn names n e = none := by
    rw [movedIn, he, ite_self]
  rw [hlog, List.filterMap_cons_none hnone, hcontents]
  exact Moved.nil _

/-- A step that moves messages in the queue of one object. -/
theorem follows_of_moves {i : ι} {o : QueueOutcome α} {s : σ} {es : List (FifoEvent α)}
    (h : Labelled opened names st) (hopened : opened s = opened st.system)
    (hes : o.moved.toList = es) (hmoves : Moves contents st.system (kernelName (names i)) es s) :
    Follows opened contents names st ⟨{ st with system := s }, [(i, o)]⟩ := by
  refine ⟨⟨h.queueName, fun k hk => ?_⟩, fun n => ?_⟩
  · rw [hopened]
    exact h.mqd k hk
  · have hlog : [(i, o)].filterMap (movedIn names n) =
        if n = kernelName (names i) then es else [] := by
      rw [← hes]
      by_cases hn : n = kernelName (names i)
      · rw [if_pos hn]
        cases ho : o.moved with
        | none => rw [List.filterMap_cons_none (by rw [movedIn, if_pos hn, ho])]; rfl
        | some e => rw [List.filterMap_cons_some (by rw [movedIn, if_pos hn, ho])]; rfl
      · have hnone : movedIn names n (i, o) = none := if_neg hn
        rw [if_neg hn, List.filterMap_cons_none hnone]
        rfl
    rw [hlog]
    exact hmoves n

theorem moved_eq_pushed {o : QueueOutcome α} {m : α} (h : o.moved = some (.pushed m)) :
    o = .sent m (.ok ()) := by
  cases o with
  | sent msg result =>
    cases result with
    | error e => cases h
    | ok u =>
      cases h
      rfl
  | received result msg =>
    cases result with
    | error e => cases h
    | ok u => cases h
  | initialised result => cases h
  | waits => cases h
  | free n => cases h

/-- A message that enters the queue of a name is sent through an object with this label. -/
theorem sent_of_pushed {log : List (Event ι α)} {n : List UInt8} {m : α}
    (h : FifoEvent.pushed m ∈ log.filterMap (movedIn names n)) :
    ∃ k, kernelName (names k) = n ∧ (k, .sent m (.ok ())) ∈ log := by
  obtain ⟨⟨k, o⟩, hmem, hmoved⟩ := List.mem_filterMap.mp h
  rw [movedIn] at hmoved
  split at hmoved
  · rename_i hn
    exact ⟨k, hn.symm, moved_eq_pushed hmoved ▸ hmem⟩
  · cases hmoved

variable [DecidableEq ι]

theorem follows_init (hkernel : kernel.ByName opened contents) (h : Labelled opened names st)
    (i : ι) (capacity : UInt32) :
    Follows opened contents names st (step kernel st (.init i capacity)) := by
  by_cases hvalid : capacity ≠ 0 ∧ (st.queue i).queueName.head? = some 0x2F
  · rw [step, Posix.MessageQueue.init_of_valid kernel st.system hvalid.1 hvalid.2]
    refine follows_of_unmoved ⟨fun k => ?_, fun k hk => ?_⟩ rfl rfl (hkernel.open_contents ..)
    · by_cases hki : k = i
      · subst hki
        show (Function.update st.queue k _ k).queueName = _
        rw [Function.update_self]
        exact h.queueName k
      · show (Function.update st.queue i _ k).queueName = _
        rw [Function.update_of_ne hki]
        exact h.queueName k
    · by_cases hki : k = i
      · subst hki
        change (Function.update st.queue k _ k).mqd ≠ -1 at hk
        show opened _ (Function.update st.queue k _ k).mqd = _
        rw [Function.update_self] at hk ⊢
        rw [hkernel.open_names _ _ _ hk, h.queueName]
      · change (Function.update st.queue i _ k).mqd ≠ -1 at hk
        show opened _ (Function.update st.queue i _ k).mqd = _
        rw [Function.update_of_ne hki] at hk ⊢
        exact hkernel.open_keeps _ _ _ _ _ (h.mqd k hk)
  · rw [step, Posix.MessageQueue.init_of_invalid kernel st.system hvalid]
    refine follows_of_unmoved ?_ rfl rfl rfl
    dsimp only
    rw [Function.update_eq_self]
    exact h

theorem follows_send (hkernel : kernel.ByName opened contents) (h : Labelled opened names st)
    (i : ι) (msg : α) (timeoutMs : UInt32) :
    Follows opened contents names st (step kernel st (.send i msg timeoutMs)) := by
  by_cases hmqd : (st.queue i).mqd = -1
  · rw [step, Posix.MessageQueue.send_of_invalid kernel hmqd]
    exact follows_of_unmoved h rfl rfl rfl
  rw [step, Posix.MessageQueue.send_eq kernel hmqd]
  cases hcall : Posix.MessageQueue.sendCall kernel (st.queue i) msg timeoutMs st.system with
  | none => exact follows_of_unmoved h rfl rfl rfl
  | some after =>
    obtain ⟨a, s⟩ := after
    have hname := h.mqd i hmqd
    have hlaw : opened s = opened st.system ∧ Moves contents st.system (kernelName (names i))
        (if a.result = 0 then [.pushed msg] else []) s := by
      rw [Posix.MessageQueue.sendCall] at hcall
      split at hcall
      · exact hkernel.send _ _ _ _ _ _ hname hcall
      · exact hkernel.timedsend _ _ _ _ _ _ _ hname hcall
    refine follows_of_moves h hlaw.1 ?_ hlaw.2
    dsimp only
    unfold Posix.MessageQueue.sendResult
    by_cases hok : a.result = 0
    · rw [if_neg (not_not.mpr hok), if_pos hok]
      rfl
    · rw [if_pos hok, if_neg hok]
      rfl

theorem follows_receive (hkernel : kernel.ByName opened contents) (h : Labelled opened names st)
    (i : ι) (msg : α) (timeoutMs : UInt32) :
    Follows opened contents names st (step kernel st (.receive i msg timeoutMs)) := by
  by_cases hmqd : (st.queue i).mqd = -1
  · rw [step, Posix.MessageQueue.receive_of_invalid kernel hmqd]
    exact follows_of_unmoved h rfl rfl rfl
  rw [step, Posix.MessageQueue.receive_eq kernel hmqd]
  cases hcall : Posix.MessageQueue.receiveCall kernel (st.queue i) msg timeoutMs st.system with
  | none => exact follows_of_unmoved h rfl rfl rfl
  | some after =>
    obtain ⟨a, msg', s⟩ := after
    have hname := h.mqd i hmqd
    have hlaw : opened s = opened st.system ∧ Moves contents st.system (kernelName (names i))
        (if a.result < 0 then [] else [.popped msg']) s := by
      rw [Posix.MessageQueue.receiveCall] at hcall
      split at hcall
      · exact hkernel.receive _ _ _ _ _ _ _ hname hcall
      · exact hkernel.timedreceive _ _ _ _ _ _ _ _ hname hcall
    refine follows_of_moves h hlaw.1 ?_ hlaw.2
    dsimp only
    unfold Posix.MessageQueue.receiveResult
    by_cases hfail : a.result < 0
    · rw [if_pos hfail, if_pos hfail]
      rfl
    · rw [if_neg hfail, if_neg hfail]
      rfl

theorem step_follows (hkernel : kernel.ByName opened contents) (h : Labelled opened names st)
    (op : Op ι α) : Follows opened contents names st (step kernel st op) := by
  cases op with
  | init i capacity => exact follows_init hkernel h i capacity
  | send i msg timeoutMs => exact follows_send hkernel h i msg timeoutMs
  | receive i msg timeoutMs => exact follows_receive hkernel h i msg timeoutMs

/-- **Messages of a name.** What leaves the queue of a name was in it or was sent through an
object with this label, in this order, and what is not received is left. -/
theorem run_moved (hkernel : kernel.ByName opened contents) (h : Labelled opened names st)
    (ops : List (Op ι α)) (n : List UInt8) :
    Moved (contents st.system n) ((run (step kernel) st ops).log.filterMap (movedIn names n))
      (contents (run (step kernel) st ops).val.system n) := by
  induction ops generalizing st with
  | nil => exact Moved.nil _
  | cons op ops ih =>
    obtain ⟨hlabelled, hmoved⟩ := step_follows hkernel h op
    rw [run_cons, Traced.log_bind, Traced.val_bind, List.filterMap_append]
    exact (hmoved n).trans (ih hlabelled)

/-- Objects with different labels have no messages in common. -/
theorem separate_of_kernelName_ne {i j : ι}
    (hne : kernelName (names i) ≠ kernelName (names j)) : Separate α names i j := by
  intro σ kernel opened contents hkernel s ops m hm
  have hmoved := run_moved hkernel (labelled_start names s) ops (kernelName (names j))
  have hpopped : FifoEvent.popped m ∈ (run (step kernel) (start names s) ops).log.filterMap
      (movedIn names (kernelName (names j))) :=
    List.mem_filterMap.mpr ⟨_, hm, if_pos rfl⟩
  rcases hmoved.mem_of_popped hpopped with hthere | hpushed
  · exact Or.inl hthere
  · obtain ⟨k, hk, hsent⟩ := sent_of_pushed hpushed
    refine Or.inr ⟨k, fun hki => hne ?_, hsent⟩
    rw [← hki, hk]

end Step

/-! ## A system of named queues -/

/-- The name of each descriptor, from 0, and the messages of each name. -/
structure Named (α : Type) where
  names : List (List UInt8)
  pending : List UInt8 → List α

namespace Named

variable {α : Type}

/-- The name that a descriptor was opened with. -/
def nameOf (s : Named α) : Int → Option (List UInt8)
  | .ofNat n => s.names[n]?
  | .negSucc _ => none

def write (s : Named α) (mqd : Int) (msg : α) : Answer × Named α :=
  match s.nameOf mqd with
  | none => (⟨-1, EBADF⟩, s)
  | some name => (⟨0, 0⟩, { s with
      pending := Function.update s.pending name (s.pending name ++ [msg]) })

/-- The first message of a queue; none if it is empty. -/
def read (s : Named α) (mqd : Int) (msg : α) : Option (Answer × α × Named α) :=
  match s.nameOf mqd with
  | none => some (⟨-1, EBADF⟩, msg, s)
  | some name =>
    match s.pending name with
    | [] => none
    | first :: rest =>
      some (⟨1, 0⟩, first, { s with pending := Function.update s.pending name rest })

/-- Every `mq_open` returns another descriptor. A queue is never full, and a receive from an empty
one waits. -/
def system : PosixMq (Named α) α where
  mqOpen s name _ := (⟨s.names.length, 0⟩, { s with names := s.names ++ [name] })
  mqSend s mqd msg := some (s.write mqd msg)
  mqTimedsend s mqd msg _ := some (s.write mqd msg)
  mqReceive s mqd msg := s.read mqd msg
  mqTimedreceive s mqd msg _ := (s.read mqd msg).or (some (⟨-1, ETIMEDOUT⟩, msg, s))
  mqGetattr s mqd :=
    match s.nameOf mqd with
    | none => (⟨-1, EBADF⟩, ⟨0, 0⟩)
    | some name => (⟨0, 0⟩, ⟨(s.pending name).length + 1, (s.pending name).length⟩)
  clockGettime _ := ⟨0, 0⟩

/-- Messages go into and out of the queue that is written back. -/
theorem moved_update (pending : List UInt8 → List α) {name : List UInt8}
    {es : List (FifoEvent α)} {after : List α} (h : Moved (pending name) es after)
    (n : List UInt8) :
    Moved (pending n) (if n = name then es else []) (Function.update pending name after n) := by
  by_cases hn : n = name
  · subst hn
    rw [if_pos rfl, Function.update_self]
    exact h
  · rw [if_neg hn, Function.update_of_ne hn]
    exact Moved.nil _

theorem write_moves {s s' : Named α} {mqd : Int} {name : List UInt8} {msg : α} {a : Answer}
    (hname : s.nameOf mqd = some name) (h : s.write mqd msg = (a, s')) :
    s'.nameOf = s.nameOf ∧
      Moves pending s name (if a.result = 0 then [.pushed msg] else []) s' := by
  rw [write, hname] at h
  cases h
  exact ⟨rfl, moved_update s.pending (Moved.push _ msg)⟩

theorem read_moves {s s' : Named α} {mqd : Int} {name : List UInt8} {msg msg' : α} {a : Answer}
    (hname : s.nameOf mqd = some name) (h : s.read mqd msg = some (a, msg', s')) :
    s'.nameOf = s.nameOf ∧
      Moves pending s name (if a.result < 0 then [] else [.popped msg']) s' := by
  rw [read, hname] at h
  dsimp only at h
  split at h
  · cases h
  · rename_i first rest hpending
    cases h
    refine ⟨rfl, moved_update s.pending ?_⟩
    rw [hpending]
    exact Moved.pop _ rest

theorem nameOf_length (names : List (List UInt8)) (name : List UInt8)
    (pending : List UInt8 → List α) :
    nameOf ⟨names ++ [name], pending⟩ names.length = some name :=
  List.getElem?_concat_length

theorem nameOf_append {s : Named α} {mqd : Int} {other : List UInt8}
    (h : s.nameOf mqd = some other) (name : List UInt8) :
    nameOf { s with names := s.names ++ [name] } mqd = some other := by
  cases mqd with
  | ofNat n =>
    obtain ⟨hn, -⟩ := List.getElem?_eq_some_iff.mp h
    exact (List.getElem?_append_left hn).trans h
  | negSucc n => cases h

theorem system_byName : (system (α := α)).ByName nameOf pending where
  open_names s name maxmsg _ := nameOf_length s.names name s.pending
  open_keeps s name maxmsg mqd other h := nameOf_append h name
  open_contents s name maxmsg := rfl
  send s mqd name msg a s' hname h := write_moves hname (Option.some.inj h)
  timedsend s mqd name msg deadline a s' hname h := write_moves hname (Option.some.inj h)
  receive s mqd name msg a msg' s' hname h := read_moves hname h
  timedreceive s mqd name msg deadline a msg' s' hname h := by
    rcases Option.or_eq_some_iff.mp h with hread | ⟨-, hexpired⟩
    · exact read_moves hname hread
    · cases hexpired
      refine ⟨rfl, fun n => ?_⟩
      show Moved (s.pending n) (if n = name then [] else []) (s.pending n)
      rw [ite_self]
      exact Moved.nil _

section Objects

variable {ι : Type} {st : State ι (Named α)} {k : ι} {name : List UInt8}

theorem mqd_ne_of_nameOf (hname : st.system.nameOf (st.queue k).mqd = some name) :
    (st.queue k).mqd ≠ -1 := by
  intro hmqd
  rw [hmqd] at hname
  cases hname

variable [DecidableEq ι]

theorem step_init (hname : (st.queue k).queueName = name) (hslash : name.head? = some 0x2F) :
    step system st (.init k 1) =
      ⟨⟨Function.update st.queue k ⟨name, st.system.names.length⟩,
        { st.system with names := st.system.names ++ [name] }⟩,
        [(k, .initialised (.ok ()))]⟩ := by
  subst hname
  rw [step, Posix.MessageQueue.init_of_valid system st.system (by decide) hslash]
  have hok : ¬ (st.system.names.length : Int) = -1 := by
    omega
  show (⟨_, [(k, .initialised (if (st.system.names.length : Int) = -1 then _ else _))]⟩ :
    Traced (Event ι α) (State ι (Named α))) = _
  rw [if_neg hok]
  rfl

theorem step_send (hname : st.system.nameOf (st.queue k).mqd = some name) (m : α) :
    step system st (.send k m 0) =
      ⟨{ st with system := { st.system with
        pending := Function.update st.system.pending name (st.system.pending name ++ [m]) } },
        [(k, .sent m (.ok ()))]⟩ := by
  rw [step, Posix.MessageQueue.send_eq system (mqd_ne_of_nameOf hname),
    Posix.MessageQueue.sendCall, if_pos (Or.inl rfl)]
  have hwrite : st.system.write (st.queue k).mqd m = (⟨0, 0⟩, { st.system with
      pending := Function.update st.system.pending name (st.system.pending name ++ [m]) }) := by
    rw [write, hname]
  simp only [system, hwrite, Option.map_some]
  rfl

theorem step_receive {first : α} {rest : List α}
    (hname : st.system.nameOf (st.queue k).mqd = some name)
    (hpending : st.system.pending name = first :: rest) (m : α) :
    step system st (.receive k m 0) =
      ⟨{ st with system := { st.system with
        pending := Function.update st.system.pending name rest } },
        [(k, .received (.ok ()) first)]⟩ := by
  rw [step, Posix.MessageQueue.receive_eq system (mqd_ne_of_nameOf hname),
    Posix.MessageQueue.receiveCall, if_pos (Or.inl rfl)]
  have hread : st.system.read (st.queue k).mqd m = some (⟨1, 0⟩, first, { st.system with
      pending := Function.update st.system.pending name rest }) := by
    rw [read, hname]
    dsimp only
    rw [hpending]
  simp only [system, hread, Option.map_some]
  rfl

/-- What one object sends the other one receives, when both have one label. -/
theorem log_of_kernelName_eq {names : ι → List UInt8} {i j : ι} (hij : i ≠ j)
    (hslash : (kernelName (names j)).head? = some 0x2F)
    (heq : kernelName (names i) = kernelName (names j)) (m m' : α) :
    (run (step system) (start names ⟨[], fun _ => []⟩)
      [.init i 1, .init j 1, .send i m 0, .receive j m' 0]).log =
      [(i, .initialised (.ok ())), (j, .initialised (.ok ())), (i, .sent m (.ok ())),
        (j, .received (.ok ()) m)] := by
  let label := kernelName (names j)
  let constructed : ι → Posix.MessageQueue := fun k => .construct (names k)
  let one : ι → Posix.MessageQueue := Function.update constructed i ⟨label, 0⟩
  let both : ι → Posix.MessageQueue := Function.update one j ⟨label, 1⟩
  have hfirst : step (α := α) system ⟨constructed, ⟨[], fun _ => []⟩⟩ (.init i 1) =
      ⟨⟨one, ⟨[label], fun _ => []⟩⟩, [(i, .initialised (.ok ()))]⟩ :=
    step_init heq hslash
  have hsecond : step (α := α) system ⟨one, ⟨[label], fun _ => []⟩⟩ (.init j 1) =
      ⟨⟨both, ⟨[label, label], fun _ => []⟩⟩, [(j, .initialised (.ok ()))]⟩ := by
    have hj : (one j).queueName = label := by
      rw [show one j = constructed j from Function.update_of_ne hij.symm _ _]
      rfl
    exact step_init hj hslash
  have hsend : step system ⟨both, ⟨[label, label], fun _ => []⟩⟩ (.send i m 0) =
      ⟨⟨both, ⟨[label, label], Function.update (fun _ => []) label [m]⟩⟩,
        [(i, .sent m (.ok ()))]⟩ := by
    have hmqd : (both i).mqd = 0 := by
      simp [both, one, hij]
    exact step_send (by rw [hmqd]; rfl) m
  have hreceive : (step system ⟨both, ⟨[label, label], Function.update (fun _ => []) label [m]⟩⟩
      (.receive j m' 0)).log = [(j, .received (.ok ()) m)] := by
    have hmqd : (both j).mqd = 1 := by
      simp [both]
    have hpending : Function.update (fun _ => ([] : List α)) label [m] label = [m] :=
      Function.update_self ..
    rw [step_receive (by rw [hmqd]; rfl) hpending]
  show (run (step system) ⟨constructed, ⟨[], fun _ => []⟩⟩ _).log = _
  simp only [run_cons, run_nil, Traced.log_bind, hfirst, hsecond, hsend, hreceive,
    Traced.log_pure, List.append_nil, List.cons_append, List.nil_append]

/-- Two objects with one label have messages in common. -/
theorem not_separate_of_kernelName_eq [Nonempty α] {names : ι → List UInt8} {i j : ι}
    (hij : i ≠ j) (hslash : (kernelName (names j)).head? = some 0x2F)
    (heq : kernelName (names i) = kernelName (names j)) : ¬ Separate α names i j := by
  intro hseparate
  obtain ⟨m⟩ := ‹Nonempty α›
  have hlog := log_of_kernelName_eq hij hslash heq m m
  rcases hseparate _ system nameOf pending system_byName ⟨[], fun _ => []⟩ _ m
      (by rw [hlog]; simp) with hthere | ⟨k, hki, hsent⟩
  · cases hthere
  · rw [hlog] at hsent
    simp [hki] at hsent

end Objects

end Named

/-! ## No messages in common -/

/-- **Names.** Among any number of POSIX queues, two objects whose names begin with a slash
exchange no message through the system, in every sequence of initialisations, sends and receives
of any of the queues and over every system that knows queues by name, if and only if their names
differ in the first 31 bytes. -/
theorem separate_iff {ι : Type} [DecidableEq ι] (α : Type) [Nonempty α] (names : ι → List UInt8)
    {i j : ι} (hij : i ≠ j) (hj : (names j).head? = some 0x2F) :
    Separate α names i j ∧ Separate α names j i ↔ (names i).take 31 ≠ (names j).take 31 := by
  have hslash : (kernelName (names j)).head? = some 0x2F := by
    rw [kernelName_eq, List.head?_take, if_neg (by decide)]
    exact hj
  rw [← kernelName_eq, ← kernelName_eq]
  constructor
  · intro h heq
    exact Named.not_separate_of_kernelName_eq hij hslash heq h.1
  · intro hne
    exact ⟨separate_of_kernelName_ne hne, separate_of_kernelName_ne hne.symm⟩

/-- `/q0` and `/q1`. -/
theorem separate_iff_short :
    Separate Nat (fun second => [0x2F, 0x71, if second then 0x31 else 0x30]) false true ∧
      Separate Nat (fun second => [0x2F, 0x71, if second then 0x31 else 0x30]) true false :=
  (separate_iff Nat _ Bool.false_ne_true rfl).mpr (by decide)

/-- A slash, 30 letters and a digit. -/
def longName (second : Bool) : List UInt8 :=
  0x2F :: List.replicate 30 0x71 ++ [if second then 0x31 else 0x30]

/-- Names that differ in the 32nd byte: the second object receives what the first one sends. -/
theorem not_separate_long :
    longName false ≠ longName true ∧ (∀ second, (longName second).head? = some 0x2F) ∧
      ¬ (Separate Nat longName false true ∧ Separate Nat longName true false) := by
  refine ⟨by decide, fun second => rfl, fun h => ?_⟩
  exact Named.not_separate_of_kernelName_eq Bool.false_ne_true (by decide) (by decide) h.1

end QueueNames

end EnoceanCore.PlatformCore
