import EnoceanCore.PlatformCore.MutexInit
import EnoceanCore.Boards.Gpio
import Mathlib.Data.List.Induction
import Mathlib.Tactic.IntervalCases

/-!
# `LedBlinker`

The LED blinkers of both boards. All blinkers of a program share the mutex `mutex` and the pin
`ledPin`; each has its own `status`. Threads call `init` and `blink` on them at any time; every
look at `initialized_`, every call of the kernel and every access to `status` and to the pin is a
step of its own, between which other threads run.

If no two threads initialise the mutex at the same time, the blinks take turns
(`blinks_take_turns`): the pin is written once for each blink that got the mutex, in the order in
which they got it, and each blinker writes `Low` and `High` alternately. `IMutex::init` does not
see to that itself: a thread that has found the mutex not initialised initialises it even if
another one has locked it meanwhile, and then two threads can be inside together.

What `init` logs when it fails is left out.
-/

namespace EnoceanCore.Boards

open Lib PlatformCore

variable {σ τ δ : Type}

/-- The status of each blinker, and the device with the pin. -/
structure Leds (δ : Type) where
  status : Nat → Bool := fun _ => false
  device : δ

/-! ## The code -/

/-- The part of `LedBlinker::init` behind the mutex: whether `init` succeeds, and the device. -/
def configure (gpio : GpioDriver δ) (mutexResult : MutexResult) (device : δ) : Bool × δ :=
  match mutexResult with
  | .error _ => (false, device)
  | .ok _ =>
    match gpio.setMode .output device with
    | (.error _, device) => (false, device)
    | (.ok _, device) => (true, device)

/-- `LedBlinker::init`: whether it succeeds, the mutex and the device. -/
def init (mutexInit : Guarded σ → MutexResult × Guarded σ) (gpio : GpioDriver δ)
    (mutex : Guarded σ) (device : δ) : Bool × Guarded σ × δ :=
  match mutexInit mutex with
  | (mutexResult, mutex) =>
    match configure gpio mutexResult device with
    | (result, device) => (result, mutex, device)

/-- What `LedBlinker::blink` does with the mutex: read `status`, write it, read it again and write
the pin. The local value is the one read last. -/
def blink (gpio : GpioDriver δ) (blinker : Nat) : List (Bool × Leds δ → Bool × Leds δ) := [
  fun (_, leds) => (leds.status blinker, leds),
  fun (status, leds) =>
    (status, { leds with status := Function.update leds.status blinker (!status) }),
  fun (_, leds) => (leds.status blinker, leds),
  fun (status, leds) =>
    (status, { leds with device := gpio.write (if status then .low else .high) leds.device })]

/-- The blinks of the blinkers. -/
def blinks (gpio : GpioDriver δ) : Sections Nat Bool (Leds δ) := ⟨false, blink gpio⟩

/-- `LedBlinker::init`, step by step. -/
def inits (mutexInit : Task (Guarded σ) MutexResult) (gpio : GpioDriver δ) :
    Upkeep (Guarded σ) MutexResult (Leds δ) where
  task := mutexInit
  after mutexResult leds :=
    { leds with device := (configure gpio mutexResult leds.device).2 }

/-- What the blinkers of a board use: the locker of the mutex, the steps of `Mutex::init`, and the
driver with the pin. -/
structure Board (σ δ : Type) where
  lock : ExclusiveLock (Guarded σ)
  mutexInit : Task (Guarded σ) MutexResult
  gpio : GpioDriver δ

/-- The threads, the mutex and the blinkers. -/
abbrev LedThreads (σ δ : Type) : Type := Threads (Guarded σ) MutexResult Nat Bool (Leds δ)

namespace Board

variable (board : Board σ δ) (mutex : Guarded σ) (device : δ)

def step : LedThreads σ δ → Move Nat → Traced (Nat × Nat) (LedThreads σ δ) :=
  Threads.step board.lock (blinks board.gpio) (inits board.mutexInit board.gpio)

/-- Where a program starts. -/
def start : LedThreads σ δ := { lock := mutex, memory := { device } }

/-- The threads of a program, scheduled by the moves. The blinks that get the mutex are recorded,
each with its thread. -/
def program (moves : List (Move Nat)) : Traced (Nat × Nat) (LedThreads σ δ) :=
  run board.step (start mutex device) moves

end Board

namespace Posix

def ledPin : Pin := ⟨1, 0⟩

/-- On POSIX the mutex is locked without a timeout. -/
def board (kernel : ErrorcheckMutex σ) : Board σ (List String) where
  lock := PlatformCore.Posix.MutexLocker.exclusive kernel none
  mutexInit := PlatformCore.Posix.Mutex.initTask kernel.toPosixMutex
  gpio := gpioDriver ledPin

end Posix

namespace Zephyr

/-- On Zephyr the mutex is locked with `K_FOREVER`. -/
def board (kernel : RecursiveMutex τ) (port : GpioPort δ) : Board τ δ where
  lock := PlatformCore.Zephyr.MutexLocker.exclusive kernel .forever
  mutexInit := PlatformCore.Zephyr.Mutex.initTask kernel.toKMutex
  gpio := gpioDriver port

end Zephyr

/-- A call of `init` that nobody interrupts does what `init` does in one piece. -/
theorem init_alone (board : Board σ δ) {mutexInit : Guarded σ → MutexResult × Guarded σ}
    (hinit : ∀ m, board.mutexInit.run m = mutexInit m) {s : LedThreads σ δ}
    (hrunning : s.terminated = false) {t : Nat} (ht : s.doing t = .idle) :
    ∃ moves, let s' := (run board.step s moves).val
      let result := init mutexInit board.gpio s.lock s.memory.device
      s'.doing t = .idle ∧ s'.lock = result.2.1 ∧
        s'.memory = { s.memory with device := result.2.2 } ∧
        ∀ u, u ≠ t → s'.doing u = s.doing u := by
  obtain ⟨s₁, hstart⟩ := leads_start (L := board.lock) (S := blinks board.gpio)
    (U := inits board.mutexInit board.gpio) hrunning ht
  obtain ⟨s₂, htask⟩ := leads_upkeep (L := board.lock) (S := blinks board.gpio)
    (U := inits board.mutexInit board.gpio) hstart.running hstart.doing
  have hall := hstart.trans htask
  obtain ⟨moves, rfl⟩ := hall.moves
  refine ⟨moves, hall.doing, ?_, ?_, hall.others⟩
  · refine hall.lock.trans ?_
    rw [hstart.lock]
    exact congrArg Prod.snd (hinit s.lock)
  · refine hall.memory.trans ?_
    rw [hstart.lock, hstart.memory]
    show Leds.mk _ (configure _ (board.mutexInit.run s.lock).1 _).2 = _
    rw [hinit]
    rfl

/-! ## What is expected -/

/-- The state a blinker writes when it blinks after these blinks: `Low` the first time. -/
def stateAfter (before : List Nat) (blinker : Nat) : DigitalState :=
  if before.count blinker % 2 = 0 then .low else .high

def statesAfter (before : List Nat) : List Nat → List DigitalState
  | [] => []
  | blinker :: later => stateAfter before blinker :: statesAfter (before ++ [blinker]) later

/-- The states written by blinks that take turns. -/
def states (blinkers : List Nat) : List DigitalState := statesAfter [] blinkers

/-- The calls of the driver that the blinkers make. -/
inductive DriverCall where
  | setOutput
  | write (state : DigitalState)

namespace DriverCall

def perform (gpio : GpioDriver δ) (device : δ) : DriverCall → δ
  | setOutput => (gpio.setMode .output device).2
  | write state => gpio.write state device

/-- The state that a call writes. -/
def state? : DriverCall → Option DigitalState
  | setOutput => none
  | write state => some state

end DriverCall

/-- The device after these calls. -/
def performAll (gpio : GpioDriver δ) (device : δ) (calls : List DriverCall) : δ :=
  calls.foldl (DriverCall.perform gpio) device

namespace Board

variable (board : Board σ δ)

/-- No thread is inside `blink` with the mutex. -/
def Outside (s : LedThreads σ δ) : Prop := ∀ t, (s.doing t).holds = false

/-- The blinks take turns: a thread inside holds the mutex and is there alone, no unlock terminates
the program, and of the calls of the driver those that write are one for each blink that got the
mutex, which the last one may not have made yet. -/
structure TakesTurns (device : δ) (x : Traced (Nat × Nat) (LedThreads σ δ)) : Prop where
  running : x.val.terminated = false
  held : ∀ t, (x.val.doing t).holds = true → board.lock.Held x.val.lock t
  alone : ∀ t u, (x.val.doing t).holds = true → (x.val.doing u).holds = true → t = u
  written : ∃ calls, x.val.memory.device = performAll board.gpio device calls ∧
    ∃ n, n ≤ x.log.length ∧ x.log.length ≤ n + 1 ∧
      calls.filterMap DriverCall.state? = (states (x.log.map Prod.snd)).take n ∧
      (Outside x.val → n = x.log.length)
  settled : Outside x.val → ∀ blinker, x.val.memory.status blinker =
    decide ((x.log.map Prod.snd).count blinker % 2 = 1)

/-- Whenever a thread calls `init`, no other one is initialising the mutex. -/
def InitsApart (mutex : Guarded σ) (device : δ) (moves : List (Move Nat)) : Prop :=
  Apart board.lock (blinks board.gpio) (inits board.mutexInit board.gpio)
    (start mutex device) moves

/-- After some moves two threads are inside `blink` with the mutex. -/
def TwoInside (mutex : Guarded σ) (device : δ) : Prop :=
  ∃ moves t u, t ≠ u ∧ ((board.program mutex device moves).val.doing t).holds = true ∧
    ((board.program mutex device moves).val.doing u).holds = true

end Board

/-! ## Blinks one after the other -/

theorem statesAfter_concat (before blinkers : List Nat) (blinker : Nat) :
    statesAfter before (blinkers ++ [blinker]) =
      statesAfter before blinkers ++ [stateAfter (before ++ blinkers) blinker] := by
  induction blinkers generalizing before with
  | nil => rw [List.append_nil]; rfl
  | cons b blinkers ih =>
    rw [List.cons_append, statesAfter, ih, statesAfter, List.append_assoc]
    rfl

theorem states_concat (blinkers : List Nat) (blinker : Nat) :
    states (blinkers ++ [blinker]) = states blinkers ++ [stateAfter blinkers blinker] :=
  statesAfter_concat [] blinkers blinker

theorem length_statesAfter (before blinkers : List Nat) :
    (statesAfter before blinkers).length = blinkers.length := by
  induction blinkers generalizing before with
  | nil => rfl
  | cons b blinkers ih => rw [statesAfter, List.length_cons, ih, List.length_cons]

/-- The status of a blinker after these blinks. -/
def statusAfter (blinkers : List Nat) (blinker : Nat) : Bool :=
  decide (blinkers.count blinker % 2 = 1)

theorem statusAfter_concat (blinkers : List Nat) (b : Nat) :
    statusAfter (blinkers ++ [b]) =
      Function.update (statusAfter blinkers) b (!statusAfter blinkers b) := by
  funext blinker
  unfold statusAfter
  by_cases hb : blinker = b
  · subst hb
    rw [Function.update_self, List.count_append, List.count_singleton_self]
    rcases Nat.mod_two_eq_zero_or_one (blinkers.count blinker) with heven | hodd
    · rw [Nat.add_mod, heven]
      rfl
    · rw [Nat.add_mod, hodd]
      rfl
  · have hne : (b == blinker) = false := beq_false_of_ne fun h => hb h.symm
    rw [Function.update_of_ne hb, List.count_append, List.count_singleton, hne]
    simp

theorem stateAfter_eq (blinkers : List Nat) (b : Nat) :
    stateAfter blinkers b = if statusAfter blinkers b = false then .low else .high := by
  unfold stateAfter statusAfter
  rcases Nat.mod_two_eq_zero_or_one (blinkers.count b) with heven | hodd
  · rw [heven]
    rfl
  · rw [hodd]
    rfl

/-! ## What the blinks write -/

/-- The status of each blinker, and what was written to the pin. -/
structure Turns where
  status : Nat → Bool := fun _ => false
  written : List DigitalState := []

/-- A blink, where the pin only shows what is written to it. -/
def turn (blinker : Nat) : List (Bool × Turns → Bool × Turns) := [
  fun (_, turns) => (turns.status blinker, turns),
  fun (status, turns) =>
    (status, { turns with status := Function.update turns.status blinker (!status) }),
  fun (_, turns) => (turns.status blinker, turns),
  fun (status, turns) =>
    (status, { turns with written := turns.written ++ [if status then .low else .high] })]

def turns : Sections Nat Bool Turns := ⟨false, turn⟩

/-- The calls of the driver so far write what was written. -/
def Shows (gpio : GpioDriver δ) (device : δ) (leds : Leds δ) (turns : Turns) : Prop :=
  leds.status = turns.status ∧ ∃ calls, leds.device = performAll gpio device calls ∧
    calls.filterMap DriverCall.state? = turns.written

section Serial

variable (gpio : GpioDriver δ) (device : δ)

theorem performAll_concat (calls : List DriverCall) (call : DriverCall) :
    performAll gpio device (calls ++ [call]) =
      call.perform gpio (performAll gpio device calls) := by
  rw [performAll, List.foldl_append]
  rfl

/-- The blinks follow the turns. -/
theorem follow_turns : (blinks gpio).Follow turns (Shows gpio device) where
  start := rfl
  body blinker := by
    refine .cons ?_ (.cons ?_ (.cons ?_ (.cons ?_ .nil)))
    · exact fun _ leds turns h => ⟨congrFun h.1 blinker, h⟩
    · intro status leds turns h
      refine ⟨rfl, ?_, h.2⟩
      show Function.update leds.status _ _ = _
      rw [h.1]
    · exact fun _ leds turns h => ⟨congrFun h.1 blinker, h⟩
    · rintro status leds turns ⟨hstatus, calls, hdevice, hwritten⟩
      refine ⟨rfl, hstatus, calls ++ [.write (if status then .low else .high)], ?_, ?_⟩
      · rw [performAll_concat, ← hdevice]
        rfl
      · rw [List.filterMap_append, hwritten]
        rfl

/-- Behind the mutex `init` only sets the mode of the pin. -/
theorem shows_after (mutexInit : Task (Guarded σ) MutexResult) (mutexResult : MutexResult)
    (leds : Leds δ) (turns : Turns) (h : Shows gpio device leds turns) :
    Shows gpio device ((inits mutexInit gpio).after mutexResult leds) turns := by
  obtain ⟨hstatus, calls, hdevice, hwritten⟩ := h
  refine ⟨hstatus, ?_⟩
  cases mutexResult with
  | error e => exact ⟨calls, hdevice, hwritten⟩
  | ok _ =>
    refine ⟨calls ++ [.setOutput], ?_, ?_⟩
    · rw [performAll_concat, ← hdevice]
      show (configure gpio (.ok ()) leds.device).2 = (gpio.setMode .output leds.device).2
      unfold configure
      dsimp only
      split <;> (rename_i hmode; rw [hmode])
    · rw [List.filterMap_append, hwritten]
      exact List.append_nil _

/-- A whole blink. -/
theorem whole_turns (blinker : Nat) (t : Turns) :
    turns.whole blinker t =
      { status := Function.update t.status blinker (!t.status blinker),
        written := t.written ++ [if t.status blinker = false then .low else .high] } := by
  show Turns.mk _ _ = _
  simp

/-- Whole blinks one after the other. -/
theorem serial_turns (entered : List (Nat × Nat)) :
    turns.serial {} entered =
      { status := statusAfter (entered.map Prod.snd),
        written := states (entered.map Prod.snd) } := by
  induction entered using List.reverseRecOn with
  | nil => rfl
  | append_singleton entered e ih =>
    rw [Sections.serial_concat, ih, whole_turns, List.map_append, List.map_singleton,
      statusAfter_concat, states_concat, stateAfter_eq]

/-- A first part of a blink writes the pin at its end or not at all. -/
theorem written_of_part {blinker : Nat} {made rest : List (Bool × Turns → Bool × Turns)}
    (h : turn blinker = made ++ rest) (t : Turns) :
    (Sections.finish made (false, t)).2.written = t.written ∨
      (Sections.finish made (false, t)).2.written = (turns.whole blinker t).written := by
  have hparts : made = (turn blinker).take made.length := by
    rw [h, List.take_left]
  have hlength : made.length ≤ 4 := by
    have hsum : 4 = made.length + rest.length := by
      rw [← List.length_append, ← h]
      rfl
    omega
  rw [hparts]
  interval_cases made.length
  · exact Or.inl rfl
  · exact Or.inl rfl
  · exact Or.inl rfl
  · exact Or.inl rfl
  · exact Or.inr rfl

theorem length_states (entered : List (Nat × Nat)) :
    (states (entered.map Prod.snd)).length = entered.length := by
  rw [states, length_statesAfter, List.length_map]

/-- What is written inside a blink. -/
theorem written_inside (before : List (Nat × Nat)) (t : Nat) {blinker : Nat}
    {made rest : List (Bool × Turns → Bool × Turns)} (body : turn blinker = made ++ rest) :
    ∃ n, n ≤ (before ++ [(t, blinker)]).length ∧ (before ++ [(t, blinker)]).length ≤ n + 1 ∧
      (Sections.finish made (false, turns.serial {} before)).2.written =
        (states ((before ++ [(t, blinker)]).map Prod.snd)).take n := by
  have hlength : (before ++ [(t, blinker)]).length = before.length + 1 := by
    rw [List.length_append, List.length_singleton]
  have hall : (states ((before ++ [(t, blinker)]).map Prod.snd)).length = before.length + 1 := by
    rw [length_states, hlength]
  rw [hlength]
  rcases written_of_part body (turns.serial {} before) with hnot | hwritten
  · refine ⟨before.length, Nat.le_succ _, Nat.le_refl _, ?_⟩
    rw [hnot, serial_turns, List.map_append, List.map_singleton, states_concat,
      List.take_left' (length_states before)]
  · refine ⟨before.length + 1, Nat.le_refl _, Nat.le_succ _, ?_⟩
    rw [hwritten, List.take_of_length_le (Nat.le_of_eq hall), ← Sections.serial_concat turns _ _
      (t, blinker), serial_turns]

end Serial

/-! ## Every schedule -/

namespace Board

variable (board : Board σ δ)

/-- What the schedule of the sections says about the blinks. -/
theorem takesTurns_of_orderly {device : δ} {entered : List (Nat × Nat)} {s : LedThreads σ δ}
    (h : Orderly board.lock turns (Shows board.gpio device) {} entered s) :
    board.TakesTurns device ⟨s, entered⟩ := by
  refine ⟨h.running, fun t ht => h.serial.held ht, fun t u ht hu => h.serial.alone ht hu, ?_, ?_⟩
  · rcases h.serial.parts with ⟨-, calls, hdevice, hwritten⟩ |
      ⟨⟨u, hu⟩, before, t, i, made, rest, rfl, body, -, calls, hdevice, hwritten⟩
    · refine ⟨calls, hdevice, entered.length, Nat.le_refl _, Nat.le_succ _, ?_, fun _ => rfl⟩
      rw [hwritten, serial_turns, List.take_of_length_le (Nat.le_of_eq (length_states entered))]
    · obtain ⟨n, hle, hge, htaken⟩ := written_inside before t body
      refine ⟨calls, hdevice, n, hle, hge, hwritten.trans htaken, fun hout => ?_⟩
      rw [hout u] at hu
      cases hu
  · intro hout blinker
    rcases h.serial.parts with ⟨hstatus, -⟩ | ⟨⟨u, hu⟩, -⟩
    · have hblinker := congrFun hstatus blinker
      rw [serial_turns] at hblinker
      exact hblinker
    · rw [hout u] at hu
      cases hu

/-- On a board whose mutex can be initialised beside the lockers, by one thread at a time, the
blinks take turns. -/
theorem program_takesTurns
    (hkeeps : ∀ m, board.mutexInit.Keeps board.lock (fun _ _ => True) m) {mutex : Guarded σ}
    (hfree : board.lock.Free mutex) (device : δ) {moves : List (Move Nat)}
    (hapart : board.InitsApart mutex device moves) :
    board.TakesTurns device (board.program mutex device moves) :=
  board.takesTurns_of_orderly (run_orderly board.lock (follow_turns board.gpio device)
    (shows_after board.gpio device board.mutexInit) hkeeps hfree ⟨rfl, [], rfl, rfl⟩ hapart)

/-- Two calls of `init` at the same time. Both have found the mutex not initialised, and whenever
one goes on from there it leaves a mutex that any thread can lock. -/
theorem two_inside {mutex : Guarded σ} {rest : Task (Guarded σ) MutexResult}
    (hreaches : board.mutexInit.Reaches mutex rest mutex)
    (hfresh : ∀ m t, board.lock.ready (rest.run m).2 = true ∧
      ∃ taken, board.lock.lock (rest.run m).2 t = some (true, taken)) (device : δ) :
    board.TwoInside mutex device := by
  obtain ⟨hready, taken, htaken⟩ := hfresh mutex 2
  rw [← hreaches.run_eq] at hready htaken
  obtain ⟨hready', taken', htaken'⟩ := hfresh taken 3
  exact exists_two_inside (blinks board.gpio) 0 _ hreaches hready htaken hready' htaken'

end Board

/-- Two calls of `init` at the same time on POSIX. -/
theorem Posix.two_inside {kernel : ErrorcheckMutex σ} (h : kernel.Willing) (mutex : σ)
    (lines : List String) : (Posix.board kernel).TwoInside ⟨mutex, false⟩ lines := by
  refine Board.two_inside _ (PlatformCore.Posix.Mutex.reaches_initTask kernel.toPosixMutex mutex)
    (fun m t => ?_) lines
  obtain ⟨hready, hunowned⟩ := h.unowned_reinit m
  exact ⟨hready, h.exists_lock hunowned t⟩

/-- Two calls of `init` at the same time on Zephyr. -/
theorem Zephyr.two_inside {kernel : RecursiveMutex τ} (h : kernel.Willing) (port : GpioPort δ)
    (mutex : τ) (device : δ) : (Zephyr.board kernel port).TwoInside ⟨mutex, false⟩ device := by
  refine Board.two_inside _ (PlatformCore.Zephyr.Mutex.reaches_initTask kernel.toKMutex mutex)
    (fun m t => ?_) device
  obtain ⟨hready, hunowned⟩ := h.unowned_reinit m
  exact ⟨hready, h.exists_lock hunowned t⟩

/-- **Blinks take turns.** On both boards, from every state of the mutex in which no thread owns
it, for every number of threads and blinkers and for every schedule of their steps through `init`
and `blink` in which no two threads initialise the mutex at the same time: two threads are never
inside `blink` with the mutex, no unlock terminates the program, and the pin is written once for
each blink that got the mutex, in that order, by each blinker alternately with `Low` and `High`.

The restriction is needed: if two threads may initialise the mutex at the same time, two threads
can be inside together, unless a call of the kernel fails. -/
theorem blinks_take_turns (posix : ErrorcheckMutex σ) (zephyr : RecursiveMutex τ)
    (port : Zephyr.GpioPort δ) (lines : List String) (device : δ) :
    (∀ m moves, PlatformCore.Posix.MutexLocker.Free posix m →
      (Posix.board posix).InitsApart m lines moves →
      (Posix.board posix).TakesTurns lines ((Posix.board posix).program m lines moves)) ∧
    (∀ m moves, PlatformCore.Zephyr.MutexLocker.Free zephyr m →
      (Zephyr.board zephyr port).InitsApart m device moves →
      (Zephyr.board zephyr port).TakesTurns device
        ((Zephyr.board zephyr port).program m device moves)) ∧
    (posix.Willing → ∀ m, (Posix.board posix).TwoInside ⟨m, false⟩ lines) ∧
    (zephyr.Willing → ∀ m, (Zephyr.board zephyr port).TwoInside ⟨m, false⟩ device) := by
  refine ⟨fun m moves hfree hapart => ?_, fun m moves hfree hapart => ?_, fun h m => ?_,
    fun h m => ?_⟩
  · exact Board.program_takesTurns _ (PlatformCore.Posix.Mutex.keeps_initTask posix none) hfree
      lines hapart
  · exact Board.program_takesTurns _ (PlatformCore.Zephyr.Mutex.keeps_initTask zephyr .forever)
      hfree device hapart
  · exact Posix.two_inside h m lines
  · exact Zephyr.two_inside h port m device

/-- Thread 0 initialises, thread 1 blinks meanwhile in vain and then once more, and thread 2 waits
for it while it is between its two reads of `status`. -/
def sampleMoves : List (Move Nat) :=
  [.start 0, .advance 0, .advance 0, .enter 1 0] ++ List.replicate 7 (.advance 0) ++
    [.enter 1 0, .advance 1, .advance 1, .enter 2 0, .advance 2] ++
    List.replicate 5 (.advance 1) ++ List.replicate 7 (.advance 2)

/-- A port that is ready and remembers the values it is set to. -/
def Zephyr.samplePort : Zephyr.GpioPort (List Int) where
  isReady _ := true
  configure _ values := (0, values)
  set value values := (0, values ++ [value])

theorem blinks_take_turns_sampleMoves :
    (Posix.board PlatformCore.Posix.errorcheckMutex).TakesTurns []
        ((Posix.board PlatformCore.Posix.errorcheckMutex).program ⟨none, false⟩ [] sampleMoves) ∧
      (Zephyr.board PlatformCore.Zephyr.recursiveMutex Zephyr.samplePort).TakesTurns []
        ((Zephyr.board PlatformCore.Zephyr.recursiveMutex Zephyr.samplePort).program
          ⟨none, false⟩ [] sampleMoves) ∧
      (Posix.board PlatformCore.Posix.errorcheckMutex).TwoInside ⟨none, false⟩ [] ∧
      (Zephyr.board PlatformCore.Zephyr.recursiveMutex Zephyr.samplePort).TwoInside
        ⟨none, false⟩ [] := by
  obtain ⟨hposix, hzephyr, htwo, htwo'⟩ := blinks_take_turns PlatformCore.Posix.errorcheckMutex
    PlatformCore.Zephyr.recursiveMutex Zephyr.samplePort [] []
  have hmoves : ∀ u, Move.start u ∉ sampleMoves.tail := by
    intro u hu
    have hall : ∀ move ∈ sampleMoves.tail, ∀ v, move ≠ .start v := by
      simp [sampleMoves]
    exact hall _ hu u rfl
  refine ⟨hposix _ _ (fun _ => rfl) ?_, hzephyr _ _ (fun _ => rfl) ?_,
    htwo PlatformCore.Posix.willing_errorcheckMutex none,
    htwo' PlatformCore.Zephyr.willing_recursiveMutex none⟩
  · exact apart_of_one_start (fun _ => rfl) 0 hmoves
  · exact apart_of_one_start (fun _ => rfl) 0 hmoves

example :
    ((Posix.board PlatformCore.Posix.errorcheckMutex).program ⟨none, false⟩ []
        sampleMoves).val.memory.device =
      ["Setting POSIX pin 0 mode to 1", "Writing 0 to POSIX pin 0",
        "Writing 1 to POSIX pin 0"] := by
  decide +kernel

end EnoceanCore.Boards
