import EnoceanCore.Ble.ScanLoop
import EnoceanCore.Ble.Sockets
import EnoceanCore.PlatformCore.ThreadLife

/-!
# The scan thread beside the application

The application calls `start_scan`, `stop_scan` and the destructor while a scan thread runs
`scan_loop`. The two share `running_`, and each looks at it or writes it in a step of its own;
between two steps of one thread the others may make any number of theirs (`ScanMove`). What `read`
returns is an input, so it does not matter on which descriptor it is called.

What `pthread_join` returns in the destructor of the thread object is an input too; only that it
succeeds takes a thread that has returned. If it fails, `~Thread` ignores that, so a thread may be
left behind with a scanner that is destroyed. It goes on here as it finds the scanner.

An operation that nobody interrupts does what it does in one piece (`run_startScan`,
`run_stopScan`, `run_destroy`, `run_join`).
-/

namespace EnoceanCore.Ble

open Lib PlatformCore

/-- The last part of `~Scanner`. -/
def closeSocket (scanner : Scanner) : Prog BleCall Scanner := do
  if scanner.hciFd ≥ 0 then
    let _ ← .perform (.close scanner.hciFd)
    return { scanner with hciFd := -1 }
  return scanner

theorem destroy_eq (scanner : Scanner) : destroy scanner = destroyScan scanner >>= closeSocket :=
  rfl

/-! ## The threads that calls start -/

/-- The threads after an answered call. -/
def threadsAfter (w : ThreadWorld) : BleCall → Int → ThreadWorld
  | .pthread c, r => w.nextPthread c r
  | _, _ => w

/-- The call starts a thread. -/
def startsThread : BleCall × Int → Bool
  | (.pthread (.create _ _), r) => r == 0
  | _ => false

theorem length_threadsAfter (w : ThreadWorld) (e : BleCall × Int) :
    (threadsAfter w e.1 e.2).threads.held.length =
      w.threads.held.length + (if startsThread e then 1 else 0) := by
  obtain ⟨c, r⟩ := e
  cases c with
  | pthread c =>
    cases c with
    | create entry param =>
      by_cases hr : r = 0
      · subst hr
        simp [threadsAfter, ThreadWorld.next, startsThread, Ledger.next_acquire]
      · simp [threadsAfter, ThreadWorld.next, startsThread, hr]
    | attrInit =>
      by_cases hr : r = 0
      · simp [threadsAfter, ThreadWorld.next, startsThread, hr]
      · simp [threadsAfter, ThreadWorld.next, startsThread, hr]
    | _ => rfl
  | _ => rfl

/-- The threads there are more after the calls are those the calls started. -/
theorem length_foldl_threadsAfter (calls : List (BleCall × Int)) (w : ThreadWorld) :
    (calls.foldl (fun w e => threadsAfter w e.1 e.2) w).threads.held.length =
      w.threads.held.length + calls.countP startsThread := by
  induction calls generalizing w with
  | nil => rfl
  | cons e calls ih =>
    rw [List.foldl_cons, ih, length_threadsAfter, List.countP_cons]
    omega

/-- Creating the scan thread starts one thread, or fails and starts none; an active thread object
is not created again. -/
theorem exec_create (env : Env BleCall) (thread : Thread) :
    let x := Prog.exec env ((create kPthreadStackMin thread (.one scanThreadFn) kScanStackSize
      kScanPriority (.param1 scannerPointer)).lift .pthread)
    (x.val.1 = .ok () → thread.active = false ∧ x.val.2.active = true ∧
      x.log.countP startsThread = 1) ∧
    ∀ e, x.val.1 = .error e → x.val.2 = thread ∧ x.log.countP startsThread = 0 := by
  intro x
  have hbalanced : Balanced ({} : ThreadWorld).attrs := ⟨rfl, rfl, Nat.zero_le 1⟩
  have hwp : Prog.wp AnyReply threadsAfter ((create kPthreadStackMin thread (.one scanThreadFn)
      kScanStackSize kScanPriority (.param1 scannerPointer)).lift .pthread)
      (Created thread {}) {} := by
    rw [Prog.wp_lift]
    exact wp_create_created hbalanced _ _ _ _ _
  have hany : ∀ made c, AnyReply c (env made c) := fun _ _ => trivial
  have hcreated := Prog.wp_exec hany hwp
  have hcount := length_foldl_threadsAfter x.log {}
  refine ⟨fun hok => ?_, fun e herror => ?_⟩
  · obtain ⟨hinactive, hactive, -, hthreads⟩ := hcreated.ok hok
    refine ⟨hinactive, hactive, ?_⟩
    rw [hthreads, Ledger.next_acquire] at hcount
    have hcount : 1 = 0 + x.log.countP startsThread := hcount
    omega
  · obtain ⟨hsame, -, hthreads, -⟩ := hcreated.error e herror
    refine ⟨hsame, ?_⟩
    rw [hthreads] at hcount
    have hcount : 0 = 0 + x.log.countP startsThread := hcount
    omega

/-! ## The scan thread -/

/-- Where a thread is in `scan_loop`. -/
inductive Place where
  /-- Before it looks at the flag in the head of the loop. -/
  | head
  | reading
  /-- `read` has returned no bytes. -/
  | failed
  /-- The callback is still to be called for these reports. -/
  | dispatching (left : List AdvArgs)
  | returned

/-- The buffer of a new thread. -/
abbrev emptyBuffer : Buffer kHciBufSize := Vector.replicate _ 0

structure ScanThread where
  place : Place := .head
  buf : Buffer kHciBufSize := emptyBuffer

namespace ScanThread

/-- The thread after `read` has returned these bytes. -/
def receive (callback : Bool) (bytes : List UInt8) (t : ScanThread) : ScanThread :=
  let got := bytes.take kHciBufSize
  let buf := t.buf.overwrite 0 got
  { place := if got.length = 0 then .failed
      else .dispatching (reportsOf (scanEvent callback buf got.length))
    buf }

/-- The next step of a thread, with the flag it may see and the bytes it may read. -/
def advance (callback running : Bool) (bytes : List UInt8) (t : ScanThread) :
    Traced ScanEvent ScanThread :=
  match t.place with
  | .head => pure { t with place := if running then .reading else .returned }
  | .reading => do
    Traced.emit .read
    return t.receive callback bytes
  | .failed => pure { t with place := if running then .head else .returned }
  | .dispatching [] => pure { t with place := .head }
  | .dispatching (args :: left) => do
    Traced.emit (.report args)
    return { t with place := .dispatching left }
  | .returned => pure t

/-- The reports for which the callback is still to be called. -/
def pending (t : ScanThread) : List AdvArgs :=
  match t.place with
  | .dispatching left => left
  | _ => []

def returned (t : ScanThread) : Bool :=
  match t.place with
  | .returned => true
  | _ => false

theorem place_of_returned {t : ScanThread} (h : t.returned = true) : t.place = .returned := by
  unfold returned at h
  split at h
  · assumption
  · cases h

end ScanThread

/-! ## The application -/

inductive Api where
  | startScan
  | stopScan
  | destroy
  deriving DecidableEq

/-- What an operation of the scanner does next. -/
inductive Stage where
  /-- `start_scan`: enable scanning, raise the flag, create the thread; if that fails, lower the
  flag and disable scanning. -/
  | startEnable
  | startRaise
  | startCreate
  | startLower
  | startDisable
  | stopLower
  | stopDisable
  | destroyLower
  | destroyDisable
  | destroyClose
  /-- The destructor of the thread object. -/
  | destroyJoin
  deriving DecidableEq

/-- The application is outside the scanner, inside an operation with the answers to its further
calls, or it has destroyed the scanner, with this result for the thread object, which the
destructor ignores. -/
inductive Caller where
  | idle
  | inside (stage : Stage) (env : Env BleCall)
  | gone (destroyed : Except ThreadError Unit)

def Caller.isGone : Caller → Bool
  | .gone _ => true
  | _ => false

/-- The scanner, the application and the scan threads in the order of their creation. -/
structure ScanSystem where
  scanner : Scanner
  caller : Caller := .idle
  threads : List ScanThread := []

/-- What is seen of a run: what the scan threads do, and the results of the operations. -/
inductive Seen where
  | scan (event : ScanEvent)
  | result (result : Except BleError Unit)

def Seen.scan? : Seen → Option ScanEvent
  | .scan event => some event
  | .result _ => none

/-- A call of an operation of the scanner, the next step of the operation, the return of a
`pthread_join` that it waits for, or the next step of a scan thread. -/
inductive ScanMove where
  | call (api : Api) (env : Env BleCall)
  | caller
  | join (err : Int)
  | thread (i : Nat) (bytes : List UInt8)

namespace ScanSystem

def enter (s : ScanSystem) (stage : Stage) (env : Env BleCall) : Traced Seen ScanSystem :=
  pure { s with caller := .inside stage env }

def finish (s : ScanSystem) (result : Except BleError Unit) : Traced Seen ScanSystem := do
  Traced.emit (.result result)
  return { s with caller := .idle }

def setRunning (s : ScanSystem) (running : Bool) : ScanSystem :=
  { s with scanner := { s.scanner with running } }

/-- The first step of an operation looks at the flag. -/
def call (s : ScanSystem) (env : Env BleCall) : Api → Traced Seen ScanSystem
  | .startScan =>
    if s.scanner.hciFd < 0 then s.finish (.error .notInitialised)
    else if s.scanner.running then s.finish (.ok ())
    else s.enter .startEnable env
  | .stopScan => if !s.scanner.running then s.finish (.ok ()) else s.enter .stopLower env
  | .destroy => if s.scanner.running then s.enter .destroyLower env else s.enter .destroyClose env

def startEnable (s : ScanSystem) (env : Env BleCall) : Traced Seen ScanSystem :=
  let x := Prog.exec env (enableLeScan s.scanner.hciFd)
  if !x.val then s.finish (.error .scanStartFailed)
  else s.enter .startRaise (env.after x.log)

def startCreate (s : ScanSystem) (env : Env BleCall) : Traced Seen ScanSystem :=
  let x := Prog.exec env ((create kPthreadStackMin s.scanner.scanThread (.one scanThreadFn)
    kScanStackSize kScanPriority (.param1 scannerPointer)).lift .pthread)
  let s := { s with
    scanner := { s.scanner with scanThread := x.val.2 }
    threads := s.threads ++ List.replicate (x.log.countP startsThread) ({} : ScanThread) }
  match x.val.1 with
  | .error _ => s.enter .startLower (env.after x.log)
  | .ok _ => s.finish (.ok ())

def destroyClose (s : ScanSystem) (env : Env BleCall) : Traced Seen ScanSystem :=
  let x := Prog.exec env (closeSocket s.scanner)
  ScanSystem.enter { s with scanner := x.val } .destroyJoin (env.after x.log)

/-- A thread object that is not active has nothing to wait for. -/
def destroyThread (s : ScanSystem) : ScanSystem :=
  if s.scanner.scanThread.active then s else { s with caller := .gone (.ok ()) }

/-- `pthread_join` returns in the loop of `os_destroy`. The thread it waits for is the one that was
created last. -/
def joined (s : ScanSystem) (err : Int) : ScanSystem :=
  if !s.scanner.scanThread.active then s
  else if err = EINTR then s
  else if err = 0 then
    if s.threads.getLast?.any ScanThread.returned then
      { s with scanner := { s.scanner with scanThread := ⟨false⟩ }, caller := .gone (.ok ()) }
    else s
  else { s with caller := .gone (.error (errnoToThreadError err)) }

/-- The next step of an operation. The last calls of one, to disable scanning, change nothing
here. -/
def proceed (s : ScanSystem) (env : Env BleCall) : Stage → Traced Seen ScanSystem
  | .startEnable => s.startEnable env
  | .startRaise => (s.setRunning true).enter .startCreate env
  | .startCreate => s.startCreate env
  | .startLower => (s.setRunning false).enter .startDisable env
  | .startDisable => s.finish (.error .systemError)
  | .stopLower => (s.setRunning false).enter .stopDisable env
  | .stopDisable => s.finish (.ok ())
  | .destroyLower => (s.setRunning false).enter .destroyDisable env
  | .destroyDisable =>
    let x := Prog.exec env (disableLeScan s.scanner.hciFd)
    s.enter .destroyClose (env.after x.log)
  | .destroyClose => s.destroyClose env
  | .destroyJoin => pure s.destroyThread

/-- The next step of a scan thread. -/
def advance (s : ScanSystem) (i : Nat) (bytes : List UInt8) : Traced Seen ScanSystem :=
  match s.threads[i]? with
  | none => pure s
  | some t =>
    let x := t.advance s.scanner.callback s.scanner.running bytes
    ⟨{ s with threads := s.threads.set i x.val }, x.log.map .scan⟩

def step (s : ScanSystem) : ScanMove → Traced Seen ScanSystem
  | .call api env =>
    match s.caller with
    | .idle => s.call env api
    | _ => pure s
  | .caller =>
    match s.caller with
    | .inside stage env => s.proceed env stage
    | _ => pure s
  | .join err =>
    match s.caller with
    | .inside .destroyJoin _ => pure (s.joined err)
    | _ => pure s
  | .thread i bytes => s.advance i bytes

/-- The scanner after its first `init`, with the calls answered by `env`. -/
def opened (callback : Bool) (env : Env BleCall) : ScanSystem where
  scanner := (Prog.exec env (init {} callback)).val.2

/-! ## Operations alone -/

/-- The application makes a call and its steps, and no thread moves. -/
def alone (s : ScanSystem) (api : Api) (env : Env BleCall) : Traced Seen ScanSystem :=
  run step s (.call api env :: List.replicate 5 .caller)

@[simp] theorem proceed_idle {s : ScanSystem} (h : s.caller = .idle) : step s .caller = pure s := by
  simp only [step, h]

/-- An operation has finished with this result and this scanner. -/
structure Done (r : Except BleError Unit × Scanner) (x : Traced Seen ScanSystem) : Prop where
  scanner : x.val.scanner = r.2
  caller : x.val.caller = .idle
  log : x.log = [.result r.1]

/-- Steps of the application outside an operation do nothing. -/
theorem run_callers_idle {s : ScanSystem} (h : s.caller = .idle) (n : Nat) :
    run step s (List.replicate n .caller) = pure s := by
  induction n with
  | zero => rfl
  | succ n ih => rw [List.replicate_succ, run_cons, proceed_idle h, Traced.pure_bind, ih]

/-- After an operation has finished. -/
theorem run_finish (s : ScanSystem) (result : Except BleError Unit) (n : Nat) :
    (s.finish result >>= fun s => run step s (List.replicate n .caller)) = s.finish result := by
  calc (s.finish result >>= fun s => run step s (List.replicate n .caller))
      = s.finish result >>= pure := Traced.bind_congr_val (run_callers_idle rfl n)
    _ = s.finish result := rfl

/-- After an operation has come to its next stage. -/
theorem run_enter (s : ScanSystem) (stage : Stage) (env : Env BleCall) (n : Nat) :
    (s.enter stage env >>= fun s => run step s (List.replicate (n + 1) .caller)) =
      proceed { s with caller := .inside stage env } env stage >>= fun s =>
        run step s (List.replicate n .caller) := rfl

theorem done_finish {s : ScanSystem} {result : Except BleError Unit}
    {r : Except BleError Unit × Scanner} (h : r = (result, s.scanner)) :
    Done r (s.finish result) := by
  subst h
  exact ⟨rfl, rfl, rfl⟩

theorem run_startScan {s : ScanSystem} (h : s.caller = .idle) (env : Env BleCall) :
    Done (Prog.exec env (startScanImpl s.scanner)).val (s.alone .startScan env) := by
  have hcall : s.alone .startScan env = s.call env .startScan >>= fun s =>
      run step s (List.replicate 5 .caller) := by
    simp only [alone, run_cons, step, h]
  rw [hcall]
  unfold call startScanImpl
  by_cases hfd : s.scanner.hciFd < 0
  · rw [if_pos hfd, if_pos hfd, run_finish]
    exact done_finish rfl
  by_cases hrunning : s.scanner.running = true
  · rw [if_neg hfd, if_neg hfd, if_pos hrunning, if_pos hrunning, run_finish]
    exact done_finish rfl
  rw [if_neg hfd, if_neg hfd, if_neg hrunning, if_neg hrunning, run_enter, Prog.exec_bind]
  simp only [proceed, startEnable, Traced.val_bind]
  cases (Prog.exec env (enableLeScan s.scanner.hciFd)).val with
  | false =>
    simp only [Bool.not_false, if_true, run_finish]
    exact done_finish rfl
  | true =>
    simp only [Bool.not_true, Bool.false_eq_true, if_false, run_enter, proceed, setRunning,
      startCreate, Prog.exec_bind, Traced.val_bind]
    generalize Prog.exec _ ((create _ _ _ _ _ _).lift _) = x
    obtain ⟨⟨result, thread⟩, log⟩ := x
    cases result with
    | error e =>
      simp only [run_enter, proceed, setRunning, run_finish, Prog.exec_bind]
      exact done_finish rfl
    | ok _ =>
      simp only [run_finish]
      exact done_finish rfl

theorem run_stopScan {s : ScanSystem} (h : s.caller = .idle) (env : Env BleCall) :
    Done (Prog.exec env (stopScanImpl s.scanner)).val (s.alone .stopScan env) := by
  have hcall : s.alone .stopScan env = s.call env .stopScan >>= fun s =>
      run step s (List.replicate 5 .caller) := by
    simp only [alone, run_cons, step, h]
  rw [hcall, call]
  unfold stopScanImpl
  by_cases hrunning : (!s.scanner.running) = true
  · rw [if_pos hrunning, if_pos hrunning, run_finish]
    exact done_finish rfl
  · rw [if_neg hrunning, if_neg hrunning]
    simp only [run_enter, proceed, setRunning, run_finish, Prog.exec_bind]
    exact done_finish rfl

/-- The destructor, up to the one of the thread object. -/
theorem run_destroy {s : ScanSystem} (h : s.caller = .idle) (env : Env BleCall) :
    ∃ n env', (run step s (.call .destroy env :: List.replicate n .caller)).val = { s with
      scanner := (Prog.exec env (destroy s.scanner)).val
      caller := .inside .destroyJoin env' } := by
  have hcall : step s (.call .destroy env) = s.call env .destroy := by simp only [step, h]
  rw [destroy_eq, Prog.exec_bind]
  unfold destroyScan
  by_cases hrunning : s.scanner.running = true
  · rw [if_pos hrunning, Prog.exec_bind]
    refine ⟨3, ?_⟩
    rw [run_cons, hcall, call, if_pos hrunning]
    simp only [run_enter, proceed, setRunning, Traced.val_bind, Traced.log_bind, Prog.exec_pure,
      Traced.val_pure, Traced.log_pure, List.append_nil, List.replicate_zero, run_nil]
    exact ⟨_, rfl⟩
  · rw [if_neg hrunning]
    refine ⟨1, ?_⟩
    rw [run_cons, hcall, call, if_neg hrunning]
    simp only [run_enter, proceed, Traced.val_bind, Prog.exec_pure, Traced.val_pure,
      Traced.log_pure, List.replicate_zero, run_nil]
    exact ⟨_, rfl⟩

/-- An interrupted join is tried again. -/
theorem run_interrupted {s : ScanSystem} {env : Env BleCall}
    (hcaller : s.caller = .inside .destroyJoin env)
    (hactive : s.scanner.scanThread.active = true) (n : Nat) :
    run step s (List.replicate n (.join EINTR)) = pure s := by
  have hagain : step s (.join EINTR) = pure s := by
    simp only [step, hcaller, joined, hactive, Bool.not_true, Bool.false_eq_true, if_false, if_true]
  induction n with
  | zero => rfl
  | succ n ih => rw [List.replicate_succ, run_cons, hagain, Traced.pure_bind, ih]

/-- The destructor of the thread object, whose thread has returned, with a join that is interrupted
so often. -/
theorem run_join {s : ScanSystem} {env : Env BleCall} (hcaller : s.caller = .inside .destroyJoin env)
    (hactive : s.scanner.scanThread.active = true)
    (hreturned : s.threads.getLast?.any ScanThread.returned = true) {answers : Env ThreadCall}
    {interrupts : Nat}
    (hagain : ∀ n < interrupts,
      answers (List.replicate n (.pthreadJoin, EINTR)) .pthreadJoin = EINTR)
    (hends : answers (List.replicate interrupts (.pthreadJoin, EINTR)) .pthreadJoin ≠ EINTR) :
    let err := answers (List.replicate interrupts (.pthreadJoin, EINTR)) .pthreadJoin
    let after := (run step s (List.replicate interrupts (.join EINTR) ++ [.join err])).val
    ∃ result, after.caller = .gone result ∧
      (Prog.exec answers (PlatformCore.destroy (interrupts + 1) s.scanner.scanThread)).val =
        some (result, after.scanner.scanThread) := by
  intro err after
  have hafter : after = s.joined err := by
    show (run step s (_ ++ [.join err])).val = _
    rw [run_append, run_interrupted hcaller hactive, Traced.pure_bind, run_cons]
    simp only [step, hcaller, Traced.pure_bind, run_nil, Traced.val_pure]
  have hloop := joinLoop_answer (Nat.lt_succ_self _) hagain hends
  have hanswer := destroy_answer (Nat.lt_succ_self _) hagain hends hactive
  rw [hafter]
  have hnot : (!s.scanner.scanThread.active) = false := by rw [hactive, Bool.not_true]
  by_cases hzero : err = 0
  · have hjoined : s.joined err = { s with
        scanner := { s.scanner with scanThread := ⟨false⟩ }, caller := .gone (.ok ()) } := by
      rw [joined, hnot, if_neg Bool.false_ne_true, if_neg hends, if_pos hzero, if_pos hreturned]
    rw [hjoined, hanswer, if_pos hzero]
    exact ⟨.ok (), rfl, rfl⟩
  · have hjoined : s.joined err = { s with caller := .gone (.error (errnoToThreadError err)) } := by
      rw [joined, hnot, if_neg Bool.false_ne_true, if_neg hends, if_neg hzero]
    rw [hjoined, hanswer, if_neg hzero]
    exact ⟨.error (errnoToThreadError err), rfl, rfl⟩

end ScanSystem

end EnoceanCore.Ble
