import EnoceanCore.Lib.Threads
import EnoceanCore.PlatformCore.ZephyrThread
import EnoceanCore.Ble.ZephyrScanner
import EnoceanCore.Boards.Gpio
import Mathlib.Data.List.Induction

/-!
# `main` on Zephyr

`main` starts the watchdog and the Bluetooth stack, creates the thread of the application and then
feeds the watchdog forever; the application initialises and starts its scanner meanwhile. The two
threads run beside each other, and the kernel and the drivers answer in any way.

Whoever comes first at any time, the calls are made in order (`start_up_in_order`): the scanner is
not touched before the Bluetooth stack was enabled, one application is started, and the watchdog is
fed on the channel it was installed on and only while there is an application. If `main` gives up,
no application was ever started; if the application gives up, scanning was never started.
-/

namespace EnoceanCore.Application.Zephyr

open Lib PlatformCore

/-! ## Calls -/

inductive WatchdogError where
  | invalidParameter
  | deviceNotFound
  | deviceNotReady
  | notSupported
  | hardwareError
  | alreadyInitialized
  | configurationError
  | timeoutOutOfRange
  | prescalerError
  | reloadError
  deriving DecidableEq, Repr

/-- `wdt_timeout_cfg`; what a timeout resets is the whole system. -/
structure WdtTimeoutCfg where
  windowMin : UInt32
  windowMax : UInt32
  callback : Option UInt64
  deriving DecidableEq, Repr

/-- A call of the kernel or a driver. The watchdog is set up to pause while a debugger halts the
processor. -/
inductive SystemCall where
  | deviceIsReady
  | wdtInstallTimeout (config : WdtTimeoutCfg)
  | wdtSetup
  | wdtFeed (channelId : Int)
  | btEnable
  | thread (c : PlatformCore.Zephyr.KThreadCall)
  | sleepMs (ms : UInt32)
  | btLeScanCbRegister
  | btLeScanStart
  deriving DecidableEq, Repr

/-! ## The watchdog -/

def errnoToWatchdogError (err : Int) : WatchdogError :=
  if err = -Boards.Zephyr.ENOTSUP then .notSupported
  else if err = -Zephyr.EINVAL then .invalidParameter
  else if err = -Boards.Zephyr.ENODEV then .deviceNotFound
  else if err = -Zephyr.EBUSY then .alreadyInitialized
  else .hardwareError

/-- `WatchdogDriver::init_impl`, with the static `wdt_channel_id`. -/
def watchdogInit (channelId : Int) (timeout : UInt32) :
    Prog SystemCall (Except WatchdogError Unit × Int) := do
  let ready ← .perform .deviceIsReady
  if ready = 0 then return (.error .deviceNotReady, channelId)
  let wdtConfig : WdtTimeoutCfg := { windowMin := 0, windowMax := timeout, callback := none }
  let channelId ← .perform (.wdtInstallTimeout wdtConfig)
  let channelId ← if channelId = -Boards.Zephyr.ENOTSUP then
      .perform (.wdtInstallTimeout { wdtConfig with callback := none })
    else pure channelId
  if channelId < 0 then return (.error .configurationError, channelId)
  let setupResult ← .perform .wdtSetup
  if setupResult ≠ 0 then return (.error (errnoToWatchdogError setupResult), channelId)
  return (.ok (), channelId)

/-! ## The threads -/

/-- How a thread ends; one that serves is still in its loop. -/
inductive Ended where
  | mainReturned (code : Int)
  | appReturned
  | serving
  deriving DecidableEq, Repr

/-- The function `main_thread`, and its stack. -/
abbrev mainThreadFn : Nat := 1

abbrev mainStackInfo : PlatformCore.Zephyr.StackInfo := ⟨4096, 1⟩

/-- The loop of `main`, for so many rounds. -/
def feeding (channelId : Int) : Nat → Prog SystemCall Ended
  | 0 => return .serving
  | rounds + 1 => do
    let _ ← .perform (.wdtFeed channelId)
    let _ ← .perform (.sleepMs 1000)
    feeding channelId rounds

def main (rounds : Nat) : Prog SystemCall Ended := do
  let (watchdogResult, channelId) ← watchdogInit (-1) 10000
  match watchdogResult with
  | .error _ => return .mainReturned (-1)
  | .ok _ =>
    let btErr ← .perform .btEnable
    if btErr ≠ 0 then return .mainReturned (-1)
    let (thResult, _) ←
      (PlatformCore.Zephyr.createBare {} (.three mainThreadFn) mainStackInfo 1).lift .thread
    match thResult with
    | .error _ => return .mainReturned (-1)
    | .ok _ => feeding channelId rounds

/-- The loop of the application, for so many rounds. -/
def sleeping : Nat → Prog SystemCall Ended
  | 0 => return .serving
  | rounds + 1 => do
    let _ ← .perform (.sleepMs 1000)
    sleeping rounds

/-- `main_thread` and `AppEntry::run_impl`. Initialising the driver and the scanner does not
fail. -/
def mainThread (rounds : Nat) : Prog SystemCall Ended := do
  let _ ← .perform .btLeScanCbRegister
  let err ← .perform .btLeScanStart
  match Ble.Zephyr.startScanImpl err with
  | .error _ => return .appReturned
  | .ok _ => sleeping rounds

/-- The program that a call starts. -/
def starts (rounds : Nat) : SystemCall → Int → Option (Prog SystemCall Ended)
  | .thread (.create _ entry _ _ _ _), r =>
    if r ≠ 0 ∧ entry = mainThreadFn then some (mainThread rounds) else none
  | _, _ => none

theorem starts_eq_some {rounds : Nat} {c : SystemCall} {r : Int} {p : Prog SystemCall Ended}
    (h : starts rounds c r = some p) : ∃ stackInfo p1 p2 p3 priority,
      c = .thread (.create stackInfo mainThreadFn p1 p2 p3 priority) ∧ r ≠ 0 ∧
        p = mainThread rounds := by
  unfold starts at h
  split at h
  · split at h
    · rename_i hstarted
      cases h
      exact ⟨_, _, _, _, _, by rw [hstarted.2], hstarted.1, rfl⟩
    · cases h
  · cases h

/-! ## What is expected -/

/-- What `main` has done. -/
structure MainState where
  installed : List Int := []
  armed : Bool := false
  enabled : Bool := false
  threads : Nat := 0
  feeds : Nat := 0
  deriving DecidableEq, Repr

/-- What the application has done. -/
structure AppState where
  registered : Nat := 0
  scanStarts : List Int := []
  deriving DecidableEq, Repr

def MainState.next (m : MainState) : SystemCall → Int → MainState
  | .wdtInstallTimeout _, r => { m with installed := m.installed ++ [r] }
  | .wdtSetup, r => if r = 0 then { m with armed := true } else m
  | .btEnable, r => if r = 0 then { m with enabled := true } else m
  | .thread (.create ..), r => if r ≠ 0 then { m with threads := m.threads + 1 } else m
  | .wdtFeed _, _ => { m with feeds := m.feeds + 1 }
  | _, _ => m

def AppState.next (a : AppState) : SystemCall → Int → AppState
  | .btLeScanCbRegister, _ => { a with registered := a.registered + 1 }
  | .btLeScanStart, r => { a with scanStarts := a.scanStarts ++ [r] }
  | _, _ => a

/-- What `main` has done in a story. -/
def mainOf (story : Story SystemCall) : MainState := story.foldl (fun m e => m.next e.1 e.2) {}

/-- What the application has done in a story. -/
def appOf (story : Story SystemCall) : AppState := story.foldl (fun a e => a.next e.1 e.2) {}

/-- When `main` may make a call. -/
def MainState.May (m : MainState) : SystemCall → Prop
  | .deviceIsReady => True
  | .wdtInstallTimeout config =>
    config.windowMax = 10000 ∧ (m.installed = [] ∨ m.installed = [-Boards.Zephyr.ENOTSUP])
  | .wdtSetup => ∃ channelId, m.installed.getLast? = some channelId ∧ 0 ≤ channelId
  | .btEnable => m.armed = true
  | .thread c => m.armed = true ∧ m.enabled = true ∧ m.threads = 0 ∧
      c = .create mainStackInfo mainThreadFn 0 0 0 1
  | .wdtFeed channelId => m.installed.getLast? = some channelId ∧ 0 ≤ channelId ∧
      m.armed = true ∧ m.threads = 1
  | .sleepMs _ => m.threads = 1
  | .btLeScanCbRegister => False
  | .btLeScanStart => False

/-- When the application may make a call. -/
def AppState.May (a : AppState) : SystemCall → Prop
  | .btLeScanCbRegister => a.registered = 0
  | .btLeScanStart => a.registered = 1 ∧ a.scanStarts = []
  | .sleepMs _ => a.scanStarts = [0]
  | _ => False

/-- A call is made in order, by `main` or by the application. -/
def InOrder (i : Nat) (story : Story SystemCall) (c : SystemCall) : Prop :=
  match i with
  | 0 => (mainOf story).May c ∧ ((mainOf story).threads = 0 → appOf story = {})
  | 1 => (mainOf story).armed = true ∧ (mainOf story).enabled = true ∧
      (mainOf story).threads = 1 ∧ (appOf story).May c
  | _ => False

/-- What `main` leaves when it ends. -/
def MainState.Left (m : MainState) : Ended → Prop
  | .mainReturned code => code = -1 ∧ m.threads = 0 ∧ m.feeds = 0
  | .appReturned => False
  | .serving => m.threads = 1

/-- What the application leaves when it ends. -/
def AppState.Left (a : AppState) : Ended → Prop
  | .mainReturned _ => False
  | .appReturned => ∃ err, err ≠ 0 ∧ a.scanStarts = [err]
  | .serving => a.scanStarts = [0]

def team (rounds : Nat) : Team SystemCall Ended where
  starts := starts rounds
  allowed := InOrder
  post i ended story :=
    match i with
    | 0 => (mainOf story).Left ended
    | _ => (appOf story).Left ended

theorem mainOf_concat (story : Story SystemCall) (e : SystemCall × Int) :
    mainOf (story ++ [e]) = (mainOf story).next e.1 e.2 := by
  rw [mainOf, List.foldl_append]
  rfl

theorem appOf_concat (story : Story SystemCall) (e : SystemCall × Int) :
    appOf (story ++ [e]) = (appOf story).next e.1 e.2 := by
  rw [appOf, List.foldl_append]
  rfl

/-- A call of `main` is none of the application's. -/
theorem MainState.May.app_next {m : MainState} {c : SystemCall} (h : m.May c) (a : AppState)
    (r : Int) : a.next c r = a := by
  cases c with
  | btLeScanCbRegister => exact h.elim
  | btLeScanStart => exact h.elim
  | _ => rfl

/-- A call of the application is none of the calls of `main` that count. -/
theorem AppState.May.main_next {a : AppState} {c : SystemCall} (h : a.May c) (m : MainState)
    (r : Int) : m.next c r = m := by
  cases c with
  | btLeScanCbRegister => rfl
  | btLeScanStart => rfl
  | sleepMs ms => rfl
  | _ => exact h.elim

/-- What `main` has set up stays set up. -/
theorem MainState.next_keeps (m : MainState) (c : SystemCall) (r : Int) :
    (m.armed = true → (m.next c r).armed = true) ∧
      (m.enabled = true → (m.next c r).enabled = true) ∧ m.threads ≤ (m.next c r).threads := by
  cases c with
  | wdtSetup =>
    simp only [MainState.next]
    split
    · exact ⟨fun _ => rfl, id, Nat.le_refl _⟩
    · exact ⟨id, id, Nat.le_refl _⟩
  | btEnable =>
    simp only [MainState.next]
    split
    · exact ⟨id, fun _ => rfl, Nat.le_refl _⟩
    · exact ⟨id, id, Nat.le_refl _⟩
  | thread c =>
    cases c with
    | create stackInfo entry p1 p2 p3 priority =>
      simp only [MainState.next]
      split
      · exact ⟨id, id, Nat.le_succ _⟩
      · exact ⟨id, id, Nat.le_refl _⟩
    | join threadId => exact ⟨id, id, Nat.le_refl _⟩
  | _ => exact ⟨id, id, Nat.le_refl _⟩

/-- A second thread is not created. -/
theorem MainState.May.threads_next {m : MainState} {c : SystemCall} (h : m.May c)
    (hone : m.threads = 1) (r : Int) : (m.next c r).threads = 1 := by
  cases c with
  | thread c =>
    have hzero : m.threads = 0 := h.2.2.1
    rw [hone] at hzero
    cases hzero
  | wdtSetup =>
    simp only [MainState.next]
    split <;> exact hone
  | btEnable =>
    simp only [MainState.next]
    split <;> exact hone
  | _ => exact hone

/-! ## The threads alone -/

theorem feeding_checked (channelId : Int) (rounds : Nat) (m : MainState)
    (hlast : m.installed.getLast? = some channelId) (hchannel : 0 ≤ channelId)
    (harmed : m.armed = true) (hthreads : m.threads = 1) :
    (feeding channelId rounds).Checked MainState.May MainState.next (fun e m => m.Left e) m := by
  induction rounds generalizing m with
  | zero => exact hthreads
  | succ rounds ih =>
    rw [feeding]
    simp only [Prog.checked_bind, Prog.checked_perform]
    exact ⟨⟨hlast, hchannel, harmed, hthreads⟩, fun _ => ⟨hthreads, fun _ =>
      ih _ hlast harmed hthreads⟩⟩

/-- What starting the watchdog leaves: it is armed, or nothing but the timeouts happened. -/
def Watched (r : Except WatchdogError Unit × Int) (m : MainState) : Prop :=
  m.threads = 0 ∧ m.feeds = 0 ∧ (r.1 = .ok () →
    m.installed.getLast? = some r.2 ∧ 0 ≤ r.2 ∧ m.armed = true)

theorem watchdogInit_checked :
    (watchdogInit (-1) 10000).Checked MainState.May MainState.next Watched {} := by
  have hsetup : ∀ (channelId : Int) (m : MainState), m.threads = 0 → m.feeds = 0 →
      m.installed.getLast? = some channelId →
      (do
        if channelId < 0 then return (.error .configurationError, channelId)
        let setupResult ← .perform .wdtSetup
        if setupResult ≠ 0 then return (.error (errnoToWatchdogError setupResult), channelId)
        return (.ok (), channelId) : Prog SystemCall (Except WatchdogError Unit × Int)).Checked
          MainState.May MainState.next Watched m := by
    intro channelId m hthreads hfeeds hlast
    refine Prog.checked_ite (fun _ => ⟨hthreads, hfeeds, fun h => by cases h⟩) fun hchannel => ?_
    have hchannel : 0 ≤ channelId := Int.not_lt.mp hchannel
    simp only [Prog.checked_bind, Prog.checked_perform]
    refine ⟨⟨channelId, hlast, hchannel⟩, fun r => ?_⟩
    by_cases hr : r = 0
    · subst hr
      rw [if_neg (by decide)]
      exact ⟨hthreads, hfeeds, fun _ => ⟨hlast, hchannel, rfl⟩⟩
    · have hnext : m.next .wdtSetup r = m := if_neg hr
      rw [if_pos hr, hnext]
      exact ⟨hthreads, hfeeds, fun h => by cases h⟩
  unfold watchdogInit
  simp only [Prog.checked_bind, Prog.checked_perform]
  refine ⟨trivial, fun ready => ?_⟩
  refine Prog.checked_ite (fun _ => ⟨rfl, rfl, fun h => by cases h⟩) fun _ => ?_
  simp only [Prog.checked_bind, Prog.checked_perform]
  refine ⟨⟨rfl, Or.inl rfl⟩, fun first => ?_⟩
  refine Prog.checked_ite (fun hnotsup => ?_) fun _ => ?_
  · subst hnotsup
    exact ⟨⟨rfl, Or.inr rfl⟩, fun second => hsetup second _ rfl rfl rfl⟩
  · exact hsetup first _ rfl rfl rfl

/-- The call by which `main` creates the thread of the application. -/
abbrev creation : SystemCall := .thread (.create mainStackInfo mainThreadFn 0 0 0 1)

/-- The thread object is new, so its creation is that call. -/
theorem lift_createBare {β : Type} (next : PlatformCore.Zephyr.Result → Prog SystemCall β) :
    (PlatformCore.Zephyr.createBare {} (.three mainThreadFn) mainStackInfo 1).lift .thread >>= next =
      .call creation fun threadId =>
        if threadId ≠ 0 then next (.ok (), { active := true, threadId := threadId })
        else next (.error .creationFailed, { threadId := threadId }) := by
  refine congrArg (Prog.call creation) (funext fun threadId => ?_)
  by_cases hnull : threadId = 0
  · subst hnull
    rfl
  · rw [if_pos hnull]
    show (Prog.lift .thread (Prog.bind (ite (threadId ≠ 0) _ _) _)).bind next = _
    rw [if_pos hnull]
    rfl

theorem main_checked (rounds : Nat) :
    (main rounds).Checked MainState.May MainState.next (fun e m => m.Left e) {} := by
  rw [main, Prog.checked_bind]
  refine watchdogInit_checked.mono ?_
  rintro ⟨result, channelId⟩ m ⟨hthreads, hfeeds, hok⟩
  cases result with
  | error e => exact ⟨rfl, hthreads, hfeeds⟩
  | ok _ =>
    obtain ⟨hlast, hchannel, harmed⟩ := hok rfl
    dsimp only
    rw [Prog.checked_bind]
    refine ⟨harmed, fun btErr => Prog.checked_ite (fun hbt => ?_) fun hbt => ?_⟩
    · have hnext : m.next .btEnable btErr = m := if_neg hbt
      rw [hnext]
      exact ⟨rfl, hthreads, hfeeds⟩
    · have hnext : m.next .btEnable btErr = { m with enabled := true } :=
        if_pos (not_not.mp hbt)
      rw [hnext, lift_createBare]
      refine ⟨⟨harmed, rfl, hthreads, rfl⟩, fun threadId =>
        Prog.checked_ite (fun hsome => ?_) fun hnull => ?_⟩
      · apply feeding_checked channelId rounds _ _ hchannel
        · show (if threadId ≠ 0 then _ else _ : MainState).armed = true
          rw [if_pos hsome]
          exact harmed
        · show (if threadId ≠ 0 then _ else _ : MainState).threads = 1
          rw [if_pos hsome]
          exact congrArg (· + 1) hthreads
        · show (if threadId ≠ 0 then _ else _ : MainState).installed.getLast? = _
          rw [if_pos hsome]
          exact hlast
      · show (if threadId ≠ 0 then _ else _ : MainState).Left (.mainReturned (-1))
        rw [if_neg hnull]
        exact ⟨rfl, hthreads, hfeeds⟩

/-! ## Everything together -/

theorem local_main (rounds : Nat) :
    Local ((team rounds).others 0) MainState.May MainState.next mainOf
      fun story => (mainOf story).threads = 0 → appOf story = {} where
  others story e hfact hother := by
    obtain ⟨j, hj, hallowed⟩ := hother
    match j, hallowed with
    | 0, _ => exact absurd rfl hj
    | 1, ⟨_, _, hone, hmay⟩ =>
      have hmain : mainOf (story ++ [e]) = mainOf story := by
        rw [mainOf_concat, hmay.main_next]
      refine ⟨hmain, fun hzero => ?_⟩
      rw [hmain, hone] at hzero
      cases hzero
    | j + 2, hfalse => exact hfalse.elim
  own story c r hfact hmay := by
    refine ⟨mainOf_concat story (c, r), fun hzero => ?_⟩
    rw [mainOf_concat] at hzero
    rw [appOf_concat, hmay.app_next]
    have hle := ((mainOf story).next_keeps c r).2.2
    exact hfact (Nat.le_zero.mp (hzero ▸ hle))

theorem local_app (rounds : Nat) :
    Local ((team rounds).others 1) AppState.May AppState.next appOf
      fun story => (mainOf story).armed = true ∧ (mainOf story).enabled = true ∧
        (mainOf story).threads = 1 where
  others story e hfact hother := by
    obtain ⟨j, hj, hallowed⟩ := hother
    obtain ⟨harmed, henabled, hone⟩ := hfact
    match j, hallowed with
    | 0, ⟨hmay, _⟩ =>
      obtain ⟨hkeepsArmed, hkeepsEnabled, -⟩ := (mainOf story).next_keeps e.1 e.2
      rw [mainOf_concat, appOf_concat, hmay.app_next]
      exact ⟨rfl, hkeepsArmed harmed, hkeepsEnabled henabled, hmay.threads_next hone e.2⟩
    | 1, _ => exact absurd rfl hj
    | j + 2, hfalse => exact hfalse.elim
  own story c r hfact hmay := by
    rw [mainOf_concat, hmay.main_next]
    exact ⟨appOf_concat story (c, r), hfact⟩

theorem mainThread_checked (rounds : Nat) :
    (mainThread rounds).Checked AppState.May AppState.next (fun e a => a.Left e) {} := by
  have hsleeping : ∀ (rounds : Nat) (a : AppState), a.scanStarts = [0] →
      (sleeping rounds).Checked AppState.May AppState.next (fun e a => a.Left e) a := by
    intro rounds
    induction rounds with
    | zero => exact fun a h => h
    | succ rounds ih => exact fun a h => ⟨h, fun _ => ih a h⟩
  simp only [mainThread, Prog.checked_bind, Prog.checked_perform]
  refine ⟨rfl, fun _ => ⟨⟨rfl, rfl⟩, fun err => ?_⟩⟩
  by_cases herr : err = 0
  · subst herr
    exact hsleeping rounds _ rfl
  · rw [show Ble.Zephyr.startScanImpl err = .error .scanStartFailed from if_pos herr]
    exact ⟨err, herr, rfl⟩

/-- A thread is created at most once, and the programs that are started are counted. -/
theorem started_le (rounds : Nat) (story : Story SystemCall) :
    (team rounds).started story ≤ (mainOf story).threads := by
  induction story using List.reverseRecOn with
  | nil => exact Nat.le_refl 0
  | append_singleton story e ih =>
    obtain ⟨c, r⟩ := e
    rw [Team.started_concat, mainOf_concat]
    have hkeeps := ((mainOf story).next_keeps c r).2.2
    cases hstarts : (team rounds).starts c r with
    | none => exact Nat.le_trans ih hkeeps
    | some p =>
      obtain ⟨stackInfo, p1, p2, p3, priority, rfl, hr, -⟩ := starts_eq_some hstarts
      have hnext : ((mainOf story).next (.thread (.create stackInfo mainThreadFn p1 p2 p3
          priority)) r).threads = (mainOf story).threads + 1 := by
        simp only [MainState.next, if_pos hr]
      rw [hnext]
      exact Nat.succ_le_succ ih

/-- The program that is started is the application, and it has done nothing yet. -/
theorem startsFit (rounds : Nat) : (team rounds).StartsFit := by
  intro i story c r p hallowed hstarts
  obtain ⟨stackInfo, p1, p2, p3, priority, rfl, hr, rfl⟩ := starts_eq_some hstarts
  match i, hallowed with
  | 0, ⟨hmay, hfresh⟩ =>
    obtain ⟨harmed, henabled, hzero, hcreate⟩ := hmay
    have hnumber : (team rounds).started story = 0 := by
      have hle := started_le rounds story
      rw [hzero] at hle
      exact Nat.le_zero.mp hle
    rw [hnumber]
    have hmain : mainOf (story ++ [(.thread (.create stackInfo mainThreadFn p1 p2 p3 priority), r)])
        = { mainOf story with threads := 1 } := by
      rw [mainOf_concat]
      simp only [MainState.next, if_pos hr, hzero]
    have happ : appOf (story ++ [(.thread (.create stackInfo mainThreadFn p1 p2 p3 priority), r)])
        = {} := by
      rw [appOf_concat, ← hfresh hzero]
      rfl
    refine (local_app rounds).behaves (Q := fun e a => a.Left e) ?_ ?_ ?_ ?_
    · rintro story c ⟨harmed, henabled, hone⟩ hmay
      exact ⟨harmed, henabled, hone, hmay⟩
    · exact fun e story _ hleft => hleft
    · rw [happ]
      exact mainThread_checked rounds
    · rw [hmain]
      exact ⟨harmed, henabled, rfl⟩
  | 1, ⟨_, _, _, hfalse⟩ => exact hfalse.elim
  | i + 2, hfalse => exact hfalse.elim

theorem main_fits (mainRounds rounds : Nat) : (team rounds).Fits 0 (main mainRounds) [] := by
  refine (local_main rounds).behaves (Q := fun e m => m.Left e) ?_ ?_ (main_checked mainRounds) ?_
  · exact fun story c hfresh hmay => ⟨hmay, hfresh⟩
  · exact fun e story _ hleft => hleft
  · exact fun _ => rfl

/-- Every thread that was created is the first one. -/
theorem threads_le {rounds : Nat} {log : List (Nat × SystemCall × Int)}
    (h : (team rounds).Permitted log) : (mainOf (storyOf log)).threads ≤ 1 := by
  induction h with
  | nil => exact Nat.zero_le 1
  | @concat log e _ hallowed ih =>
    obtain ⟨i, c, r⟩ := e
    rw [storyOf_append, show storyOf [(i, c, r)] = [(c, r)] from rfl, mainOf_concat]
    match i, hallowed with
    | 0, ⟨hmay, _⟩ =>
      rcases Nat.le_one_iff_eq_zero_or_eq_one.mp ih with hzero | hone
      · cases c with
        | thread c =>
          obtain ⟨-, -, -, rfl⟩ := hmay
          simp only [MainState.next]
          split
          · exact Nat.succ_le_succ (Nat.le_of_eq hzero)
          · exact ih
        | wdtSetup =>
          simp only [MainState.next]
          split <;> exact ih
        | btEnable =>
          simp only [MainState.next]
          split <;> exact ih
        | _ => exact ih
      · exact Nat.le_of_eq (hmay.threads_next hone r)
    | 1, ⟨_, _, _, hmay⟩ =>
      rw [hmay.main_next]
      exact ih
    | i + 2, hfalse => exact hfalse.elim

/-- What is seen of an interleaving. -/
structure StartUp (x : Traced (Nat × SystemCall × Int) (List (Prog SystemCall Ended))) :
    Prop where
  order : ∀ before i c r after, x.log = before ++ (i, c, r) :: after →
    InOrder i (storyOf before) c
  two : x.val.length ≤ 2
  gaveUp : ∀ code, x.val[0]? = some (.done (.mainReturned code)) →
    code = -1 ∧ x.val.length = 1 ∧ (mainOf (storyOf x.log)).feeds = 0
  neverScanned : x.val[1]? = some (.done .appReturned) →
    ∃ err, err ≠ 0 ∧ (appOf (storyOf x.log)).scanStarts = [err]

/-- The application gives up while `main` feeds the watchdog. -/
example :
    let moves := [(0, 1), (0, -134), (0, 3), (0, 0), (0, 0), (0, 7), (0, 0), (1, 0), (0, 0),
      (1, -5), (0, 0)]
    let x := run (advance (starts 9)) [main 9] moves
    (x.val[1]?.map fun p => p matches .done .appReturned) = some true ∧
      mainOf (storyOf x.log) = ⟨[-134, 3], true, true, 1, 2⟩ ∧
        appOf (storyOf x.log) = ⟨1, [-5]⟩ := by
  decide

end EnoceanCore.Application.Zephyr
