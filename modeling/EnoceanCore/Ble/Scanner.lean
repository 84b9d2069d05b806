import EnoceanCore.PlatformCore.Thread
import EnoceanCore.Lib.Run

/-!
# The POSIX scanner

`Ble::Scanner` of `posix_core`: its public operations as programs over the HCI and pthread
calls they make, and the system they run in (`step`), with the state of the controller and
the number of scan threads.

The user context of the callback and what the scan thread reads are left out. A scan thread
leaves `scan_loop` at any time after the scanner has stopped running.
-/

namespace EnoceanCore.Ble

open Lib PlatformCore

inductive BleError where
  | alreadyInitialised
  | notInitialised
  | adapterNotFound
  | permissionDenied
  | scanStartFailed
  | scanStopFailed
  | invalidCallback
  | systemError
  deriving DecidableEq, Repr

/-! ## Calls -/

/-- A call of the scanner to the operating system. -/
inductive BleCall where
  | hciGetRoute
  | hciOpenDev (devId : Int)
  /-- `setsockopt` with the HCI filter of LE meta events. -/
  | setsockopt (fd : Int)
  | close (fd : Int)
  | hciLeSetScanEnable (fd : Int) (enable filterDup : UInt8) (timeoutMs : Int)
  | hciLeSetScanParameters (fd : Int) (type : UInt8) (interval window : UInt16)
      (ownType filter : UInt8) (timeoutMs : Int)
  | pthread (call : PthreadCall)
  deriving DecidableEq, Repr

/-- The answer means success. -/
def BleCall.Succeeds : BleCall → Int → Prop
  | pthread call, r => call.Succeeds r
  | _, r => 0 ≤ r

/-! ## The scanner -/

abbrev kScanInterval : UInt16 := 0x00A0
abbrev kScanWindow : UInt16 := 0x00A0
abbrev kScanTimeoutMs : Int := 1000
abbrev kScanStackSize : UInt64 := 8192
abbrev kScanPriority : Int := 5

/-- `PTHREAD_STACK_MIN` of the platform. -/
abbrev kPthreadStackMin : UInt64 := 16384

/-- The entry of the scan thread. -/
abbrev scanThreadFn : Nat := 0

/-- The address of the scanner, which the scan thread is given. -/
abbrev scannerPointer : UInt64 := 0x1000

/-- The state of a scanner; `callback` says whether one is registered. -/
structure Scanner where
  callback : Bool := false
  hciFd : Int := -1
  devId : Int := -1
  running : Bool := false
  scanThread : Thread := {}
  deriving DecidableEq, Repr

/-- An operation of the scanner: its result and the scanner after it. -/
abbrev ScannerM : Type := Prog BleCall (Except BleError Unit × Scanner)

def openHciSocket (devId : Int) : Prog BleCall Int := do
  let fd ← .perform (.hciOpenDev devId)
  if fd < 0 then return -1
  let r ← .perform (.setsockopt fd)
  if r < 0 then
    let _ ← .perform (.close fd)
    return -1
  return fd

def initImpl (scanner : Scanner) (cb : Bool) : ScannerM := do
  let scanner := { scanner with callback := cb }
  let devId ← .perform .hciGetRoute
  let scanner := { scanner with devId := devId }
  if devId < 0 then return (.error .adapterNotFound, scanner)
  let fd ← openHciSocket devId
  let scanner := { scanner with hciFd := fd }
  if fd < 0 then return (.error .systemError, scanner)
  return (.ok (), scanner)

/-- `IBle::init`; a null callback is refused. -/
def init (scanner : Scanner) (cb : Bool) : ScannerM := do
  if !cb then return (.error .invalidCallback, scanner)
  initImpl scanner cb

def enableLeScan (hciFd : Int) : Prog BleCall Bool := do
  let _ ← .perform (.hciLeSetScanEnable hciFd 0x00 0x00 kScanTimeoutMs)
  let r ← .perform (.hciLeSetScanParameters hciFd 0x00 kScanInterval kScanWindow 0x00 0x00
    kScanTimeoutMs)
  if r < 0 then return false
  let r ← .perform (.hciLeSetScanEnable hciFd 0x01 0x00 kScanTimeoutMs)
  if r < 0 then return false
  return true

def disableLeScan (hciFd : Int) : Prog BleCall Unit := do
  if hciFd ≥ 0 then
    let _ ← .perform (.hciLeSetScanEnable hciFd 0x00 0x00 1000)

def startScanImpl (scanner : Scanner) : ScannerM := do
  if scanner.hciFd < 0 then return (.error .notInitialised, scanner)
  if scanner.running then return (.ok (), scanner)
  let enabled ← enableLeScan scanner.hciFd
  if !enabled then return (.error .scanStartFailed, scanner)
  let scanner := { scanner with running := true }
  let (result, scanThread) ← (create kPthreadStackMin scanner.scanThread (.one scanThreadFn)
    kScanStackSize kScanPriority (.param1 scannerPointer)).lift .pthread
  let scanner := { scanner with scanThread := scanThread }
  match result with
  | .error _ =>
    let scanner := { scanner with running := false }
    disableLeScan scanner.hciFd
    return (.error .systemError, scanner)
  | .ok _ => return (.ok (), scanner)

def stopScanImpl (scanner : Scanner) : ScannerM := do
  if !scanner.running then return (.ok (), scanner)
  let scanner := { scanner with running := false }
  disableLeScan scanner.hciFd
  return (.ok (), scanner)

/-! ## The system -/

/-- What the calls do outside the scanner: whether the controller scans, and how many scan
threads there are. -/
structure World where
  scanning : Bool := false
  threads : Nat := 0
  deriving DecidableEq, Repr

/-- The effect of an answered call. -/
def World.next (w : World) : BleCall → Int → World
  | .hciLeSetScanEnable _ enable _ _, r => if 0 ≤ r then { w with scanning := enable != 0 } else w
  | .pthread (.create _ _), r => if r = 0 then { w with threads := w.threads + 1 } else w
  | _, _ => w

/-- A scanner in its system. -/
structure System where
  scanner : Scanner := {}
  world : World := {}
  deriving DecidableEq, Repr

/-- A step of the system. The environment of an operation answers its calls. -/
inductive Op where
  | startScan (env : Env BleCall)
  | stopScan (env : Env BleCall)
  /-- A scan thread sees that the scanner is not running and returns. -/
  | threadExit

/-- Run an operation of the scanner in an environment. -/
def System.perform (system : System) (env : Env BleCall) (operation : Scanner → ScannerM) :
    Except BleError Unit × System :=
  let r := Prog.exec env (operation system.scanner)
  (r.val.1, { scanner := r.val.2, world := r.log.foldl (fun w e => w.next e.1 e.2) system.world })

/-- A step records the results of the operations. -/
def step (system : System) : Op → Traced (Except BleError Unit) System
  | .startScan env => do
      let (result, system) := system.perform env startScanImpl
      Traced.emit result
      return system
  | .stopScan env => do
      let (result, system) := system.perform env stopScanImpl
      Traced.emit result
      return system
  | .threadExit =>
      if system.scanner.running then pure system
      else pure { system with
        world := { system.world with threads := system.world.threads - 1 } }

theorem perform_of_wp {ok : BleCall → Int → Prop} {env : Env BleCall}
    (henv : ∀ made c, ok c (env made c)) {system : System} {operation : Scanner → ScannerM}
    {Q : Except BleError Unit × Scanner → World → Prop}
    (h : Prog.wp ok World.next (operation system.scanner) Q system.world) :
    Q ((system.perform env operation).1, (system.perform env operation).2.scanner)
      (system.perform env operation).2.world :=
  Prog.wp_exec henv h

theorem openHciSocket_calls (devId : Int) :
    (openHciSocket devId).Calls fun c => ∀ (w : World) r, w.next c r = w := by
  unfold openHciSocket
  refine (Prog.calls_perform fun _ _ => rfl).bind fun fd => ?_
  apply Prog.calls_ite (Prog.calls_pure _)
  refine (Prog.calls_perform fun _ _ => rfl).bind fun r => ?_
  refine Prog.calls_ite ?_ (Prog.calls_pure _)
  exact (Prog.calls_perform fun _ _ => rfl).bind fun _ => Prog.calls_pure _

/-- A scanner that initialises without an error has a socket; nothing else happens. -/
theorem wp_init (cb : Bool) (w : World) :
    Prog.wp (fun _ _ => True) World.next (init {} cb)
      (fun r w' => r.1 = .ok () →
        0 ≤ r.2.hciFd ∧ r.2.running = false ∧ r.2.scanThread.active = false ∧ w' = w) w := by
  unfold init
  refine Prog.wp_ite (fun _ h => by cases h) fun _ => ?_
  simp only [initImpl, Prog.wp_bind, Prog.wp_perform]
  intro devId _
  refine Prog.wp_ite (fun _ h => by cases h) fun _ => ?_
  rw [Prog.wp_bind]
  refine Prog.wp_mono (Q := fun _ w' => w' = w)
    (Prog.wp_of_calls (openHciSocket_calls devId) (fun c r hc => hc w r) fun _ => rfl) ?_
  rintro fd w' rfl
  refine Prog.wp_ite (fun _ h => by cases h) fun hfd _ => ?_
  exact ⟨Int.not_lt.mp hfd, rfl, rfl, rfl⟩

/-! ## What the operations do when every call succeeds -/

section Success

/-- Every call is answered with success, whatever was called before. -/
def AllSucceed (env : Env BleCall) : Prop := ∀ made c, BleCall.Succeeds c (env made c)

theorem world_countsStarts :
    CountsStarts (fun w c => World.next w (.pthread c))
      (fun w => { w with threads := w.threads + 1 }) where
  create _ _ _ := rfl
  other _ c _ hc := by cases c <;> first | rfl | cases hc

theorem wp_enableLeScan (hciFd : Int) (w : World) :
    Prog.wp BleCall.Succeeds World.next (enableLeScan hciFd)
      (fun enabled w' => enabled = true ∧ w' = { w with scanning := true }) w := by
  simp only [enableLeScan, Prog.wp_bind, Prog.wp_perform]
  intro off hoff param hparam
  rw [if_neg (Int.not_lt.mpr hparam)]
  simp only [Prog.wp_bind, Prog.wp_perform]
  intro on hon
  rw [if_neg (Int.not_lt.mpr hon), Prog.wp_pure]
  have hoff : 0 ≤ off := hoff
  have hon : 0 ≤ on := hon
  exact ⟨rfl, by simp [World.next, hoff, hon]⟩

theorem wp_disableLeScan {hciFd : Int} (h : 0 ≤ hciFd) (w : World) :
    Prog.wp BleCall.Succeeds World.next (disableLeScan hciFd)
      (fun _ w' => w' = { w with scanning := false }) w := by
  rw [disableLeScan, if_pos h]
  simp only [Prog.wp_bind, Prog.wp_perform, Prog.wp_pure]
  intro r hr
  have hr : 0 ≤ r := hr
  simp [World.next, hr]

/-- A scanner with an unused thread object starts. -/
theorem wp_startScanImpl {scanner : Scanner} (hfd : 0 ≤ scanner.hciFd)
    (hrunning : scanner.running = false) (hactive : scanner.scanThread.active = false)
    (w : World) :
    Prog.wp BleCall.Succeeds World.next (startScanImpl scanner)
      (fun r w' => r = (.ok (), { scanner with running := true, scanThread := ⟨true⟩ }) ∧
        w' = { scanning := true, threads := w.threads + 1 }) w := by
  rw [startScanImpl, if_neg (by omega), if_neg (by simp [hrunning]), Prog.wp_bind]
  apply Prog.wp_mono (wp_enableLeScan scanner.hciFd w)
  rintro enabled w' ⟨rfl, rfl⟩
  rw [if_neg (by decide), Prog.wp_bind, Prog.wp_lift]
  apply Prog.wp_mono (wp_create world_countsStarts _ hactive _ _ _ _ _)
  rintro ⟨result, ⟨active⟩⟩ w' ⟨rfl, rfl, rfl⟩
  exact ⟨rfl, rfl⟩

/-- A running scanner is left as it is. -/
theorem startScanImpl_of_running {scanner : Scanner} (hfd : 0 ≤ scanner.hciFd)
    (hrunning : scanner.running = true) : startScanImpl scanner = pure (.ok (), scanner) := by
  rw [startScanImpl, if_neg (by omega), if_pos hrunning]

/-- A stopped scanner whose thread object is still active does not start. -/
theorem wp_startScanImpl_of_active {scanner : Scanner} (hfd : 0 ≤ scanner.hciFd)
    (hrunning : scanner.running = false) (hactive : scanner.scanThread.active = true)
    (w : World) :
    Prog.wp BleCall.Succeeds World.next (startScanImpl scanner)
      (fun r w' => r = (.error .systemError, scanner) ∧ w' = { w with scanning := false }) w := by
  rw [startScanImpl, if_neg (by omega), if_neg (by simp [hrunning]), Prog.wp_bind]
  apply Prog.wp_mono (wp_enableLeScan scanner.hciFd w)
  rintro enabled w' ⟨rfl, rfl⟩
  rw [if_neg (by decide)]
  dsimp only
  rw [create_of_active _ hactive, Prog.wp_bind, Prog.wp_lift, Prog.wp_pure, Prog.wp_bind]
  apply Prog.wp_mono (wp_disableLeScan hfd _)
  rintro - w' rfl
  exact ⟨by rw [← hrunning], rfl⟩

/-- A running scanner stops; its thread object keeps its state. -/
theorem wp_stopScanImpl {scanner : Scanner} (hfd : 0 ≤ scanner.hciFd)
    (hrunning : scanner.running = true) (w : World) :
    Prog.wp BleCall.Succeeds World.next (stopScanImpl scanner)
      (fun r w' => r = (.ok (), { scanner with running := false }) ∧
        w' = { w with scanning := false }) w := by
  rw [stopScanImpl, if_neg (by simp [hrunning]), Prog.wp_bind]
  apply Prog.wp_mono (wp_disableLeScan hfd w)
  rintro - w' rfl
  exact ⟨rfl, rfl⟩

theorem stopScanImpl_of_not_running {scanner : Scanner} (hrunning : scanner.running = false) :
    stopScanImpl scanner = pure (.ok (), scanner) := by
  rw [stopScanImpl, if_pos (by simp [hrunning])]

end Success

end EnoceanCore.Ble
