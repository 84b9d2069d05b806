import EnoceanCore.Ble.ScanThread

/-!
# `run_impl`

The application on POSIX builds a driver and a scanner, starts the scanner with the driver as the
context of its callback, and sleeps forever. If something fails on the way it returns, and its
objects are destroyed. A scan thread would then call a driver that is gone.

Whatever the operating system answers, that does not happen (`run_impl_ends`): when `run_impl`
returns, no scan thread was ever started and every socket is closed, and when it does not, there
is one socket, one scan thread, and the controller scans.
-/

namespace EnoceanCore.Application

open Lib PlatformCore Ble

/-! ## The program -/

/-- How `run_impl` ends: it has returned, with its scanner destroyed, or it sleeps. -/
inductive Ending where
  | returned (scanner : Scanner)
  | serving (scanner : Scanner)

/-- `AppEntry::run_impl`. The initialisation of the driver does not fail, and the driver is called
by the scan thread only. -/
def runImpl : Prog BleCall Ending := do
  let (initialised, scanner) ← init {} true
  match initialised with
  | .error _ => return .returned (← Ble.destroy scanner)
  | .ok _ =>
    let (started, scanner) ← startScanImpl scanner
    match started with
    | .error _ => return .returned (← Ble.destroy scanner)
    | .ok _ => return .serving scanner

/-! ## Sockets -/

section Sockets

open Session

/-- Initialising a new scanner. -/
theorem wp_init_owned :
    Prog.wp AnyAnswer socketsAfter (init {} true)
      (fun r l => Owned ⟨r.2, l⟩ ∧ (r.1 = .ok () → 0 ≤ r.2.hciFd)) {} := by
  unfold init
  refine Prog.wp_ite (fun h => by cases h) fun _ => ?_
  simp only [initImpl, Prog.wp_bind, Prog.wp_perform]
  intro devId _
  rw [socketsAfter_of_silent {} .hciGetRoute devId fun _ => rfl]
  refine Prog.wp_ite (fun _ => ⟨⟨rfl, Nat.zero_le 1, rfl⟩, fun h => by cases h⟩) fun _ => ?_
  rw [Prog.wp_bind]
  apply Prog.wp_mono (wp_openHciSocket devId)
  intro fd l hopened
  rcases hopened with ⟨hfd, rfl⟩ | ⟨hfd, hheld, hstrays, hpeak⟩
  · refine Prog.wp_ite (fun hneg => absurd hneg (Int.not_lt.mpr hfd)) fun _ => ?_
    refine ⟨⟨?_, Nat.le_refl 1, rfl⟩, fun _ => hfd⟩
    rw [socketsOf, if_pos hfd]
    rfl
  · refine Prog.wp_ite (fun _ => ?_) fun hpos => absurd hfd hpos
    refine ⟨⟨?_, hpeak, hstrays⟩, fun h => by cases h⟩
    rw [socketsOf, if_neg (Int.not_le.mpr hfd)]
    exact hheld

/-- The sockets at the end. -/
def SocketsAt (ending : Ending) (l : Ledger Int) : Prop :=
  match ending with
  | .returned _ => l.held = [] ∧ l.strays = [] ∧ l.peak ≤ 1
  | .serving scanner => l.held = [scanner.hciFd] ∧ l.strays = [] ∧ l.peak ≤ 1

theorem wp_destroy_sockets {scanner : Scanner} {l : Ledger Int} (h : Owned ⟨scanner, l⟩) :
    Prog.wp AnyAnswer socketsAfter (do return .returned (← Ble.destroy scanner)) SocketsAt l := by
  rw [Prog.wp_bind]
  apply Prog.wp_mono (wp_destroy h)
  rintro scanner' l' rfl
  exact ⟨rfl, h.strays, h.peak⟩

theorem wp_runImpl_sockets : Prog.wp AnyAnswer socketsAfter runImpl SocketsAt {} := by
  rw [runImpl, Prog.wp_bind]
  apply Prog.wp_mono wp_init_owned
  rintro ⟨initialised, scanner⟩ l ⟨howned, hfd⟩
  cases initialised with
  | error e => exact wp_destroy_sockets howned
  | ok _ =>
    have hstart : Prog.wp AnyAnswer socketsAfter (startScanImpl scanner)
        (fun r l' => r.2.hciFd = scanner.hciFd ∧ l' = l) l :=
      (Prog.wp_bind _ _ _ _).mp wp_startScanImpl_socket
    dsimp only
    rw [Prog.wp_bind]
    apply Prog.wp_mono hstart
    rintro ⟨started, scanner'⟩ l' ⟨hsame, rfl⟩
    have howned' : Owned ⟨scanner', l'⟩ := howned.of_same ⟨hsame, rfl⟩
    cases started with
    | error e => exact wp_destroy_sockets howned'
    | ok _ =>
      have hheld := howned'.held
      have hfd' : 0 ≤ scanner'.hciFd := by
        rw [show scanner'.hciFd = scanner.hciFd from hsame]
        exact hfd rfl
      rw [socketsOf, if_pos hfd'] at hheld
      exact ⟨hheld, howned'.strays, howned'.peak⟩

end Sockets

/-! ## Threads -/

/-- The call starts no thread and does not touch attributes of one. -/
def NoThread : BleCall → Prop
  | .pthread _ => False
  | _ => True

theorem threadsAfter_of_noThread (w : ThreadWorld) (c : BleCall) (r : Int) (h : NoThread c) :
    threadsAfter w c r = w := by
  cases c with
  | pthread c => exact h.elim
  | _ => rfl

theorem enableLeScan_noThread (hciFd : Int) : (enableLeScan hciFd).Calls NoThread := by
  unfold enableLeScan
  refine (Prog.calls_perform trivial).bind fun _ => ?_
  refine (Prog.calls_perform trivial).bind fun param => ?_
  apply Prog.calls_ite (Prog.calls_pure _)
  refine (Prog.calls_perform trivial).bind fun on => ?_
  exact Prog.calls_ite (Prog.calls_pure _) (Prog.calls_pure _)

theorem disableLeScan_noThread (hciFd : Int) : (disableLeScan hciFd).Calls NoThread := by
  unfold disableLeScan
  refine Prog.calls_ite ?_ (Prog.calls_pure _)
  exact (Prog.calls_perform trivial).bind fun _ => Prog.calls_pure _

theorem openHciSocket_noThread (devId : Int) : (openHciSocket devId).Calls NoThread := by
  unfold openHciSocket
  refine (Prog.calls_perform trivial).bind fun fd => ?_
  apply Prog.calls_ite (Prog.calls_pure _)
  refine (Prog.calls_perform trivial).bind fun r => ?_
  refine Prog.calls_ite ?_ (Prog.calls_pure _)
  exact (Prog.calls_perform trivial).bind fun _ => Prog.calls_pure _

/-- A program without thread calls. -/
theorem wp_noThread {α : Type} {p : Prog BleCall α} (hp : p.Calls NoThread) {w : ThreadWorld}
    {Q : α → ThreadWorld → Prop} (hQ : ∀ a, Q a w) : Prog.wp AnyReply threadsAfter p Q w :=
  Prog.wp_of_calls hp (fun c r hc => threadsAfter_of_noThread w c r hc) hQ

/-- No thread was created, and the thread object of the scanner is unused. -/
structure Threadless (scanner : Scanner) (w : ThreadWorld) : Prop where
  created : w.created = 0
  held : w.threads.held = []
  active : scanner.scanThread.active = false

/-- There is one scan thread, which the scanner has not joined, and the scanner runs. -/
structure OneThread (scanner : Scanner) (w : ThreadWorld) : Prop where
  held : w.threads.held = [some 0]
  member : w.member = some 0
  active : scanner.scanThread.active = true
  running : scanner.running = true

/-- The scan threads at the end. -/
def ThreadsAt (ending : Ending) (w : ThreadWorld) : Prop :=
  match ending with
  | .returned scanner => Threadless scanner w
  | .serving scanner => OneThread scanner w

section Threads

variable {scanner : Scanner} {w : ThreadWorld}

/-- A new scanner has an unused thread object, and initialising it makes no thread calls. -/
theorem wp_init_threads :
    Prog.wp AnyReply threadsAfter (init {} true)
      (fun r w => w = {} ∧ r.2.scanThread.active = false ∧ r.2.running = false) {} := by
  unfold init
  refine Prog.wp_ite (fun h => by cases h) fun _ => ?_
  simp only [initImpl, Prog.wp_bind, Prog.wp_perform]
  intro devId _
  refine Prog.wp_ite (fun _ => ⟨rfl, rfl, rfl⟩) fun _ => ?_
  rw [Prog.wp_bind]
  refine wp_noThread (openHciSocket_noThread devId) fun fd => ?_
  exact Prog.wp_ite (fun _ => ⟨rfl, rfl, rfl⟩) fun _ => ⟨rfl, rfl, rfl⟩

/-- Destroying the scanner leaves its thread object as it is. -/
theorem wp_destroy_threads (h : Threadless scanner w) :
    Prog.wp AnyReply threadsAfter (do return .returned (← Ble.destroy scanner)) ThreadsAt w := by
  have hclose : ∀ scanner', Threadless scanner' w →
      Prog.wp AnyReply threadsAfter (do
        if scanner'.hciFd ≥ 0 then
          let _ ← .perform (.close scanner'.hciFd)
          return { scanner' with hciFd := -1 }
        return scanner') (fun scanner' w => Threadless scanner' w) w := by
    intro scanner' h'
    refine Prog.wp_ite (fun _ => ?_) fun _ => h'
    simp only [Prog.wp_bind, Prog.wp_perform, Prog.wp_pure]
    intro r _
    exact ⟨h'.created, h'.held, h'.active⟩
  rw [Prog.wp_bind, Ble.destroy, Prog.wp_bind, destroyScan]
  refine Prog.wp_ite (fun _ => ?_) fun _ => hclose scanner h
  rw [Prog.wp_bind]
  exact wp_noThread (disableLeScan_noThread _) fun _ => hclose _ ⟨h.created, h.held, h.active⟩

/-- Starting a scanner whose thread object is unused creates one thread, or fails and creates
none. -/
theorem wp_startScanImpl_threads (hactive : scanner.scanThread.active = false)
    (hrunning : scanner.running = false) :
    Prog.wp AnyReply threadsAfter (startScanImpl scanner) (fun r w =>
      (r.1 = .ok () → OneThread r.2 w) ∧ (r.1 ≠ .ok () → Threadless r.2 w)) {} := by
  have hfresh : ∀ (e : BleError) (scanner' : Scanner) (w : ThreadWorld),
      Threadless scanner' w →
      ((Except.error e : Except BleError Unit) = .ok () → OneThread scanner' w) ∧
        ((Except.error e : Except BleError Unit) ≠ .ok () → Threadless scanner' w) :=
    fun e scanner' w h => ⟨(fun hok => by cases hok), fun _ => h⟩
  unfold startScanImpl
  refine Prog.wp_ite (fun _ => hfresh _ _ _ ⟨rfl, rfl, hactive⟩) fun _ => ?_
  refine Prog.wp_ite (fun h => absurd h (by simp [hrunning])) fun _ => ?_
  rw [Prog.wp_bind]
  refine wp_noThread (enableLeScan_noThread _) fun enabled => ?_
  refine Prog.wp_ite (fun _ => hfresh _ _ _ ⟨rfl, rfl, hactive⟩) fun _ => ?_
  have hbalanced : Balanced ({} : ThreadWorld).attrs := ⟨rfl, rfl, Nat.zero_le 1⟩
  rw [Prog.wp_bind, Prog.wp_lift]
  apply Prog.wp_mono (wp_create_created hbalanced kPthreadStackMin (.one scanThreadFn)
    kScanStackSize kScanPriority (.param1 scannerPointer))
  rintro ⟨result, scanThread⟩ w hcreated
  cases result with
  | ok _ =>
    obtain ⟨-, hnow, hmember, hthreads⟩ := hcreated.ok rfl
    refine ⟨fun _ => ⟨?_, hmember, hnow, rfl⟩, fun hne => absurd rfl hne⟩
    rw [hthreads]
    rfl
  | error e =>
    obtain ⟨hsame, hcount, hthreads, -⟩ := hcreated.error e rfl
    have hsame : scanThread = scanner.scanThread := hsame
    dsimp only
    rw [Prog.wp_bind]
    refine wp_noThread (disableLeScan_noThread _) fun _ => hfresh _ _ _ ⟨hcount, ?_, ?_⟩
    · rw [hthreads]
    · change scanThread.active = false
      rw [hsame, hactive]

theorem wp_runImpl_threads : Prog.wp AnyReply threadsAfter runImpl ThreadsAt {} := by
  rw [runImpl, Prog.wp_bind]
  apply Prog.wp_mono wp_init_threads
  rintro ⟨initialised, scanner⟩ w ⟨rfl, hactive, hrunning⟩
  cases initialised with
  | error e => exact wp_destroy_threads ⟨rfl, rfl, hactive⟩
  | ok _ =>
    dsimp only
    rw [Prog.wp_bind]
    apply Prog.wp_mono (wp_startScanImpl_threads hactive hrunning)
    rintro ⟨started, scanner'⟩ w ⟨hone, hnone⟩
    cases started with
    | error e => exact wp_destroy_threads (hnone fun h => by cases h)
    | ok _ => exact hone rfl

end Threads

/-! ## The controller -/

/-- Whether the controller scans, after an answered call. -/
def scanningAfter (scanning : Bool) : BleCall → Int → Bool
  | .hciLeSetScanEnable _ enable _ _, r => if 0 ≤ r then enable != 0 else scanning
  | _, _ => scanning

/-- If scanning was enabled, the controller scans. -/
theorem wp_enableLeScan_scanning (hciFd : Int) (scanning : Bool) :
    Prog.wp AnyReply scanningAfter (enableLeScan hciFd)
      (fun enabled scanning => enabled = true → scanning = true) scanning := by
  simp only [enableLeScan, Prog.wp_bind, Prog.wp_perform]
  intro off _ param _
  refine Prog.wp_ite (fun _ h => by cases h) fun _ => ?_
  simp only [Prog.wp_bind, Prog.wp_perform]
  intro on _
  refine Prog.wp_ite (fun _ h => by cases h) fun hon _ => ?_
  exact if_pos (Int.not_lt.mp hon)

/-- If a scanner that does not run was started, the controller scans. -/
theorem wp_startScanImpl_scanning {scanner : Scanner} (hrunning : scanner.running = false)
    (scanning : Bool) :
    Prog.wp AnyReply scanningAfter (startScanImpl scanner)
      (fun r scanning => r.1 = .ok () → scanning = true) scanning := by
  unfold startScanImpl
  refine Prog.wp_ite (fun _ h => by cases h) fun _ => ?_
  refine Prog.wp_ite (fun h => absurd h (by simp [hrunning])) fun _ => ?_
  rw [Prog.wp_bind]
  apply Prog.wp_mono (wp_enableLeScan_scanning scanner.hciFd scanning)
  intro enabled scanning henabled
  refine Prog.wp_ite (fun _ h => by cases h) fun hnot => ?_
  have hscanning : scanning = true := henabled (by simpa using hnot)
  rw [Prog.wp_bind]
  -- Creating the scan thread does not concern the controller.
  refine Prog.wp_of_calls
    (Prog.calls_lift (P := fun c => ∀ b r, scanningAfter b c r = b) .pthread
      (fun _ _ _ => rfl) _) (fun c r hc => hc scanning r) fun created => ?_
  obtain ⟨result, scanThread⟩ := created
  cases result with
  | ok _ => exact fun _ => hscanning
  | error e =>
    dsimp only
    rw [Prog.wp_bind, disableLeScan]
    refine Prog.wp_ite (fun _ => ?_) fun _ h => by cases h
    simp only [Prog.wp_bind, Prog.wp_perform, Prog.wp_pure]
    intro r _ h
    cases h

/-- If the application serves, the controller scans. -/
def ScanningAt (ending : Ending) (scanning : Bool) : Prop :=
  match ending with
  | .returned _ => True
  | .serving _ => scanning = true

theorem wp_init_running (scanning : Bool) :
    Prog.wp AnyReply scanningAfter (init {} true) (fun r _ => r.2.running = false) scanning := by
  unfold init
  refine Prog.wp_ite (fun h => by cases h) fun _ => ?_
  simp only [initImpl, Prog.wp_bind, Prog.wp_perform]
  intro devId _
  refine Prog.wp_ite (fun _ => rfl) fun _ => ?_
  rw [Prog.wp_bind, openHciSocket, Prog.wp_bind]
  intro fd _
  refine Prog.wp_ite (fun _ => ?_) fun _ => ?_
  · exact Prog.wp_ite (fun _ => rfl) fun _ => rfl
  rw [Prog.wp_bind]
  intro r _
  refine Prog.wp_ite (fun _ => ?_) fun _ => ?_
  · rw [Prog.wp_bind]
    intro r' _
    exact Prog.wp_ite (fun _ => rfl) fun _ => rfl
  · exact Prog.wp_ite (fun _ => rfl) fun _ => rfl

theorem wp_true {ω α : Type} {world : ω → BleCall → Int → ω} (p : Prog BleCall α) (w : ω) :
    Prog.wp AnyReply world p (fun _ _ => True) w := by
  induction p generalizing w with
  | done a => trivial
  | call c next ih => exact fun r _ => ih r _

theorem wp_runImpl_scanning : Prog.wp AnyReply scanningAfter runImpl ScanningAt false := by
  have hreturned : ∀ (scanner : Scanner) (scanning : Bool),
      Prog.wp AnyReply scanningAfter (do return .returned (← Ble.destroy scanner))
        ScanningAt scanning := by
    intro scanner scanning
    rw [Prog.wp_bind]
    exact Prog.wp_mono (wp_true _ _) fun _ _ _ => trivial
  rw [runImpl, Prog.wp_bind]
  apply Prog.wp_mono (wp_init_running false)
  rintro ⟨initialised, scanner⟩ scanning hrunning
  cases initialised with
  | error e => exact hreturned scanner scanning
  | ok _ =>
    dsimp only
    rw [Prog.wp_bind]
    apply Prog.wp_mono (wp_startScanImpl_scanning hrunning scanning)
    rintro ⟨started, scanner'⟩ scanning hstarted
    cases started with
    | error e => exact hreturned scanner' scanning
    | ok _ => exact hstarted rfl

/-! ## Every run -/

/-- The calls of a run. -/
abbrev Calls : Type := List (BleCall × Int)

/-- The sockets after the calls. -/
def socketsOf (calls : Calls) : Ledger Int := Ledger.after {} (calls.filterMap socketEvent)

/-- The scan threads after the calls. -/
def threadsOf (calls : Calls) : ThreadWorld := calls.foldl (fun w e => threadsAfter w e.1 e.2) {}

/-- Whether the controller scans after the calls. -/
def scanningOf (calls : Calls) : Bool := calls.foldl (fun b e => scanningAfter b e.1 e.2) false

/-- The application has returned: it never created a thread, and closed every socket once. -/
structure Abandoned (scanner : Scanner) (calls : Calls) : Prop where
  threads : Threadless scanner (threadsOf calls)
  closed : (socketsOf calls).held = []
  strays : (socketsOf calls).strays = []
  once : ∀ fd, (calls.filterMap socketEvent).count (.acquire fd) =
    (calls.filterMap socketEvent).count (.release fd)

/-- The application serves: the scanner holds the one open socket and the one thread, it runs,
and the controller scans. -/
structure Serves (scanner : Scanner) (calls : Calls) : Prop where
  thread : OneThread scanner (threadsOf calls)
  socket : (socketsOf calls).held = [scanner.hciFd]
  strays : (socketsOf calls).strays = []
  scanning : scanningOf calls = true

/-- How a run of the application has to end. -/
def Ends (x : Traced (BleCall × Int) Ending) : Prop :=
  match x.val with
  | .returned scanner => Abandoned scanner x.log
  | .serving scanner => Serves scanner x.log

/-- **Start of the application.** Whatever the Bluetooth controller, the sockets and the threads
of the operating system answer, `run_impl` either sleeps with a scanner that runs, one scan
thread, one open socket and a controller that scans, or it returns, and then no thread was
created that could call the destroyed driver, and every socket was closed exactly once. -/
theorem run_impl_ends (env : Env BleCall) : Ends (runImpl.exec env) := by
  have hany : ∀ made c, AnyReply c (env made c) := fun _ _ => trivial
  have hsockets := Prog.wp_exec hany wp_runImpl_sockets
  have hthreads := Prog.wp_exec hany wp_runImpl_threads
  have hscanning := Prog.wp_exec hany wp_runImpl_scanning
  rw [Session.foldl_socketsAfter] at hsockets
  unfold Ends
  generalize runImpl.exec env = x at hsockets hthreads hscanning ⊢
  obtain ⟨ending, calls⟩ := x
  cases ending with
  | returned scanner =>
    obtain ⟨hheld, hstrays, -⟩ := hsockets
    refine ⟨hthreads, hheld, hstrays, fun fd => ?_⟩
    exact Ledger.count_acquire_eq_release (l := {}) rfl rfl hheld hstrays fd
  | serving scanner =>
    obtain ⟨hheld, hstrays, -⟩ := hsockets
    exact ⟨hthreads, hheld, hstrays, hscanning⟩

/-- No permission to create a thread: the application returns with its socket closed. -/
example :
    let run := runImpl.exec fun _ c =>
      match c with
      | .hciOpenDev _ => 7
      | .pthread (.create _ _) => EPERM
      | _ => 0
    (threadsOf run.log).created = 0 ∧ (socketsOf run.log).held = [] ∧
      (.close 7, 0) ∈ run.log := by
  decide

end EnoceanCore.Application
