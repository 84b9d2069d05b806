import EnoceanCore.Ble.Scanner

/-!
# Starting and stopping the scanner

What a user may expect of `start_scan` and `stop_scan` if every call to the operating system
succeeds (`Serves`), over whole runs after an initialisation.

`Phase` is the life of a scanner as its user sees it. It follows every step of the system
(`startScan_inPhase`, `stopScan_inPhase`, `threadExit_inPhase`), and says that a stopped scanner
cannot be started: `stop_scan` does not destroy the thread object, so the `create` of the next
start is refused. A run serves its user exactly when no start comes after a stop that comes after
a start (`serves_iff`).
-/

namespace EnoceanCore.Ble

open Lib PlatformCore

/-! ## What is expected -/

/-- A request of the user of the scanner. -/
inductive Request where
  | start
  | stop
  deriving DecidableEq, Repr

/-- The request a step of the system serves. -/
def Op.request : Op → Option Request
  | .startScan _ => some .start
  | .stopScan _ => some .stop
  | .threadExit => none

/-- Every call of the step succeeds. -/
def Op.Answered : Op → Prop
  | .startScan env => AllSucceed env
  | .stopScan env => AllSucceed env
  | .threadExit => True

/-- A start succeeds and leaves a running scanner with one thread and a scanning controller;
a stop succeeds and leaves a scanner that is not running. -/
def Serves (t : Transition System Op (Except BleError Unit)) : Prop :=
  match t.input with
  | .startScan _ => t.outcome.log = [.ok ()] ∧ t.outcome.val.scanner.running = true ∧
      t.outcome.val.world = { scanning := true, threads := 1 }
  | .stopScan _ => t.outcome.log = [.ok ()] ∧ t.outcome.val.scanner.running = false
  | .threadExit => True

/-! ## Phases -/

/-- The life of a scanner. -/
inductive Phase where
  | ready
  | scanning
  | stopped
  deriving DecidableEq, Repr

def Phase.next : Phase → Request → Phase
  | .ready, .start => .scanning
  | .scanning, .stop => .stopped
  | phase, _ => phase

/-- A stopped scanner cannot be started. -/
def Phase.Allows (phase : Phase) (request : Request) : Prop :=
  ¬ (phase = .stopped ∧ request = .start)

/-- The requests that lead to one that is not allowed. -/
def Phase.refused : Phase → List Request
  | .ready => [.start, .stop, .start]
  | .scanning => [.stop, .start]
  | .stopped => [.start]

theorem Phase.refused_sublist_cons {phase : Phase} {request : Request}
    (h : phase.Allows request) (requests : List Request) :
    phase.refused.Sublist (request :: requests) ↔
      (phase.next request).refused.Sublist requests := by
  cases phase <;> cases request
  case stopped.start => exact absurd ⟨rfl, rfl⟩ h
  case ready.start => exact List.cons_sublist_cons
  case scanning.stop => exact List.cons_sublist_cons
  all_goals simp [refused, next, List.sublist_cons_iff]

/-- Requests are allowed unless they contain the refused ones in their order. -/
theorem Phase.allowed_iff (phase : Phase) (requests : List Request) :
    Allowed Phase.next Phase.Allows phase requests ↔ ¬ phase.refused.Sublist requests := by
  induction requests generalizing phase with
  | nil => cases phase <;> simp [Allowed, refused]
  | cons request requests ih =>
    rw [Allowed, ih]
    by_cases h : phase.Allows request
    · rw [and_iff_right h, Phase.refused_sublist_cons h]
    · obtain ⟨rfl, rfl⟩ := not_not.mp h
      simp [refused, h]

/-! ## The system follows the phases -/

/-- The scanner and its world are in a phase. -/
def InPhase : Phase → System → Prop
  | .ready, system => 0 ≤ system.scanner.hciFd ∧ system.scanner.running = false ∧
      system.scanner.scanThread.active = false ∧ system.world.threads = 0
  | .scanning, system => 0 ≤ system.scanner.hciFd ∧ system.scanner.running = true ∧
      system.scanner.scanThread.active = true ∧
      system.world = { scanning := true, threads := 1 }
  | .stopped, system => 0 ≤ system.scanner.hciFd ∧ system.scanner.running = false ∧
      system.scanner.scanThread.active = true

theorem step_startScan (system : System) (env : Env BleCall) :
    step system (.startScan env) =
      ⟨(system.perform env startScanImpl).2, [(system.perform env startScanImpl).1]⟩ := rfl

theorem step_stopScan (system : System) (env : Env BleCall) :
    step system (.stopScan env) =
      ⟨(system.perform env stopScanImpl).2, [(system.perform env stopScanImpl).1]⟩ := rfl

/-- An operation that makes no call. -/
theorem perform_of_pure {system : System} (env : Env BleCall) {operation : Scanner → ScannerM}
    {r : Except BleError Unit × Scanner} (h : operation system.scanner = pure r) :
    system.perform env operation = (r.1, { system with scanner := r.2 }) := by
  rw [System.perform, h]
  rfl

theorem startScan_inPhase {phase : Phase} {system : System} (h : InPhase phase system)
    {env : Env BleCall} (henv : AllSucceed env) :
    InPhase (phase.next .start) (step system (.startScan env)).val ∧
      (Serves ⟨system, .startScan env, step system (.startScan env)⟩ ↔ phase.Allows .start) := by
  rw [step_startScan]
  cases phase with
  | ready =>
    obtain ⟨hfd, hrunning, hactive, hthreads⟩ := h
    obtain ⟨hr, hworld⟩ :=
      perform_of_wp henv (wp_startScanImpl hfd hrunning hactive system.world)
    obtain ⟨hresult, hscanner⟩ := Prod.mk.inj hr
    rw [hthreads] at hworld
    refine ⟨⟨?_, ?_, ?_, hworld⟩, iff_of_true ⟨?_, ?_, hworld⟩ fun h => by cases h.1⟩
    · rwa [hscanner]
    · rw [hscanner]
    · rw [hscanner]
    · exact congrArg ([·]) hresult
    · rw [hscanner]
  | scanning =>
    obtain ⟨hfd, hrunning, hactive, hworld⟩ := h
    rw [perform_of_pure env (startScanImpl_of_running hfd hrunning)]
    exact ⟨⟨hfd, hrunning, hactive, hworld⟩,
      iff_of_true ⟨rfl, hrunning, hworld⟩ fun h => by cases h.1⟩
  | stopped =>
    obtain ⟨hfd, hrunning, hactive⟩ := h
    obtain ⟨hr, -⟩ :=
      perform_of_wp henv (wp_startScanImpl_of_active hfd hrunning hactive system.world)
    obtain ⟨hresult, hscanner⟩ := Prod.mk.inj hr
    refine ⟨⟨?_, ?_, ?_⟩, iff_of_false ?_ fun hallows => hallows ⟨rfl, rfl⟩⟩
    · rwa [hscanner]
    · rwa [hscanner]
    · rwa [hscanner]
    · intro h
      rcases h with ⟨hok, -⟩
      rw [hresult] at hok
      cases hok

theorem stopScan_inPhase {phase : Phase} {system : System} (h : InPhase phase system)
    {env : Env BleCall} (henv : AllSucceed env) :
    InPhase (phase.next .stop) (step system (.stopScan env)).val ∧
      Serves ⟨system, .stopScan env, step system (.stopScan env)⟩ := by
  rw [step_stopScan]
  cases phase with
  | ready =>
    rw [perform_of_pure env (stopScanImpl_of_not_running h.2.1)]
    exact ⟨h, rfl, h.2.1⟩
  | scanning =>
    obtain ⟨hfd, hrunning, hactive, -⟩ := h
    obtain ⟨hr, -⟩ := perform_of_wp henv (wp_stopScanImpl hfd hrunning system.world)
    obtain ⟨hresult, hscanner⟩ := Prod.mk.inj hr
    refine ⟨⟨?_, ?_, ?_⟩, congrArg ([·]) hresult, ?_⟩
    · rwa [hscanner]
    · rw [hscanner]
    · rwa [hscanner]
    · rw [hscanner]
  | stopped =>
    rw [perform_of_pure env (stopScanImpl_of_not_running h.2.1)]
    exact ⟨h, rfl, h.2.1⟩

theorem threadExit_inPhase {phase : Phase} {system : System} (h : InPhase phase system) :
    InPhase phase (step system .threadExit).val := by
  cases phase with
  | ready =>
    obtain ⟨hfd, hrunning, hactive, hthreads⟩ := h
    rw [step, if_neg (by simp [hrunning])]
    exact ⟨hfd, hrunning, hactive, by simp [hthreads]⟩
  | scanning =>
    rw [step, if_pos h.2.1]
    exact h
  | stopped =>
    rw [step, if_neg (by simp [h.2.1])]
    exact h

/-- **Runs.** From any phase, a run with successful calls serves its user if and only if its
requests do not contain the refused ones. -/
theorem serves_iff {phase : Phase} {system : System} (h : InPhase phase system) (ops : List Op)
    (hops : ∀ op ∈ ops, op.Answered) :
    (∀ t ∈ history step system ops, Serves t) ↔
      ¬ phase.refused.Sublist (ops.filterMap Op.request) := by
  rw [← Phase.allowed_iff]
  refine history_forall_iff (R := InPhase) (P := Op.Answered) Op.request ?_ ?_ h ops hops
  · intro phase system op h _ hnone
    cases op with
    | startScan env => cases hnone
    | stopScan env => cases hnone
    | threadExit => exact ⟨threadExit_inPhase h, trivial⟩
  · intro phase system op request h hop hsome
    cases op with
    | startScan env =>
      cases hsome
      exact startScan_inPhase h hop
    | stopScan env =>
      cases hsome
      obtain ⟨hin, hserves⟩ := stopScan_inPhase h hop
      exact ⟨hin, iff_of_true hserves fun hrefused => by cases hrefused.2⟩
    | threadExit => cases hsome

/-! ## After an initialisation -/

/-- A successful `init` of an unused scanner makes it ready. -/
theorem init_inPhase {env : Env BleCall} {cb scanning : Bool} {system : System}
    (h : System.perform { world := { scanning := scanning } } env (init · cb) =
      (.ok (), system)) : InPhase .ready system := by
  have hinit := @perform_of_wp (fun _ _ => True) env (fun _ _ => trivial)
    { world := { scanning := scanning } } (init · cb) _ (wp_init cb { scanning := scanning })
  rw [h] at hinit
  obtain ⟨hfd, hrunning, hactive, hworld⟩ := hinit rfl
  exact ⟨hfd, hrunning, hactive, by rw [hworld]⟩

/-- **Restarts.** After a successful `init`, whether or not the controller was scanning for
somebody else, a run with successful calls serves its user if and only if no start comes
after a stop that comes after a start. -/
theorem restartable_iff (env : Env BleCall) (cb scanning : Bool) {system : System}
    (hinit : System.perform { world := { scanning := scanning } } env (init · cb) =
      (.ok (), system))
    (ops : List Op) (hops : ∀ op ∈ ops, op.Answered) :
    (∀ t ∈ history step system ops, Serves t) ↔
      ¬ [.start, .stop, .start].Sublist (ops.filterMap Op.request) :=
  serves_iff (init_inPhase hinit) ops hops

/-- A host with one adapter on which every call succeeds. -/
def host : Env BleCall := fun _ c =>
  match c with
  | .hciOpenDev _ => 3
  | .pthread (.schedGetPriorityMin _) => 1
  | .pthread (.schedGetPriorityMax _) => 99
  | _ => 0

theorem allSucceed_host : AllSucceed host := by
  intro made c
  cases c with
  | pthread call => cases call <;> simp [host, BleCall.Succeeds, PthreadCall.Succeeds]
  | _ => simp [host, BleCall.Succeeds]

/-- The scanner that `init` leaves on the host. -/
def initialisedSystem : System := { scanner := { callback := true, hciFd := 3, devId := 0 } }

theorem restartable_iff_start_stop :
    System.perform {} host (init · true) = (.ok (), initialisedSystem) ∧
      ∀ t ∈ history step initialisedSystem
        [.stopScan host, .startScan host, .startScan host, .stopScan host, .threadExit],
        Serves t :=
  ⟨by rfl, (restartable_iff host true false (by rfl) _
    (by simp [Op.Answered, allSucceed_host])).mpr (by decide)⟩

/-- Started, stopped and started again, even after the first thread has left. -/
theorem not_restartable_after_stop :
    System.perform {} host (init · true) = (.ok (), initialisedSystem) ∧
      (∀ op ∈ [Op.startScan host, .stopScan host, .threadExit, .startScan host], op.Answered) ∧
      ¬ ∀ t ∈ history step initialisedSystem
        [.startScan host, .stopScan host, .threadExit, .startScan host], Serves t := by
  refine ⟨by rfl, by simp [Op.Answered, allSucceed_host], fun h => ?_⟩
  have hlast := h _ (List.mem_of_getElem? (i := 3) rfl)
  cases hlast.1

end EnoceanCore.Ble
