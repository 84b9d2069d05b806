import Mathlib.Algebra.Ring.Nat
import EnoceanCore.Ble.OneScanLoop

/-!
# What happens after `stop_scan`

`stop_scan` does not wait for the scan thread, which may be about to read, or in the middle of an
event. It reads one more event at most, and calls the callback for at most fifteen more reports,
in every interleaving (`stop_scan_quiets`): each step of a thread while the flag is down is paid
for by what the thread still had to do (`ScanThread.readsLeft`, `ScanThread.reportsLeft`).
-/

namespace EnoceanCore.Ble

open Lib PlatformCore

/-! ## While the flag is down -/

/-- The operation raises the flag, or it has raised it for a thread that it still creates. -/
def Stage.Starts : Stage → Prop
  | .startEnable | .startRaise | .startCreate => True
  | _ => False

/-- The flag is down, and the operation that is going on does not raise it. -/
structure Quiet (s : ScanSystem) : Prop where
  running : s.scanner.running = false
  caller : ∀ stage env, s.caller = .inside stage env → ¬ stage.Starts

/-- The move is a call of `start_scan`. -/
def ScanMove.startsScan : ScanMove → Bool
  | .call .startScan _ => true
  | _ => false

namespace Quiet

variable {s : ScanSystem}

theorem enter (h : s.scanner.running = false) {stage : Stage} (env : Env BleCall)
    (hstage : ¬ stage.Starts) : Quiet (s.enter stage env).val := by
  refine ⟨h, fun stage' env' hcaller => ?_⟩
  cases hcaller
  exact hstage

theorem finish (h : s.scanner.running = false) (result : Except BleError Unit) :
    Quiet (s.finish result).val :=
  ⟨h, fun stage env hcaller => by cases hcaller⟩

theorem ite {c : Prop} [Decidable c] {x y : Traced Seen ScanSystem} (hx : Quiet x.val)
    (hy : Quiet y.val) : Quiet (if c then x else y).val := by
  split
  · exact hx
  · exact hy

theorem call (h : Quiet s) (env : Env BleCall) {api : Api} (hapi : api ≠ .startScan) :
    Quiet (s.call env api).val := by
  cases api with
  | startScan => exact absurd rfl hapi
  | stopScan => exact ite (finish h.running _) (enter h.running _ id)
  | destroy => exact ite (enter h.running _ id) (enter h.running _ id)

theorem proceed (h : Quiet s) (env : Env BleCall) {stage : Stage} (hstage : ¬ stage.Starts) :
    Quiet (s.proceed env stage).val ∧ (s.proceed env stage).val.threads = s.threads := by
  cases stage with
  | startEnable => exact absurd trivial hstage
  | startRaise => exact absurd trivial hstage
  | startCreate => exact absurd trivial hstage
  | startLower => exact ⟨enter (s := s.setRunning false) rfl _ id, rfl⟩
  | startDisable => exact ⟨finish h.running _, rfl⟩
  | stopLower => exact ⟨enter (s := s.setRunning false) rfl _ id, rfl⟩
  | stopDisable => exact ⟨finish h.running _, rfl⟩
  | destroyLower => exact ⟨enter (s := s.setRunning false) rfl _ id, rfl⟩
  | destroyDisable => exact ⟨enter h.running _ id, rfl⟩
  | destroyClose =>
    have hrunning : (Prog.exec env (closeSocket s.scanner)).val.running = false := by
      unfold closeSocket
      split <;> exact h.running
    exact ⟨enter (s := { s with scanner := _ }) hrunning _ id, rfl⟩
  | destroyJoin =>
    show Quiet s.destroyThread ∧ s.destroyThread.threads = s.threads
    unfold ScanSystem.destroyThread
    split
    · exact ⟨h, rfl⟩
    · exact ⟨⟨h.running, fun stage env hcaller => by cases hcaller⟩, rfl⟩

/-- A join does not raise the flag. -/
theorem joined (h : Quiet s) (err : Int) :
    Quiet (s.joined err) ∧ (s.joined err).threads = s.threads := by
  unfold ScanSystem.joined
  split
  · exact ⟨h, rfl⟩
  split
  · exact ⟨h, rfl⟩
  split
  · split
    · exact ⟨⟨h.running, fun stage env hcaller => by cases hcaller⟩, rfl⟩
    · exact ⟨h, rfl⟩
  · exact ⟨⟨h.running, fun stage env hcaller => by cases hcaller⟩, rfl⟩

/-- Without a call of `start_scan` it stays quiet. -/
theorem step (h : Quiet s) {move : ScanMove} (hmove : move.startsScan = false) :
    Quiet (s.step move).val := by
  cases move with
  | call api env =>
    unfold ScanSystem.step
    cases hcaller : s.caller with
    | idle => exact h.call env (by rintro rfl; cases hmove)
    | inside stage env' => exact h
    | gone => exact h
  | caller =>
    unfold ScanSystem.step
    cases hcaller : s.caller with
    | idle => exact h
    | inside stage env => exact (h.proceed env (h.caller stage env hcaller)).1
    | gone => exact h
  | join err =>
    unfold ScanSystem.step
    cases hcaller : s.caller with
    | idle => exact h
    | inside stage env =>
      cases stage with
      | destroyJoin => exact (h.joined err).1
      | _ => exact h
    | gone => exact h
  | thread i bytes =>
    show Quiet (s.advance i bytes).val
    unfold ScanSystem.advance
    split
    · exact h
    · exact ⟨h.running, h.caller⟩

end Quiet

/-- The event of a scan thread is one of these. -/
def Seen.scans (selected : ScanEvent → Bool) (e : Seen) : Bool := (e.scan?.map selected).getD false

theorem countP_scans (selected : ScanEvent → Bool) (log : List Seen) :
    log.countP (Seen.scans selected) = (scans log).countP selected := by
  rw [scans, List.countP_filterMap]
  rfl

/-- Quiet, in an interleaving. -/
def Quieted (s : ScanSystem) : Prop :=
  Quiet s ∧ ∃ callback reads events, Sound callback reads events s

namespace Quieted

variable {s : ScanSystem}

theorem step (h : Quieted s) {move : ScanMove} (hmove : move.startsScan = false) :
    Quieted (s.step move).val := by
  obtain ⟨hquiet, callback, reads, events, hsound⟩ := h
  exact ⟨hquiet.step hmove, callback, _, _, hsound.step move⟩

/-- The application itself does not scan, and leaves the threads as they are. -/
theorem caller_step (h : Quieted s) {move : ScanMove} (hmove : move.startsScan = false)
    (hthread : ∀ i bytes, move ≠ .thread i bytes) :
    scans (s.step move).log = [] ∧ (s.step move).val.threads = s.threads := by
  cases move with
  | call api env =>
    unfold ScanSystem.step
    cases hcaller : s.caller with
    | idle => exact ⟨(Keeps.call env api).quiet, (Keeps.call env api).threads⟩
    | inside stage env' => exact ⟨rfl, rfl⟩
    | gone => exact ⟨rfl, rfl⟩
  | caller =>
    unfold ScanSystem.step
    cases hcaller : s.caller with
    | idle => exact ⟨rfl, rfl⟩
    | gone => exact ⟨rfl, rfl⟩
    | inside stage env =>
      have hstage := h.1.caller stage env hcaller
      refine ⟨?_, (h.1.proceed env hstage).2⟩
      by_cases hjoin : stage = .destroyJoin
      · subst hjoin
        rfl
      · exact (Keeps.proceed env (by rintro rfl; exact hstage trivial) hjoin).quiet
  | join err =>
    unfold ScanSystem.step
    cases hcaller : s.caller with
    | idle => exact ⟨rfl, rfl⟩
    | inside stage env =>
      cases stage with
      | destroyJoin => exact ⟨rfl, (h.1.joined err).2⟩
      | _ => exact ⟨rfl, rfl⟩
    | gone => exact ⟨rfl, rfl⟩
  | thread i bytes => exact absurd rfl (hthread i bytes)

/-- What each thread pays for the selected events that it makes while the flag is down, a step
pays. -/
theorem step_cost {selected : ScanEvent → Bool} {cost : ScanThread → Nat}
    (hcost : ∀ (callback : Bool) (bytes : List UInt8) (t : ScanThread),
      (t.advance callback false bytes).log.countP selected +
        cost (t.advance callback false bytes).val ≤ cost t)
    (hs : Quieted s) {move : ScanMove} (hmove : move.startsScan = false) :
    (s.step move).log.countP (Seen.scans selected) +
      ((s.step move).val.threads.map cost).sum ≤ (s.threads.map cost).sum := by
  rw [countP_scans]
  by_cases hthread : ∃ i bytes, move = .thread i bytes
  · obtain ⟨i, bytes, rfl⟩ := hthread
    show (scans (s.advance i bytes).log).countP selected +
      ((s.advance i bytes).val.threads.map cost).sum ≤ _
    unfold ScanSystem.advance
    cases hat : s.threads[i]? with
    | none => exact Nat.le_of_eq (Nat.zero_add _)
    | some t =>
      dsimp only
      rw [scans_map_scan, hs.1.running]
      have hpaid := hcost s.scanner.callback bytes t
      obtain ⟨callback, reads, events, hsound⟩ := hs.2
      have hthreads := hsound.threads
      cases hlist : s.threads with
      | nil =>
        rw [hlist] at hat
        cases hat
      | cons u rest =>
        rw [hlist] at hthreads hat
        cases hthreads
        obtain ⟨rfl, rfl⟩ : i = 0 ∧ u = t := by
          cases i with
          | zero => exact ⟨rfl, Option.some_inj.mp hat⟩
          | succ i => cases hat
        rw [List.set_cons_zero, List.map_singleton, List.map_singleton, List.sum_singleton,
          List.sum_singleton]
        exact hpaid
  · obtain ⟨hnone, hsame⟩ := hs.caller_step hmove fun i bytes h => hthread ⟨i, bytes, h⟩
    rw [hnone, hsame]
    exact Nat.le_of_eq (Nat.zero_add _)

/-- And so does a run. -/
theorem run_cost {selected : ScanEvent → Bool} {cost : ScanThread → Nat}
    (hcost : ∀ (callback : Bool) (bytes : List UInt8) (t : ScanThread),
      (t.advance callback false bytes).log.countP selected +
        cost (t.advance callback false bytes).val ≤ cost t)
    (h : Quieted s) (moves : List ScanMove) (hmoves : ∀ m ∈ moves, m.startsScan = false) :
    (scans (run ScanSystem.step s moves).log).countP selected ≤ (s.threads.map cost).sum := by
  have hpays : ∀ (s : ScanSystem) (m : ScanMove), Quieted s → m.startsScan = false →
      (s.step m).log.countP (Seen.scans selected) + ((s.step m).val.threads.map cost).sum ≤
        (s.threads.map cost).sum := fun s m hs hm => hs.step_cost hcost hm
  have hbudget : (run ScanSystem.step s moves).log.countP (Seen.scans selected) +
      ((run ScanSystem.step s moves).val.threads.map cost).sum ≤ (s.threads.map cost).sum :=
    run_budget _ (fun s => (s.threads.map cost).sum) (fun s m hs hm => hs.step hm) hpays h moves
      hmoves
  rw [← countP_scans]
  omega

end Quieted

/-! ## Costs -/

def ScanEvent.isRead : ScanEvent → Bool
  | .read => true
  | .report _ => false

def ScanEvent.isReport : ScanEvent → Bool
  | .read => false
  | .report _ => true

namespace ScanThread

/-- The reads a thread makes while the flag is down. -/
def readsLeft (t : ScanThread) : Nat :=
  match t.place with
  | .reading => 1
  | _ => 0

/-- The calls of the callback a thread makes at most while the flag is down. -/
def reportsLeft (t : ScanThread) : Nat :=
  match t.place with
  | .reading => 15
  | .dispatching left => left.length
  | _ => 0

/-- What `read` leaves to do. -/
theorem receive_left (callback : Bool) (bytes : List UInt8) (t : ScanThread) :
    (t.receive callback bytes).readsLeft = 0 ∧ (t.receive callback bytes).reportsLeft ≤ 15 := by
  by_cases hnone : (bytes.take kHciBufSize).length = 0
  · have hplace : (t.receive callback bytes).place = .failed := if_pos hnone
    rw [readsLeft, reportsLeft, hplace]
    exact ⟨rfl, Nat.zero_le 15⟩
  · have hplace : (t.receive callback bytes).place = .dispatching _ := if_neg hnone
    rw [readsLeft, reportsLeft, hplace]
    exact ⟨rfl, few_scanEvent _ _ _⟩

theorem advance_reads (callback : Bool) (bytes : List UInt8) (t : ScanThread) :
    (t.advance callback false bytes).log.countP ScanEvent.isRead +
      (t.advance callback false bytes).val.readsLeft ≤ t.readsLeft := by
  obtain ⟨place, buf⟩ := t
  cases place with
  | reading =>
    show 1 + (receive callback bytes ⟨.reading, buf⟩).readsLeft ≤ 1
    exact Nat.le_of_eq (congrArg (1 + ·) (receive_left callback bytes _).1)
  | dispatching left => cases left <;> exact Nat.le_refl 0
  | _ => exact Nat.le_refl 0

theorem advance_reports (callback : Bool) (bytes : List UInt8) (t : ScanThread) :
    (t.advance callback false bytes).log.countP ScanEvent.isReport +
      (t.advance callback false bytes).val.reportsLeft ≤ t.reportsLeft := by
  obtain ⟨place, buf⟩ := t
  cases place with
  | reading =>
    show 0 + (receive callback bytes ⟨.reading, buf⟩).reportsLeft ≤ 15
    rw [Nat.zero_add]
    exact (receive_left callback bytes _).2
  | dispatching left =>
    cases left with
    | nil => exact Nat.le_refl 0
    | cons args left => exact Nat.le_of_eq (Nat.add_comm 1 left.length)
  | _ => exact Nat.le_refl 0

end ScanThread

/-- A thread may be about to read one event. -/
theorem Quieted.left_le {s : ScanSystem} (h : Quieted s) :
    (s.threads.map ScanThread.readsLeft).sum ≤ 1 ∧
      (s.threads.map ScanThread.reportsLeft).sum ≤ 15 := by
  obtain ⟨-, callback, reads, events, hsound⟩ := h
  have hthreads := hsound.threads
  generalize s.threads = threads at hthreads
  cases hthreads with
  | none => exact ⟨Nat.zero_le 1, Nat.zero_le 15⟩
  | @one _ _ t follows few =>
    rw [List.map_singleton, List.map_singleton, List.sum_singleton, List.sum_singleton]
    obtain ⟨place, buf⟩ := t
    cases place with
    | reading => exact ⟨Nat.le_refl 1, Nat.le_refl 15⟩
    | dispatching left => exact ⟨Nat.zero_le 1, few⟩
    | _ => exact ⟨Nat.zero_le 1, Nat.zero_le 15⟩

/-! ## After `stop_scan` -/

/-- The application is in the call of `stop_scan` that lowers the flag, or it is quiet. -/
def Stopping (s : ScanSystem) : Prop := (∃ env, s.caller = .inside .stopLower env) ∨ Quiet s

theorem stopping_call {s : ScanSystem} (hidle : s.caller = .idle) (env : Env BleCall) :
    Stopping (s.step (.call .stopScan env)).val := by
  have hcall : s.step (.call .stopScan env) = s.call env .stopScan := by
    simp only [ScanSystem.step, hidle]
  rw [hcall, ScanSystem.call]
  by_cases hrunning : s.scanner.running = true
  · rw [if_neg (by simp [hrunning])]
    exact Or.inl ⟨env, rfl⟩
  · rw [if_pos (by simp [hrunning])]
    exact Or.inr (Quiet.finish (Bool.eq_false_iff.mpr hrunning) _)

theorem Stopping.step {s : ScanSystem} (h : Stopping s) {move : ScanMove}
    (hmove : move.startsScan = false) : Stopping (s.step move).val := by
  rcases h with ⟨env, hcaller⟩ | hquiet
  · cases move with
    | call api env' =>
      simp only [ScanSystem.step, hcaller]
      exact Or.inl ⟨env, hcaller⟩
    | caller =>
      simp only [ScanSystem.step, hcaller]
      exact Or.inr (Quiet.enter (s := s.setRunning false) rfl env id)
    | join err =>
      simp only [ScanSystem.step, hcaller]
      exact Or.inl ⟨env, hcaller⟩
    | thread i bytes =>
      left
      show ∃ env, (s.advance i bytes).val.caller = .inside .stopLower env
      unfold ScanSystem.advance
      split <;> exact ⟨env, hcaller⟩
  · exact Or.inr (hquiet.step hmove)

/-- **`stop_scan` quiets.** In every interleaving, once a call of `stop_scan` has returned and as
long as `start_scan` is not called again, at most one more event is read, and the callback is
called at most fifteen more times. -/
theorem stop_scan_quiets (callback : Bool) (env env' : Env BleCall)
    (before during after : List ScanMove)
    (hidle : (run ScanSystem.step (ScanSystem.opened callback env) before).val.caller = .idle)
    (hreturned : (run ScanSystem.step (ScanSystem.opened callback env)
      (before ++ .call .stopScan env' :: during)).val.caller = .idle)
    (hstarts : ∀ m ∈ during ++ after, m.startsScan = false) :
    let stopped := (run ScanSystem.step (ScanSystem.opened callback env)
      (before ++ .call .stopScan env' :: during)).val
    (scans (run ScanSystem.step stopped after).log).countP ScanEvent.isRead ≤ 1 ∧
      (scans (run ScanSystem.step stopped after).log).countP ScanEvent.isReport ≤ 15 := by
  intro stopped
  have hsplit : stopped = (run ScanSystem.step ((run ScanSystem.step
      (ScanSystem.opened callback env) before).val.step (.call .stopScan env')).val during).val := by
    show (run ScanSystem.step _ _).val = _
    rw [run_append]
    rfl
  have hstopping : Stopping stopped := by
    rw [hsplit]
    exact run_invariant_on (fun s m hm hs => hs.step hm) (stopping_call hidle env') during
      fun m hm => hstarts m (List.mem_append_left _ hm)
  have hquiet : Quiet stopped := by
    rcases hstopping with ⟨env'', hcaller⟩ | hquiet
    · rw [show stopped.caller = .idle from hreturned] at hcaller
      cases hcaller
    · exact hquiet
  have hquieted : Quieted stopped := ⟨hquiet, callback, _, _, sound_run callback env _⟩
  have hafter : ∀ m ∈ after, m.startsScan = false := fun m hm =>
    hstarts m (List.mem_append_right _ hm)
  obtain ⟨hreads, hreports⟩ := hquieted.left_le
  constructor
  · exact Nat.le_trans (hquieted.run_cost ScanThread.advance_reads after hafter) hreads
  · exact Nat.le_trans (hquieted.run_cost ScanThread.advance_reports after hafter) hreports

/-- Every call succeeds, and the socket is number 7. -/
def readyEnv : Env BleCall := fun _ c =>
  match c with
  | .hciOpenDev _ => 7
  | _ => 0

/-- The scan is started, and its thread is about to read. -/
def readingMoves : List ScanMove :=
  [.call .startScan readyEnv, .caller, .caller, .caller, .thread 0 []]

/-- An event is read after `stop_scan` has returned. -/
def lateMoves : List ScanMove :=
  let event := (bareEvent 2 (by decide) (by decide)).encode
  [.thread 0 event, .thread 0 [], .thread 0 [], .thread 0 [], .thread 0 []]

theorem stop_scan_quiets_lateMoves :
    let stopped := (run ScanSystem.step (ScanSystem.opened true readyEnv)
      (readingMoves ++ .call .stopScan readyEnv :: [.caller, .caller])).val
    (scans (run ScanSystem.step stopped lateMoves).log).countP ScanEvent.isRead ≤ 1 ∧
      (scans (run ScanSystem.step stopped lateMoves).log).countP ScanEvent.isReport ≤ 15 :=
  stop_scan_quiets true readyEnv readyEnv readingMoves [.caller, .caller] lateMoves rfl rfl
    (by decide)

/-- The callback is really called then, for both reports of the event. -/
example :
    let stopped := (run ScanSystem.step (ScanSystem.opened true readyEnv)
      (readingMoves ++ .call .stopScan readyEnv :: [.caller, .caller])).val
    (scans (run ScanSystem.step stopped lateMoves).log).countP ScanEvent.isReport = 2 := by
  decide +kernel

end EnoceanCore.Ble
