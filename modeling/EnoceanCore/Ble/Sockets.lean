import EnoceanCore.Ble.Scanner
import EnoceanCore.Lib.Handles

/-!
# The HCI socket of the scanner

A scanner from its construction to its destructor, with the sockets that are open
(`Session`). The calls of each operation are answered in any way.

`Owned` is the invariant: the open socket is the one in `hciFd`. Every operation keeps it
but one: an `init` of a scanner that has a socket and finds an adapter overwrites `hciFd`
and leaves the socket open. A scanner owns its socket throughout its life and closes it
exactly once if and only if no such `init` is made (`ownsSocket_iff`).
-/

namespace EnoceanCore.Ble

open Lib

/-! ## The destructor -/

/-- The scan is stopped if it is running. -/
def destroyScan (scanner : Scanner) : Prog BleCall Scanner :=
  if scanner.running then do
    let scanner := { scanner with running := false }
    disableLeScan scanner.hciFd
    return scanner
  else return scanner

/-- `Scanner::~Scanner`. -/
def destroy (scanner : Scanner) : Prog BleCall Scanner := do
  let scanner ← destroyScan scanner
  if scanner.hciFd ≥ 0 then
    let _ ← .perform (.close scanner.hciFd)
    return { scanner with hciFd := -1 }
  return scanner

/-! ## Sessions -/

/-- A socket is opened or closed. A `close` releases its descriptor whatever it answers. -/
def socketEvent : BleCall × Int → Option (HandleEvent Int)
  | (.hciOpenDev _, r) => if 0 ≤ r then some (.acquire r) else none
  | (.close fd, _) => some (.release fd)
  | _ => none

/-- A scanner with the sockets that are open. -/
structure Session where
  scanner : Scanner := {}
  sockets : Ledger Int := {}
  deriving DecidableEq, Repr

namespace Session

/-- A use of the scanner. The environment answers its calls. -/
inductive Op where
  | init (cb : Bool) (env : Env BleCall)
  | startScan (env : Env BleCall)
  | stopScan (env : Env BleCall)

/-- Run an operation of the scanner in an environment, recording its calls. -/
def perform (session : Session) (env : Env BleCall) (operation : Prog BleCall Scanner) :
    Traced (BleCall × Int) Session :=
  let r := operation.exec env
  ⟨{ scanner := r.val, sockets := session.sockets.after (r.log.filterMap socketEvent) }, r.log⟩

/-- The scanner an operation leaves. -/
def scannerOf (operation : ScannerM) : Prog BleCall Scanner := do
  let r ← operation
  return r.2

def step (session : Session) : Op → Traced (BleCall × Int) Session
  | .init cb env => session.perform env (scannerOf (init session.scanner cb))
  | .startScan env => session.perform env (scannerOf (startScanImpl session.scanner))
  | .stopScan env => session.perform env (scannerOf (stopScanImpl session.scanner))

/-- A scanner that is constructed, used and destroyed. -/
def life (ops : List Op) (env : Env BleCall) : Traced (BleCall × Int) Session := do
  let session ← run step {} ops
  session.perform env (destroy session.scanner)

/-! ## What is expected -/

/-- The sockets a scanner knows of. -/
def socketsOf (scanner : Scanner) : List Int :=
  if 0 ≤ scanner.hciFd then [scanner.hciFd] else []

/-- The open socket is the one in `hciFd`, there was never another one beside it, and only
open sockets were closed. -/
structure Owned (session : Session) : Prop where
  held : session.sockets.held = socketsOf session.scanner
  peak : session.sockets.peak ≤ 1
  strays : session.sockets.strays = []

/-- The scanner owns its socket after the step, and an `init` keeps the socket there is. -/
structure OwnsSocket (t : Transition Session Op (BleCall × Int)) : Prop where
  owned : t.outcome.val.Owned
  kept : ∀ cb env, t.input = .init cb env → 0 ≤ t.before.scanner.hciFd →
    t.outcome.val.scanner.hciFd = t.before.scanner.hciFd

/-- Every socket that was opened is closed, and was closed exactly once. -/
structure ClosedOnce (x : Traced (BleCall × Int) Session) : Prop where
  peak : x.val.sockets.peak ≤ 1
  held : x.val.sockets.held = []
  strays : x.val.sockets.strays = []
  once : ∀ fd, (x.log.filterMap socketEvent).count (.acquire fd) =
    (x.log.filterMap socketEvent).count (.release fd)

/-- An `init` with a callback, of a scanner that has a socket, finds an adapter. -/
def Reopens (t : Transition Session Op (BleCall × Int)) : Prop :=
  match t.input with
  | .init cb env => cb = true ∧ 0 ≤ t.before.scanner.hciFd ∧ 0 ≤ env [] .hciGetRoute
  | _ => False

/-! ## What the calls do to the sockets -/

/-- The sockets after an answered call. -/
def socketsAfter (sockets : Ledger Int) (c : BleCall) (r : Int) : Ledger Int :=
  sockets.after (socketEvent (c, r)).toList

theorem foldl_socketsAfter (sockets : Ledger Int) (log : List (BleCall × Int)) :
    log.foldl (fun l e => socketsAfter l e.1 e.2) sockets =
      sockets.after (log.filterMap socketEvent) := by
  induction log generalizing sockets with
  | nil => rfl
  | cons e log ih =>
    rw [List.foldl_cons, ih, socketsAfter, ← Ledger.after_append]
    cases h : socketEvent e <;> simp [h]

/-- The call neither opens nor closes a socket. -/
def Silent (c : BleCall) : Prop := ∀ r, socketEvent (c, r) = none

theorem socketsAfter_of_silent (sockets : Ledger Int) (c : BleCall) (r : Int) (h : Silent c) :
    socketsAfter sockets c r = sockets := by
  rw [socketsAfter, h r]
  rfl

/-- All answers are possible. -/
abbrev AnyAnswer : BleCall → Int → Prop := fun _ _ => True

theorem perform_of_wp {session : Session} {env : Env BleCall} {operation : Prog BleCall Scanner}
    {Q : Scanner → Ledger Int → Prop}
    (h : Prog.wp AnyAnswer socketsAfter operation Q session.sockets) :
    Q (session.perform env operation).val.scanner (session.perform env operation).val.sockets := by
  have henv : ∀ made c, AnyAnswer c (env made c) := fun _ _ => trivial
  have hexec := Prog.wp_exec henv h
  rwa [foldl_socketsAfter] at hexec

/-- The same for what follows a first call, which the environment has answered. -/
theorem perform_of_wp_call {session : Session} {env : Env BleCall} {c : BleCall}
    {next : Int → Prog BleCall Scanner} {Q : Scanner → Ledger Int → Prop} (hc : Silent c)
    (h : Prog.wp AnyAnswer socketsAfter (next (env [] c)) Q session.sockets) :
    Q (session.perform env (.perform c >>= next)).val.scanner
      (session.perform env (.perform c >>= next)).val.sockets := by
  rw [← socketsAfter_of_silent session.sockets c (env [] c) hc] at h
  have henv : ∀ made c, AnyAnswer c (env made c) := fun _ _ => trivial
  have hexec := Prog.wp_exec_perform_bind henv h
  rwa [foldl_socketsAfter] at hexec

/-! ## The operations -/

section Operations

variable {scanner : Scanner} {sockets : Ledger Int}

/-- A program whose calls are all silent leaves the sockets alone. -/
theorem wp_of_silent {α : Type} {p : Prog BleCall α} (hp : p.Calls Silent)
    {Q : α → Ledger Int → Prop} (hQ : ∀ a, Q a sockets) :
    Prog.wp AnyAnswer socketsAfter p Q sockets :=
  Prog.wp_of_calls hp (fun c r hc => socketsAfter_of_silent sockets c r hc) hQ

theorem enableLeScan_silent (hciFd : Int) : (enableLeScan hciFd).Calls Silent := by
  unfold enableLeScan
  refine (Prog.calls_perform fun _ => rfl).bind fun _ => ?_
  refine (Prog.calls_perform fun _ => rfl).bind fun param => ?_
  apply Prog.calls_ite (Prog.calls_pure _)
  refine (Prog.calls_perform fun _ => rfl).bind fun on => ?_
  exact Prog.calls_ite (Prog.calls_pure _) (Prog.calls_pure _)

theorem disableLeScan_silent (hciFd : Int) : (disableLeScan hciFd).Calls Silent := by
  unfold disableLeScan
  refine Prog.calls_ite ?_ (Prog.calls_pure _)
  exact (Prog.calls_perform fun _ => rfl).bind fun _ => Prog.calls_pure _

/-- Starting a scan leaves the socket and its descriptor alone. -/
theorem wp_startScanImpl_socket :
    Prog.wp AnyAnswer socketsAfter (scannerOf (startScanImpl scanner))
      (fun s l => s.hciFd = scanner.hciFd ∧ l = sockets) sockets := by
  rw [scannerOf, Prog.wp_bind, startScanImpl]
  refine Prog.wp_ite (fun _ => ⟨rfl, rfl⟩) fun _ => ?_
  refine Prog.wp_ite (fun _ => ⟨rfl, rfl⟩) fun _ => ?_
  rw [Prog.wp_bind]
  apply wp_of_silent (enableLeScan_silent _)
  intro enabled
  refine Prog.wp_ite (fun _ => ⟨rfl, rfl⟩) fun _ => ?_
  dsimp only
  rw [Prog.wp_bind]
  apply wp_of_silent (Prog.calls_lift _ (fun _ _ => rfl) _)
  rintro ⟨result, thread⟩
  cases result with
  | ok _ => exact ⟨rfl, rfl⟩
  | error _ =>
    dsimp only
    rw [Prog.wp_bind]
    apply wp_of_silent (disableLeScan_silent _)
    exact fun _ => ⟨rfl, rfl⟩

/-- Stopping a scan leaves the socket and its descriptor alone. -/
theorem wp_stopScanImpl_socket :
    Prog.wp AnyAnswer socketsAfter (scannerOf (stopScanImpl scanner))
      (fun s l => s.hciFd = scanner.hciFd ∧ l = sockets) sockets := by
  rw [scannerOf, Prog.wp_bind, stopScanImpl]
  refine Prog.wp_ite (fun _ => ⟨rfl, rfl⟩) fun _ => ?_
  dsimp only
  rw [Prog.wp_bind]
  apply wp_of_silent (disableLeScan_silent _)
  exact fun _ => ⟨rfl, rfl⟩

/-- Opening a socket: there is a new one, or all is as before but for the peak. -/
theorem wp_openHciSocket (devId : Int) :
    Prog.wp AnyAnswer socketsAfter (openHciSocket devId)
      (fun fd l => (0 ≤ fd ∧ l = sockets.next (.acquire fd)) ∨
        (fd < 0 ∧ l.held = sockets.held ∧ l.strays = sockets.strays ∧
          l.peak ≤ (sockets.next (.acquire fd)).peak)) sockets := by
  simp only [openHciSocket, Prog.wp_bind, Prog.wp_perform]
  intro fd _
  refine Prog.wp_ite (fun hfd => ?_) fun hfd => ?_
  · have hnone : socketEvent (.hciOpenDev devId, fd) = none := if_neg (Int.not_le.mpr hfd)
    rw [socketsAfter, hnone]
    exact Or.inr ⟨by decide, rfl, rfl, Nat.le_max_left _ _⟩
  have hopen : socketEvent (.hciOpenDev devId, fd) = some (.acquire fd) :=
    if_pos (Int.not_lt.mp hfd)
  have hacquired : socketsAfter sockets (.hciOpenDev devId) fd = sockets.next (.acquire fd) := by
    rw [socketsAfter, hopen]
    rfl
  simp only [Prog.wp_bind, Prog.wp_perform]
  intro r _
  rw [hacquired, socketsAfter_of_silent _ (.setsockopt fd) r fun _ => rfl]
  refine Prog.wp_ite (fun _ => ?_) fun _ => Or.inl ⟨Int.not_lt.mp hfd, rfl⟩
  simp only [Prog.wp_bind, Prog.wp_perform, Prog.wp_pure]
  intro c _
  have hclosed : socketsAfter (sockets.next (.acquire fd)) (.close fd) c =
      { sockets.next (.acquire fd) with held := sockets.held } := by
    show (sockets.next (.acquire fd)).next (.release fd) = _
    exact Ledger.next_release_head rfl
  rw [hclosed]
  exact Or.inr ⟨by decide, rfl, rfl, Nat.le_refl _⟩

end Operations

/-! ## What one step does -/

section Step

variable {session : Session}

/-- A session with the same descriptor and the same sockets. -/
theorem Owned.of_same (h : session.Owned) {session' : Session}
    (hsame : session'.scanner.hciFd = session.scanner.hciFd ∧
      session'.sockets = session.sockets) : session'.Owned := by
  obtain ⟨hfd, hsockets⟩ := hsame
  refine ⟨?_, hsockets ▸ h.peak, hsockets ▸ h.strays⟩
  rw [hsockets, h.held, socketsOf, socketsOf, hfd]

theorem startScan_owns (h : session.Owned) (env : Env BleCall) :
    OwnsSocket ⟨session, .startScan env, step session (.startScan env)⟩ where
  owned := h.of_same (@perform_of_wp session env _ _ wp_startScanImpl_socket)
  kept _ _ heq := by cases heq

theorem stopScan_owns (h : session.Owned) (env : Env BleCall) :
    OwnsSocket ⟨session, .stopScan env, step session (.stopScan env)⟩ where
  owned := h.of_same (@perform_of_wp session env _ _ wp_stopScanImpl_socket)
  kept _ _ heq := by cases heq

/-- An `init` that does not get to opening a socket leaves the descriptor and the sockets. -/
theorem init_same {cb : Bool} {env : Env BleCall} (h : ¬ (cb = true ∧ 0 ≤ env [] .hciGetRoute)) :
    (step session (.init cb env)).val.scanner.hciFd = session.scanner.hciFd ∧
      (step session (.init cb env)).val.sockets = session.sockets := by
  cases cb with
  | false => exact ⟨rfl, rfl⟩
  | true =>
    have hroute : env [] .hciGetRoute < 0 := Int.not_le.mp fun hle => h ⟨rfl, hle⟩
    refine @perform_of_wp_call session env .hciGetRoute _
      (fun s l => s.hciFd = session.scanner.hciFd ∧ l = session.sockets) (fun _ => rfl) ?_
    apply (Prog.wp_bind _ _ _ _).mpr
    exact Prog.wp_ite (fun _ => ⟨rfl, rfl⟩) fun hge => absurd hroute hge

/-- An `init` that finds an adapter: the descriptor is that of a new socket or negative, and
the sockets there were are still open. -/
theorem init_opens {env : Env BleCall} (h : 0 ≤ env [] .hciGetRoute) :
    let after := (step session (.init true env)).val
    (0 ≤ after.scanner.hciFd ∧
      after.sockets = session.sockets.next (.acquire after.scanner.hciFd)) ∨
    (after.scanner.hciFd < 0 ∧ after.sockets.held = session.sockets.held ∧
      after.sockets.strays = session.sockets.strays ∧
      after.sockets.peak ≤ (session.sockets.next (.acquire after.scanner.hciFd)).peak) := by
  refine @perform_of_wp_call session env .hciGetRoute _
    (fun s l => (0 ≤ s.hciFd ∧ l = session.sockets.next (.acquire s.hciFd)) ∨
      (s.hciFd < 0 ∧ l.held = session.sockets.held ∧ l.strays = session.sockets.strays ∧
        l.peak ≤ (session.sockets.next (.acquire s.hciFd)).peak)) (fun _ => rfl) ?_
  apply (Prog.wp_bind _ _ _ _).mpr
  refine Prog.wp_ite (fun hroute => absurd h (Int.not_le.mpr hroute)) fun _ => ?_
  apply (Prog.wp_bind _ _ _ _).mpr
  apply Prog.wp_mono (wp_openHciSocket _)
  intro fd sockets hopen
  exact Prog.wp_ite (fun _ => hopen) fun _ => hopen

/-- A step keeps the socket in order if and only if it is not an `init` that reopens it. -/
theorem ownsSocket_step_iff (h : session.Owned) (op : Op) :
    OwnsSocket ⟨session, op, step session op⟩ ↔ ¬ Reopens ⟨session, op, step session op⟩ := by
  cases op with
  | startScan env => exact iff_of_true (startScan_owns h env) id
  | stopScan env => exact iff_of_true (stopScan_owns h env) id
  | init cb env =>
    by_cases hroute : cb = true ∧ 0 ≤ env [] .hciGetRoute
    · obtain ⟨rfl, hroute⟩ := hroute
      by_cases hfd : 0 ≤ session.scanner.hciFd
      · -- the old socket stays open beside the descriptor of a new one, or of none
        refine iff_of_false (fun howns => ?_) fun hnot => hnot ⟨rfl, hfd, hroute⟩
        have howned := howns.owned.held
        dsimp only at howned
        rcases @init_opens session env hroute with ⟨hnew, hsockets⟩ | ⟨hnew, hheld, -, -⟩
        · rw [hsockets, Ledger.next_acquire, socketsOf, if_pos hnew] at howned
          dsimp only at howned
          rw [h.held, socketsOf, if_pos hfd] at howned
          cases howned
        · rw [hheld, h.held, socketsOf, socketsOf, if_pos hfd,
            if_neg (Int.not_le.mpr hnew)] at howned
          cases howned
      · refine iff_of_true ⟨?_, fun _ _ _ hpos => absurd hpos hfd⟩ fun hre => hfd hre.2.1
        have hnone : session.sockets.held = [] := by rw [h.held, socketsOf, if_neg hfd]
        have hpeak : max session.sockets.peak (session.sockets.held.length + 1) ≤ 1 := by
          rw [hnone]
          exact Nat.max_le.mpr ⟨h.peak, Nat.le_refl _⟩
        rcases @init_opens session env hroute with
          ⟨hnew, hsockets⟩ | ⟨hnew, hheld, hstrays, hle⟩
        · refine ⟨?_, ?_, ?_⟩
          · rw [hsockets, Ledger.next_acquire, socketsOf, if_pos hnew]
            dsimp only
            rw [hnone]
          · rw [hsockets]
            exact hpeak
          · rw [hsockets]
            exact h.strays
        · refine ⟨?_, Nat.le_trans hle hpeak, hstrays.trans h.strays⟩
          rw [hheld, hnone, socketsOf, if_neg (Int.not_le.mpr hnew)]
    · have hsame := @init_same session cb env hroute
      refine iff_of_true ⟨h.of_same hsame, fun _ _ _ _ => hsame.1⟩ fun hre => ?_
      exact hroute ⟨hre.1, hre.2.2⟩

end Step

/-! ## The destructor closes the socket -/

/-- The destructor of a scanner that owns its socket leaves no socket open. -/
theorem wp_destroy {session : Session} (h : session.Owned) :
    Prog.wp AnyAnswer socketsAfter (destroy session.scanner)
      (fun _ l => l = { session.sockets with held := [] }) session.sockets := by
  have hclose : ∀ scanner : Scanner, scanner.hciFd = session.scanner.hciFd →
      Prog.wp AnyAnswer socketsAfter (do
        if scanner.hciFd ≥ 0 then
          let _ ← .perform (.close scanner.hciFd)
          return { scanner with hciFd := -1 }
        return scanner) (fun _ l => l = { session.sockets with held := [] })
        session.sockets := by
    intro scanner hfd
    refine Prog.wp_ite (fun hge => ?_) fun hlt => ?_
    · simp only [Prog.wp_bind, Prog.wp_perform, Prog.wp_pure]
      intro r _
      have hheld : session.sockets.held = [scanner.hciFd] := by
        rw [h.held, socketsOf, ← hfd, if_pos hge]
      exact Ledger.next_release_head hheld
    · have hheld : session.sockets.held = [] := by
        rw [h.held, socketsOf, ← hfd, if_neg hlt]
      show session.sockets = _
      rw [← hheld]
  rw [destroy, Prog.wp_bind, destroyScan]
  refine Prog.wp_ite (fun _ => ?_) fun _ => hclose _ rfl
  dsimp only
  rw [Prog.wp_bind]
  apply wp_of_silent (disableLeScan_silent _)
  exact fun _ => hclose _ rfl

/-! ## Whole lives -/

/-- The sockets of a run are those of its calls. -/
theorem run_sockets (session : Session) (ops : List Op) :
    (run step session ops).val.sockets =
      session.sockets.after ((run step session ops).log.filterMap socketEvent) := by
  induction ops generalizing session with
  | nil => rfl
  | cons op ops ih =>
    have hstep : (step session op).val.sockets =
        session.sockets.after ((step session op).log.filterMap socketEvent) := by
      cases op <;> rfl
    rw [run_cons, Traced.val_bind, ih, hstep, Traced.log_bind, List.filterMap_append,
      Ledger.after_append]

/-- A life whose steps keep the socket in order ends with every socket closed. -/
theorem closedOnce_of_ownsSocket (ops : List Op) (env : Env BleCall)
    (h : ∀ t ∈ history step {} ops, OwnsSocket t) : ClosedOnce (life ops env) := by
  have howned : (run step {} ops).val.Owned :=
    run_invariant_of_good (fun _ _ _ hgood => hgood.owned) ⟨rfl, by decide, rfl⟩ ops h
  have hend : (life ops env).val.sockets = { (run step {} ops).val.sockets with held := [] } :=
    @perform_of_wp (run step {} ops).val env _ _ (wp_destroy howned)
  have hlog : (life ops env).val.sockets =
      Ledger.after {} ((life ops env).log.filterMap socketEvent) := by
    show Ledger.after (run step {} ops).val.sockets _ = _
    rw [run_sockets, ← Ledger.after_append, ← List.filterMap_append]
    rfl
  have hheld : (life ops env).val.sockets.held = [] := by rw [hend]
  have hstrays : (life ops env).val.sockets.strays = [] := by
    rw [hend]
    exact howned.strays
  refine ⟨?_, hheld, hstrays, fun fd => ?_⟩
  · rw [hend]
    exact howned.peak
  · exact Ledger.count_acquire_eq_release (l := {}) rfl rfl (hlog ▸ hheld) (hlog ▸ hstrays) fd

/-- **Ownership.** A scanner keeps its socket in order through its whole life and closes it
exactly once if and only if no `init` with a callback finds an adapter while the scanner has
a socket. -/
theorem ownsSocket_iff (ops : List Op) (env : Env BleCall) :
    ((∀ t ∈ history step {} ops, OwnsSocket t) ∧ ClosedOnce (life ops env)) ↔
      ∀ t ∈ history step {} ops, ¬ Reopens t := by
  have hiff : (∀ t ∈ history step {} ops, OwnsSocket t) ↔
      ∀ t ∈ history step {} ops, ¬ Reopens t :=
    history_forall_iff_of_good (I := Owned) (fun _ op h => ownsSocket_step_iff h op)
      (fun _ _ _ hgood => hgood.owned) ⟨rfl, by decide, rfl⟩ ops
  rw [← hiff]
  exact ⟨And.left, fun h => ⟨h, closedOnce_of_ownsSocket ops env h⟩⟩

/-- A host that opens its sockets at a descriptor. -/
def hostAt (fd : Int) : Env BleCall := fun _ c =>
  match c with
  | .hciOpenDev _ => fd
  | _ => 0

/-- Initialised twice: the first socket stays open and is never closed. -/
theorem not_ownsSocket_of_second_init :
    ¬ ((∀ t ∈ history step {} [.init true (hostAt 3), .init true (hostAt 4)], OwnsSocket t) ∧
      ClosedOnce (life [.init true (hostAt 3), .init true (hostAt 4)] (hostAt 4))) := by
  intro hsession
  rcases hsession with ⟨-, hclosed⟩
  have hheld : (life [.init true (hostAt 3), .init true (hostAt 4)] (hostAt 4)).val.sockets.held =
      [3] := by decide
  rw [hclosed.held] at hheld
  cases hheld

end Session

end EnoceanCore.Ble
