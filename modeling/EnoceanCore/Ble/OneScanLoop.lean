import EnoceanCore.Ble.ScanThread

/-!
# Every interleaving is one scan loop

However the scan threads and the application are interleaved, there is never a second scan
thread, and all that is seen of it is one run of `scan_loop` on the bytes it has read
(`one_scan_loop`), so what is known of runs of the loop holds beside the application too. When the
destructor has returned, and its join has not failed, nothing calls the callback any more.

The invariant is `Sound`: a thread is only created while there is none, since the thread object
stays active until the destructor joins it.
-/

namespace EnoceanCore.Ble

open Lib PlatformCore

/-! ## The reports of one event -/

/-- The callback is called at most fifteen times. -/
def Few (x : Traced Action Unit) : Prop := (reportsOf x).length ≤ 15

theorem few_pure : Few (pure ()) := Nat.zero_le 15

theorem few_ite {c : Prop} [Decidable c] {x y : Traced Action Unit} (hx : Few x)
    (hy : ¬ c → Few y) : Few (if c then x else y) := by
  split
  · exact hx
  · exact hy ‹_›

theorem few_get {buf : Span} {i : Nat} {f : UInt8 → Traced Action Unit}
    (h : ∀ b, Few (f b)) : Few (buf.get i >>= f) := by
  unfold Few reportsOf
  rw [Traced.proj_bind, Span.proj_get]
  exact h _

theorem length_reportLoop_le (buf : Span) (ptr n : Nat) :
    (reportsOf (reportLoop buf ptr n)).length ≤ n := by
  induction n generalizing ptr with
  | zero => exact Nat.le_refl 0
  | succ n ih =>
    rw [reportsOf_reportLoop_succ]
    split
    · exact Nat.zero_le _
    · exact Nat.succ_le_succ (ih _)

theorem few_dispatchAdvReport (callback : Bool) (report : Option Span) (numReports : UInt8) :
    Few (dispatchAdvReport callback report numReports) := by
  cases report with
  | none => exact few_pure
  | some buf =>
    refine few_ite few_pure fun _ => few_ite few_pure fun hfew => ?_
    have hle : numReports.toNat ≤ 15 := UInt8.le_iff_toNat_le.mp (UInt8.not_lt.mp hfew)
    exact Nat.le_trans (length_reportLoop_le buf 0 _) hle

theorem few_scanEvent (callback : Bool) (buf : Buffer kHciBufSize) (total : Nat) :
    Few (scanEvent callback buf total) := by
  unfold scanEvent
  refine few_ite few_pure fun _ => few_get fun packet => few_ite few_pure fun _ => ?_
  refine few_get fun code => few_ite few_pure fun _ => ?_
  refine few_get fun subevent => few_ite few_pure fun _ => ?_
  refine few_get fun numReports => few_ite few_pure fun _ => ?_
  exact few_dispatchAdvReport callback _ numReports

/-! ## A thread in every interleaving -/

/-- The rounds of `scan_loop` with these reads. -/
def roundsOf (reads : List (List UInt8)) : List Round := reads.map fun bytes => .read bytes true

theorem continues_roundsOf (reads : List (List UInt8)) : ∀ r ∈ roundsOf reads, r.Continues := by
  intro r hr
  obtain ⟨bytes, -, rfl⟩ := List.mem_map.mp hr
  exact Or.inr rfl

/-- The bytes a thread reads in its next step, if it reads. -/
def ScanThread.readsNext (t : ScanThread) (bytes : List UInt8) : List (List UInt8) :=
  match t.place with
  | .reading => [bytes]
  | _ => []

/-- What a thread has seen and done, with what it still does with its last event, is the run of
`scan_loop` on the bytes it has read. -/
structure Follows (callback : Bool) (reads : List (List UInt8)) (events : List ScanEvent)
    (t : ScanThread) : Prop where
  buf : t.buf = (roundsOf reads).foldl Round.store emptyBuffer
  events : events ++ t.pending.map .report =
    eventsOf (scanLoop callback emptyBuffer (roundsOf reads))

namespace Follows

variable {callback : Bool} {reads : List (List UInt8)} {events : List ScanEvent} {t : ScanThread}

/-- Another read, with all that comes of it. -/
theorem receive (h : Follows callback reads events t) (hpending : t.pending = [])
    (bytes : List UInt8) :
    Follows callback (reads ++ [bytes]) (events ++ [.read]) (t.receive callback bytes) := by
  obtain ⟨hbuf, hevents⟩ := h
  rw [hpending, List.map_nil, List.append_nil] at hevents
  have hrounds : roundsOf (reads ++ [bytes]) = roundsOf reads ++ [.read bytes true] :=
    List.map_append
  constructor
  · rw [hrounds, List.foldl_append, ← hbuf]
    rfl
  · rw [hrounds, eventsOf_scanLoop_append callback emptyBuffer (continues_roundsOf reads), ← hbuf,
      ← hevents, List.append_assoc]
    by_cases hnone : bytes = []
    · subst hnone
      rfl
    · have hlength : ¬ (bytes.take kHciBufSize).length = 0 := by
        have hpos := List.length_pos_iff.mpr hnone
        rw [List.length_take]
        simp only [kHciBufSize]
        omega
      have hend :
          eventsOf (scanLoop callback (t.buf.overwrite 0 (bytes.take kHciBufSize)) []) = [] :=
        rfl
      have hplace : (t.receive callback bytes).place = .dispatching (reportsOf
          (scanEvent callback (t.buf.overwrite 0 (bytes.take kHciBufSize))
            (bytes.take kHciBufSize).length)) := if_neg hlength
      rw [eventsOf_scanLoop_read callback t.buf true [] hnone, hend, List.append_nil,
        ScanThread.pending, hplace]
      rfl

theorem advance (h : Follows callback reads events t) (running : Bool) (bytes : List UInt8) :
    Follows callback (reads ++ t.readsNext bytes)
      (events ++ (t.advance callback running bytes).log)
      (t.advance callback running bytes).val := by
  obtain ⟨place, buf⟩ := t
  -- A step within a round only moves what is still to be done to what is done.
  have hmoves : ∀ (before after : Place) (log : List ScanEvent),
      log ++ (ScanThread.mk after buf).pending.map .report =
        (ScanThread.mk before buf).pending.map .report →
      Follows callback reads events ⟨before, buf⟩ →
      Follows callback (reads ++ []) (events ++ log) ⟨after, buf⟩ := by
    rintro before after log hsame ⟨hbuf, hevents⟩
    rw [List.append_nil]
    refine ⟨hbuf, ?_⟩
    rw [List.append_assoc, hsame, hevents]
  cases place with
  | head =>
    cases running with
    | false => exact hmoves .head .returned [] rfl h
    | true => exact hmoves .head .reading [] rfl h
  | reading => exact h.receive rfl bytes
  | failed =>
    cases running with
    | false => exact hmoves .failed .returned [] rfl h
    | true => exact hmoves .failed .head [] rfl h
  | dispatching left =>
    cases left with
    | nil => exact hmoves (.dispatching []) .head [] rfl h
    | cons args left =>
      exact hmoves (.dispatching (args :: left)) (.dispatching left) [.report args] rfl h
  | returned => exact hmoves .returned .returned [] rfl h

end Follows

theorem length_pending_advance_le (callback running : Bool) (bytes : List UInt8) {t : ScanThread}
    (h : t.pending.length ≤ 15) : (t.advance callback running bytes).val.pending.length ≤ 15 := by
  obtain ⟨place, buf⟩ := t
  cases place with
  | head => cases running <;> exact Nat.zero_le 15
  | reading =>
    show (ScanThread.receive callback bytes ⟨.reading, buf⟩).pending.length ≤ 15
    by_cases hnone : (bytes.take kHciBufSize).length = 0
    · have hplace : (ScanThread.receive callback bytes ⟨.reading, buf⟩).place = .failed :=
        if_pos hnone
      rw [ScanThread.pending, hplace]
      exact Nat.zero_le 15
    · have hplace : (ScanThread.receive callback bytes ⟨.reading, buf⟩).place = .dispatching _ :=
        if_neg hnone
      rw [ScanThread.pending, hplace]
      exact few_scanEvent _ _ _
  | failed => cases running <;> exact Nat.zero_le 15
  | dispatching left =>
    cases left with
    | nil => exact h
    | cons args left => exact Nat.le_of_succ_le h
  | returned => exact h

/-- The scan threads there are: none yet, or one, which has made these reads and these events. -/
inductive Scanned (callback : Bool) :
    List (List UInt8) → List ScanEvent → List ScanThread → Prop where
  | none : Scanned callback [] [] []
  | one {reads : List (List UInt8)} {events : List ScanEvent} {t : ScanThread}
      (follows : Follows callback reads events t) (few : t.pending.length ≤ 15) :
      Scanned callback reads events [t]

/-- The bytes a move reads. -/
def ScanSystem.readsNext (s : ScanSystem) : ScanMove → List (List UInt8)
  | .thread i bytes => (s.threads[i]?.map fun t => t.readsNext bytes).getD []
  | _ => []

/-- The bytes that these moves read. -/
def ScanSystem.reads (s : ScanSystem) : List ScanMove → List (List UInt8)
  | [] => []
  | move :: moves => s.readsNext move ++ (s.step move).val.reads moves

/-- The scan events of a log. -/
def scans (log : List Seen) : List ScanEvent := log.filterMap Seen.scan?

theorem scans_append (log later : List Seen) : scans (log ++ later) = scans log ++ scans later :=
  List.filterMap_append

theorem scans_map_scan (events : List ScanEvent) : scans (events.map .scan) = events := by
  rw [scans, List.filterMap_map]
  exact List.filterMap_some

/-- The invariant of every interleaving. -/
structure Sound (callback : Bool) (reads : List (List UInt8)) (events : List ScanEvent)
    (s : ScanSystem) : Prop where
  registered : s.scanner.callback = callback
  threads : Scanned callback reads events s.threads
  inactive : s.scanner.scanThread.active = false → s.caller.isGone = false → s.threads = []
  gone : s.caller = .gone (.ok ()) → ∀ t ∈ s.threads, t.place = .returned
  lost : ∀ e, s.caller = .gone (.error e) → s.scanner.scanThread.active = true

/-- A step of the application that neither creates nor joins a thread. -/
structure Keeps (s : ScanSystem) (x : Traced Seen ScanSystem) : Prop where
  callback : x.val.scanner.callback = s.scanner.callback
  scanThread : x.val.scanner.scanThread = s.scanner.scanThread
  threads : x.val.threads = s.threads
  caller : x.val.caller.isGone = false
  quiet : scans x.log = []

namespace Keeps

variable {s : ScanSystem}

theorem enter (stage : Stage) (env : Env BleCall) : Keeps s (s.enter stage env) :=
  ⟨rfl, rfl, rfl, rfl, rfl⟩

theorem finish (result : Except BleError Unit) : Keeps s (s.finish result) :=
  ⟨rfl, rfl, rfl, rfl, rfl⟩

theorem ite {c : Prop} [Decidable c] {x y : Traced Seen ScanSystem} (hx : Keeps s x)
    (hy : Keeps s y) : Keeps s (if c then x else y) := by
  split
  · exact hx
  · exact hy

theorem call (env : Env BleCall) (api : Api) : Keeps s (s.call env api) := by
  cases api with
  | startScan => exact ite (finish _) (ite (finish _) (enter _ _))
  | stopScan => exact ite (finish _) (enter _ _)
  | destroy => exact ite (enter _ _) (enter _ _)

theorem destroyClose (env : Env BleCall) : Keeps s (s.destroyClose env) := by
  have hsame : (Prog.exec env (closeSocket s.scanner)).val.callback = s.scanner.callback ∧
      (Prog.exec env (closeSocket s.scanner)).val.scanThread = s.scanner.scanThread := by
    unfold closeSocket
    split <;> exact ⟨rfl, rfl⟩
  exact ⟨hsame.1, hsame.2, rfl, rfl, rfl⟩

theorem proceed (env : Env BleCall) {stage : Stage} (hcreate : stage ≠ .startCreate)
    (hjoin : stage ≠ .destroyJoin) : Keeps s (s.proceed env stage) := by
  cases stage with
  | startEnable => exact ite (finish _) (enter _ _)
  | startRaise => exact ⟨rfl, rfl, rfl, rfl, rfl⟩
  | startCreate => exact absurd rfl hcreate
  | startLower => exact ⟨rfl, rfl, rfl, rfl, rfl⟩
  | startDisable => exact finish _
  | stopLower => exact ⟨rfl, rfl, rfl, rfl, rfl⟩
  | stopDisable => exact finish _
  | destroyLower => exact ⟨rfl, rfl, rfl, rfl, rfl⟩
  | destroyDisable => exact enter _ _
  | destroyClose => exact destroyClose env
  | destroyJoin => exact absurd rfl hjoin

end Keeps

namespace Sound

variable {callback : Bool} {reads : List (List UInt8)} {events : List ScanEvent} {s : ScanSystem}

theorem of_keeps (h : Sound callback reads events s) (hcaller : s.caller.isGone = false)
    {x : Traced Seen ScanSystem} (hx : Keeps s x) :
    Sound callback reads (events ++ scans x.log) x.val := by
  rw [hx.quiet, List.append_nil]
  have hgone : ∀ r, x.val.caller ≠ .gone r := by
    intro r hr
    have hno := hx.caller
    rw [hr] at hno
    cases hno
  refine ⟨hx.callback.trans h.registered, ?_, fun hinactive _ => ?_, fun hr => ?_, fun e hr => ?_⟩
  · rw [hx.threads]
    exact h.threads
  · rw [hx.threads]
    rw [hx.scanThread] at hinactive
    exact h.inactive hinactive hcaller
  · exact absurd hr (hgone _)
  · exact absurd hr (hgone _)

/-- A thread is created only while there is none. -/
theorem startCreate (h : Sound callback reads events s) (hcaller : s.caller.isGone = false)
    (env : Env BleCall) :
    Sound callback reads (events ++ scans (s.startCreate env).log) (s.startCreate env).val := by
  obtain ⟨hok, herror⟩ := exec_create env s.scanner.scanThread
  unfold ScanSystem.startCreate
  generalize Prog.exec env ((create _ _ _ _ _ _).lift _) = x at hok herror ⊢
  obtain ⟨⟨result, thread⟩, log⟩ := x
  cases result with
  | error e =>
    obtain ⟨hsame, hcount⟩ := herror e rfl
    have hsame : thread = s.scanner.scanThread := hsame
    have hcount : log.countP startsThread = 0 := hcount
    refine h.of_keeps hcaller ⟨rfl, hsame, ?_, rfl, rfl⟩
    show s.threads ++ List.replicate (log.countP startsThread) _ = s.threads
    rw [hcount, List.replicate_zero, List.append_nil]
  | ok _ =>
    obtain ⟨hinactive, hactive, hcount⟩ := hok rfl
    have hcount : log.countP startsThread = 1 := hcount
    have hnone := h.inactive hinactive hcaller
    have hthreads := h.threads
    rw [hnone] at hthreads
    cases hthreads
    have hone : s.threads ++ List.replicate (log.countP startsThread) ({} : ScanThread) = [{}] := by
      rw [hcount, hnone]
      rfl
    refine ⟨h.registered, ?_, fun hnot => ?_, fun hgone => ?_, fun e hgone => ?_⟩
    · show Scanned callback [] ([] ++ [])
        (s.threads ++ List.replicate (log.countP startsThread) _)
      rw [hone]
      exact .one ⟨rfl, rfl⟩ (Nat.zero_le 15)
    · have hnot : thread.active = false := hnot
      rw [show thread.active = true from hactive] at hnot
      cases hnot
    · cases hgone
    · cases hgone

/-- The destructor of a thread object that is not active. -/
theorem destroyThread (h : Sound callback reads events s) (hcaller : s.caller.isGone = false) :
    Sound callback reads events s.destroyThread := by
  unfold ScanSystem.destroyThread
  split
  · exact h
  · rename_i hactive
    have hnone := h.inactive (Bool.eq_false_iff.mpr hactive) hcaller
    refine ⟨h.registered, h.threads, fun _ hgone => ?_, fun _ t ht => ?_, fun e hgone => ?_⟩
    · cases hgone
    · have ht : t ∈ s.threads := ht
      rw [hnone] at ht
      cases ht
    · cases hgone

/-- A join that succeeds leaves no thread that moves. -/
theorem joined (h : Sound callback reads events s) (err : Int) :
    Sound callback reads events (s.joined err) := by
  unfold ScanSystem.joined
  split
  · exact h
  rename_i hactive
  have hactive : s.scanner.scanThread.active = true := by simpa using hactive
  split
  · exact h
  split
  · split
    · rename_i hreturned
      refine ⟨h.registered, h.threads, fun _ hgone => ?_, fun _ t ht => ?_, fun e hgone => ?_⟩
      · cases hgone
      · have hthreads := h.threads
        have ht : t ∈ s.threads := ht
        generalize s.threads = threads at hthreads hreturned ht
        cases hthreads with
        | none => cases ht
        | one follows few =>
          rw [List.mem_singleton.mp ht]
          exact ScanThread.place_of_returned hreturned
      · cases hgone
    · exact h
  · refine ⟨h.registered, h.threads, fun hinactive _ => ?_, fun hgone => ?_, fun _ _ => hactive⟩
    · have hinactive : s.scanner.scanThread.active = false := hinactive
      rw [hactive] at hinactive
      cases hinactive
    · cases hgone

theorem proceed (h : Sound callback reads events s) (hcaller : s.caller.isGone = false)
    (env : Env BleCall) (stage : Stage) :
    Sound callback reads (events ++ scans (s.proceed env stage).log) (s.proceed env stage).val := by
  by_cases hcreate : stage = .startCreate
  · subst hcreate
    exact h.startCreate hcaller env
  by_cases hjoin : stage = .destroyJoin
  · subst hjoin
    show Sound callback reads (events ++ []) s.destroyThread
    rw [List.append_nil]
    exact h.destroyThread hcaller
  exact h.of_keeps hcaller (Keeps.proceed env hcreate hjoin)

/-- A thread that has returned stays where it is. -/
theorem advance_returned (callback running : Bool) (bytes : List UInt8) {t : ScanThread}
    (h : t.place = .returned) : t.advance callback running bytes = pure t := by
  unfold ScanThread.advance
  rw [h]

theorem advance (h : Sound callback reads events s) (i : Nat) (bytes : List UInt8) :
    Sound callback (reads ++ s.readsNext (.thread i bytes))
      (events ++ scans (s.advance i bytes).log) (s.advance i bytes).val := by
  have hthreads := h.threads
  unfold ScanSystem.advance
  cases hat : s.threads[i]? with
  | none =>
    have hnext : s.readsNext (.thread i bytes) = [] := by
      rw [ScanSystem.readsNext, hat]
      rfl
    show Sound callback (reads ++ s.readsNext (.thread i bytes)) (events ++ []) s
    rw [hnext, List.append_nil, List.append_nil]
    exact h
  | some t =>
    have hnext : s.readsNext (.thread i bytes) = t.readsNext bytes := by
      rw [ScanSystem.readsNext, hat]
      rfl
    rw [hnext]
    dsimp only
    generalize hx : t.advance s.scanner.callback s.scanner.running bytes = x
    show Sound callback (reads ++ t.readsNext bytes) (events ++ scans (x.log.map .scan))
      { s with threads := s.threads.set i x.val }
    rw [scans_map_scan]
    cases hlist : s.threads with
    | nil =>
      rw [hlist] at hat
      cases hat
    | cons u rest =>
      rw [hlist] at hthreads hat
      cases hthreads with
      | one follows few =>
        obtain ⟨rfl, rfl⟩ : i = 0 ∧ u = t := by
          cases i with
          | zero => exact ⟨rfl, Option.some_inj.mp hat⟩
          | succ i => cases hat
        have hfollows := follows.advance s.scanner.running bytes
        have hfew := length_pending_advance_le callback s.scanner.running bytes few
        rw [← h.registered, hx] at hfollows hfew
        refine ⟨h.registered, ?_, fun hinactive hcaller => ?_, fun hgone v hv => ?_, h.lost⟩
        · rw [← h.registered]
          exact .one hfollows hfew
        · have hnone := h.inactive hinactive hcaller
          rw [hlist] at hnone
          cases hnone
        · have hreturned := h.gone hgone u (by rw [hlist]; exact List.mem_singleton_self u)
          rw [advance_returned _ _ _ hreturned] at hx
          subst hx
          rw [List.mem_singleton.mp hv]
          exact hreturned

theorem step (h : Sound callback reads events s) (move : ScanMove) :
    Sound callback (reads ++ s.readsNext move) (events ++ scans (s.step move).log)
      (s.step move).val := by
  have hsame : Sound callback (reads ++ []) (events ++ scans (pure s : Traced Seen ScanSystem).log)
      s := by
    rw [Traced.log_pure, List.append_nil]
    exact (List.append_nil events).symm ▸ h
  cases move with
  | call api env =>
    unfold ScanSystem.step
    cases hcaller : s.caller with
    | idle =>
      have hcall := h.of_keeps (by rw [hcaller]; rfl) (Keeps.call env api)
      exact (List.append_nil reads).symm ▸ hcall
    | inside stage env' => exact hsame
    | gone destroyed => exact hsame
  | caller =>
    unfold ScanSystem.step
    cases hcaller : s.caller with
    | idle => exact hsame
    | inside stage env =>
      have hproceed := h.proceed (by rw [hcaller]; rfl) env stage
      exact (List.append_nil reads).symm ▸ hproceed
    | gone destroyed => exact hsame
  | join err =>
    unfold ScanSystem.step
    cases hcaller : s.caller with
    | idle => exact hsame
    | inside stage env =>
      cases stage with
      | destroyJoin =>
        show Sound callback (reads ++ []) (events ++ []) (s.joined err)
        rw [List.append_nil, List.append_nil]
        exact h.joined err
      | _ => exact hsame
    | gone destroyed => exact hsame
  | thread i bytes => exact h.advance i bytes

end Sound

/-! ## Every interleaving -/

/-- After `init` the callback is registered and the thread object is unused. -/
theorem wp_init_unused (callback : Bool) :
    Prog.wp AnyReply (fun (w : Unit) _ _ => w) (init {} callback)
      (fun r _ => r.2.callback = callback ∧ r.2.scanThread.active = false) () := by
  unfold init
  refine Prog.wp_ite (fun hnone => ?_) fun _ => ?_
  · exact ⟨by simpa using hnone, rfl⟩
  simp only [initImpl, Prog.wp_bind, Prog.wp_perform]
  intro devId _
  refine Prog.wp_ite (fun _ => ⟨rfl, rfl⟩) fun _ => ?_
  rw [Prog.wp_bind]
  refine Prog.wp_of_calls (openHciSocket_calls devId) (fun _ _ _ => rfl) fun fd => ?_
  exact Prog.wp_ite (fun _ => ⟨rfl, rfl⟩) fun _ => ⟨rfl, rfl⟩

theorem sound_opened (callback : Bool) (env : Env BleCall) :
    Sound callback [] [] (ScanSystem.opened callback env) := by
  have hany : ∀ made c, AnyReply c (env made c) := fun _ _ => trivial
  obtain ⟨hcallback, -⟩ := Prog.wp_exec hany (wp_init_unused callback)
  exact ⟨hcallback, .none, fun _ _ => rfl, (fun hgone => by cases hgone),
    fun _ hgone => by cases hgone⟩

theorem Sound.run {callback : Bool} {reads : List (List UInt8)} {events : List ScanEvent}
    {s : ScanSystem} (h : Sound callback reads events s) (moves : List ScanMove) :
    Sound callback (reads ++ s.reads moves) (events ++ scans (run ScanSystem.step s moves).log)
      (run ScanSystem.step s moves).val := by
  induction moves generalizing reads events s with
  | nil =>
    show Sound callback (reads ++ []) (events ++ []) s
    rw [List.append_nil, List.append_nil]
    exact h
  | cons move moves ih =>
    have hrest := ih (h.step move)
    rw [List.append_assoc, List.append_assoc, ← scans_append] at hrest
    exact hrest

theorem sound_run (callback : Bool) (env : Env BleCall) (moves : List ScanMove) :
    Sound callback ((ScanSystem.opened callback env).reads moves)
      (scans (run ScanSystem.step (ScanSystem.opened callback env) moves).log)
      (run ScanSystem.step (ScanSystem.opened callback env) moves).val :=
  (sound_opened callback env).run moves

section Gone

variable {callback : Bool} {reads : List (List UInt8)} {events : List ScanEvent} {s : ScanSystem}

/-- After a destructor whose join has not failed nothing moves. -/
theorem Sound.step_gone (h : Sound callback reads events s) (hgone : s.caller = .gone (.ok ()))
    (move : ScanMove) : s.step move = pure s := by
  cases move with
  | call api env => simp only [ScanSystem.step, hgone]
  | caller => simp only [ScanSystem.step, hgone]
  | join err => simp only [ScanSystem.step, hgone]
  | thread i bytes =>
    show s.advance i bytes = pure s
    unfold ScanSystem.advance
    cases hat : s.threads[i]? with
    | none => rfl
    | some t =>
      have hreturned := h.gone hgone t (List.mem_of_getElem? hat)
      obtain ⟨hi, ht⟩ := List.getElem?_eq_some_iff.mp hat
      dsimp only
      rw [Sound.advance_returned _ _ _ hreturned, Traced.val_pure, ← ht, List.set_getElem_self]
      rfl

theorem Sound.run_gone (h : Sound callback reads events s) (hgone : s.caller = .gone (.ok ()))
    (moves : List ScanMove) : Lib.run ScanSystem.step s moves = pure s := by
  induction moves with
  | nil => rfl
  | cons move moves ih => rw [run_cons, h.step_gone hgone move, Traced.pure_bind, ih]

end Gone

/-- What is seen of an interleaving that begins in the state `s`. -/
structure OneLoop (callback : Bool) (s : ScanSystem) (moves : List ScanMove) : Prop where
  alone : (run ScanSystem.step s moves).val.threads.length ≤ 1
  /-- The scan threads have made the steps of the run of `scan_loop` on the bytes that were read,
  whose last event may not be dispatched completely. -/
  loop :
    let x := run ScanSystem.step s moves
    scans x.log ++ (x.val.threads.flatMap ScanThread.pending).map .report =
      eventsOf (scanLoop callback emptyBuffer (roundsOf (s.reads moves)))
  /-- Nothing happens any more after a destructor whose join has not failed. -/
  ended : (run ScanSystem.step s moves).val.caller = .gone (.ok ()) →
    ∀ later, (run ScanSystem.step (run ScanSystem.step s moves).val later).log = []
  /-- A join that has failed has left the thread object active. -/
  lost : ∀ e, (run ScanSystem.step s moves).val.caller = .gone (.error e) →
    (run ScanSystem.step s moves).val.scanner.scanThread.active = true

theorem Sound.oneLoop {callback : Bool} {s : ScanSystem} {moves : List ScanMove}
    (h : Sound callback (s.reads moves) (scans (Lib.run ScanSystem.step s moves).log)
      (Lib.run ScanSystem.step s moves).val) : OneLoop callback s moves := by
  have hthreads := h.threads
  refine ⟨?_, ?_, fun hgone later => ?_, h.lost⟩
  · generalize scans (Lib.run ScanSystem.step s moves).log = events at hthreads
    generalize (Lib.run ScanSystem.step s moves).val.threads = threads at hthreads ⊢
    generalize s.reads moves = reads at hthreads
    cases hthreads with
    | none => exact Nat.zero_le 1
    | one follows few => exact Nat.le_refl 1
  · show scans (Lib.run ScanSystem.step s moves).log ++
      ((Lib.run ScanSystem.step s moves).val.threads.flatMap ScanThread.pending).map .report = _
    generalize scans (Lib.run ScanSystem.step s moves).log = events at hthreads ⊢
    generalize (Lib.run ScanSystem.step s moves).val.threads = threads at hthreads ⊢
    generalize s.reads moves = reads at hthreads ⊢
    cases hthreads with
    | none => rfl
    | @one _ _ t follows few =>
      rw [List.flatMap_singleton]
      exact follows.events
  · rw [h.run_gone hgone later]
    rfl

/-- **One scan loop.** Whatever the operating system answers, and however the calls of `start_scan`,
`stop_scan` and the destructor are interleaved with the steps of the scan threads: there is never
a second scan thread, all reads and calls of the callback are those of the run of `scan_loop` on
the bytes that were read, and when the destructor has returned the callback is never called again,
unless the join of the scan thread has failed in it. -/
theorem one_scan_loop (callback : Bool) (env : Env BleCall) (moves : List ScanMove) :
    OneLoop callback (ScanSystem.opened callback env) moves :=
  (sound_run callback env moves).oneLoop

end EnoceanCore.Ble
