import EnoceanCore.Application.Broadcasts
import EnoceanCore.Ble.ZephyrScanner
import EnoceanCore.Enocean.Echoes

/-!
# From the Bluetooth host to the application on Zephyr

Of several scanners on Zephyr the last one receives every advertisement, as many times as the
Bluetooth host calls callback structures for it. The driver does not take a copy for another
telegram (`receive_again`), so the application is told of every broadcast once, whatever the host
does (`zephyr_broadcasts_reach_application`), and told the same as on POSIX.
-/

namespace EnoceanCore.Application

open Lib Enocean

/-! ## Copies -/

/-- A broadcast that was just heard is not heard again. -/
theorem receive_again (crypto : CryptoBackend) (registry : Registry) (b : Broadcast) :
    receive crypto (receive crypto registry b).val b = pure (receive crypto registry b).val := by
  unfold receive
  cases b.telegram with
  | none => rfl
  | some payload =>
    exact Registry.hear_settled crypto b.rssi (Registry.settledTelegram_hear crypto b.rssi)

theorem run_receive_replicate (crypto : CryptoBackend) (registry : Registry) (b : Broadcast)
    (k : Nat) (rest : List Broadcast) :
    run (receive crypto) registry (List.replicate (k + 1) b ++ rest) =
      run (receive crypto) registry (b :: rest) := by
  induction k with
  | zero => rfl
  | succ k ih =>
    rw [← ih, List.replicate_succ, List.replicate_succ, List.cons_append, List.cons_append,
      run_cons, run_cons]
    apply Traced.bind_congr_val
    rw [run_cons, receive_again, Traced.pure_bind]

/-- Each broadcast `m` times. -/
def copies (m : Nat) (broadcasts : List Broadcast) : List Broadcast :=
  broadcasts.flatMap (List.replicate m)

/-- All copies of the first broadcast are dropped. -/
theorem drop_copies_cons {k n : Nat} (hle : k + 1 ≤ n) (b : Broadcast)
    (broadcasts : List Broadcast) :
    (copies (k + 1) (b :: broadcasts)).drop n =
      (copies (k + 1) broadcasts).drop (n - (k + 1)) := by
  rw [copies, List.flatMap_cons, List.drop_append,
    List.drop_eq_nil_of_le (by rwa [List.length_replicate]), List.nil_append,
    List.length_replicate]
  rfl

/-- Of copies the first one is heard that is not dropped. -/
theorem run_receive_drop_copies (crypto : CryptoBackend) (registry : Registry) (k n : Nat)
    (broadcasts : List Broadcast) :
    run (receive crypto) registry ((copies (k + 1) broadcasts).drop n) =
      run (receive crypto) registry (broadcasts.drop (n / (k + 1))) := by
  induction broadcasts generalizing n registry with
  | nil =>
    rw [copies, List.flatMap_nil, List.drop_nil, List.drop_nil]
  | cons b broadcasts ih =>
    by_cases hn : n < k + 1
    · obtain ⟨j, hj⟩ : ∃ j, k + 1 - n = j + 1 := ⟨k - n, by omega⟩
      rw [copies, List.flatMap_cons,
        List.drop_append_of_le_length (by rw [List.length_replicate]; omega),
        List.drop_replicate, hj, run_receive_replicate, Nat.div_eq_of_lt hn, List.drop_zero,
        run_cons, run_cons]
      apply Traced.bind_congr_val
      have hrest := ih (receive crypto registry b).val 0
      rwa [List.drop_zero, Nat.zero_div, List.drop_zero] at hrest
    · have hle : k + 1 ≤ n := Nat.le_of_not_lt hn
      rw [drop_copies_cons hle, Nat.div_eq_sub_div (Nat.succ_pos k) hle, List.drop_succ_cons]
      exact ih registry (n - (k + 1))

/-- Copies that are not dropped are of broadcasts that are not dropped. -/
theorem mem_of_mem_drop_copies {k n : Nat} {b : Broadcast} {broadcasts : List Broadcast}
    (h : b ∈ (copies (k + 1) broadcasts).drop n) : b ∈ broadcasts.drop (n / (k + 1)) := by
  induction broadcasts generalizing n with
  | nil =>
    rw [copies, List.flatMap_nil, List.drop_nil] at h
    cases h
  | cons c broadcasts ih =>
    by_cases hn : n < k + 1
    · rw [Nat.div_eq_of_lt hn, List.drop_zero]
      obtain ⟨d, hd, hcopy⟩ := List.mem_flatMap.mp (List.mem_of_mem_drop h)
      rw [(List.mem_replicate.mp hcopy).2]
      exact hd
    · have hle : k + 1 ≤ n := Nat.le_of_not_lt hn
      rw [drop_copies_cons hle] at h
      rw [Nat.div_eq_sub_div (Nat.succ_pos k) hle, List.drop_succ_cons]
      exact ih h

/-! ## What happens after the scanner was initialised -/

/-- A broadcast is received, in any buffer, or a scanner is started or stopped. -/
inductive Happening where
  | received (b : Broadcast) (data : Span) (carried : data.bytes = b.data)
  | startScan (i : Nat) (err : Int)
  | stopScan (i : Nat) (err : Int)

namespace Happening

variable {κ χ : Type}

def op : Happening → Ble.Zephyr.Op κ χ
  | received b data _ =>
    .receive (some ⟨some (b.addrType, b.addr), b.advType, b.rssi⟩) (some data)
  | startScan i err => .startScan i err
  | stopScan i err => .stopScan i err

def heard : Happening → List Broadcast
  | received b _ _ => [b]
  | _ => []

end Happening

theorem carries_replicate {args : Ble.CallbackArgs} {b : Broadcast} (h : Carries args b) (m : Nat) :
    List.Forall₂ Carries (List.replicate m args) (List.replicate m b) := by
  induction m with
  | zero => exact List.Forall₂.nil
  | succ m ih => exact List.Forall₂.cons h ih

section Session

open Ble.Zephyr (BtHost Host)

variable {σ κ χ : Type} {bt : BtHost σ} {host : Host σ κ χ} {done : List (Nat × κ × Option χ)}
  {i : Nat} {cb : κ} {ctx : Option χ}

/-- Nothing that happens then changes the host. -/
theorem step_happening (bt : BtHost σ) (host : Host σ κ χ) (happening : Happening) :
    (Ble.Zephyr.step bt host happening.op).val = host := by
  cases happening with
  | received b data carried => rfl
  | startScan j err => rfl
  | stopScan j err => rfl

/-- The calls for one happening. -/
theorem carries_step (h : Ble.Zephyr.Holds bt host (done ++ [(i, cb, ctx)]))
    (happening : Happening) :
    let calls := Ble.Zephyr.callsOf (Ble.Zephyr.step bt host happening.op)
    (∀ call ∈ calls, call.1 = cb ∧ call.2.1 = ctx) ∧
      List.Forall₂ Carries (calls.map fun call => call.2.2)
        (copies (bt.called host.bluetooth).length happening.heard) := by
  intro calls
  cases happening with
  | startScan j err => exact ⟨fun call hcall => (List.not_mem_nil hcall).elim, List.Forall₂.nil⟩
  | stopScan j err => exact ⟨fun call hcall => (List.not_mem_nil hcall).elim, List.Forall₂.nil⟩
  | received b data carried =>
    have hcalls := h.callsOf_receive b.addrType b.addr b.advType b.rssi data
    rw [List.getLast?_concat] at hcalls
    have hcalls : calls = List.replicate _ (cb, ctx, _) := hcalls
    rw [hcalls]
    constructor
    · intro call hcall
      rw [(List.mem_replicate.mp hcall).2]
      exact ⟨rfl, rfl⟩
    · rw [List.map_replicate, copies, Happening.heard, List.flatMap_singleton]
      exact carries_replicate ⟨rfl, rfl, rfl, rfl, carried⟩ _

theorem carries_run (h : Ble.Zephyr.Holds bt host (done ++ [(i, cb, ctx)]))
    (happenings : List Happening) :
    let calls := Ble.Zephyr.callsOf (run (Ble.Zephyr.step bt) host (happenings.map Happening.op))
    (∀ call ∈ calls, call.1 = cb ∧ call.2.1 = ctx) ∧
      List.Forall₂ Carries (calls.map fun call => call.2.2)
        (copies (bt.called host.bluetooth).length (happenings.flatMap Happening.heard)) := by
  intro calls
  induction happenings with
  | nil => exact ⟨fun call hcall => (List.not_mem_nil hcall).elim, List.Forall₂.nil⟩
  | cons happening happenings ih =>
    have hcalls : calls = Ble.Zephyr.callsOf (Ble.Zephyr.step bt host happening.op) ++
        Ble.Zephyr.callsOf (run (Ble.Zephyr.step bt) host (happenings.map Happening.op)) := by
      have hbind := Traced.proj_bind Ble.Zephyr.Action.call?
        (Ble.Zephyr.step bt host happening.op)
        fun host => run (Ble.Zephyr.step bt) host (happenings.map Happening.op)
      rw [step_happening] at hbind
      exact hbind
    obtain ⟨hfirst, hfirstCarries⟩ := carries_step h happening
    obtain ⟨hrest, hrestCarries⟩ := ih
    rw [hcalls]
    constructor
    · intro call hcall
      exact (List.mem_append.mp hcall).elim (hfirst call) (hrest call)
    · rw [List.map_append, List.flatMap_cons, copies, List.flatMap_append]
      exact List.rel_append hfirstCarries hrestCarries

/-- **From the Bluetooth host to the application.** Whatever other scanners were used before, let
a scanner be initialised, let broadcasts be received then, and scanners be started and stopped,
and let commissioning be enabled behind the first `n` calls. All calls go to the callback of that
scanner. If the broadcasts are readable, from the first whose calls did not all come before
commissioning was enabled, the application is told what an empty registry makes of these, each of
them once, however many structures the host calls. -/
theorem zephyr_broadcasts_reach_application (bt : BtHost σ) (hserves : bt.Serves)
    (crypto : CryptoBackend) (before : List (Ble.Zephyr.Op κ χ)) (i : Nat) (cb : κ)
    (ctx : Option χ) (n : Nat) (happenings : List Happening) :
    let host := (run (Ble.Zephyr.step bt) (Ble.Zephyr.start bt)
      (before ++ [.init i (some cb) ctx])).val
    let calls := Ble.Zephyr.callsOf (run (Ble.Zephyr.step bt) host (happenings.map Happening.op))
    let broadcasts := (happenings.flatMap Happening.heard).drop
      (n / (bt.called host.bluetooth).length)
    (∀ call ∈ calls, call.1 = cb ∧ call.2.1 = ctx) ∧
      ((∀ b ∈ broadcasts, b.Readable) →
        Tells (application crypto n (calls.map fun call => call.2.2))
          (run (receive crypto) listening broadcasts)) := by
  intro host calls broadcasts
  have hholds := Ble.Zephyr.holds_run bt (before ++ [.init i (some cb) ctx])
  have hinits : Ble.Zephyr.inits (before ++ [.init i (some cb) ctx]) =
      Ble.Zephyr.inits before ++ [(i, cb, ctx)] := List.filterMap_append
  rw [hinits] at hholds
  obtain ⟨htarget, hcarries⟩ := carries_run hholds happenings
  refine ⟨htarget, fun hreadable => ?_⟩
  have hcalled : bt.called host.bluetooth ≠ [] := by
    have hregistered := hholds.registered
    rw [List.map_append, List.map_singleton, BtHost.registerAll_concat] at hregistered
    exact hregistered ▸ hserves _ i
  obtain ⟨k, hk⟩ : ∃ k, (bt.called host.bluetooth).length = k + 1 :=
    Nat.exists_eq_succ_of_ne_zero fun hzero => hcalled (List.length_eq_zero_iff.mp hzero)
  have htells := application_tells crypto n hcarries
  rw [hk, run_receive_drop_copies, ← hk] at htells
  apply htells
  intro b hb
  rw [hk] at hb
  apply hreadable b
  show b ∈ (happenings.flatMap Happening.heard).drop (n / (bt.called host.bluetooth).length)
  rw [hk]
  exact mem_of_mem_drop_copies hb

end Session

/-- Two scanners are registered, so a broadcast is handed over twice, and commissioning is enabled
in between. -/
theorem zephyr_broadcasts_reach_application_listHost :
    let bt := Ble.Zephyr.listHost
    let host := (run (Ble.Zephyr.step bt) (Ble.Zephyr.start bt)
      ([.init 0 (some 'a') none] ++ [.init 1 (some 'b') (some 7)])).val
    let calls := Ble.Zephyr.callsOf (run (Ble.Zephyr.step bt) host
      ([.received sampleBroadcast (Span.ofList sampleBroadcast.data) (Span.bytes_ofList _),
        .stopScan 1 0].map Happening.op))
    calls.length = 2 ∧ (∀ call ∈ calls, call.1 = 'b' ∧ call.2.1 = some 7) ∧
      Tells (application (fun _ => true) 1 (calls.map fun call => call.2.2))
        (run (receive fun _ => true) listening [sampleBroadcast]) := by
  intro bt host calls
  obtain ⟨htarget, htells⟩ := zephyr_broadcasts_reach_application bt
    Ble.Zephyr.keepsList_listHost.serves (fun _ => true) [.init 0 (some 'a') (none : Option Nat)] 1
    'b' (some 7) 1
    [.received sampleBroadcast (Span.ofList sampleBroadcast.data) (Span.bytes_ofList _),
      .stopScan 1 0]
  have hlen : (bt.called host.bluetooth).length = 2 := rfl
  rw [hlen] at htells
  refine ⟨rfl, htarget, htells fun b hb => ?_⟩
  obtain rfl : b = sampleBroadcast := List.mem_singleton.mp hb
  exact readable_sampleBroadcast

end EnoceanCore.Application
