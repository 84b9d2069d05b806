import EnoceanCore.Ble.Reports
import EnoceanCore.Ble.Scanner
import Mathlib.Data.List.Dedup
import Mathlib.Data.List.Induction
import Mathlib.Logic.Function.Basic

/-!
# The Zephyr scanner

`Ble::Scanner` of `zephyr_core`. Each scanner registers the callback structure it contains with
the Bluetooth host. All of these structures hold the same static function `zephyr_scan_cb`, which
passes an advertisement on to the scanner in `s_instance_`.

The host is not part of the program, so what it does with a structure that is registered, and which
structures it calls for an advertisement, is a parameter (`BtHost`). For every host an
advertisement goes to the scanner that was initialised last and to no other, once for each
structure the host calls (`advertisement_reaches_last_scanner`). That is once for each scanner that
was ever initialised if the host keeps a list of structures (`BtHost.KeepsList`), and once if it
keeps one (`BtHost.KeepsOne`).
-/

namespace EnoceanCore.Ble.Zephyr

open Lib

variable {σ κ χ : Type}

/-! ## The Bluetooth host -/

/-- The Bluetooth host, as far as the scanner uses it: which callback structures it has, those of
the scanners with these numbers, is in a state of type `σ`. -/
structure BtHost (σ : Type) where
  initial : σ
  /-- `bt_le_scan_cb_register` of the structure of a scanner. -/
  register : σ → Nat → σ
  /-- The structures whose `recv` is called for an advertisement, one after another. -/
  called : σ → List Nat

/-- A structure is added to a list of structures that are all called; one that is in the list
already is refused. -/
structure BtHost.KeepsList (bt : BtHost σ) : Prop where
  initial : bt.called bt.initial = []
  added : ∀ s i, i ∉ bt.called s → (bt.called (bt.register s i)).Perm (i :: bt.called s)
  refused : ∀ s i, i ∈ bt.called s → bt.called (bt.register s i) = bt.called s

/-- There is a single structure, once one was registered. -/
def BtHost.KeepsOne (bt : BtHost σ) : Prop := ∀ s i, (bt.called (bt.register s i)).length = 1

/-- Once a structure was registered, advertisements are passed on. -/
def BtHost.Serves (bt : BtHost σ) : Prop := ∀ s i, bt.called (bt.register s i) ≠ []

/-- The state of the host after the structures of these scanners were registered. -/
def BtHost.registerAll (bt : BtHost σ) (registered : List Nat) : σ :=
  registered.foldl bt.register bt.initial

section BtHost

variable {bt : BtHost σ}

theorem BtHost.registerAll_concat (registered : List Nat) (i : Nat) :
    bt.registerAll (registered ++ [i]) = bt.register (bt.registerAll registered) i :=
  List.foldl_concat _ _ _ _

theorem BtHost.KeepsOne.serves (h : bt.KeepsOne) : bt.Serves := by
  intro s i hnil
  have hone := h s i
  rw [hnil] at hone
  cases hone

theorem BtHost.KeepsList.serves (h : bt.KeepsList) : bt.Serves := by
  intro s i hnil
  by_cases hi : i ∈ bt.called s
  · rw [h.refused s i hi] at hnil
    rw [hnil] at hi
    cases hi
  · have hperm := h.added s i hi
    rw [hnil] at hperm
    cases hperm.length_eq

/-- Each structure that was registered is in the list once. -/
theorem BtHost.KeepsList.mem_called (h : bt.KeepsList) (registered : List Nat) :
    (bt.called (bt.registerAll registered)).Nodup ∧
      ∀ j, j ∈ bt.called (bt.registerAll registered) ↔ j ∈ registered := by
  induction registered using List.reverseRecOn with
  | nil =>
    rw [BtHost.registerAll, List.foldl_nil, h.initial]
    exact ⟨List.nodup_nil, fun _ => Iff.rfl⟩
  | append_singleton registered i ih =>
    obtain ⟨hnodup, hmem⟩ := ih
    rw [BtHost.registerAll_concat]
    by_cases hi : i ∈ bt.called (bt.registerAll registered)
    · rw [h.refused _ i hi]
      refine ⟨hnodup, fun j => ?_⟩
      rw [hmem, List.mem_append, List.mem_singleton]
      exact ⟨Or.inl, fun hj => hj.elim id fun heq => heq ▸ (hmem i).mp hi⟩
    · have hperm := h.added _ i hi
      refine ⟨hperm.nodup_iff.mpr (List.nodup_cons.mpr ⟨hi, hnodup⟩), fun j => ?_⟩
      rw [hperm.mem_iff, List.mem_cons, hmem, List.mem_append, List.mem_singleton, or_comm]

theorem BtHost.KeepsList.length_called (h : bt.KeepsList) (registered : List Nat) :
    (bt.called (bt.registerAll registered)).length = registered.dedup.length := by
  obtain ⟨hnodup, hmem⟩ := h.mem_called registered
  apply List.Perm.length_eq
  rw [List.perm_ext_iff_of_nodup hnodup (List.nodup_dedup registered)]
  intro j
  rw [hmem, List.mem_dedup]

end BtHost

/-! ## The scanner -/

/-- A scanner object. Callbacks are of type `κ`, contexts of type `χ`; none is a null pointer. -/
structure Scanner (κ χ : Type) where
  callback : Option κ := none
  callbackCtx : Option χ := none

/-- The scanner objects, the static `s_instance_`, and the state of the Bluetooth host. -/
structure Host (σ κ χ : Type) where
  scanners : Nat → Scanner κ χ := fun _ => {}
  sInstance : Option Nat := none
  bluetooth : σ

/-- `bt_le_scan_recv_info`, with the fields that are read. -/
structure RecvInfo where
  addr : Option (UInt8 × Vector UInt8 6)
  advType : UInt8
  rssi : Int8

/-- What can be seen: a call of a callback with its context, or the result of an operation. -/
inductive Action (κ χ : Type) where
  | callback (cb : κ) (ctx : Option χ) (args : CallbackArgs)
  | result (r : Except BleError Unit)

/-- Scanners as constructed, and a host without callback structures. -/
def start (bt : BtHost σ) : Host σ κ χ := { bluetooth := bt.initial }

def initImpl (bt : BtHost σ) (host : Host σ κ χ) (i : Nat) (cb : κ) (ctx : Option χ) :
    Host σ κ χ where
  scanners := Function.update host.scanners i { callback := some cb, callbackCtx := ctx }
  sInstance := some i
  bluetooth := bt.register host.bluetooth i

/-- `IBle::init`; a null callback is refused. -/
def init (bt : BtHost σ) (host : Host σ κ χ) (i : Nat) (cb : Option κ) (ctx : Option χ) :
    Except BleError Unit × Host σ κ χ :=
  match cb with
  | none => (.error .invalidCallback, host)
  | some cb => (.ok (), initImpl bt host i cb ctx)

/-- The result of `start_scan`, if `bt_le_scan_start` returns `err`. -/
def startScanImpl (err : Int) : Except BleError Unit :=
  if err ≠ 0 then .error .scanStartFailed else .ok ()

/-- The result of `stop_scan`, if `bt_le_scan_stop` returns `err`. -/
def stopScanImpl (err : Int) : Except BleError Unit :=
  if err ≠ 0 then .error .scanStopFailed else .ok ()

def zephyrScanCb (host : Host σ κ χ) (info : Option RecvInfo) (buf : Option Span) :
    Traced (Action κ χ) Unit :=
  match host.sInstance with
  | none => pure ()
  | some i =>
    match (host.scanners i).callback, info, buf with
    | some cb, some info, some data =>
      match info.addr with
      | none => pure ()
      | some (addrType, addr) =>
        Traced.emit (.callback cb (host.scanners i).callbackCtx
          ⟨addr.toList, addrType, info.advType, info.rssi, data⟩)
    | _, _, _ => pure ()

/-- The `recv` of these structures is called. -/
def callEach (host : Host σ κ χ) (info : Option RecvInfo) (buf : Option Span) :
    List Nat → Traced (Action κ χ) Unit
  | [] => pure ()
  | _ :: called => do
    zephyrScanCb host info buf
    callEach host info buf called

/-! ## Sessions -/

/-- A use of a scanner, with what the Bluetooth host answers, or an advertisement. -/
inductive Op (κ χ : Type) where
  | init (i : Nat) (cb : Option κ) (ctx : Option χ)
  | startScan (i : Nat) (err : Int)
  | stopScan (i : Nat) (err : Int)
  | receive (info : Option RecvInfo) (buf : Option Span)

def step (bt : BtHost σ) (host : Host σ κ χ) : Op κ χ → Traced (Action κ χ) (Host σ κ χ)
  | .init i cb ctx => do
      let (result, host) := init bt host i cb ctx
      Traced.emit (.result result)
      return host
  | .startScan _ err => do
      Traced.emit (.result (startScanImpl err))
      return host
  | .stopScan _ err => do
      Traced.emit (.result (stopScanImpl err))
      return host
  | .receive info buf => do
      callEach host info buf (bt.called host.bluetooth)
      return host

/-- A call of a callback. -/
def Action.call? : Action κ χ → Option (κ × Option χ × CallbackArgs)
  | .callback cb ctx args => some (cb, ctx, args)
  | .result _ => none

/-- The calls of callbacks. -/
def callsOf {α : Type} (x : Traced (Action κ χ) α) : List (κ × Option χ × CallbackArgs) :=
  x.proj Action.call?

/-! ## What is expected -/

/-- A scanner that is initialised, with its callback and context. -/
def initialises : Op κ χ → Option (Nat × κ × Option χ)
  | .init i (some cb) ctx => some (i, cb, ctx)
  | _ => none

/-- The scanners that these operations initialise, in order. -/
def inits (ops : List (Op κ χ)) : List (Nat × κ × Option χ) := ops.filterMap initialises

/-- How many scanners these operations initialise. -/
def scannerCount (ops : List (Op κ χ)) : Nat := ((inits ops).map Prod.fst).dedup.length

/-- The host after some initialisations: the last of them is in `s_instance_`, and all of them are
registered. -/
structure Holds (bt : BtHost σ) (host : Host σ κ χ) (done : List (Nat × κ × Option χ)) :
    Prop where
  instance_eq : host.sInstance = done.getLast?.map Prod.fst
  last : ∀ init ∈ done.getLast?,
    (host.scanners init.1).callback = some init.2.1 ∧
      (host.scanners init.1).callbackCtx = init.2.2
  registered : host.bluetooth = bt.registerAll (done.map Prod.fst)

theorem holds_start (bt : BtHost σ) : Holds bt (start bt : Host σ κ χ) [] where
  instance_eq := rfl
  last init hinit := by cases hinit
  registered := rfl

section Init

variable {bt : BtHost σ} {host : Host σ κ χ} {done : List (Nat × κ × Option χ)}

/-- A scanner that is initialised is the last one. -/
theorem Holds.initImpl (h : Holds bt host done) (i : Nat) (cb : κ) (ctx : Option χ) :
    Holds bt (initImpl bt host i cb ctx) (done ++ [(i, cb, ctx)]) where
  instance_eq := by
    rw [List.getLast?_concat]
    rfl
  last init hinit := by
    rw [List.getLast?_concat] at hinit
    obtain rfl := Option.mem_some.mp hinit
    simp [Zephyr.initImpl]
  registered := by
    rw [List.map_append, List.map_singleton, BtHost.registerAll_concat, ← h.registered]
    rfl

/-- No other operation changes the host. -/
theorem Holds.step (h : Holds bt host done) (op : Op κ χ) :
    Holds bt (step bt host op).val (done ++ (initialises op).toList) := by
  cases op with
  | init i cb ctx =>
    cases cb with
    | none =>
      show Holds bt host (done ++ [])
      rwa [List.append_nil]
    | some cb => exact h.initImpl i cb ctx
  | startScan i err =>
    show Holds bt host (done ++ [])
    rwa [List.append_nil]
  | stopScan i err =>
    show Holds bt host (done ++ [])
    rwa [List.append_nil]
  | receive info buf =>
    show Holds bt host (done ++ [])
    rwa [List.append_nil]

theorem Holds.run (h : Holds bt host done) (ops : List (Op κ χ)) :
    Holds bt (run (Zephyr.step bt) host ops).val (done ++ inits ops) := by
  induction ops generalizing host done with
  | nil =>
    show Holds bt host (done ++ [])
    rwa [List.append_nil]
  | cons op ops ih =>
    have hrest := ih (h.step op)
    rw [List.append_assoc] at hrest
    have hinits : inits (op :: ops) = (initialises op).toList ++ inits ops := by
      rw [inits, List.filterMap_cons]
      cases initialises op <;> rfl
    rw [hinits]
    exact hrest

theorem holds_run (bt : BtHost σ) (ops : List (Op κ χ)) :
    Holds bt (Lib.run (Zephyr.step bt) (start bt) ops).val (inits ops) :=
  (holds_start bt).run ops

end Init

/-! ## Advertisements -/

theorem callsOf_callEach (host : Host σ κ χ) (info : Option RecvInfo) (buf : Option Span)
    (called : List Nat) :
    callsOf (callEach host info buf called) =
      (List.replicate called.length (callsOf (zephyrScanCb host info buf))).flatten := by
  induction called with
  | nil => rfl
  | cons i called ih =>
    rw [List.length_cons, List.replicate_succ, List.flatten_cons, ← ih]
    exact Traced.proj_bind _ _ _

theorem Holds.callsOf_receive {bt : BtHost σ} {host : Host σ κ χ}
    {done : List (Nat × κ × Option χ)} (h : Holds bt host done) (addrType : UInt8)
    (addr : Vector UInt8 6) (advType : UInt8) (rssi : Int8) (data : Span) :
    callsOf (Zephyr.step bt host
        (.receive (some ⟨some (addrType, addr), advType, rssi⟩) (some data))) =
      match done.getLast? with
      | none => []
      | some (_, cb, ctx) => List.replicate (bt.called host.bluetooth).length
          (cb, ctx, ⟨addr.toList, addrType, advType, rssi, data⟩) := by
  have heach := callsOf_callEach host (some ⟨some (addrType, addr), advType, rssi⟩) (some data)
    (bt.called host.bluetooth)
  refine (Traced.proj_bind _ _ _).trans ((List.append_nil _).trans (heach.trans ?_))
  have hinstance := h.instance_eq
  cases hlast : done.getLast? with
  | none =>
    rw [hlast] at hinstance
    have hcall : callsOf (zephyrScanCb host (some ⟨some (addrType, addr), advType, rssi⟩)
        (some data)) = [] := by
      unfold zephyrScanCb
      rw [hinstance]
      rfl
    rw [hcall, List.flatten_replicate_nil]
  | some init =>
    obtain ⟨i, cb, ctx⟩ := init
    obtain ⟨hcb, hctx⟩ := h.last (i, cb, ctx) hlast
    rw [hlast] at hinstance
    have hcall : callsOf (zephyrScanCb host (some ⟨some (addrType, addr), advType, rssi⟩)
        (some data)) = [(cb, ctx, ⟨addr.toList, addrType, advType, rssi, data⟩)] := by
      unfold zephyrScanCb
      rw [hinstance]
      simp only [Option.map_some, hcb, hctx]
      rfl
    rw [hcall, List.flatten_replicate_singleton]

/-- A host that keeps one structure has one after an initialisation. -/
theorem BtHost.KeepsOne.length_called {bt : BtHost σ} (h : bt.KeepsOne) {registered : List Nat}
    (hne : registered ≠ []) : (bt.called (bt.registerAll registered)).length = 1 := by
  obtain ⟨before, i, rfl⟩ := (List.eq_nil_or_concat' registered).resolve_left hne
  rw [BtHost.registerAll_concat]
  exact h _ i

/-- **One instance.** After any operations on any scanners an advertisement goes to the callback
and the context of the last initialisation, unchanged, and to no other, once for each callback
structure that the host calls. If the host keeps a list of structures, these are as many as
scanners were initialised; if it keeps one, it is one. -/
theorem advertisement_reaches_last_scanner (bt : BtHost σ) (ops : List (Op κ χ))
    (addrType : UInt8) (addr : Vector UInt8 6) (advType : UInt8) (rssi : Int8) (data : Span) :
    let host := (run (step bt) (start bt) ops).val
    let calls := callsOf (step bt host
      (.receive (some ⟨some (addrType, addr), advType, rssi⟩) (some data)))
    let call (cb : κ) (ctx : Option χ) : κ × Option χ × CallbackArgs :=
      (cb, ctx, ⟨addr.toList, addrType, advType, rssi, data⟩)
    match (inits ops).getLast? with
    | none => calls = []
    | some (_, cb, ctx) =>
      calls = List.replicate (bt.called host.bluetooth).length (call cb ctx) ∧
        (bt.KeepsList → calls = List.replicate (scannerCount ops) (call cb ctx)) ∧
        (bt.KeepsOne → calls = [call cb ctx]) := by
  intro host calls call
  have hcalls := (holds_run bt ops).callsOf_receive addrType addr advType rssi data
  cases hlast : (inits ops).getLast? with
  | none =>
    rw [hlast] at hcalls
    exact hcalls
  | some init =>
    obtain ⟨i, cb, ctx⟩ := init
    rw [hlast] at hcalls
    have hinits : inits ops ≠ [] := by
      intro hnil
      rw [hnil] at hlast
      cases hlast
    have hne : (inits ops).map Prod.fst ≠ [] := fun hnil => hinits (List.map_eq_nil_iff.mp hnil)
    have hregistered := (holds_run bt ops).registered
    refine ⟨hcalls, fun hlist => ?_, fun hone => ?_⟩
    · rw [scannerCount, ← hlist.length_called, ← hregistered]
      exact hcalls
    · rw [hregistered, hone.length_called hne] at hcalls
      exact hcalls

/-- A host that appends a structure to its list, unless it is there. -/
def listHost : BtHost (List Nat) where
  initial := []
  register s i := if i ∈ s then s else s ++ [i]
  called s := s

theorem keepsList_listHost : listHost.KeepsList where
  initial := rfl
  added s i hi := by
    show (if i ∈ s then s else s ++ [i]).Perm (i :: s)
    rw [if_neg (show i ∉ s from hi)]
    exact List.perm_append_singleton i s
  refused s i hi := if_pos hi

/-- Two scanners, the first one initialised again: two calls, both of its second callback. -/
theorem advertisement_reaches_last_scanner_listHost :
    callsOf (step listHost (run (step listHost) (start listHost)
        [.init 0 (some 'a') (none : Option Nat), .init 1 (some 'b') (some 7), .startScan 1 0,
          .init 0 (some 'c') (some 8)]).val
      (.receive (some ⟨some (1, #v[1, 2, 3, 4, 5, 6]), 3, -60⟩) (some (Span.ofList [0])))) =
    List.replicate 2 ('c', some 8, ⟨[1, 2, 3, 4, 5, 6], 1, 3, -60, Span.ofList [0]⟩) := by
  obtain ⟨-, hlist, -⟩ := advertisement_reaches_last_scanner listHost
    [.init 0 (some 'a') (none : Option Nat), .init 1 (some 'b') (some 7), .startScan 1 0,
      .init 0 (some 'c') (some 8)] 1 #v[1, 2, 3, 4, 5, 6] 3 (-60) (Span.ofList [0])
  exact hlist keepsList_listHost

end EnoceanCore.Ble.Zephyr
