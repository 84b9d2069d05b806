import EnoceanCore.Enocean.Driver
import Mathlib.Data.List.DropRight

/-!
# The representation invariant of the device table

What every operation preserves (`TableInvariant`), and what the operations between two
calls of `init` do to the table: seen through `slots` each of them is a step of a slot
table with first-fit allocation (`step_slots`), so an entry stays where it is, and the
number of active entries counts the new devices.
-/

namespace EnoceanCore.Enocean

open Lib

/-- The call resets the driver. -/
def Op.isInit : Op → Bool
  | .init => true
  | _ => false

/-! ## One entry -/

/-- An active entry is of a random address and has the type of this address. -/
def EntryOk (device : EnoceanDevice) : Prop :=
  device.active = true → device.bleAddr.type = kAddrRandom ∧
    device.type = detectDeviceType device.bleAddr.addr.toList

/-- An entry in use stays in use, for the same address and of the same type. -/
def SameIdentity (old new : EnoceanDevice) : Prop :=
  old.active = true → new.active = true ∧ new.bleAddr = old.bleAddr ∧ new.type = old.type

theorem SameIdentity.refl (device : EnoceanDevice) : SameIdentity device device :=
  fun h => ⟨h, rfl, rfl⟩

theorem SameIdentity.trans {a b c : EnoceanDevice} (hab : SameIdentity a b)
    (hbc : SameIdentity b c) : SameIdentity a c := by
  intro ha
  obtain ⟨hb, haddr, htype⟩ := hab ha
  obtain ⟨hc, haddr', htype'⟩ := hbc hb
  exact ⟨hc, haddr'.trans haddr, htype'.trans htype⟩

/-- The entry of a known device after an advertisement from it: signal strength and
sequence number aside it is the entry before. -/
theorem handled_fields (callbacks : EnoceanCallbacks) (crypto : CryptoBackend)
    (device : EnoceanDevice) (rssi : Int8) (p : Span) :
    ∃ seq, (handleData callbacks crypto (heardDevice device rssi) p).val.2 =
      { device with rssi := rssi, seqNum := seq } := by
  rcases handleData_val callbacks crypto (heardDevice device rssi) p with h | h
  · exact ⟨device.seqNum, h⟩
  · exact ⟨seqOf p, h⟩

theorem slotOf_newDevice (old : EnoceanDevice) {addr : List UInt8} (hlen : addr.length = kAddrLen)
    (addrType : UInt8) (rssi : Int8) (p : Span) :
    ∃ a : Address, a.toList = addr ∧ slotOf (newDevice old addr addrType rssi p) = some a :=
  ⟨_, overwrite_address old.bleAddr.addr hlen, rfl⟩

theorem entryOk_newDevice (old : EnoceanDevice) {addr : List UInt8}
    (hlen : addr.length = kAddrLen) (rssi : Int8) (p : Span) :
    EntryOk (newDevice old addr kAddrRandom rssi p) := by
  intro _
  refine ⟨rfl, ?_⟩
  simp only [newDevice, overwrite_address old.bleAddr.addr hlen]

/-! ## Steps -/

/-- The call stored a device that was not in the table. -/
def commissionsNew (t : Transition EnoceanDriver Op Action) : Bool :=
  (stores t.outcome).any fun s => s.2.1

/-- **Refinement.** The slots of the table make a step of first-fit allocation, and a key
enters exactly in a step that commissions a new device. -/
theorem step_slots (driver : EnoceanDriver) {op : Op} (hop : op.isInit = false) :
    ∃ entered : Option Address,
      SlotTable.Step (slots driver.devices) entered (slots (step driver op).val.devices) ∧
        commissionsNew ⟨driver, op, step driver op⟩ = entered.isSome := by
  cases op with
  | init => cases hop
  | enableCommissioning => exact ⟨none, .stay, rfl⟩
  | disableCommissioning => exact ⟨none, .stay, rfl⟩
  | processAdvertisement crypto addr addrType advType rssi data =>
    rw [step, commissionsNew]
    cases processAdvertisement_outcome crypto driver addr addrType advType rssi data with
    | ignored _ hval _ hstores =>
      rw [hval, hstores]
      exact ⟨none, .stay, rfl⟩
    | known i _ _ _ hval _ hstores =>
      obtain ⟨seq, hseq⟩ := handled_fields driver.callbacks crypto (driver.devices.get i) rssi
        (payloadOf data)
      rw [hval, hstores, hseq, devices_setDevice, slots_set_of_slotOf_eq]
      · exact ⟨none, .stay, rfl⟩
      · rfl
    | commissioned i hlisten _ _ hfind halloc hval _ hstores =>
      obtain ⟨a, ha, hslot⟩ := slotOf_newDevice (driver.devices.get i) hlisten.2.1 addrType rssi
        (payloadOf data)
      rw [allocateDevice_eq_firstFree] at halloc
      rw [← ha] at hfind
      rw [hval, hstores, devices_setDevice, slots_set, hslot]
      exact ⟨some a, .enter halloc (findDevice_eq_none_iff.mp hfind), rfl⟩

/-- No operation but `init` forgets a device. -/
theorem step_sameIdentity (driver : EnoceanDriver) {op : Op} (hop : op.isInit = false)
    (j : Fin kMaxDevices) :
    SameIdentity (driver.devices.get j) ((step driver op).val.devices.get j) := by
  cases op with
  | init => cases hop
  | enableCommissioning => exact SameIdentity.refl _
  | disableCommissioning => exact SameIdentity.refl _
  | processAdvertisement crypto addr addrType advType rssi data =>
    cases processAdvertisement_outcome crypto driver addr addrType advType rssi data with
    | ignored _ hval =>
      rw [step, hval]
      exact SameIdentity.refl _
    | known i _ _ _ hval =>
      obtain ⟨seq, hseq⟩ := handled_fields driver.callbacks crypto (driver.devices.get i) rssi
        (payloadOf data)
      rw [step, hval, hseq, get_setDevice]
      split
      · rename_i hj
        subst hj
        exact fun h => ⟨h, rfl, rfl⟩
      · exact SameIdentity.refl _
    | commissioned i _ _ _ _ halloc hval =>
      rw [step, hval, get_setDevice]
      split
      · rename_i hj
        subst hj
        intro hactive
        have hfree := (Fin.find?_eq_some_iff.mp halloc).1
        rw [hactive] at hfree
        cases hfree
      · exact SameIdentity.refl _

/-! ## The invariant -/

/-- The representation invariant of the driver. -/
structure TableInvariant (driver : EnoceanDriver) : Prop where
  wellFormed : (slots driver.devices).WellFormed
  entries : ∀ i : Fin kMaxDevices, EntryOk (driver.devices.get i)
  idle : driver.initialised = false → ∀ i : Fin kMaxDevices, (driver.devices.get i).active = false

theorem slots_replicate :
    slots (Vector.replicate kMaxDevices {}) = SlotTable.empty := by
  funext i
  rw [slots, get_replicate {}]
  rfl

theorem tableInvariant_of_replicate {driver : EnoceanDriver}
    (h : driver.devices = Vector.replicate kMaxDevices {}) : TableInvariant driver := by
  refine ⟨?_, fun i => ?_, fun _ i => ?_⟩
  · rw [h, slots_replicate]
    exact SlotTable.wellFormed_empty
  · rw [h, get_replicate {}]
    exact fun hactive => by cases hactive
  · rw [h, get_replicate {}]

theorem tableInvariant_construct (callbacks : EnoceanCallbacks) :
    TableInvariant (construct callbacks) := tableInvariant_of_replicate rfl

/-- An advertisement changes nothing of the driver but its table. -/
theorem AdvertisementOutcome.frame {crypto : CryptoBackend} {driver : EnoceanDriver}
    {addr : List UInt8} {addrType advType : UInt8} {rssi : Int8} {data : Span}
    {r : Traced Action EnoceanDriver}
    (hr : AdvertisementOutcome crypto driver addr addrType advType rssi data r) :
    r.val = { driver with devices := r.val.devices } := by
  cases hr with
  | ignored _ hval => rw [hval]
  | known i _ _ _ hval =>
    rw [hval]
    rfl
  | commissioned i _ _ _ _ _ hval =>
    rw [hval]
    rfl

theorem initialised_step (driver : EnoceanDriver) {op : Op} (hop : op.isInit = false) :
    (step driver op).val.initialised = driver.initialised := by
  cases op with
  | init => cases hop
  | enableCommissioning => rfl
  | disableCommissioning => rfl
  | processAdvertisement crypto addr addrType advType rssi data =>
    rw [step, (processAdvertisement_outcome crypto driver addr addrType advType rssi data).frame]

theorem callbacks_step (driver : EnoceanDriver) (op : Op) :
    (step driver op).val.callbacks = driver.callbacks := by
  cases op with
  | init => rfl
  | enableCommissioning => rfl
  | disableCommissioning => rfl
  | processAdvertisement crypto addr addrType advType rssi data =>
    rw [step, (processAdvertisement_outcome crypto driver addr addrType advType rssi data).frame]

/-- Every operation keeps the invariant. -/
theorem TableInvariant.step {driver : EnoceanDriver} (h : TableInvariant driver) (op : Op) :
    TableInvariant (step driver op).val := by
  cases op with
  | init => exact tableInvariant_of_replicate rfl
  | enableCommissioning => exact ⟨h.wellFormed, h.entries, h.idle⟩
  | disableCommissioning => exact ⟨h.wellFormed, h.entries, h.idle⟩
  | processAdvertisement crypto addr addrType advType rssi data =>
    have hwell : (slots (Enocean.step driver (.processAdvertisement crypto addr addrType advType
        rssi data)).val.devices).WellFormed := by
      obtain ⟨entered, hslots, -⟩ :=
        @step_slots driver (.processAdvertisement crypto addr addrType advType rssi data) rfl
      exact hslots.wellFormed h.wellFormed
    refine ⟨hwell, ?_, ?_⟩
    · intro j
      cases processAdvertisement_outcome crypto driver addr addrType advType rssi data with
      | ignored _ hval =>
        rw [Enocean.step, hval]
        exact h.entries j
      | known i _ _ _ hval =>
        obtain ⟨seq, hseq⟩ := handled_fields driver.callbacks crypto (driver.devices.get i) rssi
          (payloadOf data)
        rw [Enocean.step, hval, hseq, get_setDevice]
        split
        · exact h.entries i
        · exact h.entries j
      | commissioned i hlisten _ _ _ _ hval =>
        rw [Enocean.step, hval, get_setDevice]
        split
        · rw [hlisten.2.2.2]
          exact entryOk_newDevice (driver.devices.get i) hlisten.2.1 rssi (payloadOf data)
        · exact h.entries j
    · intro hinit j
      rw [initialised_step driver rfl] at hinit
      cases processAdvertisement_outcome crypto driver addr addrType advType rssi data with
      | ignored _ hval =>
        rw [Enocean.step, hval]
        exact h.idle hinit j
      | known _ hlisten => exact absurd hlisten.1 (by simp [hinit])
      | commissioned _ hlisten => exact absurd hlisten.1 (by simp [hinit])

theorem tableInvariant_run (callbacks : EnoceanCallbacks) (ops : List Op) :
    TableInvariant (run step (construct callbacks) ops).val :=
  run_invariant (fun _ op h => h.step op) (tableInvariant_construct callbacks) ops

theorem callbacks_run (callbacks : EnoceanCallbacks) (ops : List Op) :
    (run step (construct callbacks) ops).val.callbacks = callbacks :=
  run_invariant (I := fun driver => driver.callbacks = callbacks)
    (fun driver op h => (callbacks_step driver op).trans h) rfl ops

/-- A driver with an active entry is initialised. -/
theorem TableInvariant.initialised {driver : EnoceanDriver} (h : TableInvariant driver)
    {i : Fin kMaxDevices} (hactive : (driver.devices.get i).active = true) :
    driver.initialised = true := by
  by_contra hno
  have hidle := h.idle (by simpa using hno) i
  rw [hactive] at hidle
  cases hidle

/-! ## Between two calls of `init` -/

theorem run_sameIdentity (driver : EnoceanDriver) {ops : List Op}
    (hops : ∀ op ∈ ops, op.isInit = false) (j : Fin kMaxDevices) :
    SameIdentity (driver.devices.get j) ((run step driver ops).val.devices.get j) :=
  run_relation (I := fun _ => True) (P := fun op => op.isInit = false)
    (R := fun d d' => SameIdentity (d.devices.get j) (d'.devices.get j))
    (fun _ => SameIdentity.refl _) SameIdentity.trans (fun _ _ _ => trivial)
    (fun d _ _ hop => step_sameIdentity d hop j) trivial ops hops

theorem run_initialised (driver : EnoceanDriver) {ops : List Op}
    (hops : ∀ op ∈ ops, op.isInit = false) :
    (run step driver ops).val.initialised = driver.initialised :=
  run_relation (I := fun _ => True) (P := fun op => op.isInit = false)
    (R := fun d d' : EnoceanDriver => d'.initialised = d.initialised)
    (fun _ => rfl) (fun hab hbc => hbc.trans hab) (fun _ _ _ => trivial)
    (fun d _ _ hop => initialised_step d hop) trivial ops hops

/-- The transitions after the last `init`; all of them if there is none. -/
def sinceInit (ts : List (Transition EnoceanDriver Op Action)) :
    List (Transition EnoceanDriver Op Action) :=
  ts.rtakeWhile fun t => !t.input.isInit

/-- A new device is one more active entry. -/
theorem deviceCount_step (driver : EnoceanDriver) {op : Op} (hop : op.isInit = false) :
    deviceCount (step driver op).val.devices =
      deviceCount driver.devices +
        if commissionsNew ⟨driver, op, step driver op⟩ then 1 else 0 := by
  obtain ⟨entered, hslots, hnew⟩ := step_slots driver hop
  rw [deviceCount_eq_occupied, deviceCount_eq_occupied, hslots.occupied, hnew]

theorem deviceCount_init (driver : EnoceanDriver) :
    deviceCount (init driver).devices = 0 := by
  rw [deviceCount_eq_occupied, init, slots_replicate, SlotTable.occupied_empty]

/-- The number of active entries is the number of devices commissioned since `init`. -/
theorem deviceCount_run (callbacks : EnoceanCallbacks) (ops : List Op) :
    deviceCount (run step (construct callbacks) ops).val.devices =
      (sinceInit (history step (construct callbacks) ops)).countP commissionsNew := by
  induction ops using List.reverseRecOn with
  | nil => exact deviceCount_init (construct callbacks)
  | append_singleton ops op ih =>
    rw [run_val_concat, history_concat, sinceInit]
    cases hop : op.isInit with
    | true =>
      cases op with
      | init =>
        rw [List.rtakeWhile_concat_neg _ _ _ (by simp [Op.isInit])]
        exact deviceCount_init _
      | _ => cases hop
    | false =>
      rw [List.rtakeWhile_concat_pos _ _ _ (by simp [hop]), deviceCount_step _ hop, ih,
        List.countP_append, List.countP_singleton]
      rfl

theorem deviceCount_mono (driver : EnoceanDriver) {ops : List Op}
    (hops : ∀ op ∈ ops, op.isInit = false) :
    deviceCount driver.devices ≤ deviceCount (run step driver ops).val.devices :=
  run_relation (I := fun _ => True) (P := fun op => op.isInit = false)
    (R := fun d d' : EnoceanDriver => deviceCount d.devices ≤ deviceCount d'.devices)
    (fun _ => Nat.le_refl _) Nat.le_trans (fun _ _ _ => trivial)
    (fun d _ _ hop => by rw [deviceCount_step d hop]; exact Nat.le_add_right _ _) trivial ops hops

/-- **The device table.** In every state of every run the active entries have different
addresses, are a prefix of the table and carry the type of their address; none is active
before the first `init`; between two calls of `init` an active entry keeps its address and
type; and the number of active entries is bounded by the table, never decreases between two
calls of `init` and counts the devices commissioned since the last one. -/
theorem deviceTable_representation (callbacks : EnoceanCallbacks) (ops : List Op) :
    let driver := (run step (construct callbacks) ops).val
    (∀ i j : Fin kMaxDevices, (driver.devices.get i).active = true →
      (driver.devices.get j).active = true →
      (driver.devices.get i).bleAddr.addr = (driver.devices.get j).bleAddr.addr → i = j) ∧
    (∀ i j : Fin kMaxDevices, i < j → (driver.devices.get j).active = true →
      (driver.devices.get i).active = true) ∧
    (∀ i : Fin kMaxDevices, (driver.devices.get i).active = true →
      (driver.devices.get i).bleAddr.type = 1 ∧
      (driver.devices.get i).type = detectDeviceType (driver.devices.get i).bleAddr.addr.toList) ∧
    ((∀ op ∈ ops, op.isInit = false) →
      ∀ i : Fin kMaxDevices, (driver.devices.get i).active = false) ∧
    (∀ stretch : List Op, (∀ op ∈ stretch, op.isInit = false) →
      (∀ i : Fin kMaxDevices, (driver.devices.get i).active = true →
        ((run step driver stretch).val.devices.get i).active = true ∧
        ((run step driver stretch).val.devices.get i).bleAddr = (driver.devices.get i).bleAddr ∧
        ((run step driver stretch).val.devices.get i).type = (driver.devices.get i).type) ∧
      deviceCount driver.devices ≤ deviceCount (run step driver stretch).val.devices) ∧
    deviceCount driver.devices ≤ 8 ∧
    deviceCount driver.devices =
      (sinceInit (history step (construct callbacks) ops)).countP commissionsNew := by
  intro driver
  have hinv : TableInvariant driver := tableInvariant_run callbacks ops
  have hslot : ∀ i : Fin kMaxDevices, (driver.devices.get i).active = true →
      slots driver.devices i = some (driver.devices.get i).bleAddr.addr :=
    fun i h => slotOf_eq_some_iff.mpr ⟨h, rfl⟩
  refine ⟨?_, ?_, hinv.entries, ?_, ?_, ?_, deviceCount_run callbacks ops⟩
  · intro i j hi hj haddr
    exact hinv.wellFormed.distinct (hslot i hi) (haddr ▸ hslot j hj)
  · intro i j hij hj
    rw [← slots_isSome] at hj ⊢
    exact hinv.wellFormed.packed hij hj
  · intro hops
    exact hinv.idle (run_initialised (construct callbacks) hops)
  · intro stretch hstretch
    exact ⟨run_sameIdentity driver hstretch, deviceCount_mono driver hstretch⟩
  · rw [deviceCount_eq_occupied]
    exact SlotTable.occupied_le _

end EnoceanCore.Enocean
