import EnoceanCore.Enocean.Admission
import EnoceanCore.Lib.BoundedMap

/-!
# The driver as a registry of devices

What the driver is for, without its table: a `Registry` maps the address of each known device
to its entry, at most eight of them. A telegram of a known device is reported if it is
admissible and the backend accepts it; an unknown device is registered if commissioning is
enabled and the registry has room. There are no slots, so nothing can depend on where an
entry is stored or in which order the entries are searched.

`Implements registry driver` says that the table of a driver stores a registry. Every
operation keeps it and makes the callbacks of the registry (`Implements.step`), and so does
every run (`driver_refines_registry`).
-/

namespace EnoceanCore.Enocean

open Lib

/-- The entry of a known device after a telegram, and the callbacks for the telegram. -/
def report (callbacks : EnoceanCallbacks) (crypto : CryptoBackend)
    (device : EnoceanDevice) (p : Span) : Traced Event EnoceanDevice :=
  if DataAdmissible device p ∧ crypto (decryptCall device p) = true then
    { val := acceptedDevice device p
      log := if DataDeliverable device p then dataEvents callbacks device p else [] }
  else pure device

/-- The known devices by their addresses, and the two switches of the driver. -/
structure Registry where
  callbacks : EnoceanCallbacks
  initialised : Bool := false
  commissioningEnabled : Bool := false
  devices : BoundedMap kMaxDevices Address EnoceanDevice := .empty

namespace Registry

/-- A telegram with the payload `p` of the device at `a`. -/
noncomputable def hear (crypto : CryptoBackend) (registry : Registry) (a : Address)
    (rssi : Int8) (p : Span) : Traced Event Registry :=
  match registry.devices.lookup a with
  | some device => do
      let device ← report registry.callbacks crypto (heardDevice device rssi) p
      return { registry with devices := registry.devices.set a device }
  | none =>
      if hroom : registry.devices.size < kMaxDevices then
        if registry.commissioningEnabled = true ∧ Commissionable a.toList p then
          let device := newDevice {} a.toList kAddrRandom rssi p
          { val := { registry with devices := registry.devices.insert a device hroom }
            log := if registry.callbacks.commissioned then [.commissioned device] else [] }
        else pure registry
      else pure registry

/-- The address of an advertisement that can carry a telegram, and its payload. -/
def telegramOf (addr : List UInt8) (addrType advType : UInt8) (data : Span) :
    Option (Address × Span) :=
  if h : addr.length = kAddrLen then
    if advType = kAdvNonconnInd ∧ addrType = kAddrRandom ∧
        kDataPayloadMin ≤ (payloadOf data).size then
      some (⟨addr.toArray, h⟩, payloadOf data)
    else none
  else none

noncomputable def step (registry : Registry) : Op → Traced Event Registry
  | .init =>
      pure { registry with initialised := true, commissioningEnabled := false, devices := .empty }
  | .enableCommissioning => pure { registry with commissioningEnabled := true }
  | .disableCommissioning => pure { registry with commissioningEnabled := false }
  | .processAdvertisement crypto addr addrType advType rssi data =>
      if registry.initialised then
        match telegramOf addr addrType advType data with
        | some (a, p) => hear crypto registry a rssi p
        | none => pure registry
      else pure registry

/-- An advertisement the driver would listen to carries a telegram. -/
theorem telegramOf_eq_some_iff {addr : List UInt8} {addrType advType : UInt8} {data : Span}
    {a : Address} {p : Span} :
    telegramOf addr addrType advType data = some (a, p) ↔
      a.toList = addr ∧ p = payloadOf data ∧ advType = kAdvNonconnInd ∧
        addrType = kAddrRandom ∧ kDataPayloadMin ≤ (payloadOf data).size := by
  unfold telegramOf
  constructor
  · intro h
    split at h
    · rename_i hlen
      split at h
      · rename_i hguards
        obtain ⟨rfl, rfl⟩ := Prod.mk.inj (Option.some.inj h)
        exact ⟨rfl, rfl, hguards⟩
      · cases h
    · cases h
  · intro h
    rcases h with ⟨rfl, rfl, hguards⟩
    rw [dif_pos (by simp), if_pos hguards]
    rfl

/-! ## The cases of a telegram -/

section Hear

variable (crypto : CryptoBackend) {registry : Registry} {a : Address} (rssi : Int8) {p : Span}

theorem hear_known {device : EnoceanDevice} (h : registry.devices.lookup a = some device) :
    hear crypto registry a rssi p = do
      let device ← report registry.callbacks crypto (heardDevice device rssi) p
      return { registry with devices := registry.devices.set a device } := by
  unfold hear
  rw [h]

theorem hear_new (h : registry.devices.lookup a = none)
    (hroom : registry.devices.size < kMaxDevices) (henabled : registry.commissioningEnabled = true)
    (hok : Commissionable a.toList p) :
    hear crypto registry a rssi p =
      let device := newDevice {} a.toList kAddrRandom rssi p
      { val := { registry with devices := registry.devices.insert a device hroom }
        log := if registry.callbacks.commissioned then [.commissioned device] else [] } := by
  unfold hear
  rw [h]
  simp only [dif_pos hroom, if_pos (And.intro henabled hok)]

theorem hear_refused (h : registry.devices.lookup a = none)
    (hno : ¬ (registry.devices.size < kMaxDevices ∧ registry.commissioningEnabled = true ∧
      Commissionable a.toList p)) :
    hear crypto registry a rssi p = pure registry := by
  unfold hear
  rw [h]
  by_cases hroom : registry.devices.size < kMaxDevices
  · simp only [dif_pos hroom]
    exact if_neg fun hok => hno ⟨hroom, hok⟩
  · simp only [dif_neg hroom]

/-- Whatever is heard, only the devices change. -/
theorem exists_devices_hear (crypto : CryptoBackend) (registry : Registry) (a : Address)
    (rssi : Int8) (p : Span) :
    ∃ devices, (hear crypto registry a rssi p).val = { registry with devices } := by
  unfold hear
  split
  · exact ⟨_, rfl⟩
  · split
    · split
      · exact ⟨_, rfl⟩
      · exact ⟨registry.devices, rfl⟩
    · exact ⟨registry.devices, rfl⟩

end Hear

/-- An advertisement that carries a telegram, heard by an initialised registry. -/
theorem step_telegram {registry : Registry} (hinit : registry.initialised = true)
    (crypto : CryptoBackend) {addr : List UInt8} {addrType advType : UInt8} (rssi : Int8)
    {data : Span} {a : Address} {p : Span}
    (htelegram : telegramOf addr addrType advType data = some (a, p)) :
    registry.step (.processAdvertisement crypto addr addrType advType rssi data) =
      hear crypto registry a rssi p := by
  simp only [step, hinit, htelegram, if_true]

/-- Any other advertisement. -/
theorem step_other {registry : Registry} (crypto : CryptoBackend) {addr : List UInt8}
    {addrType advType : UInt8} (rssi : Int8) {data : Span}
    (hno : registry.initialised = true → telegramOf addr addrType advType data = none) :
    registry.step (.processAdvertisement crypto addr addrType advType rssi data) =
      pure registry := by
  by_cases hinit : registry.initialised = true
  · simp only [step, hinit, hno hinit, if_true]
  · simp only [step, if_neg hinit]

end Registry

/-! ## Handlers -/

/-- Either data handler computes the report of the registry. -/
theorem report_eq (callbacks : EnoceanCallbacks) (crypto : CryptoBackend)
    (device : EnoceanDevice) (p : Span) :
    (report callbacks crypto device p).val = (handleData callbacks crypto device p).val.2 ∧
      (report callbacks crypto device p).log = events (handleData callbacks crypto device p) := by
  cases handleData_outcome callbacks crypto device p with
  | reject hno hval _ hevents =>
    rw [report, if_neg fun h => hno h.1, hval, hevents]
    exact ⟨rfl, rfl⟩
  | forged _ hauth hval _ hevents =>
    rw [report, if_neg (by simp [hauth]), hval, hevents]
    exact ⟨rfl, rfl⟩
  | undelivered hok hauth hno hval _ hevents =>
    rw [report, if_pos ⟨hok, hauth⟩, if_neg hno, hval, hevents]
    exact ⟨rfl, rfl⟩
  | deliver hok hauth hdel hval _ hevents =>
    rw [report, if_pos ⟨hok, hauth⟩, if_pos hdel, hval, hevents]
    exact ⟨rfl, rfl⟩

/-- Nothing of the old entry is left in a new one. -/
theorem newDevice_fresh (old : EnoceanDevice) {addr : List UInt8}
    (hlen : addr.length = kAddrLen) (addrType : UInt8) (rssi : Int8) (p : Span) :
    newDevice old addr addrType rssi p = newDevice {} addr addrType rssi p := by
  have haddr : Buffer.overwrite old.bleAddr.addr 0 addr =
      Buffer.overwrite ({} : EnoceanDevice).bleAddr.addr 0 addr := by
    rw [← Vector.toList_inj, overwrite_address _ hlen, overwrite_address _ hlen]
  simp only [newDevice, haddr]

/-! ## The refinement -/

/-- The driver stores the registry in its table. -/
structure Implements (registry : Registry) (driver : EnoceanDriver) : Prop where
  callbacks : registry.callbacks = driver.callbacks
  initialised : registry.initialised = driver.initialised
  commissioning : registry.commissioningEnabled = driver.commissioningEnabled
  devices : SlotTable.Represents (slots driver.devices) driver.devices.get registry.devices

/-- The registry of a driver as constructed. -/
def Registry.construct (callbacks : EnoceanCallbacks) : Registry := { callbacks := callbacks }

theorem represents_replicate :
    SlotTable.Represents (slots (Vector.replicate kMaxDevices {}))
      (Vector.replicate kMaxDevices ({} : EnoceanDevice)).get .empty := by
  rw [slots_replicate]
  exact SlotTable.represents_empty _

theorem implements_construct (callbacks : EnoceanCallbacks) :
    Implements (Registry.construct callbacks) (construct callbacks) :=
  ⟨rfl, rfl, rfl, represents_replicate⟩

section Implements

variable {registry : Registry} {driver : EnoceanDriver}

theorem Implements.entry (h : Implements registry driver) (a : Address) :
    entryOf driver.devices a = registry.devices.lookup a := by
  apply Option.ext
  intro device
  rw [entryOf_eq_some_iff h.devices.wellFormed, h.devices.lookup]

theorem Implements.count (h : Implements registry driver) :
    deviceCount driver.devices = registry.devices.size := by
  rw [deviceCount_eq_occupied, h.devices.size]

/-- A driver that writes the entry of a known device. -/
theorem Implements.write (h : Implements registry driver) {i : Fin kMaxDevices} {a : Address}
    (hi : slots driver.devices i = some a) {device : EnoceanDevice}
    (hdevice : slotOf device = some a) :
    Implements { registry with devices := registry.devices.set a device }
      (setDevice driver i device) := by
  refine ⟨h.callbacks, h.initialised, h.commissioning, ?_⟩
  have hslots : slots (setDevice driver i device).devices = slots driver.devices :=
    slots_set_of_slotOf_eq (hdevice.trans hi.symm)
  rw [hslots]
  have hget : (setDevice driver i device).devices.get i = device := by
    rw [get_setDevice, if_pos rfl]
  have hwrite := h.devices.write hi (setDevice driver i device).devices.get
    fun j hj => by rw [get_setDevice, if_neg hj]
  rw [hget] at hwrite
  exact hwrite

/-- A driver that stores a new device in the first inactive slot. -/
theorem Implements.enter (h : Implements registry driver) {i : Fin kMaxDevices} {a : Address}
    (hfree : allocateDevice driver.devices = some i)
    (hfresh : findDevice driver.devices a.toList = none) {device : EnoceanDevice}
    (hdevice : slotOf device = some a)
    (hroom : registry.devices.size < kMaxDevices) :
    Implements { registry with devices := registry.devices.insert a device hroom }
      (setDevice driver i device) := by
  refine ⟨h.callbacks, h.initialised, h.commissioning, ?_⟩
  rw [allocateDevice_eq_firstFree] at hfree
  have hget : (setDevice driver i device).devices.get i = device := by
    rw [get_setDevice, if_pos rfl]
  have henter := h.devices.enter hfree (findDevice_eq_none_iff.mp hfresh)
    (setDevice driver i device).devices.get (fun j hj => by rw [get_setDevice, if_neg hj]) hroom
  rw [hget] at henter
  rw [devices_setDevice, slots_set, hdevice]
  exact henter

end Implements

/-- **Step refinement.** Every operation of the driver is the operation of its registry, with
the same callbacks. -/
theorem Implements.step {registry : Registry} {driver : EnoceanDriver}
    (h : Implements registry driver) (op : Op) :
    Implements (registry.step op).val (step driver op).val ∧
      events (step driver op) = (registry.step op).log := by
  cases op with
  | init => exact ⟨⟨h.callbacks, rfl, rfl, represents_replicate⟩, rfl⟩
  | enableCommissioning => exact ⟨⟨h.callbacks, h.initialised, rfl, h.devices⟩, rfl⟩
  | disableCommissioning => exact ⟨⟨h.callbacks, h.initialised, rfl, h.devices⟩, rfl⟩
  | processAdvertisement crypto addr addrType advType rssi data =>
    have hcommissions := @processAdvertisement_commissions crypto driver addr addrType advType rssi
      data
    rw [Enocean.step]
    cases processAdvertisement_outcome crypto driver addr addrType advType rssi data with
    | ignored hwhy hval _ _ hevents =>
      have hstays : registry.step (.processAdvertisement crypto addr addrType advType rssi data) =
          pure registry := by
        by_cases hheard : registry.initialised = true ∧
            ∃ a p, Registry.telegramOf addr addrType advType data = some (a, p)
        · obtain ⟨hinit, a, p, htelegram⟩ := hheard
          rw [Registry.step_telegram hinit crypto rssi htelegram]
          obtain ⟨rfl, rfl, hadv, haddr, hsize⟩ := Registry.telegramOf_eq_some_iff.mp htelegram
          have hlisten : Listens driver a.toList addrType advType :=
            ⟨h.initialised ▸ hinit, by simp, hadv, haddr⟩
          have hfind := hwhy hlisten hsize
          apply Registry.hear_refused crypto rssi
          · exact h.devices.of_none (findDevice_eq_none_iff.mp hfind)
          · intro hadmitted
            obtain ⟨hroom, henabled, hok⟩ := hadmitted
            obtain ⟨i, hfree⟩ := h.devices.room_iff.mp hroom
            rw [← allocateDevice_eq_firstFree] at hfree
            apply hcommissions _ hval
            apply admits_iff.mpr
            refine ⟨hlisten, h.commissioning ▸ henabled, hok, hfind, ?_⟩
            rw [hfree]
            exact Option.some_ne_none i
        · apply Registry.step_other
          intro hinit
          apply Option.eq_none_iff_forall_ne_some.mpr
          intro telegram htelegram
          exact hheard ⟨hinit, telegram.1, telegram.2, htelegram⟩
      rw [hstays, hval]
      exact ⟨h, hevents⟩
    | known i hlisten hsize hfind hval _ _ hevents =>
      obtain ⟨hinit, hlen, rfl, rfl⟩ := hlisten
      obtain ⟨a, rfl⟩ := address_of_length hlen
      have htelegram : Registry.telegramOf a.toList kAddrRandom kAdvNonconnInd data =
          some (a, payloadOf data) :=
        Registry.telegramOf_eq_some_iff.mpr ⟨rfl, rfl, rfl, rfl, hsize⟩
      have hslot := (findDevice_eq_some_iff h.devices.wellFormed).mp hfind
      rw [Registry.step_telegram (h.initialised.trans hinit) crypto rssi htelegram,
        Registry.hear_known crypto rssi (h.devices.of_slot hslot), hval]
      obtain ⟨hreport, hlog⟩ := report_eq registry.callbacks crypto
        (heardDevice (driver.devices.get i) rssi) (payloadOf data)
      constructor
      · rw [Traced.val_bind, Traced.val_pure, hreport, ← h.callbacks]
        apply h.write hslot
        obtain ⟨seq, hseq⟩ := handled_fields registry.callbacks crypto (driver.devices.get i) rssi
          (payloadOf data)
        rw [hseq]
        exact hslot
      · rw [Traced.log_bind, Traced.log_pure, List.append_nil, hlog, h.callbacks]
        exact hevents
    | commissioned i hlisten henabled hok hfind halloc hval _ _ hevents =>
      obtain ⟨hinit, hlen, rfl, rfl⟩ := hlisten
      obtain ⟨a, rfl⟩ := address_of_length hlen
      have hsize : kDataPayloadMin ≤ (payloadOf data).size := Nat.le_trans (by decide) hok.1
      have htelegram : Registry.telegramOf a.toList kAddrRandom kAdvNonconnInd data =
          some (a, payloadOf data) :=
        Registry.telegramOf_eq_some_iff.mpr ⟨rfl, rfl, rfl, rfl, hsize⟩
      have hroom : registry.devices.size < kMaxDevices :=
        h.devices.room_iff.mpr ⟨i, allocateDevice_eq_firstFree _ ▸ halloc⟩
      have hfresh := newDevice_fresh (driver.devices.get i) hlen kAddrRandom rssi (payloadOf data)
      obtain ⟨b, hb, hnew⟩ := slotOf_newDevice {} hlen kAddrRandom rssi (payloadOf data)
      obtain rfl : b = a := Vector.toList_inj.mp hb
      rw [Registry.step_telegram (h.initialised.trans hinit) crypto rssi htelegram,
        Registry.hear_new crypto rssi (h.devices.of_none (findDevice_eq_none_iff.mp hfind)) hroom
          (h.commissioning.trans henabled) hok, hval, hfresh]
      refine ⟨h.enter halloc hfind hnew hroom, ?_⟩
      rw [h.callbacks, ← hfresh]
      exact hevents

/-- A run of the driver is the run of its registry. -/
theorem implements_run (callbacks : EnoceanCallbacks) (ops : List Op) :
    Implements (run Registry.step (Registry.construct callbacks) ops).val
        (run step (construct callbacks) ops).val ∧
      events (run step (construct callbacks) ops) =
        (run Registry.step (Registry.construct callbacks) ops).log :=
  run_refines Action.event? (fun _ _ op h => h.step op) (implements_construct callbacks) ops

/-- **Refinement.** In every run the driver makes the callbacks that its registry makes, in the
same order and with the same arguments; after it each address has the entry it has in the
registry, as many devices are stored, and the two switches agree. -/
theorem driver_refines_registry (callbacks : EnoceanCallbacks) (ops : List Op) :
    let driver := run step (construct callbacks) ops
    let registry := run Registry.step (Registry.construct callbacks) ops
    events driver = registry.log ∧
      (∀ a, entryOf driver.val.devices a = registry.val.devices.lookup a) ∧
      deviceCount driver.val.devices = registry.val.devices.size ∧
      driver.val.initialised = registry.val.initialised ∧
      driver.val.commissioningEnabled = registry.val.commissioningEnabled := by
  intro driver registry
  obtain ⟨himplements, hevents⟩ := implements_run callbacks ops
  exact ⟨hevents, himplements.entry, himplements.count, himplements.initialised.symm,
    himplements.commissioning.symm⟩

end EnoceanCore.Enocean
