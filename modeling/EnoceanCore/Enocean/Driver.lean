import EnoceanCore.Enocean.Advertisement
import EnoceanCore.Enocean.Switch
import EnoceanCore.Enocean.Sensor
import EnoceanCore.Lib.Run

/-!
# The driver

The public operations of `EnoceanDriver` and the machine they make up (`step`).

`process_advertisement` looks the sender up before it looks at anything else in the
payload: a known sender goes to the handler of its type, only an unknown one can be
commissioned. `processAdvertisement_outcome` states the three things a call can do; what
holds over runs is derived from it.
-/

namespace EnoceanCore.Enocean

open Lib

/-! ## Operations -/

def init (driver : EnoceanDriver) : EnoceanDriver :=
  { driver with
    devices := Vector.replicate kMaxDevices {}
    commissioningEnabled := false
    initialised := true }

def enableCommissioning (driver : EnoceanDriver) : EnoceanDriver :=
  { driver with commissioningEnabled := true }

def disableCommissioning (driver : EnoceanDriver) : EnoceanDriver :=
  { driver with commissioningEnabled := false }

/-- The handler for the stored type of a device. -/
def handleData (callbacks : EnoceanCallbacks) (crypto : CryptoBackend) (device : EnoceanDevice)
    (mfrPayload : Span) : Traced Action (Bool × EnoceanDevice) :=
  if device.type = .switch then handleSwitch callbacks crypto device mfrPayload
  else handleSensor callbacks crypto device mfrPayload

def processAdvertisement (crypto : CryptoBackend) (driver : EnoceanDriver) (addr : List UInt8)
    (addrType advType : UInt8) (rssi : Int8) (data : Span) : Traced Action EnoceanDriver := do
  if !driver.initialised then return driver
  if addr.length ≠ kAddrLen then return driver
  if advType ≠ kAdvNonconnInd ∨ addrType ≠ kAddrRandom then return driver
  let mfrPayload ← extractManufacturerData data
  if mfrPayload.size = 0 then return driver
  if mfrPayload.size < kDataPayloadMin then return driver
  match findDevice driver.devices addr with
  | some i =>
    let device := { driver.devices.get i with rssi := rssi }
    let (_, device) ← handleData driver.callbacks crypto device mfrPayload
    return setDevice driver i device
  | none =>
    if mfrPayload.size ≥ kCommissioningPayloadMin ∧ driver.commissioningEnabled then
      let (_, driver) ← handleCommissioning driver addr addrType rssi mfrPayload
      return driver
    else return driver

/-! ## The machine -/

/-- A call of the driver. The backend of an advertisement is the one that answers during
that call, so that a run may see any answers. -/
inductive Op where
  | init
  | enableCommissioning
  | disableCommissioning
  | processAdvertisement (crypto : CryptoBackend) (addr : List UInt8) (addrType advType : UInt8)
      (rssi : Int8) (data : Span)

/-- A driver as constructed with the callbacks of the application. -/
def construct (callbacks : EnoceanCallbacks) : EnoceanDriver := { callbacks := callbacks }

def step (driver : EnoceanDriver) : Op → Traced Action EnoceanDriver
  | .init => pure (init driver)
  | .enableCommissioning => pure (enableCommissioning driver)
  | .disableCommissioning => pure (disableCommissioning driver)
  | .processAdvertisement crypto addr addrType advType rssi data =>
      processAdvertisement crypto driver addr addrType advType rssi data

/-! ## Data telegrams -/

/-- The payload an advertisement carries for the driver, empty if there is none. -/
def payloadOf (data : Span) : Span := (extractManufacturerData data).val

/-- The tests of the handler before it calls the crypto backend. -/
def DataAdmissible (device : EnoceanDevice) (p : Span) : Prop :=
  if device.type = .switch then SwitchAdmissible device p else SensorAdmissible device p

instance (device : EnoceanDevice) (p : Span) : Decidable (DataAdmissible device p) :=
  inferInstanceAs (Decidable
    (if device.type = .switch then SwitchAdmissible device p else SensorAdmissible device p))

/-- The tests of the handler after the crypto backend accepts. -/
def DataDeliverable (device : EnoceanDevice) (p : Span) : Prop :=
  if device.type = .switch then SwitchDeliverable p else True

instance (device : EnoceanDevice) (p : Span) : Decidable (DataDeliverable device p) :=
  inferInstanceAs (Decidable (if device.type = .switch then SwitchDeliverable p else True))

/-- The callbacks for an accepted telegram of a device. -/
def dataEvents (callbacks : EnoceanCallbacks) (device : EnoceanDevice) (p : Span) : List Event :=
  if device.type = .switch then
    if callbacks.button then [switchEvent device p] else []
  else
    if callbacks.sensor then [sensorEvent device p] else []

section HandleData

variable (callbacks : EnoceanCallbacks) (crypto : CryptoBackend) (device : EnoceanDevice)

theorem handleData_outcome (p : Span) :
    HandlerOutcome (DataAdmissible device p) (DataDeliverable device p)
      (dataEvents callbacks device p) crypto device p
      (handleData callbacks crypto device p) := by
  unfold handleData DataAdmissible DataDeliverable dataEvents
  by_cases htype : device.type = .switch
  · simp only [if_pos htype]
    exact handleSwitch_outcome callbacks crypto device p
  · simp only [if_neg htype]
    exact handleSensor_outcome callbacks crypto device p

theorem handleData_stores (p : Span) : stores (handleData callbacks crypto device p) = [] := by
  unfold handleData
  split
  · exact handleSwitch_stores callbacks crypto device p
  · exact handleSensor_stores callbacks crypto device p

theorem handleData_confined {p : Span} {outer : Extent} (hp : p.extent.Within outer) :
    Confined outer (handleData callbacks crypto device p) := by
  unfold handleData
  split
  · exact handleSwitch_confined callbacks crypto device hp
  · exact handleSensor_confined callbacks crypto device hp

/-- A data telegram changes nothing of an entry but its sequence number. -/
theorem handleData_val (p : Span) :
    (handleData callbacks crypto device p).val.2 = device ∨
      (handleData callbacks crypto device p).val.2 = acceptedDevice device p := by
  cases handleData_outcome callbacks crypto device p with
  | reject _ hval => exact Or.inl (congrArg Prod.snd hval)
  | forged _ _ hval => exact Or.inl (congrArg Prod.snd hval)
  | undelivered _ _ _ hval => exact Or.inr (congrArg Prod.snd hval)
  | deliver _ _ _ hval => exact Or.inr (congrArg Prod.snd hval)

/-- The kind of callback fits the type of the device. -/
theorem mem_dataEvents {e : Event} {p : Span} (h : e ∈ dataEvents callbacks device p) :
    e.device = acceptedDevice device p ∧
      (device.type = .switch ∧ e = switchEvent device p ∨
        device.type ≠ .switch ∧ e = sensorEvent device p) := by
  unfold dataEvents at h
  by_cases htype : device.type = .switch
  · rw [if_pos htype] at h
    split at h
    · have he := List.mem_singleton.mp h
      exact ⟨he ▸ rfl, Or.inl ⟨htype, he⟩⟩
    · cases h
  · rw [if_neg htype] at h
    split at h
    · have he := List.mem_singleton.mp h
      exact ⟨he ▸ rfl, Or.inr ⟨htype, he⟩⟩
    · cases h

theorem length_dataEvents (p : Span) : (dataEvents callbacks device p).length ≤ 1 := by
  unfold dataEvents
  split <;> split <;> simp

end HandleData

/-! ## Outcomes of an advertisement -/

/-- The tests of `process_advertisement` that do not look at the data. -/
def Listens (driver : EnoceanDriver) (addr : List UInt8) (addrType advType : UInt8) : Prop :=
  driver.initialised = true ∧ addr.length = kAddrLen ∧ advType = kAdvNonconnInd ∧
    addrType = kAddrRandom

instance (driver : EnoceanDriver) (addr : List UInt8) (addrType advType : UInt8) :
    Decidable (Listens driver addr addrType advType) :=
  inferInstanceAs (Decidable (_ ∧ _ ∧ _ ∧ _))

/-- The entry of a known sender as it is handed to the data handler. -/
def heardDevice (device : EnoceanDevice) (rssi : Int8) : EnoceanDevice :=
  { device with rssi := rssi }

/-- What `process_advertisement` can do. -/
inductive AdvertisementOutcome (crypto : CryptoBackend) (driver : EnoceanDriver)
    (addr : List UInt8) (addrType advType : UInt8) (rssi : Int8) (data : Span)
    (r : Traced Action EnoceanDriver) : Prop
  | ignored
      (hwhy : Listens driver addr addrType advType → kDataPayloadMin ≤ (payloadOf data).size →
        findDevice driver.devices addr = none)
      (hval : r.val = driver) (hdecrypts : decrypts r = []) (hstores : stores r = [])
      (hevents : events r = [])
  | known (i : Fin kMaxDevices) (hlisten : Listens driver addr addrType advType)
      (hsize : kDataPayloadMin ≤ (payloadOf data).size)
      (hfind : findDevice driver.devices addr = some i)
      (hval : r.val = setDevice driver i
        (handleData driver.callbacks crypto (heardDevice (driver.devices.get i) rssi)
          (payloadOf data)).val.2)
      (hdecrypts : decrypts r = decrypts
        (handleData driver.callbacks crypto (heardDevice (driver.devices.get i) rssi)
          (payloadOf data)))
      (hstores : stores r = [])
      (hevents : events r = events
        (handleData driver.callbacks crypto (heardDevice (driver.devices.get i) rssi)
          (payloadOf data)))
  | commissioned (i : Fin kMaxDevices) (hlisten : Listens driver addr addrType advType)
      (henabled : driver.commissioningEnabled = true) (hok : Commissionable addr (payloadOf data))
      (hfind : findDevice driver.devices addr = none)
      (halloc : allocateDevice driver.devices = some i)
      (hval : r.val =
        setDevice driver i (newDevice (driver.devices.get i) addr addrType rssi (payloadOf data)))
      (hdecrypts : decrypts r = [])
      (hstores : stores r =
        [(i, true, newDevice (driver.devices.get i) addr addrType rssi (payloadOf data))])
      (hevents : events r = if driver.callbacks.commissioned then
        [.commissioned (newDevice (driver.devices.get i) addr addrType rssi (payloadOf data))]
        else [])

@[simp] theorem val_extractManufacturerData (data : Span) :
    (extractManufacturerData data).val = payloadOf data := (rfl)

@[simp] theorem proj_extractManufacturerData {δ : Type} (f : Action → Option δ)
    [Action.IgnoresAccess f] (data : Span) : (extractManufacturerData data).proj f = [] :=
  (extractManufacturerData_accessesThrough data).proj_eq_nil f

/-- **Outcomes of `process_advertisement`.** -/
theorem processAdvertisement_outcome (crypto : CryptoBackend) (driver : EnoceanDriver)
    (addr : List UInt8) (addrType advType : UInt8) (rssi : Int8) (data : Span) :
    AdvertisementOutcome crypto driver addr addrType advType rssi data
      (processAdvertisement crypto driver addr addrType advType rssi data) := by
  unfold processAdvertisement
  by_cases hinit : driver.initialised = true
  swap
  · have hinit' : driver.initialised = false := by simpa using hinit
    exact .ignored (fun h => absurd h.1 hinit) (by simp [hinit']) (by simp [hinit'])
      (by simp [hinit']) (by simp [hinit'])
  by_cases hlen : addr.length = kAddrLen
  swap
  · exact .ignored (fun h => absurd h.2.1 hlen) (by simp [hlen]) (by simp [hlen])
      (by simp [hlen]) (by simp [hlen])
  by_cases htypes : advType = kAdvNonconnInd ∧ addrType = kAddrRandom
  swap
  · have htypes' : advType ≠ kAdvNonconnInd ∨ addrType ≠ kAddrRandom :=
      Classical.not_and_iff_not_or_not.mp htypes
    exact .ignored (fun h => absurd h.2.2 htypes) (by simp [htypes']) (by simp [htypes'])
      (by simp [htypes']) (by simp [htypes'])
  have hlisten : Listens driver addr addrType advType := ⟨hinit, hlen, htypes⟩
  obtain ⟨rfl, rfl⟩ := htypes
  by_cases hsize : kDataPayloadMin ≤ (payloadOf data).size
  swap
  · have hshort : (payloadOf data).size < kDataPayloadMin := Nat.lt_of_not_le hsize
    exact .ignored (fun _ h => absurd h hsize) (by simp [hshort]) (by simp [hshort])
      (by simp [hshort]) (by simp [hshort])
  have hlong : ¬ (payloadOf data).size < kDataPayloadMin := Nat.not_lt.mpr hsize
  have hne : ¬ (payloadOf data).size = 0 := by
    have : 0 < kDataPayloadMin := by decide
    omega
  cases hfind : findDevice driver.devices addr with
  | some i =>
    refine .known i hlisten hsize hfind ?_ ?_ ?_ ?_
    · simp [hinit, hlen, hlong, hne, heardDevice]
    · simp [hinit, hlen, hlong, hne, heardDevice]
    · simp [handleData_stores]
    · simp [hinit, hlen, hlong, hne, heardDevice]
  | none =>
    by_cases hcomm : (payloadOf data).size ≥ kCommissioningPayloadMin ∧
        driver.commissioningEnabled = true
    swap
    · exact .ignored (fun _ _ => hfind) (by simp [hcomm]) (by simp [hcomm]) (by simp [hcomm])
        (by simp [hcomm])
    cases handleCommissioning_outcome driver addr kAddrRandom rssi (payloadOf data) with
    | reject _ hval hstores hevents =>
      refine .ignored (fun _ _ => hfind) ?_ ?_ ?_ ?_
      · simp [hval]
      · simp [handleCommissioning_decrypts]
      · simp [hstores]
      · simp [hevents]
    | refresh i _ hknown =>
      rw [hfind] at hknown
      cases hknown
    | fresh i hok _ halloc hval hstores hevents =>
      refine .commissioned i hlisten hcomm.2 hok hfind halloc ?_ ?_ ?_ ?_
      · simp [hinit, hlen, hlong, hne, hcomm, hval]
      · simp [handleCommissioning_decrypts]
      · simp [hinit, hlen, hlong, hne, hcomm, hstores]
      · simp [hinit, hlen, hlong, hne, hcomm, hevents]

end EnoceanCore.Enocean
