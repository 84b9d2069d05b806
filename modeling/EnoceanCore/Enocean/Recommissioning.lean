import EnoceanCore.Enocean.Entry
import EnoceanCore.Enocean.KeyLayout

/-!
# Commissioning a known device again

`handle_commissioning` refreshes the entry of a known device, but `process_advertisement`
never gets there: a known sender is routed to the data handler before the payload is looked
at as a commissioning payload. `recommissioned_iff` says when a known device nevertheless ends
up with the key and the sequence number that a commissioning payload carries in the layout of
the sender's type (`Credentials`).
-/

namespace EnoceanCore.Enocean

open Lib

/-- The entry `i` holds this number and this key, and nothing else in the table has
changed. -/
def Recommissioned (driver after : EnoceanDriver) (i : Fin kMaxDevices) (seq : UInt32)
    (key : Key) : Prop :=
  (after.devices.get i).key = key ∧ (after.devices.get i).seqNum = seq ∧
    deviceCount after.devices = deviceCount driver.devices ∧
    ∀ j : Fin kMaxDevices, j ≠ i → after.devices.get j = driver.devices.get j

instance (driver after : EnoceanDriver) (i : Fin kMaxDevices) (seq : UInt32) (key : Key) :
    Decidable (Recommissioned driver after i seq key) :=
  inferInstanceAs (Decidable (_ ∧ _ ∧ _ ∧ ∀ _ : Fin kMaxDevices, _ → _))

/-- A commissioning payload is too long for a switch telegram. -/
theorem not_switchAdmissible {device : EnoceanDevice} {addr : List UInt8} {p : Span}
    (h : Commissionable addr p) : ¬ SwitchAdmissible device p := by
  intro hok
  have hmin : kCommissioningPayloadMin ≤ kSwitchPayloadMax := Nat.le_trans h.1 hok.2.1
  exact absurd hmin (by decide)

/-- What a data handler does with a commissioning payload: only a device that is no switch
takes it, as a telegram, if the number is larger and the backend accepts. -/
theorem handleData_commissionable (callbacks : EnoceanCallbacks) (crypto : CryptoBackend)
    {device : EnoceanDevice} {addr : List UInt8} {p : Span} (h : Commissionable addr p) :
    (handleData callbacks crypto device p).val.2 =
      if device.type ≠ .switch ∧ device.seqNum < seqOf p ∧ crypto (decryptCall device p) = true
      then acceptedDevice device p else device := by
  have hsize : kDataPayloadMin ≤ p.size := Nat.le_trans (by decide) h.1
  have hok : DataAdmissible device p ↔ device.type ≠ .switch ∧ device.seqNum < seqOf p := by
    unfold DataAdmissible
    split
    · rename_i htype
      exact iff_of_false (not_switchAdmissible h) fun hno => hno.1 htype
    · rename_i htype
      exact ⟨fun hs => ⟨htype, hs.2⟩, fun hs => ⟨hsize, hs.2⟩⟩
  cases handleData_outcome callbacks crypto device p with
  | reject hno hval =>
    rw [hval, if_neg fun hall => hno (hok.mpr ⟨hall.1, hall.2.1⟩)]
  | forged _ hauth hval =>
    rw [hval, if_neg fun hall => by simp [hauth] at hall]
  | undelivered hyes hauth _ hval =>
    rw [hval, if_pos ⟨(hok.mp hyes).1, (hok.mp hyes).2, hauth⟩]
  | deliver hyes hauth _ hval =>
    rw [hval, if_pos ⟨(hok.mp hyes).1, (hok.mp hyes).2, hauth⟩]

/-- What becomes of the entry of a known sender that a commissioning payload is heard from. -/
theorem recommissioned_of_known {crypto : CryptoBackend} {driver after : EnoceanDriver}
    {addr : List UInt8} {rssi : Int8} {p : Span} {i : Fin kMaxDevices}
    (hok : Commissionable addr p)
    (hval : after = setDevice driver i (handleData driver.callbacks crypto
      (heardDevice (driver.devices.get i) rssi) p).val.2) (key : Key) :
    Recommissioned driver after i (seqOf p) key ↔
      (driver.devices.get i).key = key ∧ ((driver.devices.get i).seqNum = seqOf p ∨
        (driver.devices.get i).type ≠ .switch ∧ (driver.devices.get i).seqNum < seqOf p ∧
          crypto (decryptCall (heardDevice (driver.devices.get i) rssi) p) = true) := by
  obtain ⟨seq, hseq⟩ := handled_fields driver.callbacks crypto (driver.devices.get i) rssi p
  have hcount : deviceCount after.devices = deviceCount driver.devices := by
    rw [hval, hseq, deviceCount_eq_occupied, deviceCount_eq_occupied, devices_setDevice]
    exact congrArg SlotTable.occupied (slots_set_of_slotOf_eq rfl)
  have hother : ∀ j : Fin kMaxDevices, j ≠ i → after.devices.get j = driver.devices.get j := by
    intro j hj
    rw [hval, get_setDevice, if_neg hj]
  have hentry : after.devices.get i = (handleData driver.callbacks crypto
      (heardDevice (driver.devices.get i) rssi) p).val.2 := by
    rw [hval, get_setDevice, if_pos rfl]
  rw [Recommissioned, hentry, handleData_commissionable _ _ hok]
  split
  · rename_i haccept
    exact ⟨fun h => ⟨h.1, Or.inr haccept⟩, fun h => ⟨h.1, rfl, hcount, hother⟩⟩
  · rename_i haccept
    constructor
    · intro h
      exact ⟨h.1, Or.inl h.2.1⟩
    · rintro ⟨hkey, hnum | hall⟩
      · exact ⟨hkey, hnum, hcount, hother⟩
      · exact absurd hall haccept

/-- **Commissioning again.** In a reachable state with commissioning enabled, a commissioning
payload of a known device carries a number and a key in the layout of the device's type, and
leaves the entry with them if and only if the key is the stored one, and so is the number, or
the payload is accepted as a telegram of a device that is no switch. -/
theorem recommissioned_iff (callbacks : EnoceanCallbacks) (ops : List Op)
    (crypto : CryptoBackend) (addr : List UInt8) (addrType advType : UInt8) (rssi : Int8)
    (data : Span) (i : Fin kMaxDevices) :
    let driver := (run step (construct callbacks) ops).val
    let p := payloadOf data
    let device := driver.devices.get i
    driver.commissioningEnabled = true → Listens driver addr addrType advType →
    Commissionable addr p → device.active = true → device.bleAddr.addr.toList = addr →
    (∃ seq key, Credentials addr p seq key) ∧
    ∀ seq key, Credentials addr p seq key →
      (Recommissioned driver
          (processAdvertisement crypto driver addr addrType advType rssi data).val i seq key ↔
        device.key = key ∧ (device.seqNum = seq ∨
          device.type ≠ .switch ∧ device.seqNum < seq ∧
            crypto (decryptCall (heardDevice device rssi) p) = true)) := by
  intro driver p device _ hlisten hok hactive haddr
  refine ⟨(commissionable_iff_credentials addr p).mp hok, ?_⟩
  intro seq key hcarried
  have hinv : TableInvariant driver := tableInvariant_run callbacks ops
  have hslot : slots driver.devices i = some device.bleAddr.addr :=
    slotOf_eq_some_iff.mpr ⟨hactive, rfl⟩
  have hfind : findDevice driver.devices addr = some i :=
    haddr ▸ (findDevice_eq_some_iff hinv.wellFormed).mpr hslot
  have hsize : kDataPayloadMin ≤ p.size := Nat.le_trans (by decide) hok.1
  obtain rfl := hcarried.seqOf_eq
  cases processAdvertisement_outcome crypto driver addr addrType advType rssi data with
  | ignored hwhy =>
    rw [hwhy hlisten hsize] at hfind
    cases hfind
  | commissioned j _ _ _ hnone =>
    rw [hnone] at hfind
    cases hfind
  | known j _ _ hfind' hval =>
    obtain rfl : j = i := Option.some.inj (hfind'.symm.trans hfind)
    exact recommissioned_of_known hok hval key

/-- The payload the sample switch was commissioned with, heard again, and one of 27 bytes
whose key is another one and starts with the marker. -/
theorem recommissioned_iff_switch :
    let driver := (run step (construct ⟨true, true, true⟩) sampleSetup).val
    let hear (payload : List UInt8) := processAdvertisement (fun _ => true) driver
      sampleSwitch.toList kAddrRandom kAdvNonconnInd 0 (enoceanRecord payload)
    let zeroKey : Key := Vector.replicate kKeyLen 0
    let markerKey : Key := #v[0x3E, 0, 0, 0, 0, 0, 0, 0, 0, 0, 0, 0, 0, 0, 0, 0]
    Recommissioned driver (hear (plainLayout 1 zeroKey [0, 0])).val 0 1 zeroKey ∧
      ¬ Recommissioned driver (hear (plainLayout 1 markerKey (List.replicate 7 0))).val 0 1
        markerKey := by
  intro driver hear zeroKey markerKey
  constructor
  · obtain ⟨-, hiff⟩ := recommissioned_iff ⟨true, true, true⟩ sampleSetup (fun _ => true)
      sampleSwitch.toList kAddrRandom kAdvNonconnInd 0
      (enoceanRecord (plainLayout 1 zeroKey [0, 0])) 0
      (by decide +kernel) (by decide +kernel) (by decide +kernel) (by decide +kernel)
      (by decide +kernel)
    refine (hiff 1 zeroKey ?_).mpr ?_
    · exact ⟨[0, 0], by decide, by decide +kernel⟩
    · decide +kernel
  · obtain ⟨-, hiff⟩ := recommissioned_iff ⟨true, true, true⟩ sampleSetup (fun _ => true)
      sampleSwitch.toList kAddrRandom kAdvNonconnInd 0
      (enoceanRecord (plainLayout 1 markerKey (List.replicate 7 0))) 0
      (by decide +kernel) (by decide +kernel) (by decide +kernel) (by decide +kernel)
      (by decide +kernel)
    refine fun h => absurd ((hiff 1 markerKey ?_).mp h) ?_
    · exact ⟨List.replicate 7 0, by decide, by decide +kernel⟩
    · decide +kernel

/-- The sample switch with its number restarted: the payload carries key and number of a
fresh commissioning, and the entry keeps the old ones. -/
theorem not_recommissioned_switch :
    ¬ ∀ (callbacks : EnoceanCallbacks) (ops : List Op) (crypto : CryptoBackend)
      (addr : List UInt8) (addrType advType : UInt8) (rssi : Int8) (data : Span)
      (i : Fin kMaxDevices) (seq : UInt32) (key : Key),
      let driver := (run step (construct callbacks) ops).val
      driver.commissioningEnabled = true → Listens driver addr addrType advType →
      Commissionable addr (payloadOf data) → (driver.devices.get i).active = true →
      (driver.devices.get i).bleAddr.addr.toList = addr →
      Credentials addr (payloadOf data) seq key →
      Recommissioned driver
        (processAdvertisement crypto driver addr addrType advType rssi data).val i seq key := by
  intro h
  let key : Key := Vector.replicate kKeyLen 1
  refine absurd (h ⟨true, true, true⟩ sampleSetup (fun _ => true) sampleSwitch.toList kAddrRandom
    kAdvNonconnInd 0 (enoceanRecord (plainLayout 0 key [1, 1])) 0 0 key ?_ ?_ ?_ ?_ ?_ ?_) ?_
  case refine_6 => exact ⟨[1, 1], by decide, by decide +kernel⟩
  all_goals decide +kernel

end EnoceanCore.Enocean
