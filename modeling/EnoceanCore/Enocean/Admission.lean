import EnoceanCore.Enocean.Entry

/-!
# Which devices enter the table

The tests that decide on a new entry are spread over `process_advertisement`,
`handle_commissioning` and `allocate_device`. Together they are `Admits`, and an
advertisement creates an entry exactly if it passes them (`admission`): in the first inactive
slot, with the data of the advertisement, and announced by one callback.
-/

namespace EnoceanCore.Enocean

open Lib

/-- The tests a new device passes. -/
structure Admits (driver : EnoceanDriver) (addr : List UInt8) (addrType advType : UInt8)
    (p : Span) : Prop where
  initialised : driver.initialised = true
  enabled : driver.commissioningEnabled = true
  length : addr.length = 6
  advType : advType = 3
  addrType : addrType = 1
  size : 22 ≤ p.size
  unknown : ∀ i : Fin kMaxDevices, (driver.devices.get i).active = true →
    (driver.devices.get i).bleAddr.addr.toList ≠ addr
  room : ∃ i : Fin kMaxDevices, (driver.devices.get i).active = false
  sensor : detectDeviceType addr = .sensor → p.size = 27 ∧ p.byte 4 = 0x3E

/-- A slot that was inactive is active. -/
def EntryAppears (driver after : EnoceanDriver) : Prop :=
  ∃ i : Fin kMaxDevices, (driver.devices.get i).active = false ∧
    (after.devices.get i).active = true

/-- The new entry is in the first inactive slot, carries the data of the advertisement, and is
the only change; nothing but its callback is made. -/
structure EntersFirst (driver after : EnoceanDriver) (addr : List UInt8) (addrType : UInt8)
    (rssi : Int8) (p : Span) (es : List Event) (i : Fin kMaxDevices) : Prop where
  inactive : (driver.devices.get i).active = false
  first : ∀ j < i, (driver.devices.get j).active = true
  active : (after.devices.get i).active = true
  sender : (after.devices.get i).bleAddr.addr.toList = addr
  senderType : (after.devices.get i).bleAddr.type = addrType
  strength : (after.devices.get i).rssi = rssi
  type : (after.devices.get i).type = detectDeviceType addr
  seqNum : (after.devices.get i).seqNum = seqOf p
  others : ∀ j : Fin kMaxDevices, j ≠ i → after.devices.get j = driver.devices.get j
  events : es =
    if driver.callbacks.commissioned then [.commissioned (after.devices.get i)] else []

/-- The addresses of the active entries. -/
def ActiveAddress (devices : DeviceTable) (a : Address) : Prop :=
  ∃ i : Fin kMaxDevices, (devices.get i).active = true ∧ (devices.get i).bleAddr.addr = a

theorem activeAddress_iff {devices : DeviceTable} {a : Address} :
    ActiveAddress devices a ↔ ∃ i, slots devices i = some a :=
  exists_congr fun _ => slotOf_eq_some_iff.symm

/-! ## The tests of the source -/

theorem stmFormat_eq_true {p : Span} :
    stmFormat p = true ↔ p.size = 27 ∧ p.byte 4 = 0x3E := by
  rw [stmFormat, Bool.and_eq_true, beq_iff_eq, beq_iff_eq]

theorem allocateDevice_eq_none_iff {devices : DeviceTable} :
    allocateDevice devices = none ↔
      ∀ i : Fin kMaxDevices, (devices.get i).active = true := by
  rw [allocateDevice, Fin.find?_eq_none_iff]
  simp only [Bool.not_eq_false']

theorem allocateDevice_eq_some_iff {devices : DeviceTable} {i : Fin kMaxDevices} :
    allocateDevice devices = some i ↔
      (devices.get i).active = false ∧ ∀ j < i, (devices.get j).active = true := by
  rw [allocateDevice, Fin.find?_eq_some_iff]
  simp only [Bool.not_eq_true', Bool.not_eq_false']

theorem unknown_iff {devices : DeviceTable} {addr : List UInt8} (hlen : addr.length = 6) :
    findDevice devices addr = none ↔
      ∀ i : Fin kMaxDevices, (devices.get i).active = true →
        (devices.get i).bleAddr.addr.toList ≠ addr := by
  obtain ⟨a, rfl⟩ := address_of_length hlen
  rw [findDevice_eq_none_iff]
  refine forall_congr' fun i => ?_
  rw [slots, Ne, slotOf_eq_some_iff, not_and]
  exact imp_congr_right fun _ => not_congr Vector.toList_inj.symm

/-- The tests together are those of the source, each where it is made. -/
theorem admits_iff {driver : EnoceanDriver} {addr : List UInt8} {addrType advType : UInt8}
    {p : Span} :
    Admits driver addr addrType advType p ↔
      Listens driver addr addrType advType ∧ driver.commissioningEnabled = true ∧
        Commissionable addr p ∧ findDevice driver.devices addr = none ∧
        allocateDevice driver.devices ≠ none := by
  have hroom : allocateDevice driver.devices ≠ none ↔
      ∃ i : Fin kMaxDevices, (driver.devices.get i).active = false := by
    rw [Ne, allocateDevice_eq_none_iff, not_forall]
    exact exists_congr fun i => Bool.eq_false_iff.symm
  constructor
  · intro hadmits
    rcases hadmits with ⟨hinit, henabled, hlen, hadv, haddr, hsize, hunknown, hfree, hsensor⟩
    exact ⟨⟨hinit, hlen, hadv, haddr⟩, henabled,
      ⟨hsize, fun h => stmFormat_eq_true.mpr (hsensor h)⟩, (unknown_iff hlen).mpr hunknown,
      hroom.mpr hfree⟩
  · intro hguards
    rcases hguards with ⟨⟨hinit, hlen, hadv, haddr⟩, henabled, hok, hfind, hfree⟩
    exact ⟨hinit, henabled, hlen, hadv, haddr, hok.1, (unknown_iff hlen).mp hfind,
      hroom.mp hfree, fun h => stmFormat_eq_true.mp (hok.2 h)⟩

/-! ## What an advertisement does -/

/-- An advertisement that passes the tests is commissioned. -/
theorem processAdvertisement_commissions (crypto : CryptoBackend) {driver : EnoceanDriver}
    {addr : List UInt8} {addrType advType : UInt8} (rssi : Int8) {data : Span}
    (h : Admits driver addr addrType advType (payloadOf data)) :
    (processAdvertisement crypto driver addr addrType advType rssi data).val ≠ driver := by
  obtain ⟨⟨hinit, hlen, rfl, rfl⟩, henabled, hok, hfind, hfree⟩ := admits_iff.mp h
  have hsize := hok.1
  have hlong : ¬ (payloadOf data).size < kDataPayloadMin := by
    simp only [kDataPayloadMin, kCommissioningPayloadMin] at hsize ⊢
    omega
  have hne : ¬ (payloadOf data).size = 0 := by
    simp only [kCommissioningPayloadMin] at hsize
    omega
  have hval : (processAdvertisement crypto driver addr kAddrRandom kAdvNonconnInd rssi data).val =
      (handleCommissioning driver addr kAddrRandom rssi (payloadOf data)).val.2 := by
    unfold processAdvertisement
    simp [hinit, hlen, hlong, hne, hfind, hsize, henabled]
  rw [hval]
  cases handleCommissioning_outcome driver addr kAddrRandom rssi (payloadOf data) with
  | reject hwhy =>
    rcases hwhy with hno | ⟨-, hfull⟩
    · exact absurd hok hno
    · exact absurd hfull hfree
  | refresh i _ hknown =>
    rw [hfind] at hknown
    cases hknown
  | fresh i _ _ halloc hval =>
    rw [hval]
    intro hsame
    have hactive := (allocateDevice_eq_some_iff.mp halloc).1
    have hentry := congrArg (fun d : EnoceanDriver => (d.devices.get i).active) hsame
    dsimp only at hentry
    rw [get_setDevice, if_pos rfl, hactive] at hentry
    cases hentry

/-- With the same slots there is no new entry, and the addresses are the same. -/
theorem not_entryAppears_of_slots {driver after : EnoceanDriver}
    (h : slots after.devices = slots driver.devices) :
    ¬ EntryAppears driver after ∧
      ∀ a, ActiveAddress after.devices a ↔ ActiveAddress driver.devices a := by
  constructor
  · intro happears
    rcases happears with ⟨i, hbefore, hafter⟩
    rw [← slots_isSome, h, slots_isSome, hbefore] at hafter
    cases hafter
  · intro a
    rw [activeAddress_iff, activeAddress_iff, h]

/-- A data handler makes no commissioned callback. -/
theorem commissioned_notMem_handleData (callbacks : EnoceanCallbacks) (crypto : CryptoBackend)
    (device : EnoceanDevice) (p : Span) (entry : EnoceanDevice) :
    Event.commissioned entry ∉ events (handleData callbacks crypto device p) := by
  intro hmem
  rcases (handleData_outcome callbacks crypto device p).events_eq with ⟨hevents, -⟩ | ⟨hevents, -⟩
  · rw [hevents] at hmem
    rcases (mem_dataEvents callbacks device hmem).2 with ⟨-, heq⟩ | ⟨-, heq⟩
    · cases heq
    · cases heq
  · rw [hevents] at hmem
    cases hmem

/-- **Admission.** After any run, an advertisement creates an entry if and only if it passes the
tests. The entry is then in the first inactive slot, with the data of the advertisement, no
other slot changes, and the commissioned callback, if it is registered, is the only one. An
advertisement that creates none makes no commissioned callback and leaves the active addresses
as they are. -/
theorem admission (callbacks : EnoceanCallbacks) (ops : List Op) (crypto : CryptoBackend)
    (addr : List UInt8) (addrType advType : UInt8) (rssi : Int8) (data : Span) :
    let driver := (run step (construct callbacks) ops).val
    let r := processAdvertisement crypto driver addr addrType advType rssi data
    let p := payloadOf data
    (EntryAppears driver r.val ↔ Admits driver addr addrType advType p) ∧
    (EntryAppears driver r.val →
      ∃ i, EntersFirst driver r.val addr addrType rssi p (events r) i) ∧
    (¬ EntryAppears driver r.val →
      (∀ device, Event.commissioned device ∉ events r) ∧
        ∀ a, ActiveAddress r.val.devices a ↔ ActiveAddress driver.devices a) := by
  intro driver r p
  have hcommissions := @processAdvertisement_commissions crypto driver addr addrType advType rssi
    data
  cases processAdvertisement_outcome crypto driver addr addrType advType rssi data with
  | ignored _ hval _ _ hevents =>
    obtain ⟨hno, hsame⟩ :=
      not_entryAppears_of_slots (congrArg (fun d : EnoceanDriver => slots d.devices) hval)
    refine ⟨iff_of_false hno fun h => hcommissions h hval, fun h => absurd h hno,
      fun _ => ⟨fun device => ?_, hsame⟩⟩
    rw [show events r = [] from hevents]
    exact List.not_mem_nil
  | known i hlisten _ hfind hval _ _ hevents =>
    have hslots : slots r.val.devices = slots driver.devices := by
      obtain ⟨seq, hseq⟩ := handled_fields driver.callbacks crypto (driver.devices.get i) rssi p
      rw [show r.val = _ from hval, hseq, devices_setDevice]
      exact slots_set_of_slotOf_eq rfl
    obtain ⟨hno, hsame⟩ := not_entryAppears_of_slots hslots
    refine ⟨iff_of_false hno fun h => ?_, fun h => absurd h hno,
      fun _ => ⟨fun device => ?_, hsame⟩⟩
    · have hunknown := (admits_iff.mp h).2.2.2.1
      rw [hfind] at hunknown
      cases hunknown
    · rw [show events r = _ from hevents]
      exact commissioned_notMem_handleData _ _ _ _ device
  | commissioned i hlisten henabled hok hfind halloc hval _ _ hevents =>
    obtain ⟨hfree, hfirst⟩ := allocateDevice_eq_some_iff.mp halloc
    have hnew : r.val.devices.get i = newDevice (driver.devices.get i) addr addrType rssi p := by
      rw [show r.val = _ from hval, get_setDevice, if_pos rfl]
    have hentry : EntersFirst driver r.val addr addrType rssi p (events r) i := by
      refine ⟨hfree, hfirst, ?_, ?_, ?_, ?_, ?_, ?_, fun j hj => ?_, ?_⟩
      · rw [hnew]
        rfl
      · rw [hnew]
        exact overwrite_address _ hlisten.2.1
      · rw [hnew]
        rfl
      · rw [hnew]
        rfl
      · rw [hnew]
        rfl
      · rw [hnew]
        rfl
      · rw [show r.val = _ from hval, get_setDevice, if_neg hj]
      · rw [hnew]
        exact hevents
    have happears : EntryAppears driver r.val := ⟨i, hfree, hentry.active⟩
    refine ⟨iff_of_true happears ?_, fun _ => ⟨i, hentry⟩, fun h => absurd happears h⟩
    apply admits_iff.mpr
    refine ⟨hlisten, henabled, hok, hfind, ?_⟩
    rw [halloc]
    exact Option.some_ne_none i

end EnoceanCore.Enocean
