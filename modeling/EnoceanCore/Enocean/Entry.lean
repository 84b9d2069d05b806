import EnoceanCore.Enocean.Invariant

/-!
# The entry of one address

`entryOf devices a` is the entry of the address `a`, wherever it is in the table. A step
that is not from `a` leaves it alone (`entryOf_step_of_ne`); a step from `a` hands it to the
data handler (`processAdvertisement_known`), or creates it (`processAdvertisement_unknown`).
-/

namespace EnoceanCore.Enocean

open Lib

/-- The entry stored for an address. -/
def entryOf (devices : DeviceTable) (a : Address) : Option EnoceanDevice :=
  (findDevice devices a.toList).map fun i => devices.get i

/-- The address an advertisement comes from. -/
def Op.sender : Op → Option (List UInt8)
  | .processAdvertisement _ addr .. => some addr
  | _ => none

section Table

variable {driver : EnoceanDriver} {a : Address} {device : EnoceanDevice} {i : Fin kMaxDevices}

theorem entryOf_eq_some_iff {devices : DeviceTable} (h : (slots devices).WellFormed) :
    entryOf devices a = some device ↔ ∃ i, slots devices i = some a ∧ devices.get i = device := by
  rw [entryOf, Option.map_eq_some_iff]
  simp only [findDevice_eq_some_iff h]

theorem entryOf_eq_none_iff {devices : DeviceTable} :
    entryOf devices a = none ↔ ∀ i, slots devices i ≠ some a := by
  rw [entryOf, Option.map_eq_none_iff, findDevice_eq_none_iff]

theorem slots_setDevice (j : Fin kMaxDevices) :
    slots (setDevice driver i device).devices j =
      if j = i then slotOf device else slots driver.devices j := by
  rw [slots, get_setDevice]
  split <;> rfl

/-- Writing an entry of another address. -/
theorem entryOf_setDevice_of_ne (hbefore : (slots driver.devices).WellFormed)
    (hafter : (slots (setDevice driver i device).devices).WellFormed)
    (hold : slots driver.devices i ≠ some a) (hnew : slotOf device ≠ some a) :
    entryOf (setDevice driver i device).devices a = entryOf driver.devices a := by
  have hslot : ∀ j, slots (setDevice driver i device).devices j = some a ↔
      j ≠ i ∧ slots driver.devices j = some a := by
    intro j
    rw [slots_setDevice]
    by_cases hj : j = i
    · rw [if_pos hj]
      exact iff_of_false hnew fun h => h.1 hj
    · rw [if_neg hj]
      exact ⟨fun h => ⟨hj, h⟩, fun h => h.2⟩
  apply Option.ext
  intro found
  rw [entryOf_eq_some_iff hafter, entryOf_eq_some_iff hbefore]
  constructor
  · intro h
    rcases h with ⟨j, hj, hfound⟩
    obtain ⟨hne, hj⟩ := (hslot j).mp hj
    rw [get_setDevice, if_neg hne] at hfound
    exact ⟨j, hj, hfound⟩
  · intro h
    rcases h with ⟨j, hj, hfound⟩
    have hne : j ≠ i := by
      rintro rfl
      exact hold hj
    refine ⟨j, (hslot j).mpr ⟨hne, hj⟩, ?_⟩
    rw [get_setDevice, if_neg hne, hfound]

/-- Writing the entry of the address. -/
theorem entryOf_setDevice_self (hafter : (slots (setDevice driver i device).devices).WellFormed)
    (hnew : slotOf device = some a) :
    entryOf (setDevice driver i device).devices a = some device := by
  rw [entryOf_eq_some_iff hafter]
  refine ⟨i, ?_, ?_⟩
  · rw [slots_setDevice, if_pos rfl, hnew]
  · rw [get_setDevice, if_pos rfl]

end Table

/-! ## Steps -/

/-- An address as the list of bytes an advertisement is given with. -/
theorem address_of_length {addr : List UInt8} (h : addr.length = kAddrLen) :
    ∃ a : Address, a.toList = addr :=
  ⟨⟨addr.toArray, h⟩, rfl⟩

/-- **Frame.** A step that is not from `a` leaves the entry of `a` alone. -/
theorem entryOf_step_of_ne {driver : EnoceanDriver} (h : TableInvariant driver) {op : Op}
    (hop : op.isInit = false) {a : Address} (hsender : op.sender ≠ some a.toList) :
    entryOf (step driver op).val.devices a = entryOf driver.devices a := by
  have hafter := (h.step op).wellFormed
  cases op with
  | init => cases hop
  | enableCommissioning => rfl
  | disableCommissioning => rfl
  | processAdvertisement crypto addr addrType advType rssi data =>
    have hne : addr ≠ a.toList := fun heq => hsender (congrArg some heq)
    rw [step] at hafter ⊢
    cases processAdvertisement_outcome crypto driver addr addrType advType rssi data with
    | ignored _ hval => rw [hval]
    | known i hlisten _ hfind hval =>
      obtain ⟨b, rfl⟩ := address_of_length hlisten.2.1
      obtain ⟨seq, hseq⟩ := handled_fields driver.callbacks crypto (driver.devices.get i) rssi
        (payloadOf data)
      have hslot := (findDevice_eq_some_iff h.wellFormed).mp hfind
      have hba : b ≠ a := fun heq => hne (congrArg Vector.toList heq)
      rw [hval, hseq] at hafter ⊢
      refine entryOf_setDevice_of_ne h.wellFormed hafter ?_ ?_
      · rw [hslot]
        exact fun heq => hba (Option.some.inj heq)
      · change slots driver.devices i ≠ some a
        rw [hslot]
        exact fun heq => hba (Option.some.inj heq)
    | commissioned i hlisten _ _ _ halloc hval =>
      obtain ⟨b, hb, hnew⟩ := slotOf_newDevice (driver.devices.get i) hlisten.2.1 addrType rssi
        (payloadOf data)
      rw [allocateDevice_eq_firstFree] at halloc
      rw [hval] at hafter ⊢
      refine entryOf_setDevice_of_ne h.wellFormed hafter ?_ ?_
      · rw [(SlotTable.firstFree_eq_some_iff.mp halloc).1]
        exact fun heq => by cases heq
      · rw [hnew]
        exact fun heq => hne (hb ▸ congrArg Vector.toList (Option.some.inj heq))

section Own

variable {driver : EnoceanDriver} {a : Address} (crypto : CryptoBackend)
  (addrType advType : UInt8) (rssi : Int8) (data : Span)

/-- An advertisement that fails the first tests, or is too short, does nothing. -/
theorem processAdvertisement_deaf {addr : List UInt8}
    (h : ¬ (Listens driver addr addrType advType ∧ kDataPayloadMin ≤ (payloadOf data).size)) :
    let r := processAdvertisement crypto driver addr addrType advType rssi data
    r.val = driver ∧ events r = [] ∧ decrypts r = [] ∧ stores r = [] := by
  intro r
  cases processAdvertisement_outcome crypto driver addr addrType advType rssi data with
  | ignored _ hval hdecrypts hstores hevents => exact ⟨hval, hevents, hdecrypts, hstores⟩
  | known i hlisten hsize => exact absurd ⟨hlisten, hsize⟩ h
  | commissioned i hlisten _ hok => exact absurd ⟨hlisten, Nat.le_trans (by decide) hok.1⟩ h

/-- An advertisement of a known device goes to the data handler. -/
theorem processAdvertisement_known (hinv : TableInvariant driver) {device : EnoceanDevice}
    (hentry : entryOf driver.devices a = some device)
    (hlisten : Listens driver a.toList addrType advType)
    (hsize : kDataPayloadMin ≤ (payloadOf data).size) :
    let r := processAdvertisement crypto driver a.toList addrType advType rssi data
    let handled := handleData driver.callbacks crypto (heardDevice device rssi) (payloadOf data)
    entryOf r.val.devices a = some handled.val.2 ∧ events r = events handled ∧
      decrypts r = decrypts handled ∧ stores r = [] := by
  intro r handled
  have hafter := (hinv.step (.processAdvertisement crypto a.toList addrType advType rssi
    data)).wellFormed
  rw [step] at hafter
  obtain ⟨j, hj, hdevice⟩ := (entryOf_eq_some_iff hinv.wellFormed).mp hentry
  have hfind' := (findDevice_eq_some_iff hinv.wellFormed).mpr hj
  cases processAdvertisement_outcome crypto driver a.toList addrType advType rssi data with
  | ignored hwhy =>
    rw [hwhy hlisten hsize] at hfind'
    cases hfind'
  | commissioned i _ _ _ hfind =>
    rw [hfind] at hfind'
    cases hfind'
  | known i _ _ hfind hval hdecrypts hstores hevents =>
    obtain rfl : i = j := Option.some.inj (hfind.symm.trans hfind')
    subst hdevice
    refine ⟨?_, hevents, hdecrypts, hstores⟩
    change entryOf (processAdvertisement crypto driver a.toList addrType advType rssi
      data).val.devices a = _
    rw [hval] at hafter ⊢
    apply entryOf_setDevice_self hafter
    obtain ⟨seq, hseq⟩ := handled_fields driver.callbacks crypto (driver.devices.get i) rssi
      (payloadOf data)
    rw [hseq]
    exact hj

/-- An advertisement of an unknown device creates its entry or does nothing. -/
theorem processAdvertisement_unknown (hinv : TableInvariant driver)
    (hentry : entryOf driver.devices a = none) :
    let r := processAdvertisement crypto driver a.toList addrType advType rssi data
    decrypts r = [] ∧ (r.val = driver ∧ events r = [] ∧ stores r = [] ∨
      ∃ i device, device.bleAddr.addr = a ∧ entryOf r.val.devices a = some device ∧
        stores r = [(i, true, device)] ∧
        events r = if driver.callbacks.commissioned then [.commissioned device] else []) := by
  intro r
  have hafter := (hinv.step (.processAdvertisement crypto a.toList addrType advType rssi
    data)).wellFormed
  rw [step] at hafter
  cases processAdvertisement_outcome crypto driver a.toList addrType advType rssi data with
  | ignored _ hval hdecrypts hstores hevents =>
    exact ⟨hdecrypts, Or.inl ⟨hval, hevents, hstores⟩⟩
  | known i _ _ hfind =>
    exact absurd ((findDevice_eq_some_iff hinv.wellFormed).mp hfind)
      (entryOf_eq_none_iff.mp hentry i)
  | commissioned i hlisten _ _ _ _ hval hdecrypts hstores hevents =>
    obtain ⟨b, hb, hslot⟩ := slotOf_newDevice (driver.devices.get i) hlisten.2.1 addrType rssi
      (payloadOf data)
    obtain rfl : b = a := Vector.toList_inj.mp hb
    refine ⟨hdecrypts, Or.inr ⟨i, _, (slotOf_eq_some_iff.mp hslot).2, ?_, hstores, hevents⟩⟩
    change entryOf (processAdvertisement crypto driver b.toList addrType advType rssi
      data).val.devices b = _
    rw [hval] at hafter ⊢
    exact entryOf_setDevice_self hafter hslot

end Own

/-! ## A table with one switch -/

/-- An advertisement with a single EnOcean record, heard from `a`. -/
def Op.record (crypto : CryptoBackend) (a : Address) (payload : List UInt8) : Op :=
  .processAdvertisement crypto a.toList kAddrRandom kAdvNonconnInd 0 (enoceanRecord payload)

/-- The address of a PTM-215B switch. -/
def sampleSwitch : Address := #v[0x01, 0x02, 0x03, 0x04, 0xDA, 0x03]

/-- Commissioning of a switch with sequence number 1 and the zero key. -/
def sampleSetup : List Op :=
  [.init, .enableCommissioning,
    .record (fun _ => true) sampleSwitch ([1, 0, 0, 0] ++ List.replicate 18 0)]

end EnoceanCore.Enocean
