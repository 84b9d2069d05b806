import EnoceanCore.Enocean.Types
import EnoceanCore.Lib.SlotTable

/-!
# The device table

The table of commissioned devices and its lookups. Seen through `slots`, a table of
entries is a slot table of addresses: a free slot is an inactive entry. What the driver
relies on, that each address is stored once and that the active entries are a prefix, is
`Lib.SlotTable.WellFormed` of the slots.
-/

namespace EnoceanCore.Enocean

open Lib

abbrev Address : Type := Vector UInt8 kAddrLen

abbrev DeviceTable : Type := Vector EnoceanDevice kMaxDevices

/-- The first active entry whose address starts with the bytes of `addr`. -/
def findDevice (devices : DeviceTable) (addr : List UInt8) : Option (Fin kMaxDevices) :=
  Fin.find? fun i => (devices.get i).active && addr.isPrefixOf (devices.get i).bleAddr.addr.toList

/-- The first inactive entry. -/
def allocateDevice (devices : DeviceTable) : Option (Fin kMaxDevices) :=
  Fin.find? fun i => !(devices.get i).active

def detectDeviceType (addr : List UInt8) : DeviceType :=
  if h : addr.length < kAddrLen then .unknown
  else
    have h5 : 5 < addr.length := Nat.le_of_not_lt h
    have h4 : 4 < addr.length := Nat.lt_of_succ_lt h5
    if (addr[5] = kSwitchAddr5 ∧ addr[4] = kSwitchAddr4) ∨
        (addr[5] = kSwitchPtm216bAddr5 ∧ addr[4] = kSwitchPtm216bAddr4) then .switch
    else if addr[5] = kSensorAddr5 then .sensor
    else .unknown

/-- The number of active entries. -/
def deviceCount (devices : DeviceTable) : Nat := devices.countP fun dev => dev.active

theorem get_eq_getElem (devices : DeviceTable) (i : Fin kMaxDevices) :
    devices.get i = devices[(i : Nat)] := rfl

theorem get_set (devices : DeviceTable) (i j : Fin kMaxDevices) (dev : EnoceanDevice) :
    (devices.set i dev).get j = if j = i then dev else devices.get j := by
  by_cases h : j = i
  · subst h
    simp [get_eq_getElem]
  · have hne : (i : Nat) ≠ j := fun hv => h (Fin.ext hv.symm)
    simp [get_eq_getElem, h, hne]

theorem get_replicate (dev : EnoceanDevice) (i : Fin kMaxDevices) :
    (Vector.replicate kMaxDevices dev).get i = dev := by
  rw [get_eq_getElem, Vector.getElem_replicate]

/-! ## The table as slots of addresses -/

/-- The address an entry is stored for, if it is in use. -/
def slotOf (dev : EnoceanDevice) : Option Address :=
  if dev.active then some dev.bleAddr.addr else none

def slots (devices : DeviceTable) : SlotTable kMaxDevices Address := fun i => slotOf (devices.get i)

theorem slotOf_eq_some_iff {dev : EnoceanDevice} {a : Address} :
    slotOf dev = some a ↔ dev.active = true ∧ dev.bleAddr.addr = a := by
  unfold slotOf
  split <;> simp_all

theorem slotOf_isSome (dev : EnoceanDevice) : (slotOf dev).isSome = dev.active := by
  unfold slotOf
  cases dev.active <;> rfl

theorem slots_isSome (devices : DeviceTable) (i : Fin kMaxDevices) :
    (slots devices i).isSome = (devices.get i).active := slotOf_isSome (devices.get i)

/-- Writing an entry changes one slot. -/
theorem slots_set (devices : DeviceTable) (i : Fin kMaxDevices) (dev : EnoceanDevice) :
    slots (devices.set i dev) = Function.update (slots devices) i (slotOf dev) := by
  funext j
  rw [slots, get_set, Function.update_apply]
  split <;> rfl

/-- Rewriting an entry under the same address and activity changes no slot. -/
theorem slots_set_of_slotOf_eq {devices : DeviceTable} {i : Fin kMaxDevices} {dev : EnoceanDevice}
    (h : slotOf dev = slotOf (devices.get i)) : slots (devices.set i dev) = slots devices := by
  rw [slots_set, h]
  exact Function.update_eq_self i (slots devices)

theorem deviceCount_eq_occupied (devices : DeviceTable) :
    deviceCount devices = SlotTable.occupied (slots devices) := by
  have hlist : devices.toList = (List.finRange kMaxDevices).map fun i => devices.get i := by
    apply List.ext_getElem
    · simp
    · intro i h1 h2
      simp [get_eq_getElem]
  rw [deviceCount, ← Vector.countP_toList, hlist, List.countP_map, SlotTable.occupied,
    Finset.card_def, Finset.filter_val, Fin.univ_def]
  simp only [Multiset.filter_coe, Multiset.coe_card, slots_isSome, List.countP_eq_length_filter,
    Bool.decide_eq_true, Function.comp_def]

/-! ## Lookups -/

theorem isPrefixOf_address {addr : List UInt8} (hlen : addr.length = kAddrLen) (a : Address) :
    addr.isPrefixOf a.toList = true ↔ a.toList = addr := by
  rw [List.isPrefixOf_iff_prefix]
  constructor
  · exact fun h => (h.eq_of_length (by simp [hlen])).symm
  · rintro rfl
    exact List.prefix_rfl

/-- The entry a lookup finds is active and stored for the address. -/
theorem findDevice_active {devices : DeviceTable} {addr : List UInt8} {i : Fin kMaxDevices}
    (hlen : addr.length = kAddrLen) (h : findDevice devices addr = some i) :
    (devices.get i).active = true ∧ (devices.get i).bleAddr.addr.toList = addr := by
  have hmatch := (Fin.find?_eq_some_iff.mp h).1
  rw [Bool.and_eq_true, isPrefixOf_address hlen] at hmatch
  exact hmatch

/-- In a well-formed table a lookup finds exactly the entry stored for the address. -/
theorem findDevice_eq_some_iff {devices : DeviceTable} (h : (slots devices).WellFormed)
    {a : Address} {i : Fin kMaxDevices} :
    findDevice devices a.toList = some i ↔ slots devices i = some a := by
  have hmatch : ∀ j, ((devices.get j).active &&
      a.toList.isPrefixOf (devices.get j).bleAddr.addr.toList) = true ↔
        slots devices j = some a := by
    intro j
    rw [slots, slotOf_eq_some_iff, Bool.and_eq_true, isPrefixOf_address (by simp),
      Vector.toList_inj]
  rw [findDevice, Fin.find?_eq_some_iff, hmatch]
  constructor
  · exact fun hfound => hfound.1
  · intro hi
    refine ⟨hi, fun j hj => ?_⟩
    rw [← Bool.not_eq_true, hmatch]
    exact fun hj' => absurd (h.distinct hj' hi) (Fin.ne_of_lt hj)

theorem findDevice_eq_none_iff {devices : DeviceTable} {a : Address} :
    findDevice devices a.toList = none ↔ ∀ i, slots devices i ≠ some a := by
  rw [findDevice, Fin.find?_eq_none_iff]
  refine forall_congr' fun i => ?_
  rw [← Bool.not_eq_true, Bool.and_eq_true, isPrefixOf_address (by simp), Vector.toList_inj,
    slots, Ne, slotOf_eq_some_iff]

theorem allocateDevice_eq_firstFree (devices : DeviceTable) :
    allocateDevice devices = SlotTable.firstFree (slots devices) := by
  unfold allocateDevice SlotTable.firstFree
  congr 1
  funext i
  rw [← Option.not_isSome, slots_isSome]

/-! ## Driver state -/

/-- The state of an `EnoceanDriver`; the crypto backend is an argument of the operations. -/
structure EnoceanDriver where
  callbacks : EnoceanCallbacks
  initialised : Bool := false
  commissioningEnabled : Bool := false
  devices : DeviceTable := Vector.replicate kMaxDevices {}
  deriving DecidableEq, Repr

/-- The driver with the entry of one slot replaced. -/
def setDevice (driver : EnoceanDriver) (i : Fin kMaxDevices) (device : EnoceanDevice) :
    EnoceanDriver :=
  { driver with devices := driver.devices.set i device }

@[simp] theorem devices_setDevice (driver : EnoceanDriver) (i : Fin kMaxDevices)
    (device : EnoceanDevice) :
    (setDevice driver i device).devices = driver.devices.set i device := rfl

theorem get_setDevice (driver : EnoceanDriver) (i j : Fin kMaxDevices) (device : EnoceanDevice) :
    (setDevice driver i device).devices.get j =
      if j = i then device else driver.devices.get j := get_set driver.devices i j device

end EnoceanCore.Enocean
