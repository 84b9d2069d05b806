import EnoceanCore.Lib.Memory

/-!
# Types and constants of the EnOcean driver

`EnoceanTypes.hpp` and the constants of namespace `detail` in `EnoceanDriver.ipp`, with the
actions the driver is observed by: accesses to the advertisement data, calls of the
crypto backend, entries written by `handle_commissioning`, and application callbacks.

Log messages are left out, and so are the callbacks `decommissioned` and `loaded`, which
the driver never calls.
-/

namespace EnoceanCore.Enocean

open Lib

/-! ## Constants -/

abbrev kEnoceanManufacturerId : UInt16 := 0x03DA
abbrev kKeyLen : Nat := 16
abbrev kTagLen : Nat := 4
abbrev kNonceLen : Nat := 13
abbrev kAddrLen : Nat := 6
abbrev kMaxDevices : Nat := 8

abbrev kAdTypeManufacturer : UInt8 := 0xFF
abbrev kCommissioningPayloadMin : Nat := 22
abbrev kDataPayloadMin : Nat := 9
abbrev kSeqOffset : Nat := 0
abbrev kKeyOffset : Nat := 4
abbrev kSwitchStateOffset : Nat := 4
abbrev kSensorDataOffset : Nat := 4
abbrev kSwitchAddr5 : UInt8 := 0x03
abbrev kSwitchAddr4 : UInt8 := 0xDA
abbrev kSwitchPtm216bAddr5 : UInt8 := 0xE2
abbrev kSwitchPtm216bAddr4 : UInt8 := 0x15
abbrev kSensorAddr5 : UInt8 := 0xE5
abbrev kStmCommissioningMarker : UInt8 := 0x3E
abbrev kStmCommissioningPayloadLen : Nat := 27
abbrev kAdvNonconnInd : UInt8 := 0x03
abbrev kAddrRandom : UInt8 := 0x01
abbrev kTlvTypeMask : UInt8 := 0x3F
abbrev kTlvSizeShift : UInt8 := 6
abbrev kTlvSizeVar : UInt8 := 0x03
abbrev kTlvTypeOptional : UInt8 := 0x3C
abbrev kTlvTypeCommissioning : UInt8 := 0x3E
abbrev kTlvCommissioningBlock : Nat := 22

/-- Local to `handle_switch`: the longest switch payload. -/
abbrev kSwitchPayloadMax : Nat := 13

/-- Local to `handle_switch`: the reserved bits of the status byte. -/
abbrev kStatusReservedMask : UInt8 := 0xE0

/-! ## Devices -/

inductive ButtonAction where
  | release
  | press
  deriving DecidableEq, Repr

inductive DeviceType where
  | switch
  | sensor
  | unknown
  deriving DecidableEq, Repr

/-- A BLE address; `addr[0]` is the least significant byte. -/
structure BleAddr where
  addr : Vector UInt8 kAddrLen := Vector.replicate kAddrLen 0
  type : UInt8 := 0
  deriving DecidableEq, Repr

/-- An entry of the device table. The defaults are those of a free slot. -/
structure EnoceanDevice where
  bleAddr : BleAddr := {}
  key : Vector UInt8 kKeyLen := Vector.replicate kKeyLen 0
  seqNum : UInt32 := 0
  rssi : Int8 := 0
  type : DeviceType := .unknown
  active : Bool := false
  deriving DecidableEq, Repr

/-- The measurements of a sensor report; a missing one is `none`. -/
structure SensorData where
  occupancy : Option Bool := none
  lightSensor : Option UInt16 := none
  batteryVoltage : Option UInt16 := none
  lightSolarCell : Option UInt16 := none
  energyLvl : Option UInt8 := none
  temperatureCdeg : Option Int16 := none
  humidity : Option UInt8 := none
  contact : Option Bool := none
  accelStatus : Option UInt8 := none
  accelXCg : Option Int16 := none
  accelYCg : Option Int16 := none
  accelZCg : Option Int16 := none
  deriving DecidableEq, Repr

/-! ## The application and the crypto backend -/

/-- Which callbacks of the application's table are registered (not null). -/
structure EnoceanCallbacks where
  button : Bool
  sensor : Bool
  commissioned : Bool
  deriving DecidableEq, Repr

/-- A callback with its arguments. An optional payload is a pointer, possibly null (`none`),
and a length. -/
inductive Event where
  | button (device : EnoceanDevice) (action : ButtonAction) (changed : UInt8)
      (optData : Option (List UInt8)) (optLen : Nat)
  | sensor (device : EnoceanDevice) (data : SensorData) (optData : Option (List UInt8))
      (optLen : Nat)
  | commissioned (device : EnoceanDevice)
  deriving DecidableEq, Repr

/-- The table entry a callback is given. -/
def Event.device : Event → EnoceanDevice
  | .button device .. => device
  | .sensor device .. => device
  | .commissioned device => device

/-- The callback reports a data advertisement. -/
def Event.isData : Event → Bool
  | .button .. => true
  | .sensor .. => true
  | .commissioned _ => false

/-- The arguments of `aes_ccm_decrypt`; of the output span only the size matters. -/
structure DecryptCall where
  key : List UInt8
  nonce : List UInt8
  aad : List UInt8
  ciphertext : List UInt8
  tag : Vector UInt8 kTagLen
  plaintextSize : Nat
  deriving DecidableEq, Repr

/-- What the driver knows of its crypto backend: an answer to each call. -/
abbrev CryptoBackend : Type := DecryptCall → Bool

/-! ## Actions -/

/-- What the driver is seen to do. -/
inductive Action where
  /-- An access to the advertisement data or a part of it. -/
  | access (a : Access)
  /-- A call of the crypto backend and its answer. -/
  | decrypt (call : DecryptCall) (accepted : Bool)
  /-- `handle_commissioning` wrote an entry, of a new device if `fresh`. -/
  | store (slot : Fin kMaxDevices) (fresh : Bool) (device : EnoceanDevice)
  /-- A callback of the application. -/
  | callback (event : Event)
  deriving DecidableEq, Repr

instance : HasAccess Action := ⟨Action.access⟩

namespace Action

@[simp] def access? : Action → Option Access
  | access a => some a
  | _ => none

@[simp] def decrypt? : Action → Option (DecryptCall × Bool)
  | decrypt call accepted => some (call, accepted)
  | _ => none

@[simp] def store? : Action → Option (Fin kMaxDevices × Bool × EnoceanDevice)
  | store slot fresh device => some (slot, fresh, device)
  | _ => none

@[simp] def event? : Action → Option Event
  | callback event => some event
  | _ => none

@[simp] theorem hasAccess_access (a : Access) : (HasAccess.access a : Action) = access a := rfl

/-- The projection drops the accesses. -/
class IgnoresAccess {δ : Type} (f : Action → Option δ) : Prop where
  access (a : Access) : f (.access a) = none

instance : IgnoresAccess decrypt? := ⟨fun _ => rfl⟩

instance : IgnoresAccess store? := ⟨fun _ => rfl⟩

instance : IgnoresAccess event? := ⟨fun _ => rfl⟩

end Action

/-- The calls of the crypto backend, with its answers. -/
abbrev decrypts {α : Type} (x : Traced Action α) : List (DecryptCall × Bool) :=
  x.proj Action.decrypt?

/-- The entries written by `handle_commissioning`. -/
abbrev stores {α : Type} (x : Traced Action α) : List (Fin kMaxDevices × Bool × EnoceanDevice) :=
  x.proj Action.store?

/-- The callbacks of the application. -/
abbrev events {α : Type} (x : Traced Action α) : List Event := x.proj Action.event?

/-! ## Bounds -/

/-- Nothing is done but accessing bytes through the given view. -/
def AccessesThrough {α : Type} (view : Extent) (x : Traced Action α) : Prop :=
  x.Every fun e => ∃ a, e = Action.access a ∧ a.view = view

/-- Every access stays in the view it goes through. -/
def InBounds {α : Type} (x : Traced Action α) : Prop :=
  x.Every fun e => ∀ a, e = Action.access a → a.InBounds

/-- Every access stays in the view it goes through and within the extent `outer`. -/
def Confined {α : Type} (outer : Extent) (x : Traced Action α) : Prop :=
  x.Every fun e => ∀ a, e = Action.access a → a.InBounds ∧ a.Inside outer

section Bounds

variable {α β : Type} {outer view : Extent}

theorem inBounds_pure (a : α) : InBounds (pure a : Traced Action α) := Traced.every_pure _ a

theorem inBounds_bind {x : Traced Action α} {f : α → Traced Action β} :
    InBounds (x >>= f) ↔ InBounds x ∧ InBounds (f x.val) := Traced.every_bind _ x f

theorem inBounds_get (s : Span) (i : Nat) :
    InBounds (s.get i : Traced Action UInt8) ↔ i < s.size := by
  rw [InBounds, Span.every_get]
  exact ⟨fun h => h _ rfl, fun h a ha => by cases ha; exact h⟩

theorem inBounds_subspan (s : Span) (o n : Nat) :
    InBounds (s.subspan o n : Traced Action Span) ↔ o + n ≤ s.size := by
  rw [InBounds, Span.every_subspan]
  exact ⟨fun h => h _ rfl, fun h a ha => by cases ha; exact h⟩

theorem confined_pure (a : α) : Confined outer (pure a : Traced Action α) :=
  Traced.every_pure _ a

theorem confined_bind {x : Traced Action α} {f : α → Traced Action β} :
    Confined outer (x >>= f) ↔ Confined outer x ∧ Confined outer (f x.val) :=
  Traced.every_bind _ x f

theorem Confined.seq {x : Traced Action α} {f : α → Traced Action β} (hx : Confined outer x)
    (hf : Confined outer (f x.val)) : Confined outer (x >>= f) := confined_bind.mpr ⟨hx, hf⟩

theorem confined_ite {c : Prop} [Decidable c] {x y : Traced Action α}
    (hx : c → Confined outer x) (hy : ¬ c → Confined outer y) :
    Confined outer (if c then x else y) := Traced.every_ite hx hy

theorem confined_get {s : Span} {i : Nat} (hs : s.extent.Within outer) (hi : i < s.size) :
    Confined outer (s.get i : Traced Action UInt8) :=
  (Span.every_get _ s i).mpr fun a ha => by
    cases ha
    exact ⟨hi, Access.InBounds.inside (a := .read _ _) hi hs⟩

theorem confined_subspan {s : Span} {o n : Nat} (hs : s.extent.Within outer)
    (hfit : o + n ≤ s.size) : Confined outer (s.subspan o n : Traced Action Span) :=
  (Span.every_subspan _ s o n).mpr fun a ha => by
    cases ha
    exact ⟨hfit, Access.InBounds.inside (a := .slice _ _ _) hfit hs⟩

/-- An action that is no access. -/
theorem confined_emit {e : Action} (he : e.access? = none) :
    Confined outer (Traced.emit e) :=
  (Traced.every_emit _ e).mpr fun a ha => by
    rw [ha] at he
    cases he

/-- Through a single view, staying in the view is staying in its extent. -/
theorem AccessesThrough.confined_iff {x : Traced Action α} (h : AccessesThrough view x) :
    Confined view x ↔ InBounds x := by
  constructor
  · exact fun hc e he a ha => (hc e he a ha).1
  · intro hb e he a ha
    obtain ⟨b, hb', hview⟩ := h e he
    have hab : a = b := Action.access.inj (ha.symm.trans hb')
    exact ⟨hb e he a ha, (hb e he a ha).inside (hab ▸ hview ▸ Extent.Within.refl _)⟩

/-- A computation that only accesses bytes shows nothing else. -/
theorem AccessesThrough.proj_eq_nil {δ : Type} {x : Traced Action α} (h : AccessesThrough view x)
    (f : Action → Option δ) [Action.IgnoresAccess f] : x.proj f = [] := by
  refine Traced.proj_eq_nil_of_every (h.mono ?_)
  rintro e ⟨a, rfl, -⟩
  exact Action.IgnoresAccess.access a

end Bounds

end EnoceanCore.Enocean
