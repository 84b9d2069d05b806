import EnoceanCore.Enocean.Table
import EnoceanCore.Lib.LittleEndian

/-!
# Commissioning

`handle_commissioning` stores the key and the sequence number of a commissioning payload:
in the entry of the sender if there is one, else in the first inactive entry. Its three
outcomes are `CommissioningOutcome`.
-/

namespace EnoceanCore.Enocean

open Lib

/-! ## Fields of a payload -/

/-- The little-endian sequence number in front of a payload. -/
def seqOf (payload : Span) : UInt32 :=
  leWord (payload.byte 0) (payload.byte 1) (payload.byte 2) (payload.byte 3)

theorem seqOf_of_bytes {p : Span} {seq : UInt32} {rest : List UInt8}
    (h : p.bytes = leBytes seq ++ rest) : seqOf p = seq := by
  have h0 : p.byte 0 = _ := Span.byte_of_append (a := []) h
  have h1 : p.byte 1 = _ := Span.byte_of_append (a := [_]) h
  have h2 : p.byte 2 = _ := Span.byte_of_append (a := [_, _]) h
  have h3 : p.byte 3 = _ := Span.byte_of_append (a := [_, _, _]) h
  rw [seqOf, h0, h1, h2, h3]
  exact leWord_bytes seq

/-- The assembly of the sequence number, as every handler does it. -/
def readSeq (mfrPayload : Span) : Traced Action UInt32 := do
  let b0 ← mfrPayload.get kSeqOffset
  let b1 ← mfrPayload.get (kSeqOffset + 1)
  let b2 ← mfrPayload.get (kSeqOffset + 2)
  let b3 ← mfrPayload.get (kSeqOffset + 3)
  return leWord b0 b1 b2 b3

@[simp] theorem val_readSeq (p : Span) : (readSeq p).val = seqOf p := (rfl)

theorem readSeq_accessesThrough (p : Span) : AccessesThrough p.extent (readSeq p) := by
  have hget : ∀ j, AccessesThrough p.extent (p.get j : Traced Action UInt8) := fun j =>
    (Span.every_get _ p j).mpr ⟨_, rfl, rfl⟩
  refine Traced.every_seq (hget _) (Traced.every_seq (hget _) ?_)
  exact Traced.every_seq (hget _) (Traced.every_seq (hget _) (Traced.every_pure _ _))

theorem confined_readSeq {p : Span} {outer : Extent} (hp : p.extent.Within outer)
    (hsize : 4 ≤ p.size) : Confined outer (readSeq p) := by
  refine (confined_get hp ?_).seq ((confined_get hp ?_).seq ((confined_get hp ?_).seq
    ((confined_get hp ?_).seq (confined_pure _))))
  all_goals
    simp only [kSeqOffset]
    omega

/-- The payload has the size and the marker of an STM-550B commissioning telegram. -/
def stmFormat (mfrPayload : Span) : Bool :=
  mfrPayload.size == kStmCommissioningPayloadLen &&
    mfrPayload.byte kKeyOffset == kStmCommissioningMarker

/-- Where the key of a commissioning payload starts. -/
def keyOffset (mfrPayload : Span) : Nat :=
  if stmFormat mfrPayload then kKeyOffset + 1 else kKeyOffset

/-- The key of a commissioning payload. -/
def keyOf (mfrPayload : Span) : Vector UInt8 kKeyLen :=
  Vector.ofFn fun i => mfrPayload.byte (keyOffset mfrPayload + i)

/-- A new sequence number is larger than the stored one. -/
def checkSequence (stored newSeq : UInt32) : Bool := newSeq > stored

/-! ## The handler -/

/-- The test for the STM-550B format; the marker is read only if the size fits. -/
def readStmFormat (mfrPayload : Span) : Traced Action Bool := do
  if mfrPayload.size = kStmCommissioningPayloadLen then
    let marker ← mfrPayload.get kKeyOffset
    return marker == kStmCommissioningMarker
  else return false

def handleCommissioning (driver : EnoceanDriver) (addr : List UInt8) (addrType : UInt8)
    (rssi : Int8) (mfrPayload : Span) : Traced Action (Bool × EnoceanDriver) := do
  if mfrPayload.size < kCommissioningPayloadMin then return (false, driver)
  let seq ← readSeq mfrPayload
  let devType := detectDeviceType addr
  let stm ← readStmFormat mfrPayload
  let keyOff := if stm then kKeyOffset + 1 else kKeyOffset
  if devType = .sensor ∧ stm = false then return (false, driver)
  if keyOff + kKeyLen > mfrPayload.size then return (false, driver)
  match findDevice driver.devices addr with
  | some i =>
    -- a sequence number that is not larger is logged and stored all the same
    let old := driver.devices.get i
    let key ← mfrPayload.subspan keyOff kKeyLen
    let device :=
      { old with seqNum := seq, rssi := rssi, key := Buffer.overwrite old.key 0 key.bytes }
    Traced.emit (.store i false device)
    return (true, setDevice driver i device)
  | none =>
    match allocateDevice driver.devices with
    | none => return (false, driver)
    | some i =>
      let old := driver.devices.get i
      let key ← mfrPayload.subspan keyOff kKeyLen
      let device : EnoceanDevice :=
        { active := true, seqNum := seq, rssi := rssi, type := devType
          bleAddr := { addr := Buffer.overwrite old.bleAddr.addr 0 addr, type := addrType }
          key := Buffer.overwrite old.key 0 key.bytes }
      Traced.emit (.store i true device)
      if driver.callbacks.commissioned then Traced.emit (.callback (.commissioned device))
      return (true, setDevice driver i device)

@[simp] theorem val_readStmFormat (p : Span) : (readStmFormat p).val = stmFormat p := by
  unfold readStmFormat stmFormat
  by_cases h : p.size = kStmCommissioningPayloadLen <;> simp [h]

/-- A copy of 16 payload bytes to a key replaces it. -/
theorem overwrite_key (old : Vector UInt8 kKeyLen) (p : Span) (n : Nat) :
    Buffer.overwrite old 0 (p.slice n kKeyLen).bytes = Vector.ofFn fun i => p.byte (n + i) := by
  apply Vector.ext
  intro i hi
  have hlen : i < (p.slice n kKeyLen).bytes.length := by simpa using hi
  simp only [Buffer.overwrite, Vector.getElem_ofFn, Nat.zero_le, true_and, Nat.zero_add,
    Span.length_bytes, Span.size_slice, hi, if_true, Nat.sub_zero]
  rw [List.getD_eq_getElem _ _ hlen, Span.getElem_bytes, Span.byte_slice]

/-- A copy of a 6-byte address to an address replaces it. -/
theorem overwrite_address (old : Address) {addr : List UInt8} (h : addr.length = kAddrLen) :
    (Buffer.overwrite old 0 addr).toList = addr := by
  rw [Buffer.toList_overwrite old (by omega)]
  simp [h]

theorem readStmFormat_accessesThrough (p : Span) :
    AccessesThrough p.extent (readStmFormat p) := by
  refine Traced.every_ite (fun _ => ?_) (fun _ => Traced.every_pure _ _)
  exact Traced.every_seq ((Span.every_get _ p _).mpr ⟨_, rfl, rfl⟩) (Traced.every_pure _ _)

/-! ## Outcomes -/

/-- The payload is a commissioning payload for a sender of this address. -/
def Commissionable (addr : List UInt8) (p : Span) : Prop :=
  kCommissioningPayloadMin ≤ p.size ∧ (detectDeviceType addr = .sensor → stmFormat p = true)

instance (addr : List UInt8) (p : Span) : Decidable (Commissionable addr p) :=
  inferInstanceAs (Decidable (_ ∧ (_ → _)))

/-- A known device, commissioned again. -/
def refreshedDevice (old : EnoceanDevice) (rssi : Int8) (p : Span) : EnoceanDevice :=
  { old with seqNum := seqOf p, rssi := rssi, key := keyOf p }

/-- A device commissioned in a free slot. -/
def newDevice (old : EnoceanDevice) (addr : List UInt8) (addrType : UInt8) (rssi : Int8)
    (p : Span) : EnoceanDevice :=
  { active := true, seqNum := seqOf p, rssi := rssi, type := detectDeviceType addr
    bleAddr := { addr := Buffer.overwrite old.bleAddr.addr 0 addr, type := addrType }
    key := keyOf p }

/-- What `handle_commissioning` can do. -/
inductive CommissioningOutcome (driver : EnoceanDriver) (addr : List UInt8) (addrType : UInt8)
    (rssi : Int8) (p : Span) (r : Traced Action (Bool × EnoceanDriver)) : Prop
  | reject
      (hwhy : ¬ Commissionable addr p ∨
        findDevice driver.devices addr = none ∧ allocateDevice driver.devices = none)
      (hval : r.val = (false, driver)) (hstores : stores r = []) (hevents : events r = [])
  | refresh (i : Fin kMaxDevices) (hok : Commissionable addr p)
      (hfind : findDevice driver.devices addr = some i)
      (hval : r.val =
        (true, setDevice driver i (refreshedDevice (driver.devices.get i) rssi p)))
      (hstores : stores r = [(i, false, refreshedDevice (driver.devices.get i) rssi p)])
      (hevents : events r = [])
  | fresh (i : Fin kMaxDevices) (hok : Commissionable addr p)
      (hfind : findDevice driver.devices addr = none)
      (halloc : allocateDevice driver.devices = some i)
      (hval : r.val =
        (true, setDevice driver i (newDevice (driver.devices.get i) addr addrType rssi p)))
      (hstores : stores r = [(i, true, newDevice (driver.devices.get i) addr addrType rssi p)])
      (hevents : events r = if driver.callbacks.commissioned then
        [.commissioned (newDevice (driver.devices.get i) addr addrType rssi p)] else [])

@[simp] theorem proj_readSeq {δ : Type} (f : Action → Option δ)
    [Action.IgnoresAccess f] (p : Span) : (readSeq p).proj f = [] :=
  (readSeq_accessesThrough p).proj_eq_nil f

@[simp] theorem proj_readStmFormat {δ : Type} (f : Action → Option δ)
    [Action.IgnoresAccess f] (p : Span) : (readStmFormat p).proj f = [] :=
  (readStmFormat_accessesThrough p).proj_eq_nil f

theorem keyOffset_le (p : Span) : keyOffset p + kKeyLen ≤ kCommissioningPayloadMin := by
  unfold keyOffset
  split <;> decide

theorem handleCommissioning_outcome (driver : EnoceanDriver) (addr : List UInt8)
    (addrType : UInt8) (rssi : Int8) (p : Span) :
    CommissioningOutcome driver addr addrType rssi p
      (handleCommissioning driver addr addrType rssi p) := by
  unfold handleCommissioning
  by_cases hsize : p.size < kCommissioningPayloadMin
  · rw [if_pos hsize]
    exact .reject (Or.inl fun h => absurd h.1 (Nat.not_le.mpr hsize)) rfl rfl rfl
  rw [if_neg hsize]
  by_cases hsensor : detectDeviceType addr = .sensor ∧ stmFormat p = false
  · refine .reject (Or.inl fun h => ?_) (by simp [hsensor]) (by simp [hsensor]) (by simp [hsensor])
    rw [h.2 hsensor.1] at hsensor
    exact absurd hsensor.2 (by decide)
  have hok : Commissionable addr p :=
    ⟨Nat.le_of_not_lt hsize, fun h => by_contra fun hs => hsensor ⟨h, by simpa using hs⟩⟩
  have hroom : ¬ (if stmFormat p then kKeyOffset + 1 else kKeyOffset) + kKeyLen > p.size :=
    Nat.not_lt.mpr (Nat.le_trans (keyOffset_le p) hok.1)
  cases hfind : findDevice driver.devices addr with
  | some i =>
    refine .refresh i hok hfind ?_ ?_ ?_
    · simp [hsensor, hroom, overwrite_key, refreshedDevice, keyOf, keyOffset]
    · simp [hsensor, hroom, overwrite_key, refreshedDevice, keyOf, keyOffset]
    · simp [hsensor, hroom]
  | none =>
    cases halloc : allocateDevice driver.devices with
    | none =>
      exact .reject (Or.inr ⟨hfind, halloc⟩) (by simp) (by simp) (by simp)
    | some i =>
      refine .fresh i hok hfind halloc ?_ ?_ ?_
      · simp [hsensor, hroom, overwrite_key, newDevice, keyOf, keyOffset]
      · simp [hsensor, hroom, overwrite_key, newDevice, keyOf, keyOffset]
      · simp [hsensor, hroom, overwrite_key, newDevice, keyOf, keyOffset]

/-- Commissioning needs no crypto. -/
theorem handleCommissioning_decrypts (driver : EnoceanDriver) (addr : List UInt8)
    (addrType : UInt8) (rssi : Int8) (p : Span) :
    decrypts (handleCommissioning driver addr addrType rssi p) = [] := by
  unfold handleCommissioning
  simp only [decrypts, Traced.proj_ite, Traced.proj_bind, Traced.proj_pure, proj_readSeq,
    proj_readStmFormat, List.nil_append]
  cases findDevice driver.devices addr with
  | some i => simp
  | none => cases allocateDevice driver.devices <;> simp

theorem handleCommissioning_confined (driver : EnoceanDriver) (addr : List UInt8)
    (addrType : UInt8) (rssi : Int8) {p : Span} {outer : Extent} (hp : p.extent.Within outer) :
    Confined outer (handleCommissioning driver addr addrType rssi p) := by
  unfold handleCommissioning
  refine confined_ite (fun _ => confined_pure _) fun hsize => ?_
  have hmin : kCommissioningPayloadMin ≤ p.size := Nat.le_of_not_lt hsize
  simp only [kCommissioningPayloadMin] at hmin
  refine (confined_readSeq hp (by omega)).seq (Confined.seq ?_ ?_)
  · refine confined_ite (fun _ => ?_) (fun _ => confined_pure _)
    exact (confined_get hp (by simp only [kKeyOffset]; omega)).seq (confined_pure _)
  refine confined_ite (fun _ => confined_pure _) fun _ => ?_
  refine confined_ite (fun _ => confined_pure _) fun hroom => ?_
  have hkey := confined_subspan (n := kKeyLen) hp (Nat.le_of_not_lt hroom)
  cases findDevice driver.devices addr with
  | some i => exact hkey.seq ((confined_emit rfl).seq (confined_pure _))
  | none =>
    cases allocateDevice driver.devices with
    | none => exact confined_pure _
    | some i =>
      refine hkey.seq ((confined_emit rfl).seq ?_)
      exact confined_ite (fun _ => (confined_emit rfl).seq (confined_pure _))
        (fun _ => confined_pure _)

end EnoceanCore.Enocean
