import EnoceanCore.Enocean.Authentication

/-!
# Sensor telegrams

`handle_sensor` authenticates a payload of at least nine bytes and decodes the fields
between the sequence number and the tag. `sensorLoop` walks over these fields; each round
moves the index forward, so the loop terminates on every byte string, and all it does is
read bytes of these fields (`sensorLoop_every`).
-/

namespace EnoceanCore.Enocean

open Lib

/-! ## The fields of a report -/

/-- The little-endian value of the `valLen` bytes from `j` on, as the inner loop builds it. -/
def assembleValue (sensorBytes : Span) (j : Nat) : Nat → Traced Action UInt32
  | 0 => pure 0
  | b + 1 => do
      let value ← assembleValue sensorBytes j b
      let byte ← sensorBytes.get (j + b)
      return value ||| (byte.toUInt32 <<< (8 * b).toUInt32)

/-- A 10-bit axis of an acceleration value: offset 512, unit 0.01 g. -/
def accelAxis (leValue shift : UInt32) : Int16 :=
  Int16.ofInt ((((leValue >>> shift) &&& 0x3FF).toNat : Int) - 512)

/-- The effect of one fixed-size field on the report. -/
def applyField (data : SensorData) (typeId : UInt8) (valLen : Nat) (value : UInt32) : SensorData :=
  match typeId with
  | 0x00 => { data with temperatureCdeg := some (value &&& 0xFFFF).toUInt16.toInt16 }
  | 0x01 => { data with batteryVoltage := some (value / 2).toUInt16 }
  | 0x02 => { data with energyLvl := some (value / 2).toUInt8 }
  | 0x04 => { data with lightSolarCell := some value.toUInt16 }
  | 0x05 => { data with lightSensor := some value.toUInt16 }
  | 0x06 => { data with humidity := some ((value &&& 0xFF) / 2).toUInt8 }
  | 0x0A =>
    if valLen = 4 then
      { data with
        accelStatus := some (value >>> 30).toUInt8
        accelXCg := some (accelAxis value 20)
        accelYCg := some (accelAxis value 10)
        accelZCg := some (accelAxis value 0) }
    else data
  | 0x20 => { data with occupancy := some (value == 0x02) }
  | 0x23 => { data with contact := some ((value &&& 0xFF).toUInt8 == 0x02) }
  | _ => data

/-- The field loop of `handle_sensor`, from the index `j` with the report so far. -/
def sensorLoop (sensorBytes : Span) (j : Nat) (data : SensorData) : Traced Action SensorData :=
  if _h : j < sensorBytes.size then do
    let header ← sensorBytes.get j
    let j := j + 1
    let typeId := header &&& kTlvTypeMask
    let sizeBits := header >>> kTlvSizeShift
    if typeId = kTlvTypeCommissioning then
      let j := if j + kTlvCommissioningBlock ≤ sensorBytes.size
        then j + kTlvCommissioningBlock else sensorBytes.size
      sensorLoop sensorBytes j data
    else if sizeBits = kTlvSizeVar ∨ typeId = kTlvTypeOptional then
      if j ≥ sensorBytes.size then return data
      let lenByte ← sensorBytes.get j
      let vlen := lenByte.toNat
      let j := j + 1
      if vlen > sensorBytes.size - j then return data
      sensorLoop sensorBytes (j + vlen) data
    else
      let valLen := 1 <<< sizeBits.toNat
      if j + valLen > sensorBytes.size then return data
      let value ← assembleValue sensorBytes j valLen
      sensorLoop sensorBytes (j + valLen) (applyField data typeId valLen value)
  else return data
termination_by sensorBytes.size - j
decreasing_by
  · split <;> omega
  · omega
  · exact Nat.sub_lt_sub_left _h (Nat.lt_of_lt_of_le (Nat.lt_succ_self _) (Nat.le_add_right _ _))

def handleSensor (callbacks : EnoceanCallbacks) (crypto : CryptoBackend)
    (device : EnoceanDevice) (mfrPayload : Span) : Traced Action (Bool × EnoceanDevice) := do
  if mfrPayload.size < kDataPayloadMin then return (false, device)
  let seq ← readSeq mfrPayload
  if !checkSequence device.seqNum seq then return (false, device)
  let authOk ← authenticate crypto device seq mfrPayload
  if !authOk then return (false, device)
  let device := { device with seqNum := seq }
  let tagOffset := mfrPayload.size - kTagLen
  let sensorData ←
    if mfrPayload.size > kSensorDataOffset then do
      let sensorBytes ← mfrPayload.subspan kSensorDataOffset (tagOffset - kSensorDataOffset)
      sensorLoop sensorBytes 0 {}
    else pure {}
  if callbacks.sensor then Traced.emit (.callback (.sensor device sensorData none 0))
  return (true, device)

/-! ## The field loop -/

section Loop

variable {P : Action → Prop} {sensorBytes : Span}

theorem assembleValue_every
    (hread : ∀ i < sensorBytes.size, P (.access (.read sensorBytes.extent i))) {j : Nat}
    (b : Nat) (hroom : j + b ≤ sensorBytes.size) :
    (assembleValue sensorBytes j b).Every P := by
  induction b with
  | zero => exact Traced.every_pure P _
  | succ b ih =>
    refine Traced.every_seq (ih (by omega)) (Traced.every_seq ?_ (Traced.every_pure P _))
    exact (Span.every_get P _ _).mpr (hread _ (by omega))

/-- All the field loop does is read bytes of the fields. -/
theorem sensorLoop_every
    (hread : ∀ i < sensorBytes.size, P (.access (.read sensorBytes.extent i))) (j : Nat)
    (data : SensorData) : (sensorLoop sensorBytes j data).Every P := by
  have hget : ∀ i < sensorBytes.size, (sensorBytes.get i : Traced Action UInt8).Every P :=
    fun i hi => (Span.every_get P _ i).mpr (hread i hi)
  have hdone : ∀ d, (pure d : Traced Action SensorData).Every P := Traced.every_pure P
  unfold sensorLoop
  split
  · rename_i hj
    apply Traced.every_seq (hget j hj)
    refine Traced.every_ite (fun _ => sensorLoop_every hread _ _) fun _ => ?_
    refine Traced.every_ite (fun _ => ?_) fun _ => ?_
    · refine Traced.every_ite (fun _ => hdone _) fun hlen => ?_
      apply Traced.every_seq (hget _ (Nat.lt_of_not_le hlen))
      exact Traced.every_ite (fun _ => hdone _) fun _ => sensorLoop_every hread _ _
    · refine Traced.every_ite (fun _ => hdone _) fun hroom => ?_
      exact Traced.every_seq (assembleValue_every hread _ (Nat.le_of_not_gt hroom))
        (sensorLoop_every hread _ _)
  · exact hdone _
termination_by sensorBytes.size - j
decreasing_by
  · split <;> omega
  · omega
  · exact Nat.sub_lt_sub_left ‹_› (Nat.lt_of_lt_of_le (Nat.lt_succ_self _) (Nat.le_add_right _ _))

@[simp] theorem proj_sensorLoop {δ : Type} (f : Action → Option δ) [Action.IgnoresAccess f]
    (sensorBytes : Span) (j : Nat) (data : SensorData) :
    (sensorLoop sensorBytes j data).proj f = [] :=
  Traced.proj_eq_nil_of_every (sensorLoop_every (fun _ _ => Action.IgnoresAccess.access _) j data)

theorem confined_sensorLoop {outer : Extent} (hs : sensorBytes.extent.Within outer) (j : Nat)
    (data : SensorData) : Confined outer (sensorLoop sensorBytes j data) := by
  refine sensorLoop_every (fun i hi a ha => ?_) j data
  cases ha
  exact ⟨hi, Access.InBounds.inside (a := .read _ _) hi hs⟩

end Loop

/-! ## Specification -/

/-- A telegram that is handed to the crypto backend. -/
def SensorAdmissible (device : EnoceanDevice) (p : Span) : Prop :=
  kDataPayloadMin ≤ p.size ∧ device.seqNum < seqOf p

instance (device : EnoceanDevice) (p : Span) : Decidable (SensorAdmissible device p) :=
  inferInstanceAs (Decidable (_ ∧ _))

/-- The report of a payload: the fields between the sequence number and the tag. -/
def sensorDataOf (p : Span) : SensorData :=
  (sensorLoop (p.slice kSensorDataOffset (p.size - kTagLen - kSensorDataOffset)) 0 {}).val

/-- The sensor callback for a telegram. -/
def sensorEvent (device : EnoceanDevice) (p : Span) : Event :=
  .sensor (acceptedDevice device p) (sensorDataOf p) none 0

variable (callbacks : EnoceanCallbacks) (crypto : CryptoBackend) (device : EnoceanDevice)

/-- **Outcomes of `handle_sensor`.** An accepted telegram is always reported. -/
theorem handleSensor_outcome (p : Span) :
    HandlerOutcome (SensorAdmissible device p) True
      (if callbacks.sensor then [sensorEvent device p] else []) crypto device p
      (handleSensor callbacks crypto device p) := by
  unfold handleSensor
  by_cases hsize : p.size < kDataPayloadMin
  · rw [if_pos hsize]
    exact .reject (fun h => absurd h.1 (Nat.not_le.mpr hsize)) rfl rfl rfl
  rw [if_neg hsize]
  by_cases hseq : device.seqNum < seqOf p
  swap
  · have hcheck := checkSequence_eq_false hseq
    exact .reject (fun h => hseq h.2) (by simp [hcheck]) (by simp [hcheck]) (by simp [hcheck])
  have hcheck := checkSequence_eq_true hseq
  have hok : SensorAdmissible device p := ⟨Nat.le_of_not_lt hsize, hseq⟩
  have hdata : p.size > kSensorDataOffset := Nat.lt_of_lt_of_le (by decide) hok.1
  cases hauth : crypto (decryptCall device p) with
  | false =>
    exact .forged hok hauth (by simp [hcheck, hauth]) (by simp [hcheck, hauth])
      (by simp [hcheck, hauth])
  | true =>
    refine .deliver hok hauth trivial ?_ ?_ ?_
    · simp [hcheck, hauth, acceptedDevice]
    · simp [hcheck, hauth, hdata]
    · simp [hcheck, hauth, hdata, acceptedDevice, sensorEvent, sensorDataOf]

theorem handleSensor_stores (p : Span) : stores (handleSensor callbacks crypto device p) = [] := by
  simp [handleSensor]

theorem handleSensor_confined {p : Span} {outer : Extent} (hp : p.extent.Within outer) :
    Confined outer (handleSensor callbacks crypto device p) := by
  unfold handleSensor
  refine confined_ite (fun _ => confined_pure _) fun hsize => ?_
  have hmin : 9 ≤ p.size := Nat.le_of_not_lt hsize
  apply (confined_readSeq hp (by omega)).seq
  refine confined_ite (fun _ => confined_pure _) fun _ => ?_
  apply (confined_authenticate crypto device hp (Nat.le_trans (by decide) hmin) _).seq
  refine confined_ite (fun _ => confined_pure _) fun _ => ?_
  have hfields : kSensorDataOffset + (p.size - kTagLen - kSensorDataOffset) ≤ p.size := by
    simp only [kSensorDataOffset, kTagLen]
    omega
  refine confined_ite (fun _ => ?_) fun _ => ?_
  · refine (confined_subspan hp hfields).seq
      ((confined_sensorLoop (Span.within_slice hp hfields) _ _).seq ?_)
    exact confined_ite (fun _ => (confined_emit rfl).seq (confined_pure _))
      (fun _ => confined_pure _)
  · exact confined_ite (fun _ => (confined_emit rfl).seq (confined_pure _))
      (fun _ => confined_pure _)

end EnoceanCore.Enocean
