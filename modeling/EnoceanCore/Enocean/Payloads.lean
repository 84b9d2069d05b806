import EnoceanCore.Enocean.Registry
import EnoceanCore.Enocean.SensorReport

/-!
# Payloads by their bytes

A payload is a view of the received data. What the registry does with it depends on the bytes of
the view alone (`hear_of_bytes_eq`), not on the region it is a view of: a data telegram has at least
nine bytes, a commissioning telegram at least twenty-two, and every index the handlers use is
below that or computed from the size.
-/

namespace EnoceanCore.Enocean

open Lib

section Bytes

variable {p q : Span}

theorem size_of_bytes_eq (h : p.bytes = q.bytes) : p.size = q.size := by
  rw [← Span.length_bytes p, h, Span.length_bytes]

theorem bytes_slice_of_bytes_eq (h : p.bytes = q.bytes) {o n : Nat} (hfits : o + n ≤ p.size) :
    (p.slice o n).bytes = (q.slice o n).bytes := by
  have hsize := size_of_bytes_eq h
  rw [Span.bytes_slice p hfits, Span.bytes_slice q (hsize ▸ hfits), h]

theorem seqOf_of_bytes_eq (h : p.bytes = q.bytes) (hfour : 4 ≤ p.size) : seqOf p = seqOf q := by
  have hbyte : ∀ i < 4, p.byte i = q.byte i := fun i hi =>
    Span.byte_eq_of_bytes_eq h (Nat.lt_of_lt_of_le hi hfour)
  rw [seqOf, seqOf, hbyte 0 (by omega), hbyte 1 (by omega), hbyte 2 (by omega), hbyte 3 (by omega)]

/-! ## Data telegrams -/

section Data

variable (h : p.bytes = q.bytes) (hsize : kDataPayloadMin ≤ p.size)
include h hsize

theorem seqOf_data : seqOf p = seqOf q :=
  seqOf_of_bytes_eq h (Nat.le_trans (by decide) hsize)

theorem decryptCall_of_bytes_eq (device : EnoceanDevice) :
    decryptCall device p = decryptCall device q := by
  have hnine : 9 ≤ p.size := hsize
  have haad : (p.slice 0 (p.size - kTagLen)).bytes = (q.slice 0 (p.size - kTagLen)).bytes :=
    bytes_slice_of_bytes_eq h (by omega)
  have htag : (p.slice (p.size - kTagLen) kTagLen).bytes =
      (q.slice (p.size - kTagLen) kTagLen).bytes := by
    apply bytes_slice_of_bytes_eq h
    simp only [kTagLen]
    omega
  rw [decryptCall, decryptCall, seqOf_data h hsize, haad, htag, size_of_bytes_eq h]

theorem statusByte_of_bytes_eq : p.byte kSwitchStateOffset = q.byte kSwitchStateOffset :=
  Span.byte_eq_of_bytes_eq h (Nat.lt_of_lt_of_le (by decide) hsize)

theorem dataAdmissible_of_bytes_eq (device : EnoceanDevice) :
    DataAdmissible device p ↔ DataAdmissible device q := by
  unfold DataAdmissible SwitchAdmissible SensorAdmissible
  rw [seqOf_data h hsize, statusByte_of_bytes_eq h hsize, size_of_bytes_eq h]

theorem switchEvent_of_bytes_eq (device : EnoceanDevice) :
    switchEvent device p = switchEvent device q := by
  have hnine : 9 ≤ p.size := hsize
  have hopt : (p.slice (kSwitchStateOffset + 1) (switchOptLen p)).bytes =
      (q.slice (kSwitchStateOffset + 1) (switchOptLen p)).bytes := by
    apply bytes_slice_of_bytes_eq h
    simp only [switchOptLen, kTagLen, kSwitchStateOffset]
    omega
  have hlen : switchOptLen p = switchOptLen q := by
    rw [switchOptLen, switchOptLen, size_of_bytes_eq h]
  rw [switchEvent, switchEvent, hopt, hlen, statusByte_of_bytes_eq h hsize, acceptedDevice,
    acceptedDevice, seqOf_data h hsize]

/-- The fields of a report are bytes of the payload. -/
theorem sensorDataOf_of_bytes_eq : sensorDataOf p = sensorDataOf q := by
  have hsplit := existsUnique_fieldSplit (fieldBytes p)
  obtain ⟨⟨fields, tail⟩, hfields, -⟩ := hsplit
  have hsame : fieldBytes p = fieldBytes q := by
    rw [fieldBytes, fieldBytes, h, size_of_bytes_eq h]
  rw [sensorDataOf_eq hsize hfields,
    sensorDataOf_eq (size_of_bytes_eq h ▸ hsize) (hsame ▸ hfields)]

theorem dataEvents_of_bytes_eq (callbacks : EnoceanCallbacks) (device : EnoceanDevice) :
    dataEvents callbacks device p = dataEvents callbacks device q := by
  have hsensor : sensorEvent device p = sensorEvent device q := by
    rw [sensorEvent, sensorEvent, acceptedDevice, acceptedDevice, seqOf_data h hsize,
      sensorDataOf_of_bytes_eq h hsize]
  rw [dataEvents, dataEvents, hsensor, switchEvent_of_bytes_eq h hsize]

theorem report_of_bytes_eq (callbacks : EnoceanCallbacks) (crypto : CryptoBackend)
    (device : EnoceanDevice) :
    report callbacks crypto device p = report callbacks crypto device q := by
  have hdeliverable : DataDeliverable device p ↔ DataDeliverable device q := by
    unfold DataDeliverable SwitchDeliverable switchOptLen
    rw [size_of_bytes_eq h]
  simp only [report, dataAdmissible_of_bytes_eq h hsize device, hdeliverable,
    decryptCall_of_bytes_eq h hsize device, dataEvents_of_bytes_eq h hsize callbacks device,
    acceptedDevice, seqOf_data h hsize]

end Data

/-! ## Commissioning telegrams -/

section Commissioning

theorem stmFormat_of_bytes_eq (h : p.bytes = q.bytes) : stmFormat p = stmFormat q := by
  by_cases hsize : p.size = kStmCommissioningPayloadLen
  · have hmarker : p.byte kKeyOffset = q.byte kKeyOffset := by
      apply Span.byte_eq_of_bytes_eq h
      rw [hsize]
      decide
    rw [stmFormat, stmFormat, hmarker, size_of_bytes_eq h]
  · have hno : ¬ q.size = kStmCommissioningPayloadLen := size_of_bytes_eq h ▸ hsize
    rw [stmFormat, stmFormat, beq_false_of_ne hsize, beq_false_of_ne hno]
    rfl

theorem commissionable_of_bytes_eq (h : p.bytes = q.bytes) (addr : List UInt8) :
    Commissionable addr p ↔ Commissionable addr q := by
  rw [Commissionable, Commissionable, stmFormat_of_bytes_eq h, size_of_bytes_eq h]

/-- The key lies within a commissioning payload. -/
theorem keyOf_of_bytes_eq (h : p.bytes = q.bytes) (hsize : kCommissioningPayloadMin ≤ p.size) :
    keyOf p = keyOf q := by
  have hfits : keyOffset p + kKeyLen ≤ p.size := by
    unfold keyOffset
    split
    · rename_i hstm
      have hlen := (Bool.and_eq_true_iff.mp hstm).1
      rw [eq_of_beq hlen]
      decide
    · exact Nat.le_trans (by decide) hsize
  have hoffset : keyOffset p = keyOffset q := by
    rw [keyOffset, keyOffset, stmFormat_of_bytes_eq h]
  rw [keyOf, keyOf, ← hoffset]
  apply Vector.ext
  intro i hi
  rw [Vector.getElem_ofFn, Vector.getElem_ofFn]
  apply Span.byte_eq_of_bytes_eq h
  omega

theorem newDevice_of_bytes_eq (h : p.bytes = q.bytes) (hsize : kCommissioningPayloadMin ≤ p.size)
    (old : EnoceanDevice) (addr : List UInt8) (addrType : UInt8) (rssi : Int8) :
    newDevice old addr addrType rssi p = newDevice old addr addrType rssi q := by
  rw [newDevice, newDevice, seqOf_of_bytes_eq h (Nat.le_trans (by decide) hsize),
    keyOf_of_bytes_eq h hsize]

end Commissioning

/-! ## The registry -/

/-- What the registry does with a telegram depends on the bytes of its payload. -/
theorem hear_of_bytes_eq (h : p.bytes = q.bytes) (hsize : kDataPayloadMin ≤ p.size)
    (crypto : CryptoBackend) (registry : Registry) (a : Address) (rssi : Int8) :
    registry.hear crypto a rssi p = registry.hear crypto a rssi q := by
  cases hlookup : registry.devices.lookup a with
  | some device =>
    rw [Registry.hear_known crypto rssi hlookup, Registry.hear_known crypto rssi hlookup,
      report_of_bytes_eq h hsize]
  | none =>
    have hsame := commissionable_of_bytes_eq h a.toList
    by_cases hadmitted : registry.devices.size < kMaxDevices ∧
        registry.commissioningEnabled = true ∧ Commissionable a.toList p
    · obtain ⟨hroom, henabled, hok⟩ := hadmitted
      rw [Registry.hear_new crypto rssi hlookup hroom henabled hok,
        Registry.hear_new crypto rssi hlookup hroom henabled (hsame.mp hok),
        newDevice_of_bytes_eq h hok.1]
    · rw [Registry.hear_refused crypto rssi hlookup hadmitted,
        Registry.hear_refused crypto rssi hlookup (by rwa [← hsame])]

end Bytes

end EnoceanCore.Enocean
