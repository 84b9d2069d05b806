import EnoceanCore.Enocean.Authentication

/-!
# Switch telegrams

`handle_switch` takes payloads of 9 to 13 bytes whose reserved status bits are zero. The
length of the optional data is checked last, after the sequence number is stored: a
telegram with three optional bytes uses up its sequence number and is not reported.
-/

namespace EnoceanCore.Enocean

open Lib

/-- The switch telegram carries 0, 1, 2 or 4 bytes between the status byte and the tag. -/
def validOptLen (optLen : Nat) : Bool := optLen == 1 || optLen == 2 || optLen == 4

def handleSwitch (callbacks : EnoceanCallbacks) (crypto : CryptoBackend)
    (device : EnoceanDevice) (mfrPayload : Span) : Traced Action (Bool × EnoceanDevice) := do
  if mfrPayload.size < kDataPayloadMin then return (false, device)
  let seq ← readSeq mfrPayload
  if !checkSequence device.seqNum seq then return (false, device)
  if mfrPayload.size > kSwitchPayloadMax then return (false, device)
  let stateBytePre ← mfrPayload.get kSwitchStateOffset
  if stateBytePre &&& kStatusReservedMask ≠ 0 then return (false, device)
  let authOk ← authenticate crypto device seq mfrPayload
  if !authOk then return (false, device)
  let device := { device with seqNum := seq }
  let stateByte ← mfrPayload.get kSwitchStateOffset
  let pressed : Bool := stateByte &&& 0x01 != 0
  let buttons := (stateByte >>> 1) &&& 0x0F
  let action := if pressed then ButtonAction.press else ButtonAction.release
  let tagOffset := mfrPayload.size - kTagLen
  let optOffset := kSwitchStateOffset + 1
  let hasOpt : Bool := tagOffset > optOffset
  let optLen := if hasOpt then tagOffset - optOffset else 0
  if hasOpt && !validOptLen optLen then return (false, device)
  let optPtr := if hasOpt then some (mfrPayload.slice optOffset optLen).bytes else none
  if callbacks.button then Traced.emit (.callback (.button device action buttons optPtr optLen))
  return (true, device)

/-! ## Specification -/

/-- A telegram that is handed to the crypto backend. -/
def SwitchAdmissible (device : EnoceanDevice) (p : Span) : Prop :=
  kDataPayloadMin ≤ p.size ∧ p.size ≤ kSwitchPayloadMax ∧ device.seqNum < seqOf p ∧
    p.byte kSwitchStateOffset &&& kStatusReservedMask = 0

instance (device : EnoceanDevice) (p : Span) : Decidable (SwitchAdmissible device p) :=
  inferInstanceAs (Decidable (_ ∧ _ ∧ _ ∧ _))

/-- The number of bytes between the status byte and the tag. -/
def switchOptLen (p : Span) : Nat := p.size - kTagLen - (kSwitchStateOffset + 1)

/-- The optional data is absent or of a valid length. -/
def SwitchDeliverable (p : Span) : Prop := switchOptLen p = 0 ∨ validOptLen (switchOptLen p) = true

instance (p : Span) : Decidable (SwitchDeliverable p) := inferInstanceAs (Decidable (_ ∨ _))

/-- The button callback for a telegram. -/
def switchEvent (device : EnoceanDevice) (p : Span) : Event :=
  let state := p.byte kSwitchStateOffset
  .button (acceptedDevice device p) (if state &&& 0x01 != 0 then .press else .release)
    ((state >>> 1) &&& 0x0F)
    (if switchOptLen p = 0 then none
      else some (p.slice (kSwitchStateOffset + 1) (switchOptLen p)).bytes)
    (switchOptLen p)

variable (callbacks : EnoceanCallbacks) (crypto : CryptoBackend) (device : EnoceanDevice)

/-- **Outcomes of `handle_switch`.** -/
theorem handleSwitch_outcome (p : Span) :
    HandlerOutcome (SwitchAdmissible device p) (SwitchDeliverable p)
      (if callbacks.button then [switchEvent device p] else []) crypto device p
      (handleSwitch callbacks crypto device p) := by
  unfold handleSwitch
  by_cases hsize : p.size < kDataPayloadMin
  · rw [if_pos hsize]
    exact .reject (fun h => absurd h.1 (Nat.not_le.mpr hsize)) rfl rfl rfl
  rw [if_neg hsize]
  by_cases hseq : device.seqNum < seqOf p
  swap
  · have hcheck := checkSequence_eq_false hseq
    exact .reject (fun h => hseq h.2.2.1) (by simp [hcheck]) (by simp [hcheck]) (by simp [hcheck])
  have hcheck := checkSequence_eq_true hseq
  by_cases hmax : p.size > kSwitchPayloadMax
  · exact .reject (fun h => absurd h.2.1 (Nat.not_le.mpr hmax)) (by simp [hmax])
      (by simp [hmax]) (by simp [hmax])
  by_cases hbits : p.byte kSwitchStateOffset &&& kStatusReservedMask = 0
  swap
  · exact .reject (fun h => hbits h.2.2.2) (by simp [hcheck, hmax, hbits])
      (by simp [hcheck, hmax, hbits]) (by simp [hcheck, hmax, hbits])
  have hok : SwitchAdmissible device p :=
    ⟨Nat.le_of_not_lt hsize, Nat.le_of_not_lt hmax, hseq, hbits⟩
  by_cases hauth : crypto (decryptCall device p) = true
  swap
  · have hauth' : crypto (decryptCall device p) = false := by simpa using hauth
    exact .forged hok hauth' (by simp [hcheck, hmax, hbits, hauth'])
      (by simp [hcheck, hmax, hbits, hauth']) (by simp [hcheck, hmax, hbits, hauth'])
  -- the tag verifies: what is left is the optional data
  have hlen : p.size - kTagLen - (kSwitchStateOffset + 1) = switchOptLen p := rfl
  by_cases hopt : switchOptLen p = 0
  · have hhas : ¬ p.size - kTagLen > kSwitchStateOffset + 1 :=
      Nat.not_lt.mpr (Nat.sub_eq_zero_iff_le.mp hopt)
    refine .deliver hok hauth (Or.inl hopt) ?_ ?_ ?_
    · simp [hcheck, hmax, hbits, hauth, hhas, acceptedDevice]
    · simp [hcheck, hmax, hbits, hauth, hhas]
    · simp [hcheck, hmax, hbits, hauth, hhas, acceptedDevice, switchEvent, hopt]
  have hhas : p.size - kTagLen > kSwitchStateOffset + 1 := by
    by_contra hno
    exact hopt (Nat.sub_eq_zero_iff_le.mpr (Nat.not_lt.mp hno))
  cases hvalid : validOptLen (switchOptLen p) with
  | false =>
    have hno : ¬ SwitchDeliverable p := by
      rintro (h | h)
      · exact hopt h
      · rw [hvalid] at h
        cases h
    refine .undelivered hok hauth hno ?_ ?_ ?_
    · simp [hcheck, hmax, hbits, hauth, hhas, hlen, hvalid, acceptedDevice]
    · simp [hcheck, hmax, hbits, hauth, hhas]
    · simp [hcheck, hmax, hbits, hauth, hhas, hlen, hvalid]
  | true =>
    refine .deliver hok hauth (Or.inr hvalid) ?_ ?_ ?_
    · simp [hcheck, hmax, hbits, hauth, hhas, hlen, hvalid, acceptedDevice]
    · simp [hcheck, hmax, hbits, hauth, hhas]
    · simp [hcheck, hmax, hbits, hauth, hhas, hlen, hvalid, acceptedDevice, switchEvent, hopt]

theorem handleSwitch_stores (p : Span) : stores (handleSwitch callbacks crypto device p) = [] := by
  simp [handleSwitch]

theorem handleSwitch_confined {p : Span} {outer : Extent} (hp : p.extent.Within outer) :
    Confined outer (handleSwitch callbacks crypto device p) := by
  unfold handleSwitch
  refine confined_ite (fun _ => confined_pure _) fun hsize => ?_
  have hmin : kDataPayloadMin ≤ p.size := Nat.le_of_not_lt hsize
  have hstate : Confined outer (p.get kSwitchStateOffset : Traced Action UInt8) :=
    confined_get hp (Nat.lt_of_lt_of_le (by decide) hmin)
  apply (confined_readSeq hp (Nat.le_trans (by decide) hmin)).seq
  refine confined_ite (fun _ => confined_pure _) fun _ => ?_
  refine confined_ite (fun _ => confined_pure _) fun _ => hstate.seq ?_
  refine confined_ite (fun _ => confined_pure _) fun _ => ?_
  apply (confined_authenticate crypto device hp (Nat.le_trans (by decide) hmin) _).seq
  refine confined_ite (fun _ => confined_pure _) fun _ => hstate.seq ?_
  refine confined_ite (fun _ => confined_pure _) fun _ => ?_
  exact confined_ite (fun _ => (confined_emit rfl).seq (confined_pure _))
    (fun _ => confined_pure _)

end EnoceanCore.Enocean
