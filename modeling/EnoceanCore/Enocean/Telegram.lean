import EnoceanCore.Enocean.Entry

/-!
# The grammar of the switch telegram

A switch telegram is a sequence number, a status byte, optional data of 0, 1, 2 or 4 bytes
and a tag (`SwitchTelegram`). For a switch in the table of a reachable state the button
callback reports exactly the payloads of that shape with a larger number that the backend
accepts, with the action, the buttons and the optional data they carry; and what is encoded
as a telegram is what is reported (`switch_telegram`).
-/

namespace EnoceanCore.Enocean

open Lib

/-! ## Telegrams -/

/-- The fields of a switch telegram. -/
structure SwitchTelegram where
  seq : UInt32
  action : ButtonAction
  changed : UInt8
  changed_lt : changed < 16
  optData : List UInt8
  optData_length : optData.length ∈ [0, 1, 2, 4]
  tag : Vector UInt8 kTagLen

namespace SwitchTelegram

/-- Bit 0 is the action, bits 4 to 1 are the buttons. -/
def statusByte (t : SwitchTelegram) : UInt8 :=
  (t.changed <<< 1) ||| (if t.action = .press then 1 else 0)

/-- The payload of a telegram. -/
def encode (t : SwitchTelegram) : List UInt8 :=
  leBytes t.seq ++ t.statusByte :: (t.optData ++ t.tag.toList)

end SwitchTelegram

/-- The action in a status byte. -/
def actionOf (status : UInt8) : ButtonAction := if status &&& 0x01 ≠ 0 then .press else .release

/-- The buttons in a status byte. -/
def buttonsOf (status : UInt8) : UInt8 := (status >>> 1) &&& 0x0F

/-- The optional data of a payload: what stands between the status byte and the tag. -/
def optDataOf (p : Span) : List UInt8 := (p.bytes.take (p.size - kTagLen)).drop 5

/-- The length and the reserved bits of a switch telegram. -/
def SwitchShaped (p : Span) : Prop :=
  (p.size = 9 ∨ p.size = 10 ∨ p.size = 11 ∨ p.size = 13) ∧ p.byte 4 &&& 0xE0 = 0

/-- The only callback is the button callback with these arguments. -/
def ReportsButton (device : EnoceanDevice) (action : ButtonAction) (changed : UInt8)
    (optData : List UInt8) (es : List Event) : Prop :=
  ∃ optPtr : Option (List UInt8), es = [.button device action changed optPtr optData.length] ∧
    optPtr.getD [] = optData

/-! ## Encoding -/

/-- The status byte of a telegram is one of 32. -/
theorem statusByte_fields (changed : UInt8) (hlt : changed < 16) (action : ButtonAction) :
    let status := (changed <<< 1) ||| (if action = .press then 1 else 0)
    status &&& 0xE0 = 0 ∧ actionOf status = action ∧ buttonsOf status = changed := by
  have hall : ∀ n < 16, ∀ pressed : Bool,
      let status := (UInt8.ofNat n <<< 1) ||| (if pressed then 1 else 0)
      status &&& 0xE0 = 0 ∧ (status &&& 0x01 ≠ 0 ↔ pressed = true) ∧
        buttonsOf status = UInt8.ofNat n := by
    decide
  have hchanged : UInt8.ofNat changed.toNat = changed := UInt8.ofNat_toNat
  cases action with
  | press =>
    obtain ⟨hbits, hpressed, hbuttons⟩ := hall changed.toNat hlt true
    rw [hchanged] at hbits hpressed hbuttons
    exact ⟨hbits, if_pos (hpressed.mpr rfl), hbuttons⟩
  | release =>
    obtain ⟨hbits, hpressed, hbuttons⟩ := hall changed.toNat hlt false
    rw [hchanged] at hbits hpressed hbuttons
    have hnot : ¬ (changed <<< 1 ||| 0) &&& 0x01 ≠ 0 := fun h => absurd (hpressed.mp h) (by simp)
    exact ⟨hbits, if_neg hnot, hbuttons⟩

section Encoded

variable {p : Span} {t : SwitchTelegram}

theorem size_of_encode (h : p.bytes = t.encode) : p.size = 9 + t.optData.length := by
  rw [Span.size_of_bytes h]
  simp only [SwitchTelegram.encode, leBytes, List.length_append, List.length_cons,
    List.length_nil, Vector.length_toList, kTagLen]
  omega

theorem byte4_of_encode (h : p.bytes = t.encode) : p.byte 4 = t.statusByte :=
  Span.byte_of_append (a := leBytes t.seq) h

theorem switchShaped_of_encode (h : p.bytes = t.encode) : SwitchShaped p := by
  constructor
  · have hlen := t.optData_length
    rw [size_of_encode h]
    simp only [List.mem_cons, List.not_mem_nil, or_false] at hlen
    omega
  · rw [byte4_of_encode h]
    exact (statusByte_fields t.changed t.changed_lt t.action).1

theorem optDataOf_of_encode (h : p.bytes = t.encode) : optDataOf p = t.optData := by
  have hsize : p.size - kTagLen = (leBytes t.seq ++ [t.statusByte] ++ t.optData).length := by
    rw [size_of_encode h]
    simp only [leBytes, kTagLen, List.length_append, List.length_cons, List.length_nil]
    omega
  have hbytes : p.bytes =
      (leBytes t.seq ++ [t.statusByte] ++ t.optData) ++ t.tag.toList := by
    rw [h]
    simp [SwitchTelegram.encode]
  rw [optDataOf, hsize, hbytes, List.take_left]
  rfl

end Encoded

/-! ## The handler -/

/-- A telegram the switch handler reports. -/
theorem switchShaped_iff {device : EnoceanDevice} {p : Span} :
    SwitchAdmissible device p ∧ SwitchDeliverable p ↔
      SwitchShaped p ∧ device.seqNum < seqOf p := by
  simp only [SwitchAdmissible, SwitchShaped, SwitchDeliverable, validOptLen, switchOptLen,
    kDataPayloadMin, kSwitchPayloadMax, kSwitchStateOffset, kStatusReservedMask, kTagLen,
    Bool.or_eq_true, beq_iff_eq]
  constructor
  · intro hok
    rcases hok with ⟨⟨hmin, hmax, hseq, hbits⟩, hopt⟩
    exact ⟨⟨by omega, hbits⟩, hseq⟩
  · intro hshaped
    rcases hshaped with ⟨⟨hsize, hbits⟩, hseq⟩
    exact ⟨⟨by omega, by omega, hseq, hbits⟩, by omega⟩

/-- The optional data the button callback is given. -/
theorem reportsButton_switchEvent (device : EnoceanDevice) {p : Span} (h : SwitchShaped p) :
    ReportsButton (acceptedDevice device p) (actionOf (p.byte 4)) (buttonsOf (p.byte 4))
      (optDataOf p) [switchEvent device p] := by
  have hmin : 9 ≤ p.size := by
    have hsize := h.1
    omega
  have hbytes : (p.slice 5 (switchOptLen p)).bytes = optDataOf p := by
    have hcount : p.size - kTagLen - 5 = switchOptLen p := rfl
    rw [optDataOf, Span.bytes_slice p, List.drop_take, hcount]
    simp only [switchOptLen, kTagLen, kSwitchStateOffset]
    omega
  have hlen : (optDataOf p).length = switchOptLen p := by
    rw [← hbytes, Span.length_bytes, Span.size_slice]
  have haction : (if p.byte 4 &&& 0x01 != 0 then ButtonAction.press else .release) =
      actionOf (p.byte 4) := by
    simp only [actionOf, bne_iff_ne, ne_eq]
  refine ⟨if switchOptLen p = 0 then none else some (optDataOf p), ?_, ?_⟩
  · rw [hlen, ← haction, ← hbytes]
    rfl
  · by_cases hopt : switchOptLen p = 0
    · rw [if_pos hopt, ← List.length_eq_zero_iff.mp (hlen.trans hopt)]
      rfl
    · rw [if_neg hopt]
      rfl

/-! ## The driver -/

/-- What is reported of a payload of a switch in the table. -/
theorem processAdvertisement_switch {driver : EnoceanDriver} (hinv : TableInvariant driver)
    (hbutton : driver.callbacks.button = true) {i : Fin kMaxDevices}
    (hactive : (driver.devices.get i).active = true)
    (htype : (driver.devices.get i).type = .switch) (crypto : CryptoBackend) (rssi : Int8)
    (data : Span) :
    let device := heardDevice (driver.devices.get i) rssi
    let p := payloadOf data
    let r := processAdvertisement crypto driver device.bleAddr.addr.toList kAddrRandom
      kAdvNonconnInd rssi data
    let Fires := SwitchShaped p ∧ device.seqNum < seqOf p ∧ crypto (decryptCall device p) = true
    (Fires → events r = [switchEvent device p]) ∧ (¬ Fires → events r = []) := by
  intro device p r Fires
  have hentry : entryOf driver.devices device.bleAddr.addr = some (driver.devices.get i) :=
    (entryOf_eq_some_iff hinv.wellFormed).mpr ⟨i, slotOf_eq_some_iff.mpr ⟨hactive, rfl⟩, rfl⟩
  have hlisten : Listens driver device.bleAddr.addr.toList kAddrRandom kAdvNonconnInd :=
    ⟨hinv.initialised hactive, by simp, rfl, rfl⟩
  by_cases hsize : kDataPayloadMin ≤ p.size
  swap
  · have hquiet : events r = [] :=
      (processAdvertisement_deaf crypto kAddrRandom kAdvNonconnInd rssi data
        fun h => hsize h.2).2.1
    refine ⟨fun hfires => absurd ?_ hsize, fun _ => hquiet⟩
    have hshape := hfires.1.1
    simp only [kDataPayloadMin]
    omega
  have hevents : events r = events (handleData driver.callbacks crypto device p) :=
    (processAdvertisement_known crypto kAddrRandom kAdvNonconnInd rssi data hinv hentry hlisten
      hsize).2.1
  have hhandler : events (handleData driver.callbacks crypto device p) =
      events (handleSwitch driver.callbacks crypto device p) := by
    unfold handleData
    exact congrArg events (if_pos htype)
  have houtcome := (handleSwitch_outcome driver.callbacks crypto device p).events_eq
  rw [switchShaped_iff, if_pos hbutton] at houtcome
  rw [hevents, hhandler]
  rcases houtcome with ⟨hreport, hok, hauth⟩ | ⟨hquiet, hno⟩
  · exact ⟨fun _ => hreport, fun h => absurd ⟨hok.1, hok.2, hauth⟩ h⟩
  · exact ⟨fun h => absurd ⟨⟨h.1, h.2.1⟩, h.2.2⟩ hno, fun _ => hquiet⟩

/-- **The switch telegram.** For a switch in the table of a reachable state, with a button
callback registered, and any payload from it:

* the callback is made if and only if the payload has 9, 10, 11 or 13 bytes, the top three bits
  of the status byte are zero, the sequence number is larger than the stored one and the backend
  accepts;
* then its arguments are the action, the buttons and the optional data in the payload;
* a payload that encodes a telegram is reported with the fields of the telegram. -/
theorem switch_telegram (callbacks : EnoceanCallbacks) (ops : List Op) (i : Fin kMaxDevices)
    (crypto : CryptoBackend) (rssi : Int8) (data : Span) :
    let driver := (run step (construct callbacks) ops).val
    let device := driver.devices.get i
    let p := payloadOf data
    let r := processAdvertisement crypto driver device.bleAddr.addr.toList kAddrRandom
      kAdvNonconnInd rssi data
    callbacks.button = true → device.active = true → device.type = .switch →
    ((∃ reported action changed optPtr optLen,
        Event.button reported action changed optPtr optLen ∈ events r) ↔
      (p.size = 9 ∨ p.size = 10 ∨ p.size = 11 ∨ p.size = 13) ∧ p.byte 4 &&& 0xE0 = 0 ∧
        device.seqNum < seqOf p ∧ crypto (decryptCall device p) = true) ∧
    (events r ≠ [] →
      ReportsButton { device with rssi := rssi, seqNum := seqOf p } (actionOf (p.byte 4))
        (buttonsOf (p.byte 4)) (optDataOf p) (events r)) ∧
    ∀ t : SwitchTelegram, p.bytes = t.encode → device.seqNum < t.seq →
      crypto (decryptCall device p) = true →
      ReportsButton { device with rssi := rssi, seqNum := t.seq } t.action t.changed t.optData
        (events r) := by
  intro driver device p r hbutton hactive htype
  have hinv : TableInvariant driver := tableInvariant_run callbacks ops
  have hregistered : driver.callbacks.button = true := by
    rw [callbacks_run]
    exact hbutton
  have hspec := processAdvertisement_switch hinv hregistered hactive htype crypto rssi data
  by_cases hfires : SwitchShaped p ∧ device.seqNum < seqOf p ∧
      crypto (decryptCall device p) = true
  · have hreport : events r = [switchEvent (heardDevice device rssi) p] := hspec.1 hfires
    have hargs := reportsButton_switchEvent (heardDevice device rssi) hfires.1
    rw [hreport]
    refine ⟨?_, fun _ => hargs, ?_⟩
    · apply iff_of_true ⟨_, _, _, _, _, List.mem_cons_self⟩
      exact ⟨hfires.1.1, hfires.1.2, hfires.2⟩
    · rintro t ht - -
      have hseq : seqOf p = t.seq := seqOf_of_bytes ht
      have haction : actionOf t.statusByte = t.action :=
        (statusByte_fields t.changed t.changed_lt t.action).2.1
      have hbuttons : buttonsOf t.statusByte = t.changed :=
        (statusByte_fields t.changed t.changed_lt t.action).2.2
      rw [byte4_of_encode ht, optDataOf_of_encode ht, haction, hbuttons] at hargs
      rw [← hseq]
      exact hargs
  · have hquiet : events r = [] := hspec.2 hfires
    rw [hquiet]
    refine ⟨?_, fun h => absurd rfl h, ?_⟩
    · refine iff_of_false ?_ fun h => hfires ⟨⟨h.1, h.2.1⟩, h.2.2⟩
      intro hreports
      rcases hreports with ⟨_, _, _, _, _, hmem⟩
      cases hmem
    · intro t ht hseq hauth
      rw [← seqOf_of_bytes ht] at hseq
      exact absurd ⟨switchShaped_of_encode ht, hseq, hauth⟩ hfires

/-- Two buttons pressed, with one optional byte. -/
def sampleTelegram : SwitchTelegram where
  seq := 2
  action := .press
  changed := 5
  changed_lt := by decide
  optData := [0xAB]
  optData_length := by decide
  tag := #v[0x0A, 0x0B, 0x0C, 0x0D]

/-- The sample switch is heard with it. -/
theorem switch_telegram_press :
    let driver := (run step (construct ⟨true, true, true⟩) sampleSetup).val
    let device := driver.devices.get 0
    ReportsButton { device with rssi := -60, seqNum := 2 } .press 5 [0xAB]
      (events (processAdvertisement (fun _ => true) driver device.bleAddr.addr.toList kAddrRandom
        kAdvNonconnInd (-60) (enoceanRecord sampleTelegram.encode))) := by
  obtain ⟨-, -, hencoded⟩ := switch_telegram ⟨true, true, true⟩ sampleSetup 0 (fun _ => true) (-60)
    (enoceanRecord sampleTelegram.encode) rfl (by decide +kernel) (by decide +kernel)
  exact hencoded sampleTelegram (by decide +kernel) (by decide +kernel) rfl

end EnoceanCore.Enocean
