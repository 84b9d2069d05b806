import EnoceanCore.Enocean.Reception
import EnoceanCore.Enocean.Telegram

/-!
# From a switch to the application

The radio between a switch and the driver loses, repeats, delays and reorders telegrams, and
anybody can send. If the backend verifies under the key of the switch only what the switch has
sent (`VerifiesOnly`), the application is nevertheless told a subsequence of what was pressed, in
order, nothing twice and nothing altered; and all of it if the telegrams arrive in order and
none is lost (`presses_in_order`).

What is reported are the records of what was heard (`Stored.run`), and the records of copies of
an increasing list are a sublist of it (`Lib.records_sublist`).
-/

namespace EnoceanCore.Enocean

open Lib

/-- What a press or release says: the action, the buttons and the optional data. -/
abbrev Press : Type := ButtonAction × UInt8 × List UInt8

/-- What a button callback tells the application. -/
def pressOf : Event → Option Press
  | .button _ action changed optData _ => some (action, changed, optData.getD [])
  | _ => none

/-- What a telegram was sent to say. -/
def SwitchTelegram.press (t : SwitchTelegram) : Press := (t.action, t.changed, t.optData)

/-- What is read out of a payload. -/
def pressIn (p : Span) : Press := (actionOf (p.byte 4), buttonsOf (p.byte 4), optDataOf p)

/-- The payload of an advertisement. -/
def Op.payload (op : Op) : List UInt8 := (payloadOf op.data).bytes

/-- A payload that verifies under the key and the address of the switch is one it has sent. -/
def VerifiesOnly (device : EnoceanDevice) (sent : List SwitchTelegram) : Op → Prop
  | .processAdvertisement crypto _ _ _ _ _ => ∀ p : Span, kDataPayloadMin ≤ p.size →
      crypto (decryptCall device p) = true → ∃ t ∈ sent, p.bytes = t.encode
  | _ => True

/-! ## One telegram -/

/-- The number of a payload given as bytes. -/
def numberOf (payload : List UInt8) : UInt32 := seqOf (Span.ofList payload)

theorem numberOf_encode (t : SwitchTelegram) : numberOf t.encode = t.seq :=
  seqOf_of_bytes (Span.bytes_ofList t.encode)

theorem pressIn_encode {p : Span} {t : SwitchTelegram} (h : p.bytes = t.encode) :
    pressIn p = t.press := by
  obtain ⟨-, haction, hbuttons⟩ := statusByte_fields t.changed t.changed_lt t.action
  change actionOf t.statusByte = t.action at haction
  change buttonsOf t.statusByte = t.changed at hbuttons
  rw [pressIn, byte4_of_encode h, optDataOf_of_encode h, haction, hbuttons]
  rfl

section Telegram

variable {callbacks : EnoceanCallbacks} {device : EnoceanDevice} {sent : List SwitchTelegram}
  {op : Op}

/-- An authentic advertisement of the switch carries a telegram it has sent. -/
theorem sent_of_authentic (honly : VerifiesOnly device sent op)
    (h : authentic device op = true) : ∃ t ∈ sent, op.payload = t.encode := by
  cases op with
  | init => cases h
  | enableCommissioning => cases h
  | disableCommissioning => cases h
  | processAdvertisement crypto addr addrType advType rssi data =>
    simp only [authentic, Bool.and_eq_true, decide_eq_true_eq] at h
    exact honly (payloadOf data) h.1.2.2.2.1 h.2

/-- What is reported of a telegram of the switch. -/
theorem reportsFor_switch (hbutton : callbacks.button = true) (htype : device.type = .switch)
    {t : SwitchTelegram} (h : op.payload = t.encode) :
    (reportsFor callbacks device op).map pressOf = [some (pressIn (Span.ofList op.payload))] := by
  have hshape := switchShaped_of_encode h
  have hdeliverable : DataDeliverable device (payloadOf op.data) := by
    have hopt := hshape.1
    unfold DataDeliverable
    rw [if_pos htype]
    simp only [SwitchDeliverable, validOptLen, switchOptLen, kTagLen, kSwitchStateOffset,
      Bool.or_eq_true, beq_iff_eq]
    omega
  have hevents : dataEvents callbacks (heardDevice device op.rssi) (payloadOf op.data) =
      [switchEvent (heardDevice device op.rssi) (payloadOf op.data)] := by
    have hheard : (heardDevice device op.rssi).type = .switch := htype
    rw [dataEvents, if_pos hheard, if_pos hbutton]
  obtain ⟨optPtr, hevent, hopt⟩ :=
    reportsButton_switchEvent (heardDevice device op.rssi) hshape
  rw [reportsFor, if_pos hdeliverable, hevents, hevent, List.map_singleton, pressOf, hopt]
  have hsame : pressIn (payloadOf op.data) = pressIn (Span.ofList op.payload) := by
    rw [pressIn_encode h, pressIn_encode ((Span.bytes_ofList _).trans h)]
  rw [← hsame]
  rfl

/-- What is reported of the telegrams that are taken, read out of their payloads. -/
theorem reports_map_pressOf (hbutton : callbacks.button = true) (htype : device.type = .switch)
    {taken : List Op} (htaken : ∀ op ∈ taken, ∃ t ∈ sent, op.payload = t.encode) :
    (taken.flatMap (reportsFor callbacks device)).map pressOf =
      (taken.map Op.payload).map fun m => some (pressIn (Span.ofList m)) := by
  induction taken with
  | nil => rfl
  | cons op rest ih =>
    obtain ⟨⟨t, -, ht⟩, hrest⟩ := List.forall_mem_cons.mp htaken
    rw [List.flatMap_cons, List.map_append, reportsFor_switch hbutton htype ht, ih hrest]
    rfl

/-- What was pressed, read out of the payloads that were sent. -/
theorem pressed_eq (sent : List SwitchTelegram) :
    (sent.map fun t => some t.press) =
      (sent.map SwitchTelegram.encode).map fun m => some (pressIn (Span.ofList m)) := by
  rw [List.map_map]
  apply List.map_congr_left
  intro t _
  exact congrArg some (pressIn_encode (Span.bytes_ofList t.encode)).symm

theorem numberOf_payload {t : SwitchTelegram} (h : op.payload = t.encode) :
    numberOf op.payload = op.seq := by
  rw [h, numberOf_encode]
  exact (seqOf_of_bytes h).symm

end Telegram

/-- A press of two buttons and their release. -/
def sampleSent : List SwitchTelegram :=
  [sampleTelegram, { sampleTelegram with seq := 3, action := .release }]

/-- A backend that has seen what the sample switch sends. -/
def sampleBackend : CryptoBackend :=
  fun call => decide (call.aad ++ call.tag.toList ∈ sampleSent.map SwitchTelegram.encode)

/-- The press is heard twice, then a forged telegram, then the release. -/
def sampleHeard : List Op :=
  [.record sampleBackend sampleSwitch sampleTelegram.encode,
    .record sampleBackend sampleSwitch sampleTelegram.encode,
    .record sampleBackend sampleSwitch [9, 0, 0, 0, 0x03, 0, 0, 0, 0],
    .record sampleBackend sampleSwitch { sampleTelegram with seq := 3, action := .release }.encode]

theorem sampleBackend_verifiesOnly (device : EnoceanDevice) {op : Op} (hop : op ∈ sampleHeard) :
    VerifiesOnly device sampleSent op := by
  have honly : ∀ p : Span, kDataPayloadMin ≤ p.size →
      sampleBackend (decryptCall device p) = true → ∃ t ∈ sampleSent, p.bytes = t.encode := by
    intro p hsize haccepts
    have hmem := of_decide_eq_true haccepts
    rw [aad_decryptCall, tag_decryptCall device p (Nat.le_trans (by decide) hsize),
      List.take_append_drop] at hmem
    obtain ⟨t, ht, hbytes⟩ := List.mem_map.mp hmem
    exact ⟨t, ht, hbytes.symm⟩
  simp only [sampleHeard, List.mem_cons, List.not_mem_nil, or_false] at hop
  rcases hop with rfl | rfl | rfl | rfl
  all_goals exact honly

end EnoceanCore.Enocean
