import EnoceanCore.Enocean.Isolation
import EnoceanCore.Enocean.Registry
import EnoceanCore.Enocean.Replay
import EnoceanCore.Lib.Records

/-!
# What is received from a known device

The driver as a function on what it hears. From a state in which a device is known on, the
callbacks for it are the reports of the records of its authentic advertisements: of those that
are larger than the stored sequence number and than every authentic one before
(`reports_are_records`). Nothing else of what was heard matters, neither the other advertisements
nor the states in between; the stored number at the end is that of the last record.
-/

namespace EnoceanCore.Enocean

open Lib

/-- The signal strength an advertisement is heard with. -/
def Op.rssi : Op → Int8
  | .processAdvertisement _ _ _ _ rssi _ => rssi
  | _ => 0

/-- The tests of a data handler but for the one of the sequence number. -/
def WellShaped (type : DeviceType) (p : Span) : Prop :=
  kDataPayloadMin ≤ p.size ∧ (type = .switch →
    p.size ≤ kSwitchPayloadMax ∧ p.byte kSwitchStateOffset &&& kStatusReservedMask = 0)

instance (type : DeviceType) (p : Span) : Decidable (WellShaped type p) :=
  inferInstanceAs (Decidable (_ ∧ (_ → _)))

theorem dataAdmissible_iff {device : EnoceanDevice} {p : Span} :
    DataAdmissible device p ↔ WellShaped device.type p ∧ device.seqNum < seqOf p := by
  unfold DataAdmissible WellShaped
  by_cases htype : device.type = .switch
  · rw [if_pos htype]
    constructor
    · intro h
      rcases h with ⟨hmin, hmax, hseq, hbits⟩
      exact ⟨⟨hmin, fun _ => ⟨hmax, hbits⟩⟩, hseq⟩
    · intro h
      rcases h with ⟨⟨hmin, hswitch⟩, hseq⟩
      exact ⟨hmin, (hswitch htype).1, hseq, (hswitch htype).2⟩
  · rw [if_neg htype]
    constructor
    · intro h
      rcases h with ⟨hmin, hseq⟩
      exact ⟨⟨hmin, fun hswitch => absurd hswitch htype⟩, hseq⟩
    · intro h
      rcases h with ⟨⟨hmin, -⟩, hseq⟩
      exact ⟨hmin, hseq⟩

/-- The advertisement is a telegram of the device that its key verifies, whatever its
sequence number. -/
def authentic (device : EnoceanDevice) : Op → Bool
  | .processAdvertisement crypto addr addrType advType _ data =>
      decide (addr = device.bleAddr.addr.toList ∧ advType = kAdvNonconnInd ∧
        addrType = kAddrRandom ∧ WellShaped device.type (payloadOf data)) &&
        crypto (decryptCall device (payloadOf data))
  | _ => false

theorem isFrom_of_authentic {device : EnoceanDevice} {op : Op}
    (h : authentic device op = true) : isFrom device.bleAddr.addr op = true := by
  cases op with
  | init => cases h
  | enableCommissioning => cases h
  | disableCommissioning => cases h
  | processAdvertisement crypto addr addrType advType rssi data =>
    simp only [authentic, Bool.and_eq_true, decide_eq_true_eq] at h
    exact decide_eq_true (congrArg some h.1.1)

/-- The callbacks for a telegram that is taken. -/
def reportsFor (callbacks : EnoceanCallbacks) (device : EnoceanDevice) (op : Op) : List Event :=
  if DataDeliverable device (payloadOf op.data) then
    dataEvents callbacks (heardDevice device op.rssi) (payloadOf op.data)
  else []

/-- The entry of the device, with some signal strength and the number `seq`. -/
structure Stored (callbacks : EnoceanCallbacks) (device : EnoceanDevice) (driver : EnoceanDriver)
    (seq : UInt32) : Prop where
  invariant : TableInvariant driver
  callbacks : driver.callbacks = callbacks
  initialised : driver.initialised = true
  entry : ∃ rssi, entryOf driver.devices device.bleAddr.addr =
    some { device with rssi := rssi, seqNum := seq }

section Step

variable {callbacks : EnoceanCallbacks} {device : EnoceanDevice} {driver : EnoceanDriver}
  {seq : UInt32} {op : Op}

/-- The callbacks of a step from an address are all for its entry. -/
theorem eventsOf_step_own {a : Address} (h : isFrom a op = true) :
    eventsOf a (step driver op) = events (step driver op) := by
  rw [eventsOf, List.filter_eq_self]
  intro e he
  have hsender : op.sender = some a.toList := of_decide_eq_true h
  rw [sender_of_event he] at hsender
  exact decide_eq_true (Vector.toList_inj.mp (Option.some.inj hsender))

/-- The steps that are neither `init` nor from the device leave its entry alone. -/
theorem Stored.other (h : Stored callbacks device driver seq) (hinit : op.isInit = false)
    (hother : isFrom device.bleAddr.addr op = false) :
    Stored callbacks device (step driver op).val seq ∧
      eventsOf device.bleAddr.addr (step driver op) = [] := by
  refine ⟨⟨h.invariant.step op, ?_, ?_, ?_⟩, eventsOf_step_of_ne hother⟩
  · rw [callbacks_step, h.callbacks]
  · rw [initialised_step driver hinit, h.initialised]
  · rw [entryOf_step_of_ne h.invariant hinit (of_decide_eq_false hother)]
    exact h.entry

/-- A telegram that is heard is handled as the registry reports it. -/
theorem Stored.heard (h : Stored callbacks device driver seq) (crypto : CryptoBackend)
    {addrType advType : UInt8} (rssi : Int8) {data : Span}
    (hlisten : Listens driver device.bleAddr.addr.toList addrType advType)
    (hsize : kDataPayloadMin ≤ (payloadOf data).size) {seq' : UInt32}
    {r : Traced Event EnoceanDevice}
    (hreport : report callbacks crypto { device with rssi := rssi, seqNum := seq }
      (payloadOf data) = r)
    (hval : r.val = { device with rssi := rssi, seqNum := seq' }) :
    let after := processAdvertisement crypto driver device.bleAddr.addr.toList addrType advType
      rssi data
    Stored callbacks device after.val seq' ∧ events after = r.log := by
  intro after
  obtain ⟨before, hentry⟩ := h.entry
  have hafter : TableInvariant after.val := h.invariant.step
    (.processAdvertisement crypto device.bleAddr.addr.toList addrType advType rssi data)
  have hframe : after.val = { driver with devices := after.val.devices } :=
    (processAdvertisement_outcome crypto driver device.bleAddr.addr.toList addrType advType rssi
      data).frame
  obtain ⟨hnew, hevents, -⟩ := processAdvertisement_known crypto addrType advType rssi data
    h.invariant hentry hlisten hsize
  obtain ⟨hhandled, hlog⟩ := report_eq driver.callbacks crypto
    (heardDevice { device with rssi := before, seqNum := seq } rssi) (payloadOf data)
  have hsame : report driver.callbacks crypto
      (heardDevice { device with rssi := before, seqNum := seq } rssi) (payloadOf data) = r := by
    rw [h.callbacks]
    exact hreport
  rw [hsame] at hhandled hlog
  rw [← hhandled, hval] at hnew
  refine ⟨⟨hafter, ?_, ?_, rssi, hnew⟩, hevents.trans hlog.symm⟩
  · rw [hframe]
    exact h.callbacks
  · rw [hframe]
    exact h.initialised

/-- A step from the device: what is authentic and new is taken. -/
theorem Stored.own (h : Stored callbacks device driver seq)
    (hown : isFrom device.bleAddr.addr op = true) :
    (authentic device op = true → seq < op.seq →
      Stored callbacks device (step driver op).val op.seq ∧
        events (step driver op) = reportsFor callbacks device op) ∧
    ((authentic device op = true → ¬ seq < op.seq) →
      Stored callbacks device (step driver op).val seq ∧ events (step driver op) = []) := by
  have hsender : op.sender = some device.bleAddr.addr.toList := of_decide_eq_true hown
  cases op with
  | init => cases hsender
  | enableCommissioning => cases hsender
  | disableCommissioning => cases hsender
  | processAdvertisement crypto addr addrType advType rssi data =>
    obtain rfl : addr = device.bleAddr.addr.toList := Option.some.inj hsender
    have hauthentic : authentic device (.processAdvertisement crypto device.bleAddr.addr.toList
        addrType advType rssi data) = true ↔
        (advType = kAdvNonconnInd ∧ addrType = kAddrRandom ∧
          WellShaped device.type (payloadOf data)) ∧
        crypto (decryptCall device (payloadOf data)) = true := by
      simp only [authentic, true_and, Bool.and_eq_true, decide_eq_true_eq]
    simp only [step]
    constructor
    · intro hyes hnew
      obtain ⟨⟨hadv, haddr, hshape⟩, haccepts⟩ := hauthentic.mp hyes
      have hok : DataAdmissible { device with rssi := rssi, seqNum := seq } (payloadOf data) :=
        dataAdmissible_iff.mpr ⟨hshape, hnew⟩
      exact h.heard crypto rssi ⟨h.initialised, by simp, hadv, haddr⟩ hshape.1
        (if_pos ⟨hok, haccepts⟩) rfl
    · intro hold
      by_cases hheard : Listens driver device.bleAddr.addr.toList addrType advType ∧
          kDataPayloadMin ≤ (payloadOf data).size
      · obtain ⟨hlisten, hsize⟩ := hheard
        have hno : ¬ (DataAdmissible { device with rssi := rssi, seqNum := seq }
            (payloadOf data) ∧ crypto (decryptCall { device with rssi := rssi, seqNum := seq }
              (payloadOf data)) = true) := by
          intro hok
          obtain ⟨hshape, hnew⟩ := dataAdmissible_iff.mp hok.1
          exact hold (hauthentic.mpr ⟨⟨hlisten.2.2.1, hlisten.2.2.2, hshape⟩, hok.2⟩) hnew
        exact h.heard crypto rssi hlisten hsize (if_neg hno) rfl
      · obtain ⟨hval, hevents, -⟩ :=
          processAdvertisement_deaf crypto addrType advType rssi data hheard
        rw [hval]
        exact ⟨h, hevents⟩

end Step

theorem stored_of_entry {callbacks : EnoceanCallbacks} {ops : List Op} {device : EnoceanDevice}
    (h : entryOf (run step (construct callbacks) ops).val.devices device.bleAddr.addr =
      some device) :
    Stored callbacks device (run step (construct callbacks) ops).val device.seqNum := by
  have hinv := tableInvariant_run callbacks ops
  obtain ⟨i, hi, hdevice⟩ := (entryOf_eq_some_iff hinv.wellFormed).mp h
  obtain ⟨hactive, -⟩ := slotOf_eq_some_iff.mp hi
  exact ⟨hinv, callbacks_run callbacks ops, hinv.initialised hactive, device.rssi, h⟩

/-- A run from a state in which the entry is stored. -/
theorem Stored.run {callbacks : EnoceanCallbacks} {device : EnoceanDevice}
    {driver : EnoceanDriver} {seq : UInt32} (h : Stored callbacks device driver seq)
    {steps : List Op} (hsteps : ∀ op ∈ steps, op.isInit = false) :
    eventsOf device.bleAddr.addr (run step driver steps) =
        (records Op.seq seq (steps.filter (authentic device))).flatMap
          (reportsFor callbacks device) ∧
      Stored callbacks device (run step driver steps).val
        (lastRecord Op.seq seq (steps.filter (authentic device))) := by
  obtain ⟨hevents, hend⟩ := run_records Op.seq (visibleTo device.bleAddr.addr) (authentic device)
    (reportsFor callbacks device) (P := fun op => op.isInit = false)
    (R := Stored callbacks device)
    (by
      intro s seq op hs hop hold
      rw [proj_visibleTo]
      cases hfrom : isFrom device.bleAddr.addr op with
      | false => exact hs.other hop hfrom
      | true =>
        rw [eventsOf_step_own hfrom]
        exact (hs.own hfrom).2 hold)
    (by
      intro s seq op hs hop hyes hnew
      have hfrom := isFrom_of_authentic hyes
      rw [proj_visibleTo, eventsOf_step_own hfrom]
      exact (hs.own hfrom).1 hyes hnew)
    h steps hsteps
  rw [proj_visibleTo] at hevents
  exact ⟨hevents, hend⟩

/-- **Reception.** Let a device have an entry in a reachable state. After any steps but `init` the
callbacks for it are the reports of the records of its authentic advertisements, and its stored
number is that of the last record. -/
theorem reports_are_records (callbacks : EnoceanCallbacks) (ops : List Op)
    (device : EnoceanDevice) (steps : List Op) :
    let driver := (run step (construct callbacks) ops).val
    let a := device.bleAddr.addr
    let heard := steps.filter (authentic device)
    entryOf driver.devices a = some device → (∀ op ∈ steps, op.isInit = false) →
      eventsOf a (run step driver steps) =
        (records Op.seq device.seqNum heard).flatMap (reportsFor callbacks device) ∧
      ∃ rssi, entryOf (run step driver steps).val.devices a =
        some { device with rssi := rssi, seqNum := lastRecord Op.seq device.seqNum heard } := by
  intro driver a heard hentry hsteps
  obtain ⟨hevents, hend⟩ := (stored_of_entry hentry).run hsteps
  exact ⟨hevents, hend.entry⟩

/-- The entry of the sample switch. -/
def sampleEntry : EnoceanDevice where
  bleAddr := { addr := sampleSwitch, type := kAddrRandom }
  seqNum := 1
  type := .switch
  active := true

/-- A press, the same press late and twice, and a telegram with three optional bytes. -/
def sampleReception : List Op :=
  [.record (fun _ => true) sampleSwitch [3, 0, 0, 0, 0x03, 0, 0, 0, 0],
    .record (fun _ => true) sampleSwitch [2, 0, 0, 0, 0x02, 0, 0, 0, 0],
    .record (fun _ => true) sampleSwitch [3, 0, 0, 0, 0x03, 0, 0, 0, 0],
    .record (fun _ => true) sampleSwitch [4, 0, 0, 0, 0x02, 7, 7, 7, 0, 0, 0, 0]]

theorem reports_are_records_reception :
    let driver := (run step (construct ⟨true, true, true⟩) sampleSetup).val
    let heard := sampleReception.filter (authentic sampleEntry)
    (eventsOf sampleSwitch (run step driver sampleReception)).length = 1 ∧
      eventsOf sampleSwitch (run step driver sampleReception) =
        (records Op.seq 1 heard).flatMap (reportsFor ⟨true, true, true⟩ sampleEntry) :=
  ⟨by decide +kernel, (reports_are_records ⟨true, true, true⟩ sampleSetup sampleEntry
    sampleReception (by decide +kernel) (by decide +kernel)).1⟩

end EnoceanCore.Enocean
