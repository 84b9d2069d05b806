import EnoceanCore.Enocean.Entry

/-!
# Devices do not interfere

For an address that has an entry, what happens to the entry and which callbacks are made
for it depends on the advertisements from this address alone
(`devices_do_not_interfere`). `SameView` relates two drivers that look the same to the
address; a step from another address keeps it on one side, a step from the address keeps
it on both.
-/

namespace EnoceanCore.Enocean

open Lib

/-- The callbacks of the application for the entry of `a`. -/
def visibleTo (a : Address) (action : Action) : Option Event :=
  action.event?.bind (Option.guard fun e => decide (e.device.bleAddr.addr = a))

/-- The callbacks made for `a`, with their arguments and in order. -/
def eventsOf (a : Address) {α : Type} (x : Traced Action α) : List Event :=
  (events x).filter fun e => decide (e.device.bleAddr.addr = a)

theorem proj_visibleTo (a : Address) {α : Type} (x : Traced Action α) :
    x.proj (visibleTo a) = eventsOf a x := by
  rw [eventsOf, events, Traced.proj, Traced.proj, ← List.filterMap_eq_filter,
    List.filterMap_filterMap]
  rfl

/-- The step is an advertisement from `a`. -/
def isFrom (a : Address) (op : Op) : Bool := decide (op.sender = some a.toList)

/-- Every callback is for the sender of the advertisement. -/
theorem sender_of_event {driver : EnoceanDriver} {op : Op} {e : Event}
    (he : e ∈ events (step driver op)) : op.sender = some e.device.bleAddr.addr.toList := by
  cases op with
  | init => cases he
  | enableCommissioning => cases he
  | disableCommissioning => cases he
  | processAdvertisement crypto addr addrType advType rssi data =>
    rw [step] at he
    apply congrArg some
    cases processAdvertisement_outcome crypto driver addr addrType advType rssi data with
    | ignored _ _ _ _ hevents =>
      rw [hevents] at he
      cases he
    | known i hlisten _ hfind _ _ _ hevents =>
      obtain ⟨-, haddr⟩ := findDevice_active hlisten.2.1 hfind
      rw [hevents] at he
      cases handleData_outcome driver.callbacks crypto (heardDevice (driver.devices.get i) rssi)
        (payloadOf data) with
      | reject _ _ _ hnone =>
        rw [hnone] at he
        cases he
      | forged _ _ _ _ hnone =>
        rw [hnone] at he
        cases he
      | undelivered _ _ _ _ _ hnone =>
        rw [hnone] at he
        cases he
      | deliver _ _ _ _ _ hsome =>
        rw [hsome] at he
        rw [(mem_dataEvents _ _ he).1]
        exact haddr.symm
    | commissioned i hlisten _ _ _ _ _ _ _ hevents =>
      rw [hevents] at he
      split at he
      · rw [List.mem_singleton.mp he]
        exact (overwrite_address _ hlisten.2.1).symm
      · cases he

theorem eventsOf_step_of_ne {driver : EnoceanDriver} {op : Op} {a : Address}
    (h : isFrom a op = false) : eventsOf a (step driver op) = [] := by
  rw [eventsOf, List.filter_eq_nil_iff]
  intro e he haddr
  rw [isFrom, sender_of_event he, decide_eq_false_iff_not] at h
  exact h (congrArg (fun b => some (Vector.toList b)) (of_decide_eq_true haddr))

/-- Two drivers that an address with an entry cannot tell apart. -/
structure SameView (a : Address) (s t : EnoceanDriver) : Prop where
  left : TableInvariant s
  right : TableInvariant t
  callbacks : s.callbacks = t.callbacks
  initialised : s.initialised = t.initialised
  entry : entryOf s.devices a = entryOf t.devices a
  known : (entryOf s.devices a).isSome

theorem SameView.skip {a : Address} {s t : EnoceanDriver} (h : SameView a s t) {op : Op}
    (hinit : op.isInit = false) (hother : isFrom a op = false) :
    SameView a (step s op).val t := by
  have hframe : entryOf (step s op).val.devices a = entryOf s.devices a :=
    entryOf_step_of_ne h.left hinit (of_decide_eq_false hother)
  exact ⟨h.left.step op, h.right, (callbacks_step s op).trans h.callbacks,
    (initialised_step s hinit).trans h.initialised, hframe.trans h.entry, hframe ▸ h.known⟩

/-- A step from the address looks the same on both sides. -/
theorem SameView.keep {a : Address} {s t : EnoceanDriver} (h : SameView a s t) {op : Op}
    (hinit : op.isInit = false) (hown : isFrom a op = true) :
    SameView a (step s op).val (step t op).val ∧ events (step s op) = events (step t op) := by
  have hsame : entryOf (step s op).val.devices a = entryOf (step t op).val.devices a ∧
      (entryOf (step s op).val.devices a).isSome ∧
      events (step s op) = events (step t op) := by
    have hsender : op.sender = some a.toList := of_decide_eq_true hown
    cases op with
    | init => cases hinit
    | enableCommissioning => cases hsender
    | disableCommissioning => cases hsender
    | processAdvertisement crypto addr addrType advType rssi data =>
      obtain rfl : addr = a.toList := Option.some.inj hsender
      obtain ⟨device, hs⟩ := Option.isSome_iff_exists.mp h.known
      have ht : entryOf t.devices a = some device := h.entry ▸ hs
      have hlisten : Listens s a.toList addrType advType ↔ Listens t a.toList addrType advType := by
        rw [Listens, Listens, h.initialised]
      simp only [step]
      by_cases hheard : Listens s a.toList addrType advType ∧
          kDataPayloadMin ≤ (payloadOf data).size
      · obtain ⟨hs', hsevents, -⟩ := processAdvertisement_known crypto addrType advType rssi data
          h.left hs hheard.1 hheard.2
        obtain ⟨ht', htevents, -⟩ := processAdvertisement_known crypto addrType advType rssi data
          h.right ht (hlisten.mp hheard.1) hheard.2
        rw [hs', ht', hsevents, htevents, h.callbacks]
        exact ⟨rfl, rfl, rfl⟩
      · obtain ⟨hs', hsevents, -⟩ :=
          processAdvertisement_deaf crypto addrType advType rssi data hheard
        rw [hlisten] at hheard
        obtain ⟨ht', htevents, -⟩ :=
          processAdvertisement_deaf crypto addrType advType rssi data hheard
        rw [hs', ht', hsevents, htevents]
        exact ⟨h.entry, h.known, rfl⟩
  obtain ⟨hentry, hknown, hevents⟩ := hsame
  have hcallbacks : (step s op).val.callbacks = (step t op).val.callbacks := by
    rw [callbacks_step, callbacks_step, h.callbacks]
  have hinitialised : (step s op).val.initialised = (step t op).val.initialised := by
    rw [initialised_step s hinit, initialised_step t hinit, h.initialised]
  exact ⟨⟨h.left.step op, h.right.step op, hcallbacks, hinitialised, hentry, hknown⟩, hevents⟩

/-- **Isolation.** From a reachable state in which `a` has an entry, steps of any kind but
`init` leave the entry of `a` and deliver the callbacks for `a` as the advertisements from
`a` alone do. The backend of a step is a function of the call. -/
theorem devices_do_not_interfere (callbacks : EnoceanCallbacks) (ops : List Op) (a : Address)
    (steps : List Op) :
    let driver := (run step (construct callbacks) ops).val
    (entryOf driver.devices a).isSome = true → (∀ op ∈ steps, op.isInit = false) →
      entryOf (run step driver steps).val.devices a =
        entryOf (run step driver (steps.filter (isFrom a))).val.devices a ∧
      eventsOf a (run step driver steps) =
        eventsOf a (run step driver (steps.filter (isFrom a))) := by
  intro driver hknown hsteps
  have hinv : TableInvariant driver := tableInvariant_run callbacks ops
  obtain ⟨hview, hsame⟩ := run_purge (R := SameView a)
    (P := fun op => op.isInit = false) (isFrom a) (visibleTo a)
    (fun s t op h hinit hother =>
      ⟨h.skip hinit hother, (proj_visibleTo a _).trans (eventsOf_step_of_ne hother)⟩)
    (fun s t op h hinit hown => by
      obtain ⟨hview, hevents⟩ := h.keep hinit hown
      refine ⟨hview, ?_⟩
      rw [proj_visibleTo, proj_visibleTo, eventsOf, eventsOf, hevents])
    ⟨hinv, hinv, rfl, rfl, rfl, hknown⟩ steps hsteps
  rw [proj_visibleTo, proj_visibleTo] at hsame
  exact ⟨hview.entry, hsame⟩

/-- A second switch is commissioned and pressed before the press of the first. -/
def sampleCrowd : List Op :=
  [.record (fun _ => true) #v[0x09, 0x02, 0x03, 0x04, 0xDA, 0x03]
      ([1, 0, 0, 0] ++ List.replicate 18 0),
    .record (fun _ => true) #v[0x09, 0x02, 0x03, 0x04, 0xDA, 0x03] [7, 0, 0, 0, 0x05, 0, 0, 0, 0],
    .disableCommissioning,
    .record (fun _ => true) sampleSwitch [2, 0, 0, 0, 0x03, 0, 0, 0, 0]]

theorem devices_do_not_interfere_crowd :
    let driver := (run step (construct ⟨true, true, true⟩) sampleSetup).val
    (eventsOf sampleSwitch (run step driver sampleCrowd)).length = 1 ∧
      eventsOf sampleSwitch (run step driver sampleCrowd) =
        eventsOf sampleSwitch (run step driver (sampleCrowd.filter (isFrom sampleSwitch))) :=
  ⟨by decide +kernel, (devices_do_not_interfere ⟨true, true, true⟩ sampleSetup sampleSwitch
    sampleCrowd (by decide +kernel) (by decide +kernel)).2⟩

end EnoceanCore.Enocean
