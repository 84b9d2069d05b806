import EnoceanCore.Enocean.KeyLayout
import EnoceanCore.Enocean.Registry
import EnoceanCore.Lib.FirstCome

/-!
# Which devices are known

An advertisement with a commissioning payload that is heard while commissioning is enabled is an
offer of its sender. After `init` the known devices are the first eight different senders that
offer themselves, whatever else is heard (`first_come_first_served`). Each is announced once, in
that order, with its type and with the number and the key that its first offer carries in the
layout of that type, and keeps that key. The exception is an offer that `handle_commissioning`
takes for one in the other layout (`TakenForStm`): its key is another one.
-/

namespace EnoceanCore.Enocean

open Lib

/-! ## Offers -/

/-- The sender of a commissioning payload, and the payload. -/
def offerOf : Op → Option (Address × Span)
  | .processAdvertisement _ addr addrType advType _ data =>
      (Registry.telegramOf addr addrType advType data).filter fun (a, p) =>
        decide (Commissionable a.toList p)
  | _ => none

def enabledAfter (enabled : Bool) : Op → Bool
  | .init => false
  | .enableCommissioning => true
  | .disableCommissioning => false
  | .processAdvertisement .. => enabled

/-- The offers that are heard while commissioning is enabled. -/
def offers (enabled : Bool) : List Op → List (Address × Span)
  | [] => []
  | op :: ops =>
    (if enabled then (offerOf op).toList else []) ++ offers (enabledAfter enabled op) ops

/-- The senders of the offers. -/
def senders (offered : List (Address × Span)) : List Address := offered.map Prod.fst

/-- The payload of the first offer of a sender. -/
def firstOffer (offered : List (Address × Span)) (a : Address) : Option Span :=
  (offered.find? fun offer => decide (offer.1 = a)).map Prod.snd

/-- The entry a callback announces. -/
def announced? : Event → Option EnoceanDevice
  | .commissioned device => some device
  | _ => none

/-- The entry has the type of the sender `a` and the key that its first offer carries. -/
def HoldsFirstKey (offered : List (Address × Span)) (a : Address) (device : EnoceanDevice) :
    Prop :=
  device.type = detectDeviceType a.toList ∧
    ∃ p seq key, firstOffer offered a = some p ∧ Credentials a.toList p seq key ∧
      (¬ TakenForStm a.toList p → device.key = key)

/-- The entry announces the sender `a`, with its type and with the number and the key that its
first offer carries. -/
def AnnouncesFirst (offered : List (Address × Span)) (a : Address) (device : EnoceanDevice) :
    Prop :=
  device.bleAddr.addr = a ∧ device.type = detectDeviceType a.toList ∧
    ∃ p seq key, firstOffer offered a = some p ∧ Credentials a.toList p seq key ∧
      device.seqNum = seq ∧ (¬ TakenForStm a.toList p → device.key = key)

/-- Only commissioning payloads are offers. -/
theorem commissionable_of_offerOf {op : Op} {a : Address} {p : Span}
    (h : offerOf op = some (a, p)) : Commissionable a.toList p := by
  cases op with
  | init => cases h
  | enableCommissioning => cases h
  | disableCommissioning => cases h
  | processAdvertisement crypto addr addrType advType rssi data =>
    rw [offerOf, Option.filter_eq_some_iff] at h
    exact of_decide_eq_true h.2

theorem commissionable_of_mem_offers {enabled : Bool} {steps : List Op} {a : Address} {p : Span}
    (h : (a, p) ∈ offers enabled steps) : Commissionable a.toList p := by
  induction steps generalizing enabled with
  | nil => cases h
  | cons op steps ih =>
    rw [offers, List.mem_append] at h
    rcases h with hnow | hlater
    · split at hnow
      · exact commissionable_of_offerOf (Option.mem_toList.mp hnow)
      · cases hnow
    · exact ih hlater

theorem mem_of_firstOffer {offered : List (Address × Span)} {a : Address} {p : Span}
    (h : firstOffer offered a = some p) : (a, p) ∈ offered := by
  obtain ⟨offer, hoffer, rfl⟩ := Option.map_eq_some_iff.mp h
  have hsender := List.find?_some hoffer
  obtain rfl : offer.1 = a := of_decide_eq_true hsender
  exact List.mem_of_find?_eq_some hoffer

/-- The first offer of a sender carries a number and a key in the layout of the sender's type. -/
theorem credentials_of_firstOffer {enabled : Bool} {steps : List Op} {a : Address} {p : Span}
    (h : firstOffer (offers enabled steps) a = some p) :
    ∃ seq key, Credentials a.toList p seq key :=
  (commissionable_iff_credentials a.toList p).mp
    (commissionable_of_mem_offers (mem_of_firstOffer h))

/-! ## The registry -/

/-- The entry is the one that the first offer of the sender `a` is stored as. -/
def StoredFirst (offered : List (Address × Span)) (a : Address) (device : EnoceanDevice) : Prop :=
  ∃ p rssi, firstOffer offered a = some p ∧ device = newDevice {} a.toList kAddrRandom rssi p

/-- The registry knows the first senders of these offers, by their first offers. -/
structure Knows (registry : Registry) (offered : List (Address × Span)) : Prop where
  initialised : registry.initialised = true
  known : ∀ a, (registry.devices.lookup a).isSome ↔ a ∈ firstCome kMaxDevices (senders offered)
  size : registry.devices.size = (firstCome kMaxDevices (senders offered)).length
  first : ∀ a device, registry.devices.lookup a = some device →
    device.type = detectDeviceType a.toList ∧
      (firstOffer offered a).map keyOf = some device.key

theorem firstOffer_concat (offered : List (Address × Span)) (a : Address) (p : Span) (b : Address) :
    firstOffer (offered ++ [(a, p)]) b =
      (firstOffer offered b).or (if a = b then some p else none) := by
  unfold firstOffer
  rw [List.find?_append]
  cases offered.find? fun offer => decide (offer.1 = b) with
  | some offer => rfl
  | none =>
    by_cases hab : a = b
    · simp [hab]
    · simp [hab]

theorem firstOffer_of_not_mem {offered : List (Address × Span)} {a : Address}
    (h : a ∉ senders offered) : firstOffer offered a = none := by
  have hnone : (offered.find? fun offer => decide (offer.1 = a)) = none := by
    rw [List.find?_eq_none]
    intro offer hoffer haddr
    exact h (of_decide_eq_true haddr ▸ List.mem_map_of_mem hoffer)
  rw [firstOffer, hnone]
  rfl

theorem senders_concat (offered : List (Address × Span)) (a : Address) (p : Span) :
    senders (offered ++ [(a, p)]) = senders offered ++ [a] := List.map_append

/-- Later offers do not change the first one. -/
theorem firstOffer_append {offered : List (Address × Span)} {a : Address} {p : Span}
    (h : firstOffer offered a = some p) (later : List (Address × Span)) :
    firstOffer (offered ++ later) a = some p := by
  obtain ⟨offer, hoffer, rfl⟩ := Option.map_eq_some_iff.mp h
  rw [firstOffer, List.find?_append, hoffer]
  rfl

theorem StoredFirst.later {offered : List (Address × Span)} {a : Address} {device : EnoceanDevice}
    (h : StoredFirst offered a device) (later : List (Address × Span)) :
    StoredFirst (offered ++ later) a device := by
  obtain ⟨p, rssi, hfirst, hdevice⟩ := h
  exact ⟨p, rssi, firstOffer_append hfirst later, hdevice⟩

namespace Knows

variable {registry : Registry} {offered : List (Address × Span)} {a : Address} {p : Span}

theorem not_new (h : Knows registry offered)
    (hold : (registry.devices.lookup a).isSome ∨ ¬ registry.devices.size < kMaxDevices) :
    a ∈ firstCome kMaxDevices (senders offered) ∨
      kMaxDevices ≤ (firstCome kMaxDevices (senders offered)).length := by
  rw [← h.known a, ← h.size]
  exact hold.imp_right Nat.le_of_not_lt

/-- An offer of a known device, or one without room for it. -/
theorem more (h : Knows registry offered)
    (hold : (registry.devices.lookup a).isSome ∨ ¬ registry.devices.size < kMaxDevices) :
    Knows registry (offered ++ [(a, p)]) := by
  have hsame := firstCome_concat_of_not_new (h.not_new hold)
  refine ⟨h.initialised, fun b => ?_, ?_, fun b device hb => ?_⟩
  · rw [senders_concat, hsame]
    exact h.known b
  · rw [senders_concat, hsame]
    exact h.size
  · obtain ⟨htype, hfirst⟩ := h.first b device hb
    refine ⟨htype, ?_⟩
    obtain ⟨q, hq, hkey⟩ := Option.map_eq_some_iff.mp hfirst
    rw [firstOffer_concat, hq]
    exact congrArg some hkey

/-- The entry of a known device gets another sequence number and signal strength. -/
theorem set (h : Knows registry offered) {device : EnoceanDevice}
    (ha : registry.devices.lookup a = some device) (rssi : Int8) (seq : UInt32) :
    Knows { registry with
      devices := registry.devices.set a { device with rssi := rssi, seqNum := seq } } offered := by
  have hlookup := BoundedMap.lookup_set (m := registry.devices) (k := a)
    (by rw [ha]; rfl) { device with rssi := rssi, seqNum := seq }
  refine ⟨h.initialised, fun b => ?_, ?_, fun b device' hb => ?_⟩
  · rw [← h.known b]
    show ((registry.devices.set a _).lookup b).isSome ↔ _
    rw [hlookup b]
    by_cases hba : b = a
    · rw [if_pos hba, hba, ha]
      exact Iff.rfl
    · rw [if_neg hba]
  · rw [← h.size]
    exact BoundedMap.size_set _ _ _
  · have hb : (registry.devices.set a _).lookup b = some device' := hb
    rw [hlookup b] at hb
    by_cases hba : b = a
    · rw [if_pos hba] at hb
      obtain rfl := Option.some.inj hb
      subst hba
      exact h.first b device ha
    · rw [if_neg hba] at hb
      exact h.first b device' hb

/-- A new device for which there is room. -/
theorem insert (h : Knows registry offered) (ha : registry.devices.lookup a = none)
    (hroom : registry.devices.size < kMaxDevices) (rssi : Int8) :
    Knows { registry with
      devices := registry.devices.insert a (newDevice {} a.toList kAddrRandom rssi p) hroom }
        (offered ++ [(a, p)]) ∧
      firstCome kMaxDevices (senders (offered ++ [(a, p)])) =
        firstCome kMaxDevices (senders offered) ++ [a] ∧
      firstOffer (offered ++ [(a, p)]) a = some p := by
  have hnot : a ∉ firstCome kMaxDevices (senders offered) := by
    rw [← h.known a, ha]
    exact Bool.false_ne_true
  have hnew := firstCome_concat_of_new hnot (h.size ▸ hroom)
  have hfirst : firstOffer (offered ++ [(a, p)]) a = some p := by
    have hnone : firstOffer offered a = none := by
      apply firstOffer_of_not_mem
      exact fun hmem => hnot ((mem_firstCome_of_room (h.size ▸ hroom)).mpr hmem)
    rw [firstOffer_concat, hnone, if_pos rfl]
    rfl
  rw [senders_concat]
  refine ⟨⟨h.initialised, fun b => ?_, ?_, fun b device hb => ?_⟩, hnew, hfirst⟩
  · rw [senders_concat, hnew, List.mem_append, List.mem_singleton, ← h.known b]
    show ((registry.devices.insert a _ hroom).lookup b).isSome ↔ _
    rw [BoundedMap.lookup_insert]
    by_cases hba : b = a
    · simp [hba]
    · simp [hba]
  · rw [senders_concat, hnew, List.length_append, List.length_singleton, ← h.size]
    exact BoundedMap.size_insert ha _ hroom
  · have hb : (registry.devices.insert a _ hroom).lookup b = some device := hb
    rw [BoundedMap.lookup_insert] at hb
    by_cases hba : b = a
    · rw [if_pos hba] at hb
      obtain rfl := Option.some.inj hb
      subst hba
      refine ⟨rfl, ?_⟩
      rw [hfirst]
      rfl
    · rw [if_neg hba] at hb
      obtain ⟨htype, hfirst⟩ := h.first b device hb
      obtain ⟨q, hq, hkey⟩ := Option.map_eq_some_iff.mp hfirst
      refine ⟨htype, ?_⟩
      rw [firstOffer_concat, hq]
      exact congrArg some hkey

end Knows

/-! ## Steps -/

/-- What a step makes of a registry that knows the first senders: it knows them still, with the
new offers, and announces those that are new. -/
structure Heard (registry : Registry) (offered more : List (Address × Span))
    (r : Traced Event Registry) : Prop where
  knows : Knows r.val (offered ++ more)
  callbacks : r.val.callbacks = registry.callbacks
  announced : ∃ new, firstCome kMaxDevices (senders (offered ++ more)) =
      firstCome kMaxDevices (senders offered) ++ new ∧
    List.Forall₂ (StoredFirst (offered ++ more))
      (if registry.callbacks.commissioned then new else []) (r.log.filterMap announced?)

/-- The sender and the payload, if they are an offer that is heard. -/
def offered? (enabled : Bool) (a : Address) (p : Span) : List (Address × Span) :=
  if enabled = true ∧ Commissionable a.toList p then [(a, p)] else []

section Step

variable {registry : Registry} {offered : List (Address × Span)}

/-- Nothing is announced. -/
theorem Heard.quiet {more : List (Address × Span)} {r : Traced Event Registry}
    (hknows : Knows r.val (offered ++ more)) (hcallbacks : r.val.callbacks = registry.callbacks)
    (hsame : firstCome kMaxDevices (senders (offered ++ more)) =
      firstCome kMaxDevices (senders offered))
    (hlog : r.log.filterMap announced? = []) : Heard registry offered more r := by
  refine ⟨hknows, hcallbacks, [], ?_, ?_⟩
  · rw [hsame, List.append_nil]
  · rw [hlog, ite_self]
    exact .nil

/-- Commissioning is enabled or disabled. -/
theorem Knows.flag (h : Knows registry offered) (enabled : Bool) :
    Heard registry offered [] (pure { registry with commissioningEnabled := enabled }) := by
  refine Heard.quiet ?_ rfl ?_ rfl
  · rw [List.append_nil]
    exact ⟨h.initialised, h.known, h.size, h.first⟩
  · rw [List.append_nil]

/-- Nothing happens. -/
theorem Heard.pure (h : Knows registry offered) :
    Heard registry offered [] (Pure.pure registry) := h.flag registry.commissioningEnabled

/-- The offer of a device that is known, or for which there is no room. -/
theorem Knows.old (h : Knows registry offered) {a : Address} {p : Span} (enabled : Bool)
    (hold : (registry.devices.lookup a).isSome ∨ ¬ registry.devices.size < kMaxDevices) :
    Knows registry (offered ++ offered? enabled a p) ∧
      firstCome kMaxDevices (senders (offered ++ offered? enabled a p)) =
        firstCome kMaxDevices (senders offered) := by
  unfold offered?
  split
  · rw [senders_concat]
    exact ⟨h.more hold, firstCome_concat_of_not_new (h.not_new hold)⟩
  · rw [List.append_nil]
    exact ⟨h, rfl⟩

/-- The callbacks for a telegram announce nobody. -/
theorem announced_report (callbacks : EnoceanCallbacks) (crypto : CryptoBackend)
    (device : EnoceanDevice) (p : Span) :
    (report callbacks crypto device p).log.filterMap announced? = [] := by
  rw [List.filterMap_eq_nil_iff]
  intro e he
  unfold report at he
  split at he
  · dsimp only at he
    split at he
    · obtain ⟨-, hkind⟩ := mem_dataEvents callbacks device he
      rcases hkind with ⟨-, rfl⟩ | ⟨-, rfl⟩ <;> rfl
    · cases he
  · cases he

/-- A telegram is heard. -/
theorem heard_hear (h : Knows registry offered) (crypto : CryptoBackend) (a : Address)
    (rssi : Int8) (p : Span) :
    Heard registry offered (offered? registry.commissioningEnabled a p)
      (Registry.hear crypto registry a rssi p) := by
  cases hlookup : registry.devices.lookup a with
  | some device =>
    rw [Registry.hear_known crypto rssi hlookup]
    have hold : (registry.devices.lookup a).isSome ∨ ¬ registry.devices.size < kMaxDevices :=
      Or.inl (by rw [hlookup]; rfl)
    obtain ⟨hknows, hsame⟩ := h.old registry.commissioningEnabled hold
    refine Heard.quiet ?_ rfl hsame ?_
    · have hval := (report_eq registry.callbacks crypto (heardDevice device rssi) p).1
      obtain ⟨seq, hseq⟩ := handled_fields registry.callbacks crypto device rssi p
      rw [hseq] at hval
      rw [Traced.val_bind, Traced.val_pure, hval]
      exact hknows.set hlookup rssi seq
    · rw [Traced.log_bind, Traced.log_pure, List.append_nil]
      exact announced_report _ _ _ _
  | none =>
    by_cases hroom : registry.devices.size < kMaxDevices
    · by_cases hoffer : registry.commissioningEnabled = true ∧ Commissionable a.toList p
      · obtain ⟨henabled, hok⟩ := hoffer
        obtain ⟨hknows, hnew, hfirst⟩ := h.insert (p := p) hlookup hroom rssi
        rw [Registry.hear_new crypto rssi hlookup hroom henabled hok]
        rw [offered?, if_pos ⟨henabled, hok⟩]
        refine ⟨hknows, rfl, [a], hnew, ?_⟩
        dsimp only
        split
        · exact .cons ⟨p, rssi, hfirst, rfl⟩ .nil
        · exact .nil
      · rw [Registry.hear_refused crypto rssi hlookup fun hadmitted => hoffer hadmitted.2,
          offered?, if_neg hoffer]
        exact Heard.pure h
    · rw [Registry.hear_refused crypto rssi hlookup fun hadmitted => hroom hadmitted.1]
      obtain ⟨hknows, hsame⟩ := h.old registry.commissioningEnabled (Or.inr hroom)
      exact Heard.quiet hknows rfl hsame rfl

/-- A step but `init`. -/
theorem heard_step (h : Knows registry offered) {op : Op} (hop : op.isInit = false) :
    Heard registry offered
        (if registry.commissioningEnabled then (offerOf op).toList else [])
        (registry.step op) ∧
      (registry.step op).val.commissioningEnabled =
        enabledAfter registry.commissioningEnabled op := by
  cases op with
  | init => cases hop
  | enableCommissioning =>
    have hnone : (if registry.commissioningEnabled then
        (offerOf .enableCommissioning).toList else []) = [] := ite_self _
    rw [hnone]
    exact ⟨h.flag true, rfl⟩
  | disableCommissioning =>
    have hnone : (if registry.commissioningEnabled then
        (offerOf .disableCommissioning).toList else []) = [] := ite_self _
    rw [hnone]
    exact ⟨h.flag false, rfl⟩
  | processAdvertisement crypto addr addrType advType rssi data =>
    cases htelegram : Registry.telegramOf addr addrType advType data with
    | none =>
      have hnone : (if registry.commissioningEnabled then
          (offerOf (.processAdvertisement crypto addr addrType advType rssi data)).toList
            else []) = [] := by
        rw [offerOf, htelegram]
        exact ite_self _
      rw [hnone, Registry.step_other crypto rssi fun _ => htelegram]
      exact ⟨Heard.pure h, rfl⟩
    | some telegram =>
      obtain ⟨a, p⟩ := telegram
      have hoffer : (if registry.commissioningEnabled then
          (offerOf (.processAdvertisement crypto addr addrType advType rssi data)).toList
            else []) = offered? registry.commissioningEnabled a p := by
        rw [offerOf, htelegram, offered?]
        cases registry.commissioningEnabled with
        | false => simp
        | true => by_cases hok : Commissionable a.toList p <;> simp [Option.filter, hok]
      rw [hoffer, Registry.step_telegram h.initialised crypto rssi htelegram]
      refine ⟨heard_hear h crypto a rssi p, ?_⟩
      obtain ⟨devices, hframe⟩ := Registry.exists_devices_hear crypto registry a rssi p
      rw [hframe]
      rfl

end Step

/-! ## Runs -/

/-- Two parts of a run. -/
theorem Heard.trans {registry : Registry} {offered more later : List (Address × Span)}
    {r : Traced Event Registry} {f : Registry → Traced Event Registry}
    (h : Heard registry offered more r) (h' : Heard r.val (offered ++ more) later (f r.val)) :
    Heard registry offered (more ++ later) (r >>= f) := by
  obtain ⟨new, hsenders, hlog⟩ := h.announced
  obtain ⟨new', hsenders', hlog'⟩ := h'.announced
  refine ⟨?_, h'.callbacks.trans h.callbacks, new ++ new', ?_, ?_⟩
  · rw [← List.append_assoc]
    exact h'.knows
  · rw [← List.append_assoc, hsenders', hsenders, List.append_assoc]
  · rw [← List.append_assoc, Traced.log_bind, List.filterMap_append]
    rw [h.callbacks] at hlog'
    have hfirst := hlog.imp fun _ _ hstored => hstored.later later
    split at hlog'
    · rename_i hset
      rw [if_pos hset] at hfirst ⊢
      exact List.rel_append hfirst hlog'
    · rename_i hset
      rw [if_neg hset] at hfirst ⊢
      exact List.rel_append hfirst hlog'

theorem heard_run {registry : Registry} {offered : List (Address × Span)}
    (h : Knows registry offered) {steps : List Op} (hsteps : ∀ op ∈ steps, op.isInit = false) :
    Heard registry offered (offers registry.commissioningEnabled steps)
      (run Registry.step registry steps) := by
  induction steps generalizing registry offered with
  | nil => exact Heard.pure h
  | cons op steps ih =>
    obtain ⟨hop, hsteps⟩ := List.forall_mem_cons.mp hsteps
    obtain ⟨hfirst, henabled⟩ := heard_step h hop
    have hrest := ih hfirst.knows hsteps
    rw [henabled] at hrest
    exact hfirst.trans hrest

/-- What is stored from the first offer announces it. -/
theorem StoredFirst.announcesFirst {enabled : Bool} {steps : List Op} {a : Address}
    {device : EnoceanDevice} (h : StoredFirst (offers enabled steps) a device) :
    AnnouncesFirst (offers enabled steps) a device := by
  obtain ⟨p, rssi, hfirst, rfl⟩ := h
  obtain ⟨seq, key, hcarried⟩ := credentials_of_firstOffer hfirst
  refine ⟨?_, rfl, p, seq, key, hfirst, hcarried, hcarried.seqOf_eq, hcarried.keyOf_eq⟩
  exact Vector.toList_inj.mp (overwrite_address _ (by simp))

/-- **First come, first served.** After `init` and any further steps but `init`, the known devices
are the first eight different senders that offered themselves while commissioning was enabled.
Each is announced once, in that order, with the type of its address and with the number and the
key that its first offer carries in the layout of that type, and keeps that key; the key is
another one only if that offer is taken for one in the other layout. -/
theorem first_come_first_served (callbacks : EnoceanCallbacks) (before steps : List Op)
    (hsteps : ∀ op ∈ steps, op.isInit = false) :
    let driver := (run step (construct callbacks) (before ++ [.init])).val
    let after := run step driver steps
    let offered := offers false steps
    let joined := firstCome kMaxDevices (senders offered)
    (∀ a, (entryOf after.val.devices a).isSome ↔ a ∈ joined) ∧
      deviceCount after.val.devices = joined.length ∧
      List.Forall₂ (AnnouncesFirst offered) (if callbacks.commissioned then joined else [])
        ((events after).filterMap announced?) ∧
      ∀ a device, entryOf after.val.devices a = some device →
        HoldsFirstKey offered a device := by
  intro driver after offered joined
  let registry := (run Registry.step (Registry.construct callbacks) (before ++ [.init])).val
  have himplements : Implements registry driver := (implements_run callbacks (before ++ [.init])).1
  have hreset : registry = { (run Registry.step (Registry.construct callbacks) before).val with
      initialised := true, commissioningEnabled := false, devices := .empty } :=
    congrArg Traced.val (run_append _ before [Op.init])
  have hcallbacks : registry.callbacks = callbacks := by
    rw [himplements.callbacks]
    exact callbacks_run callbacks _
  have hempty : Knows registry [] := by
    rw [hreset]
    refine ⟨rfl, fun a => ?_, ?_, fun a device ha => by cases ha⟩
    · exact iff_of_false Bool.false_ne_true List.not_mem_nil
    · exact BoundedMap.size_empty
  have hheard := heard_run hempty hsteps
  obtain ⟨hafter, hevents⟩ : Implements (run Registry.step registry steps).val after.val ∧
      events after = (run Registry.step registry steps).log :=
    run_refines Action.event? (fun _ _ op h => h.step op) himplements steps
  have hdisabled : registry.commissioningEnabled = false := by rw [hreset]
  rw [hdisabled] at hheard
  obtain ⟨new, hjoined, hannounced⟩ := hheard.announced
  have hjoined : joined = new := hjoined
  refine ⟨fun a => ?_, ?_, ?_, fun a device ha => ?_⟩
  · rw [hafter.entry]
    exact hheard.knows.known a
  · rw [hafter.count]
    exact hheard.knows.size
  · rw [hevents, hjoined, ← hcallbacks]
    exact hannounced.imp fun _ _ hstored => hstored.announcesFirst
  · rw [hafter.entry] at ha
    obtain ⟨htype, hkey⟩ := hheard.knows.first a device ha
    obtain ⟨p, hfirst, hkey⟩ := Option.map_eq_some_iff.mp hkey
    obtain ⟨seq, key, hcarried⟩ := credentials_of_firstOffer hfirst
    refine ⟨htype, p, seq, key, hfirst, hcarried, fun hlayout => ?_⟩
    rw [← hkey]
    exact hcarried.keyOf_eq hlayout

/-- A switch offers itself before commissioning is enabled, twice while it is, with two keys, and
another one after it is disabled. -/
def sampleOffers : List Op :=
  let offer (a : Address) (key : UInt8) : Op :=
    .record (fun _ => true) a ([1, 0, 0, 0] ++ List.replicate 16 key ++ [0, 0])
  [offer sampleSwitch 1, .enableCommissioning, offer sampleSwitch 2, offer sampleSwitch 3,
    .disableCommissioning, offer #v[1, 1, 1, 1, 0xDA, 0x03] 4]

theorem first_come_first_served_sampleOffers :
    let driver := (run step (construct ⟨true, true, true⟩) ([] ++ [.init])).val
    let after := run step driver sampleOffers
    List.Forall₂ (AnnouncesFirst (offers false sampleOffers)) [sampleSwitch]
        ((events after).filterMap announced?) ∧
      deviceCount after.val.devices = 1 ∧
      (firstOffer (offers false sampleOffers) sampleSwitch).map Span.bytes =
        some (plainLayout 1 (Vector.replicate kKeyLen 2) [0, 0]) := by
  obtain ⟨-, hcount, hannounced, -⟩ :=
    first_come_first_served ⟨true, true, true⟩ [] sampleOffers (by decide)
  have hjoined : firstCome kMaxDevices (senders (offers false sampleOffers)) = [sampleSwitch] := by
    decide +kernel
  rw [hjoined] at hcount hannounced
  exact ⟨hannounced, hcount, by decide +kernel⟩

end EnoceanCore.Enocean
