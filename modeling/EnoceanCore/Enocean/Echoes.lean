import EnoceanCore.Enocean.Registry
import EnoceanCore.Enocean.Replay

/-!
# Telegrams that are heard again

EnOcean devices send every telegram several times, and a scanner that does not filter
duplicates delivers each copy. The driver makes the callbacks for the first one only: an
advertisement that repeats the last one of its sender, with neither `init` nor
`enable_commissioning` in between, changes nothing, whatever other senders did meanwhile
(`echoes_are_absorbed`). An advertisement is settled in a registry (`Registry.Settled`) if the
registry would report nothing and change nothing for it. It is settled right after it was heard,
and only its own sender, `init` and `enable_commissioning` can unsettle it.
-/

namespace EnoceanCore.Enocean

open Lib

/-- The call can come between an advertisement and its echo. -/
def quietFor (op between : Op) : Prop :=
  op.sender.isSome = true ∧ between.sender ≠ op.sender ∧ between.isInit = false ∧
    between ≠ .enableCommissioning

namespace Registry

/-- A telegram with the payload `p` of the device at `a` would change and report nothing. -/
def SettledTelegram (crypto : CryptoBackend) (registry : Registry) (a : Address) (rssi : Int8)
    (p : Span) : Prop :=
  match registry.devices.lookup a with
  | some device =>
      report registry.callbacks crypto (heardDevice device rssi) p = pure device
  | none =>
      ¬ (registry.devices.size < kMaxDevices ∧ registry.commissioningEnabled = true ∧
        Commissionable a.toList p)

/-- The call would change and report nothing. -/
def Settled (op : Op) (registry : Registry) : Prop :=
  match op with
  | .processAdvertisement crypto addr addrType advType rssi data =>
      registry.initialised = true → ∀ a p, telegramOf addr addrType advType data = some (a, p) →
        SettledTelegram crypto registry a rssi p
  | op => registry.step op = pure registry

section Report

variable (callbacks : EnoceanCallbacks) (crypto : CryptoBackend) (device : EnoceanDevice)
  (rssi : Int8) (p : Span)

/-- A telegram that was reported, or could not be, is not reported again. -/
theorem report_again :
    report callbacks crypto
        (heardDevice (report callbacks crypto (heardDevice device rssi) p).val rssi) p =
      pure (report callbacks crypto (heardDevice device rssi) p).val := by
  by_cases haccepts : DataAdmissible (heardDevice device rssi) p ∧
      crypto (decryptCall (heardDevice device rssi) p) = true
  · have hval : (report callbacks crypto (heardDevice device rssi) p).val =
        acceptedDevice (heardDevice device rssi) p := by
      rw [report, if_pos haccepts]
    rw [hval]
    apply if_neg
    intro hagain
    -- the stored sequence number is the one of the telegram
    have hlt : seqOf p < seqOf p := DataAdmissible.seq hagain.1
    exact absurd hlt (UInt32.lt_irrefl _)
  · have hpure : report callbacks crypto (heardDevice device rssi) p =
        pure (heardDevice device rssi) := if_neg haccepts
    rw [hpure]
    exact hpure

end Report

section Telegram

variable (crypto : CryptoBackend) {registry : Registry} {a : Address} (rssi : Int8) {p : Span}

/-- A telegram is settled once it was heard. -/
theorem settledTelegram_hear :
    SettledTelegram crypto (hear crypto registry a rssi p).val a rssi p := by
  unfold SettledTelegram
  cases hlookup : registry.devices.lookup a with
  | some device =>
    rw [hear_known crypto rssi hlookup, Traced.val_bind, Traced.val_pure]
    simp only
    rw [BoundedMap.lookup_set (by rw [hlookup]; rfl), if_pos rfl]
    exact report_again registry.callbacks crypto device rssi p
  | none =>
    by_cases hadmitted : registry.devices.size < kMaxDevices ∧
        registry.commissioningEnabled = true ∧ Commissionable a.toList p
    · obtain ⟨hroom, henabled, hok⟩ := hadmitted
      rw [hear_new crypto rssi hlookup hroom henabled hok]
      simp only
      rw [BoundedMap.lookup_insert, if_pos rfl]
      apply if_neg
      intro hagain
      have hlt : seqOf p < seqOf p := DataAdmissible.seq hagain.1
      exact absurd hlt (UInt32.lt_irrefl _)
    · rw [hear_refused crypto rssi hlookup hadmitted]
      simp only [Traced.val_pure, hlookup]
      exact hadmitted

/-- A settled telegram does nothing. -/
theorem hear_settled (h : SettledTelegram crypto registry a rssi p) :
    hear crypto registry a rssi p = pure registry := by
  unfold SettledTelegram at h
  cases hlookup : registry.devices.lookup a with
  | some device =>
    rw [hlookup] at h
    rw [hear_known crypto rssi hlookup, h, Traced.pure_bind, BoundedMap.set_lookup hlookup]
  | none =>
    rw [hlookup] at h
    exact hear_refused crypto rssi hlookup h

/-- A telegram stays settled as long as the entry of its sender and the callbacks are the same,
no room is made and commissioning is not enabled. -/
theorem SettledTelegram.mono (h : SettledTelegram crypto registry a rssi p) {registry' : Registry}
    (hcallbacks : registry'.callbacks = registry.callbacks)
    (hentry : registry'.devices.lookup a = registry.devices.lookup a)
    (hsize : registry.devices.size ≤ registry'.devices.size)
    (henabled : registry'.commissioningEnabled = true → registry.commissioningEnabled = true) :
    SettledTelegram crypto registry' a rssi p := by
  unfold SettledTelegram at h ⊢
  rw [hentry]
  cases hlookup : registry.devices.lookup a with
  | some device =>
    rw [hlookup] at h
    rw [hcallbacks]
    exact h
  | none =>
    rw [hlookup] at h
    intro hadmitted
    exact h ⟨Nat.lt_of_le_of_lt hsize hadmitted.1, henabled hadmitted.2.1, hadmitted.2.2⟩

/-- What a telegram of another device leaves alone. -/
theorem hear_frame {b : Address} (hb : b ≠ a) :
    let registry' := (hear crypto registry b rssi p).val
    registry'.callbacks = registry.callbacks ∧ registry'.initialised = registry.initialised ∧
      registry'.commissioningEnabled = registry.commissioningEnabled ∧
      registry'.devices.lookup a = registry.devices.lookup a ∧
      registry.devices.size ≤ registry'.devices.size := by
  intro registry'
  cases hlookup : registry.devices.lookup b with
  | some device =>
    have hknown : registry' = { registry with devices := registry.devices.set b _ } :=
      congrArg Traced.val (hear_known crypto rssi hlookup)
    rw [hknown]
    refine ⟨rfl, rfl, rfl, ?_, Nat.le_of_eq (BoundedMap.size_set _ _ _).symm⟩
    rw [BoundedMap.lookup_set (by rw [hlookup]; rfl), if_neg hb.symm]
  | none =>
    by_cases hadmitted : registry.devices.size < kMaxDevices ∧
        registry.commissioningEnabled = true ∧ Commissionable b.toList p
    · obtain ⟨hroom, henabled, hok⟩ := hadmitted
      have hnew : registry' = { registry with devices := registry.devices.insert b _ hroom } :=
        congrArg Traced.val (hear_new crypto rssi hlookup hroom henabled hok)
      rw [hnew]
      refine ⟨rfl, rfl, rfl, ?_, BoundedMap.size_le_insert hroom _ _⟩
      rw [BoundedMap.lookup_insert, if_neg hb.symm]
    · have hsame : registry' = registry :=
        congrArg Traced.val (hear_refused crypto rssi hlookup hadmitted)
      rw [hsame]
      exact ⟨rfl, rfl, rfl, rfl, Nat.le_refl _⟩

end Telegram

/-! ## Operations -/

/-- Every operation settles itself. -/
theorem settled_step (registry : Registry) (op : Op) : Settled op (registry.step op).val := by
  cases op with
  | init => rfl
  | enableCommissioning => rfl
  | disableCommissioning => rfl
  | processAdvertisement crypto addr addrType advType rssi data =>
    intro hinit a p htelegram
    by_cases hbefore : registry.initialised = true
    · rw [step_telegram hbefore crypto rssi htelegram]
      exact settledTelegram_hear crypto rssi
    · rw [step_other crypto rssi fun h => absurd h hbefore] at hinit
      exact absurd hinit hbefore

/-- A settled operation does nothing. -/
theorem step_settled {registry : Registry} {op : Op} (h : Settled op registry) :
    registry.step op = pure registry := by
  cases op with
  | init => exact h
  | enableCommissioning => exact h
  | disableCommissioning => exact h
  | processAdvertisement crypto addr addrType advType rssi data =>
    cases htelegram : telegramOf addr addrType advType data with
    | none => exact step_other crypto rssi fun _ => htelegram
    | some telegram =>
      obtain ⟨a, p⟩ := telegram
      by_cases hinit : registry.initialised = true
      · rw [step_telegram hinit crypto rssi htelegram]
        exact hear_settled crypto rssi (h hinit a p htelegram)
      · exact step_other crypto rssi fun hyes => absurd hyes hinit

/-- An advertisement of another sender. -/
theorem step_frame (registry : Registry) (crypto : CryptoBackend) {addr : List UInt8}
    (addrType advType : UInt8) (rssi : Int8) (data : Span) {a : Address} (ha : addr ≠ a.toList) :
    let registry' := (registry.step
      (.processAdvertisement crypto addr addrType advType rssi data)).val
    registry'.callbacks = registry.callbacks ∧ registry'.initialised = registry.initialised ∧
      registry'.commissioningEnabled = registry.commissioningEnabled ∧
      registry'.devices.lookup a = registry.devices.lookup a ∧
      registry.devices.size ≤ registry'.devices.size := by
  by_cases hheard : registry.initialised = true ∧
      ∃ b p, telegramOf addr addrType advType data = some (b, p)
  · obtain ⟨hinit, b, p, htelegram⟩ := hheard
    have hb : b ≠ a := by
      rintro rfl
      exact ha (telegramOf_eq_some_iff.mp htelegram).1.symm
    rw [step_telegram hinit crypto rssi htelegram]
    exact hear_frame crypto rssi hb
  · rw [step_other crypto rssi]
    · exact ⟨rfl, rfl, rfl, rfl, Nat.le_refl _⟩
    · intro hinit
      apply Option.eq_none_iff_forall_ne_some.mpr
      intro telegram htelegram
      exact hheard ⟨hinit, telegram.1, telegram.2, htelegram⟩

/-- An operation stays settled over the operations that are quiet for it. -/
theorem Settled.stays {registry : Registry} {op between : Op} (hquiet : quietFor op between)
    (h : Settled op registry) : Settled op (registry.step between).val := by
  obtain ⟨hsome, hsender, hinit, henable⟩ := hquiet
  cases op with
  | init => cases hsome
  | enableCommissioning => cases hsome
  | disableCommissioning => cases hsome
  | processAdvertisement crypto addr addrType advType rssi data =>
    intro hafter a p htelegram
    obtain ⟨rfl, -⟩ := telegramOf_eq_some_iff.mp htelegram
    cases between with
    | init => cases hinit
    | enableCommissioning => exact absurd rfl henable
    | disableCommissioning =>
      exact (h hafter a p htelegram).mono crypto rssi rfl rfl (Nat.le_refl _)
        fun hno => absurd hno Bool.false_ne_true
    | processAdvertisement crypto' addr' addrType' advType' rssi' data' =>
      obtain ⟨hcallbacks, hsame, henabled, hentry, hsize⟩ := step_frame registry crypto' addrType'
        advType' rssi' data' (a := a) fun heq => hsender (congrArg some heq)
      exact (h (hsame ▸ hafter) a p htelegram).mono crypto rssi hcallbacks hentry hsize
        fun hyes => henabled ▸ hyes

end Registry

/-- **Echoes.** Leave out of any run the advertisements that repeat the last one of their sender
with neither `init` nor `enable_commissioning` in between. The callbacks are the same, and so
are the entries, their number and the two switches at the end. -/
theorem echoes_are_absorbed (callbacks : EnoceanCallbacks) {ops rest : List Op}
    (h : Echoed quietFor ops rest) :
    let heard := run step (construct callbacks) ops
    let once := run step (construct callbacks) rest
    events heard = events once ∧
      (∀ a, entryOf heard.val.devices a = entryOf once.val.devices a) ∧
      deviceCount heard.val.devices = deviceCount once.val.devices ∧
      heard.val.initialised = once.val.initialised ∧
      heard.val.commissioningEnabled = once.val.commissioningEnabled := by
  intro heard once
  obtain ⟨hheard, hevents⟩ := implements_run callbacks ops
  obtain ⟨honce, hevents'⟩ := implements_run callbacks rest
  have hsame := run_echoed Registry.settled_step
    (fun _ _ _ hquiet hsettled => Registry.Settled.stays hquiet hsettled)
    (fun _ _ hsettled => Registry.step_settled hsettled) (Registry.construct callbacks) h
  rw [hsame] at hheard hevents
  refine ⟨hevents.trans hevents'.symm, fun a => ?_, ?_, ?_, ?_⟩
  · rw [hheard.entry, honce.entry]
  · rw [hheard.count, honce.count]
  · exact hheard.initialised.symm.trans honce.initialised
  · exact hheard.commissioning.symm.trans honce.commissioning

/-- A press of the sample switch. -/
def samplePress : Op := .record (fun _ => true) sampleSwitch [2, 0, 0, 0, 0x03, 0, 0, 0, 0]

/-- The commissioning of another device. -/
def sampleSecond : Op :=
  .record (fun _ => true) (Vector.replicate kAddrLen 0x03) (1 :: List.replicate 21 0)

/-- A press that is heard again after another device was commissioned. -/
theorem echoes_are_absorbed_press :
    let once := run step (construct ⟨true, true, true⟩)
      (sampleSetup ++ samplePress :: ([sampleSecond] ++ []))
    (events once).length = 3 ∧
      events (run step (construct ⟨true, true, true⟩)
        (sampleSetup ++ samplePress :: ([sampleSecond] ++ samplePress :: []))) = events once :=
  ⟨by decide +kernel, (echoes_are_absorbed ⟨true, true, true⟩ (.drop (by
    intro between hbetween
    obtain rfl := List.mem_singleton.mp hbetween
    refine ⟨rfl, ?_, rfl, fun heq => by cases heq⟩
    intro heq
    exact absurd (Option.some.inj heq) (by decide)) (.refl _))).1⟩

end EnoceanCore.Enocean
