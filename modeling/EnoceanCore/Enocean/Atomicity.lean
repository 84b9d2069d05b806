import EnoceanCore.Enocean.Switch
import EnoceanCore.Enocean.Sensor

/-!
# Rejected telegrams

A data handler that returns `false` should leave the entry of the sender as it was, and one
that returns `true` should store the sequence number and make its callback (`Atomic`). The
sensor handler does. The switch handler stores the sequence number before it looks at the
length of the optional data, so it fails for the one length that is rejected there
(`atomic_iff`).
-/

namespace EnoceanCore.Enocean

open Lib

/-- The handler rejects a telegram without a trace, or accepts it and reports it once. -/
structure Atomic (device : EnoceanDevice) (p : Span) (registered : Bool) (report : Event)
    (r : Traced Action (Bool × EnoceanDevice)) : Prop where
  rejected : r.val.1 = false → r.val.2 = device ∧ events r = []
  accepted : r.val.1 = true →
    r.val.2 = { device with seqNum := seqOf p } ∧
      events r = if registered then [report] else []

/-- A handler that tests the sequence number first is atomic, unless it rejects what the
backend has accepted. -/
theorem HandlerOutcome.isAtomic_iff {Admissible Deliverable : Prop} {registered : Bool}
    {report : Event} {crypto : CryptoBackend} {device : EnoceanDevice} {p : Span}
    {r : Traced Action (Bool × EnoceanDevice)}
    (h : HandlerOutcome Admissible Deliverable (if registered then [report] else []) crypto
      device p r)
    (hseq : Admissible → device.seqNum < seqOf p) :
    Atomic device p registered report r ↔
      (Admissible → crypto (decryptCall device p) = true → Deliverable) := by
  cases h with
  | reject hno hval _ hevents =>
    refine iff_of_true ⟨fun _ => ?_, fun htrue => ?_⟩ fun hok => absurd hok hno
    · rw [hval]
      exact ⟨rfl, hevents⟩
    · rw [hval] at htrue
      cases htrue
  | forged _ hauth hval _ hevents =>
    refine iff_of_true ⟨fun _ => ?_, fun htrue => ?_⟩ fun _ hacc => ?_
    · rw [hval]
      exact ⟨rfl, hevents⟩
    · rw [hval] at htrue
      cases htrue
    · rw [hauth] at hacc
      cases hacc
  | undelivered hok hauth hno hval _ _ =>
    refine iff_of_false (fun hatomic => ?_) fun hdel => hno (hdel hok hauth)
    -- the sequence number is stored although the handler returns `false`
    have hsame : acceptedDevice device p = device := by
      have hrejected := (hatomic.rejected (by rw [hval])).1
      rw [hval] at hrejected
      exact hrejected
    have hstored : seqOf p = device.seqNum := congrArg EnoceanDevice.seqNum hsame
    have hlt := hseq hok
    rw [hstored] at hlt
    exact absurd hlt (UInt32.lt_irrefl _)
  | deliver _ _ hdel hval _ hevents =>
    refine iff_of_true ⟨fun hfalse => ?_, fun _ => ?_⟩ fun _ _ => hdel
    · rw [hval] at hfalse
      cases hfalse
    · rw [hval]
      exact ⟨rfl, hevents⟩

/-- An admissible telegram is undeliverable if it carries three optional bytes. -/
theorem switchDeliverable_iff {device : EnoceanDevice} {p : Span}
    (hok : SwitchAdmissible device p) : SwitchDeliverable p ↔ p.size ≠ 12 := by
  obtain ⟨hmin, hmax, -, -⟩ := hok
  simp only [kDataPayloadMin, kSwitchPayloadMax] at hmin hmax
  simp only [SwitchDeliverable, validOptLen, switchOptLen, kTagLen, kSwitchStateOffset,
    Bool.or_eq_true, beq_iff_eq]
  omega

/-- **Atomic handlers.** `handle_switch` is atomic unless the payload has twelve bytes, a new
sequence number and zero reserved bits, and the backend accepts it; `handle_sensor` always
is. -/
theorem atomic_iff (callbacks : EnoceanCallbacks) (crypto : CryptoBackend)
    (device : EnoceanDevice) (p : Span) :
    (Atomic device p callbacks.button (switchEvent device p)
        (handleSwitch callbacks crypto device p) ↔
      ¬ (p.size = 12 ∧ device.seqNum < seqOf p ∧
        p.byte kSwitchStateOffset &&& kStatusReservedMask = 0 ∧
        crypto (decryptCall device p) = true)) ∧
    Atomic device p callbacks.sensor (sensorEvent device p)
      (handleSensor callbacks crypto device p) := by
  constructor
  · rw [(handleSwitch_outcome callbacks crypto device p).isAtomic_iff fun hok => hok.2.2.1]
    constructor
    · rintro hdel ⟨hsize, hseq, hbits, hauth⟩
      have hok : SwitchAdmissible device p := by
        refine ⟨?_, ?_, hseq, hbits⟩
        · rw [hsize]
          decide
        · rw [hsize]
          decide
      exact (switchDeliverable_iff hok).mp (hdel hok hauth) hsize
    · intro hno hok hauth
      apply (switchDeliverable_iff hok).mpr
      exact fun hsize => hno ⟨hsize, hok.2.2.1, hok.2.2.2, hauth⟩
  · apply ((handleSensor_outcome callbacks crypto device p).isAtomic_iff fun hok => hok.2).mpr
    exact fun _ _ => trivial

/-- Three optional bytes: the telegram is rejected, and its sequence number is used up. -/
theorem not_atomic_three_optional_bytes :
    ¬ ∀ (callbacks : EnoceanCallbacks) (crypto : CryptoBackend) (device : EnoceanDevice)
      (p : Span), Atomic device p callbacks.button (switchEvent device p)
        (handleSwitch callbacks crypto device p) := by
  intro h
  have hsame := ((h ⟨true, true, true⟩ (fun _ => true) { type := .switch, active := true }
    (.ofList [2, 0, 0, 0, 1, 10, 11, 12, 0xA, 0xB, 0xC, 0xD])).rejected (by decide)).1
  exact absurd (congrArg EnoceanDevice.seqNum hsame) (by decide)

end EnoceanCore.Enocean
