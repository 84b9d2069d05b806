import EnoceanCore.Enocean.Entry
import EnoceanCore.Enocean.Gate
import Mathlib.Order.WithBot

/-!
# No replay

As long as the entry of an address is neither reset nor written by commissioning, the
telegrams dispatched from it carry strictly increasing sequence numbers (`no_replay`). The
stored sequence number is the counter of `Lib.history_increasing`; an address without an
entry counts as `⊤`, since nothing is dispatched from it.
-/

namespace EnoceanCore.Enocean

open Lib

/-! ## Dispatched telegrams -/

/-- The data of an advertisement. -/
def Op.data : Op → Span
  | .processAdvertisement _ _ _ _ _ data => data
  | _ => .empty

/-- The sequence number an advertisement carries. -/
def Op.seq (op : Op) : UInt32 := seqOf (payloadOf op.data)

/-- An advertisement from `a` that led to a button or sensor callback. -/
def dispatchesFrom (a : Address) (t : Transition EnoceanDriver Op Action) : Bool :=
  decide (t.input.sender = some a.toList) && (events t.outcome).any Event.isData

/-- Neither `init` nor a write of `handle_commissioning` to the entry of `a`. -/
def Undisturbed (a : Address) (t : Transition EnoceanDriver Op Action) : Prop :=
  t.input.isInit = false ∧ ∀ w ∈ stores t.outcome, w.2.2.bleAddr.addr ≠ a

instance (a : Address) : DecidablePred (Undisturbed a) := fun t =>
  inferInstanceAs (Decidable (_ ∧ ∀ w ∈ stores t.outcome, w.2.2.bleAddr.addr ≠ a))

/-- The stored sequence number of an address. -/
def storedSeq (a : Address) (driver : EnoceanDriver) : WithTop Nat :=
  match entryOf driver.devices a with
  | some device => (device.seqNum.toNat : WithTop Nat)
  | none => ⊤

/-- Both handlers take only a larger sequence number. -/
theorem DataAdmissible.seq {device : EnoceanDevice} {p : Span} (h : DataAdmissible device p) :
    device.seqNum < seqOf p := by
  unfold DataAdmissible at h
  split at h
  · exact h.2.2.1
  · exact h.2

/-- What a dispatch says about the entry of the sender before and after. -/
theorem dispatch_step {driver : EnoceanDriver} (hinv : TableInvariant driver) {a : Address}
    {op : Op} (h : dispatchesFrom a ⟨driver, op, step driver op⟩ = true) :
    ∃ device rssi, entryOf driver.devices a = some device ∧ device.bleAddr.addr = a ∧
      kDataPayloadMin ≤ (payloadOf op.data).size ∧ device.seqNum < op.seq ∧
      entryOf (step driver op).val.devices a =
        some (acceptedDevice (heardDevice device rssi) (payloadOf op.data)) ∧
      decrypts (step driver op) =
        [(decryptCall (heardDevice device rssi) (payloadOf op.data), true)] := by
  obtain ⟨hsender, hdata⟩ := (Bool.and_eq_true _ _).mp h
  have hfrom : op.sender = some a.toList := of_decide_eq_true hsender
  obtain ⟨e, he, hkind⟩ := List.any_eq_true.mp hdata
  cases op with
  | init => cases hfrom
  | enableCommissioning => cases hfrom
  | disableCommissioning => cases hfrom
  | processAdvertisement crypto addr addrType advType rssi data =>
    obtain rfl : addr = a.toList := Option.some.inj hfrom
    simp only [step] at he ⊢
    cases hentry : entryOf driver.devices a with
    | none =>
      obtain ⟨-, ⟨-, hnone, -⟩ | ⟨i, device, -, -, -, hevents⟩⟩ :=
        processAdvertisement_unknown crypto addrType advType rssi data hinv hentry
      · rw [hnone] at he
        cases he
      · rw [hevents] at he
        split at he
        · rw [List.mem_singleton.mp he] at hkind
          cases hkind
        · cases he
    | some device =>
      by_cases hheard : Listens driver a.toList addrType advType ∧
          kDataPayloadMin ≤ (payloadOf data).size
      swap
      · obtain ⟨-, hnone, -⟩ := processAdvertisement_deaf crypto addrType advType rssi data hheard
        rw [hnone] at he
        cases he
      obtain ⟨hafter, hevents, hdecrypts, -⟩ := processAdvertisement_known crypto addrType advType
        rssi data hinv hentry hheard.1 hheard.2
      obtain ⟨i, hi, hdevice⟩ := (entryOf_eq_some_iff hinv.wellFormed).mp hentry
      have haddr : device.bleAddr.addr = a := hdevice ▸ (slotOf_eq_some_iff.mp hi).2
      rw [hevents] at he
      cases handleData_outcome driver.callbacks crypto (heardDevice device rssi)
        (payloadOf data) with
      | reject _ _ _ hnone =>
        rw [hnone] at he
        cases he
      | forged _ _ _ _ hnone =>
        rw [hnone] at he
        cases he
      | undelivered _ _ _ _ _ hnone =>
        rw [hnone] at he
        cases he
      | deliver hok _ _ hval hcall _ =>
        refine ⟨device, rssi, rfl, haddr, hheard.2, hok.seq, ?_, hdecrypts.trans hcall⟩
        rw [hafter, hval]
        rfl

/-- The stored sequence number never decreases while nothing disturbs the entry. -/
theorem storedSeq_step {driver : EnoceanDriver} (hinv : TableInvariant driver) {a : Address}
    {op : Op} (h : Undisturbed a ⟨driver, op, step driver op⟩) :
    storedSeq a driver ≤ storedSeq a (step driver op).val := by
  obtain ⟨hinit, hstores⟩ := h
  by_cases hsender : op.sender = some a.toList
  swap
  · rw [storedSeq, storedSeq, entryOf_step_of_ne hinv hinit hsender]
  cases op with
  | init => cases hinit
  | enableCommissioning => exact le_refl _
  | disableCommissioning => exact le_refl _
  | processAdvertisement crypto addr addrType advType rssi data =>
    obtain rfl : addr = a.toList := Option.some.inj hsender
    simp only [step] at hstores ⊢
    cases hentry : entryOf driver.devices a with
    | none =>
      obtain ⟨-, ⟨hsame, -⟩ | ⟨i, device, haddr, -, hwritten, -⟩⟩ :=
        processAdvertisement_unknown crypto addrType advType rssi data hinv hentry
      · rw [hsame]
      · exact absurd haddr (hstores _ (hwritten ▸ List.mem_singleton_self _))
    | some device =>
      by_cases hheard : Listens driver a.toList addrType advType ∧
          kDataPayloadMin ≤ (payloadOf data).size
      swap
      · rw [(processAdvertisement_deaf crypto addrType advType rssi data hheard).1]
      obtain ⟨hafter, -⟩ := processAdvertisement_known crypto addrType advType
        rssi data hinv hentry hheard.1 hheard.2
      rw [storedSeq, storedSeq, hentry, hafter]
      cases handleData_outcome driver.callbacks crypto (heardDevice device rssi)
        (payloadOf data) with
      | reject _ hval => rw [hval]; exact le_refl _
      | forged _ _ hval => rw [hval]; exact le_refl _
      | undelivered hok _ _ hval =>
        rw [hval]
        exact WithTop.coe_le_coe.mpr (Nat.le_of_lt (UInt32.lt_iff_toNat_lt.mp hok.seq))
      | deliver hok _ _ hval =>
        rw [hval]
        exact WithTop.coe_le_coe.mpr (Nat.le_of_lt (UInt32.lt_iff_toNat_lt.mp hok.seq))

/-! ## What a sequence number identifies -/

/-- Advertisements with the same bytes carry the same sequence number. -/
theorem seqOf_payload_congr {a b : Span} (hbytes : a.bytes = b.bytes)
    (hsize : kDataPayloadMin ≤ (payloadOf a).size) :
    seqOf (payloadOf a) = seqOf (payloadOf b) := by
  rcases extractLoop_congr hbytes 0 with ⟨hempty, -⟩ | ⟨p, hsel, ha, hb⟩
  · have h0 : (payloadOf a).size = 0 := by
      rw [payloadOf, extractManufacturerData, hempty]
      rfl
    rw [h0] at hsize
    exact absurd hsize (by decide)
  · have ha' : payloadOf a = payloadAt a p := ha
    have hb' : payloadOf b = payloadAt b p := hb
    have hend := hsel.1.2.2
    have hlen : 9 ≤ adLen a p - 3 := by
      rw [ha'] at hsize
      exact hsize
    have hbyte : ∀ k < 4, (payloadAt a p).byte k = (payloadAt b p).byte k := by
      intro k hk
      rw [payloadAt, payloadAt, Span.byte_slice, Span.byte_slice]
      exact Span.byte_eq_of_bytes_eq hbytes (by omega)
    rw [ha', hb', seqOf, seqOf, hbyte 0 (by decide), hbyte 1 (by decide), hbyte 2 (by decide),
      hbyte 3 (by decide)]

/-- Telegrams of one address with different sequence numbers have different nonces. -/
theorem nonce_ne_of_seq_ne {d e : EnoceanDevice} {p q : Span}
    (haddr : d.bleAddr.addr = e.bleAddr.addr) (hseq : seqOf p ≠ seqOf q) :
    (decryptCall d p).nonce ≠ (decryptCall e q).nonce := by
  intro h
  have hnonce := Vector.toList_inj.mp h
  rw [haddr] at hnonce
  exact hseq (buildNonce_inj hnonce).2

/-! ## The stretch -/

/-- Each transition of a run, as a step from a state with the invariant. -/
theorem history_step {driver : EnoceanDriver} (hinv : TableInvariant driver) (ops : List Op)
    {t : Transition EnoceanDriver Op Action} (ht : t ∈ history step driver ops) :
    TableInvariant t.before ∧ t = ⟨t.before, t.input, step t.before t.input⟩ := by
  obtain ⟨hbefore, -, hout⟩ := history_forall (fun _ op h => h.step op) hinv ops t ht
  refine ⟨hbefore, ?_⟩
  cases t
  exact congrArg _ hout

/-- **No replay.** In a stretch of any run in which the entry of `a` is neither reset nor
written by commissioning, the dispatched telegrams from `a` carry strictly increasing
sequence numbers, all larger than the one stored at the start. They are verified under
different nonces, and no advertisement is dispatched twice. -/
theorem no_replay (callbacks : EnoceanCallbacks) (ops : List Op) (a : Address)
    (stretch : List Op) :
    let driver := (run step (construct callbacks) ops).val
    let dispatched := (history step driver stretch).filter (dispatchesFrom a)
    (∀ t ∈ history step driver stretch, Undisturbed a t) →
      dispatched.Pairwise (fun t u => t.input.seq < u.input.seq) ∧
      (∀ t ∈ dispatched, ∃ device, entryOf driver.devices a = some device ∧
        device.seqNum < t.input.seq) ∧
      dispatched.Pairwise (fun t u => ∀ c ∈ decrypts t.outcome, ∀ c' ∈ decrypts u.outcome,
        c.1.nonce ≠ c'.1.nonce) ∧
      dispatched.Pairwise (fun t u => t.input.data.bytes ≠ u.input.data.bytes) := by
  intro driver dispatched hstretch
  have hinv : TableInvariant driver := tableInvariant_run callbacks ops
  obtain ⟨hpair, habove⟩ := history_increasing (I := TableInvariant)
    (P := Undisturbed a) (dispatchesFrom a) (storedSeq a)
    (fun t => (t.input.seq.toNat : WithTop Nat)) (fun _ op h => h.step op)
    (fun _ _ hI hP => storedSeq_step hI hP)
    (by
      intro d op hI _ hsel
      obtain ⟨device, rssi, hentry, -, -, hlt, hafter, -⟩ := dispatch_step hI hsel
      rw [storedSeq, storedSeq, hentry, hafter]
      exact ⟨WithTop.coe_lt_coe.mpr (UInt32.lt_iff_toNat_lt.mp hlt), le_refl _⟩)
    hinv stretch hstretch
  have hseq : dispatched.Pairwise fun t u => t.input.seq < u.input.seq :=
    hpair.imp fun h => UInt32.lt_iff_toNat_lt.mpr (WithTop.coe_lt_coe.mp h)
  have hcalls : ∀ t ∈ dispatched, ∃ device : EnoceanDevice, device.bleAddr.addr = a ∧
      kDataPayloadMin ≤ (payloadOf t.input.data).size ∧
      decrypts t.outcome = [(decryptCall device (payloadOf t.input.data), true)] := by
    intro t ht
    obtain ⟨hmem, hsel⟩ := List.mem_filter.mp ht
    obtain ⟨hbefore, hstep⟩ := history_step hinv stretch hmem
    rw [hstep] at hsel
    obtain ⟨device, rssi, -, haddr, hsize, -, -, hdecrypts⟩ := dispatch_step hbefore hsel
    exact ⟨heardDevice device rssi, haddr, hsize, by rw [hstep]; exact hdecrypts⟩
  refine ⟨hseq, ?_, ?_, ?_⟩
  · intro t ht
    have hlt := habove t ht
    rw [storedSeq] at hlt
    cases hentry : entryOf driver.devices a with
    | none =>
      rw [hentry] at hlt
      exact absurd hlt (not_lt_of_ge le_top)
    | some device =>
      rw [hentry] at hlt
      exact ⟨device, rfl, UInt32.lt_iff_toNat_lt.mpr (WithTop.coe_lt_coe.mp hlt)⟩
  · apply hseq.imp_of_mem
    intro t u ht hu hlt c hc c' hc'
    obtain ⟨d, hd, -, htcall⟩ := hcalls t ht
    obtain ⟨e, he, -, hucall⟩ := hcalls u hu
    rw [htcall, List.mem_singleton] at hc
    rw [hucall, List.mem_singleton] at hc'
    subst hc hc'
    exact nonce_ne_of_seq_ne (hd.trans he.symm) (UInt32.ne_of_lt hlt)
  · apply hseq.imp_of_mem
    intro t u ht hu hlt hbytes
    obtain ⟨d, -, hsize, -⟩ := hcalls t ht
    exact UInt32.ne_of_lt hlt (seqOf_payload_congr hbytes hsize)

theorem no_replay_press_release :
    let driver := (run step (construct ⟨true, true, true⟩) sampleSetup).val
    let dispatched := (history step driver
      [.record (fun _ => true) sampleSwitch [2, 0, 0, 0, 0x03, 0, 0, 0, 0],
        .record (fun _ => true) sampleSwitch [2, 0, 0, 0, 0x03, 0, 0, 0, 0],
        .record (fun _ => true) sampleSwitch [3, 0, 0, 0, 0x02, 0, 0, 0, 0]]).filter
      (dispatchesFrom sampleSwitch)
    dispatched.length = 2 ∧ dispatched.Pairwise fun t u => t.input.seq < u.input.seq :=
  ⟨by decide +kernel, (no_replay ⟨true, true, true⟩ sampleSetup sampleSwitch _
    (by decide +kernel)).1⟩

end EnoceanCore.Enocean
