import EnoceanCore.Enocean.Commissioning
import Mathlib.Tactic.IntervalCases

/-!
# Authentication of data telegrams

`handle_switch` and `handle_sensor` authenticate a payload in the same way: the last four
bytes are the tag, everything before them is authenticated, and the nonce is made of the
sender's address and the sequence number. `HandlerOutcome` is what either handler can do,
in terms of the tests it makes itself.
-/

namespace EnoceanCore.Enocean

open Lib

def buildNonce (addr : Address) (seq : UInt32) : Vector UInt8 kNonceLen :=
  #v[addr[0], addr[1], addr[2], addr[3], addr[4], addr[5],
    (seq &&& 0xFF).toUInt8, ((seq >>> 8) &&& 0xFF).toUInt8, ((seq >>> 16) &&& 0xFF).toUInt8,
    ((seq >>> 24) &&& 0xFF).toUInt8, 0, 0, 0]

/-- The call of the crypto backend both handlers make, with its tag, nonce and spans. -/
def authenticate (crypto : CryptoBackend) (device : EnoceanDevice) (seq : UInt32)
    (mfrPayload : Span) : Traced Action Bool := do
  let tagOffset := mfrPayload.size - kTagLen
  let tagSpan ← mfrPayload.subspan tagOffset kTagLen
  let payloadSpan ← mfrPayload.subspan 0 tagOffset
  let nonce := buildNonce device.bleAddr.addr seq
  let tagArr := Buffer.overwrite (Buffer.zero kTagLen) 0 tagSpan.bytes
  let call : DecryptCall :=
    { key := device.key.toList, nonce := nonce.toList, aad := payloadSpan.bytes
      ciphertext := [], tag := tagArr, plaintextSize := 0 }
  let authOk := crypto call
  Traced.emit (.decrypt call authOk)
  return authOk

/-- The call made for a payload of a device. -/
def decryptCall (device : EnoceanDevice) (p : Span) : DecryptCall where
  key := device.key.toList
  nonce := (buildNonce device.bleAddr.addr (seqOf p)).toList
  aad := (p.slice 0 (p.size - kTagLen)).bytes
  ciphertext := []
  tag := Buffer.overwrite (Buffer.zero kTagLen) 0 (p.slice (p.size - kTagLen) kTagLen).bytes
  plaintextSize := 0

section Authenticate

variable (crypto : CryptoBackend) (device : EnoceanDevice) (p : Span)

@[simp] theorem val_authenticate :
    (authenticate crypto device (seqOf p) p).val = crypto (decryptCall device p) := (rfl)

@[simp] theorem decrypts_authenticate : decrypts (authenticate crypto device (seqOf p) p) =
    [(decryptCall device p, crypto (decryptCall device p))] := rfl

@[simp] theorem stores_authenticate (seq : UInt32) :
    stores (authenticate crypto device seq p) = [] := rfl

@[simp] theorem events_authenticate (seq : UInt32) :
    events (authenticate crypto device seq p) = [] := rfl

theorem confined_authenticate {p : Span} {outer : Extent} (hp : p.extent.Within outer)
    (hsize : kTagLen ≤ p.size) (seq : UInt32) :
    Confined outer (authenticate crypto device seq p) := by
  refine (confined_subspan hp ?_).seq ((confined_subspan hp ?_).seq
    ((confined_emit rfl).seq (confined_pure _)))
  all_goals
    simp only [kTagLen] at *
    omega

end Authenticate

/-! ## The bytes of the call -/

/-- The sequence number goes back into the nonce as the bytes it was read from. -/
theorem nonce_decryptCall (device : EnoceanDevice) (p : Span) (hsize : 4 ≤ p.size) :
    (decryptCall device p).nonce =
      device.bleAddr.addr.toList ++ (p.bytes.take 4) ++ [0, 0, 0] := by
  have hseq : p.bytes.take 4 = [p.byte 0, p.byte 1, p.byte 2, p.byte 3] := by
    rw [← List.drop_zero (l := p.bytes), ← Span.bytes_slice p (by omega)]
    simp [Span.bytes, List.range_succ]
  have haddr : device.bleAddr.addr.toList =
      [device.bleAddr.addr[0], device.bleAddr.addr[1], device.bleAddr.addr[2],
        device.bleAddr.addr[3], device.bleAddr.addr[4], device.bleAddr.addr[5]] := by
    apply List.ext_getElem
    · simp
    · intro i h1 h2
      have hi : i < 6 := by simpa using h2
      interval_cases i <;> rfl
  rw [hseq, haddr]
  simp only [decryptCall, buildNonce, seqOf, leWord_byte0, leWord_byte1, leWord_byte2,
    leWord_byte3]
  rfl

theorem aad_decryptCall (device : EnoceanDevice) (p : Span) :
    (decryptCall device p).aad = p.bytes.take (p.size - kTagLen) := by
  rw [decryptCall, Span.bytes_slice p (by omega), List.drop_zero]

theorem tag_decryptCall_slice (device : EnoceanDevice) (p : Span) :
    (decryptCall device p).tag.toList = (p.slice (p.size - kTagLen) kTagLen).bytes := by
  rw [decryptCall, Buffer.toList_overwrite _ (by simp)]
  simp

theorem tag_decryptCall (device : EnoceanDevice) (p : Span) (hsize : kTagLen ≤ p.size) :
    (decryptCall device p).tag.toList = p.bytes.drop (p.size - kTagLen) := by
  rw [tag_decryptCall_slice, Span.bytes_slice p (by omega)]
  apply List.take_of_length_le
  simp only [List.length_drop, Span.length_bytes]
  omega

/-- The call checks the whole payload of a sender: the bytes before the tag are authenticated
under the key, with a nonce of the address and the first four payload bytes. -/
structure Authenticates (key addr : List UInt8) (p : Span) (call : DecryptCall) : Prop where
  key : call.key = key
  nonce : call.nonce = addr ++ p.bytes.take 4 ++ [0, 0, 0]
  aad : call.aad = p.bytes.take (p.size - kTagLen)
  ciphertext : call.ciphertext = []
  tag : call.tag.toList = p.bytes.drop (p.size - kTagLen)

theorem authenticates_decryptCall (device : EnoceanDevice) (p : Span) (hsize : 4 ≤ p.size) :
    Authenticates device.key.toList device.bleAddr.addr.toList p (decryptCall device p) :=
  ⟨rfl, nonce_decryptCall device p hsize, aad_decryptCall device p, rfl,
    tag_decryptCall device p hsize⟩

/-- The nonce determines the address and the sequence number. -/
theorem buildNonce_inj {a b : Address} {s t : UInt32} (h : buildNonce a s = buildNonce b t) :
    a = b ∧ s = t := by
  have hlist := congrArg Vector.toList h
  simp only [buildNonce, Vector.toList_mk, List.cons.injEq, and_true] at hlist
  obtain ⟨h0, h1, h2, h3, h4, h5, s0, s1, s2, s3⟩ := hlist
  constructor
  · apply Vector.ext
    intro i hi
    interval_cases i <;> assumption
  · have e0 := congrArg UInt8.toNat s0
    have e1 := congrArg UInt8.toNat s1
    have e2 := congrArg UInt8.toNat s2
    have e3 := congrArg UInt8.toNat s3
    rw [toUInt8_and_mask, toUInt8_and_mask] at e0
    rw [toUInt8_shift_mask _ 8 (by decide), toUInt8_shift_mask _ 8 (by decide)] at e1
    rw [toUInt8_shift_mask _ 16 (by decide), toUInt8_shift_mask _ 16 (by decide)] at e2
    rw [toUInt8_shift_mask _ 24 (by decide), toUInt8_shift_mask _ 24 (by decide)] at e3
    have hs := s.toNat_lt
    have ht := t.toNat_lt
    apply UInt32.toNat.inj
    simp only [UInt32.reduceToNat] at e1 e2 e3
    omega

/-! ## What a handler can do -/

theorem checkSequence_eq_false {stored new : UInt32} (h : ¬ stored < new) :
    checkSequence stored new = false := by
  simpa [checkSequence] using h

theorem checkSequence_eq_true {stored new : UInt32} (h : stored < new) :
    checkSequence stored new = true := by
  simpa [checkSequence] using h

/-- The entry after an accepted packet. -/
def acceptedDevice (device : EnoceanDevice) (p : Span) : EnoceanDevice :=
  { device with seqNum := seqOf p }

/-- The outcomes of a data handler that authenticates a payload if `Admissible`, and reports
it by `delivered` if moreover `Deliverable`. -/
inductive HandlerOutcome (Admissible Deliverable : Prop) (delivered : List Event)
    (crypto : CryptoBackend) (device : EnoceanDevice) (p : Span)
    (r : Traced Action (Bool × EnoceanDevice)) : Prop
  | reject (hno : ¬ Admissible) (hval : r.val = (false, device)) (hdecrypts : decrypts r = [])
      (hevents : events r = [])
  | forged (hok : Admissible) (hauth : crypto (decryptCall device p) = false)
      (hval : r.val = (false, device)) (hdecrypts : decrypts r = [(decryptCall device p, false)])
      (hevents : events r = [])
  | undelivered (hok : Admissible) (hauth : crypto (decryptCall device p) = true)
      (hno : ¬ Deliverable) (hval : r.val = (false, acceptedDevice device p))
      (hdecrypts : decrypts r = [(decryptCall device p, true)]) (hevents : events r = [])
  | deliver (hok : Admissible) (hauth : crypto (decryptCall device p) = true)
      (hdel : Deliverable) (hval : r.val = (true, acceptedDevice device p))
      (hdecrypts : decrypts r = [(decryptCall device p, true)]) (hevents : events r = delivered)

/-- A handler calls the backend for an admissible telegram only, and in one way. -/
theorem HandlerOutcome.of_call {Admissible Deliverable : Prop} {delivered : List Event}
    {crypto : CryptoBackend} {device : EnoceanDevice} {p : Span}
    {r : Traced Action (Bool × EnoceanDevice)} {call : DecryptCall} {accepted : Bool}
    (h : HandlerOutcome Admissible Deliverable delivered crypto device p r)
    (hcall : (call, accepted) ∈ decrypts r) : Admissible ∧ call = decryptCall device p := by
  cases h with
  | reject _ _ hdecrypts =>
    rw [hdecrypts] at hcall
    cases hcall
  | forged hok _ _ hdecrypts =>
    rw [hdecrypts] at hcall
    exact ⟨hok, congrArg Prod.fst (List.mem_singleton.mp hcall)⟩
  | undelivered hok _ _ _ hdecrypts =>
    rw [hdecrypts] at hcall
    exact ⟨hok, congrArg Prod.fst (List.mem_singleton.mp hcall)⟩
  | deliver hok _ _ _ hdecrypts =>
    rw [hdecrypts] at hcall
    exact ⟨hok, congrArg Prod.fst (List.mem_singleton.mp hcall)⟩

/-- A handler makes its callback for an admissible telegram that is accepted and
deliverable. -/
theorem HandlerOutcome.events_eq {Admissible Deliverable : Prop} {delivered : List Event}
    {crypto : CryptoBackend} {device : EnoceanDevice} {p : Span}
    {r : Traced Action (Bool × EnoceanDevice)}
    (h : HandlerOutcome Admissible Deliverable delivered crypto device p r) :
    events r = delivered ∧ (Admissible ∧ Deliverable) ∧ crypto (decryptCall device p) = true ∨
      events r = [] ∧
        ¬ ((Admissible ∧ Deliverable) ∧ crypto (decryptCall device p) = true) := by
  cases h with
  | reject hno _ _ hevents => exact Or.inr ⟨hevents, fun h => hno h.1.1⟩
  | forged _ hauth _ _ hevents =>
    refine Or.inr ⟨hevents, fun h => ?_⟩
    rw [hauth] at h
    cases h.2
  | undelivered _ _ hno _ _ hevents => exact Or.inr ⟨hevents, fun h => hno h.1.2⟩
  | deliver hok hauth hdel _ _ hevents => exact Or.inl ⟨hevents, ⟨hok, hdel⟩, hauth⟩

end EnoceanCore.Enocean
