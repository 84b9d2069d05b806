import EnoceanCore.Crypto.Interface
import EnoceanCore.Enocean.Driver

/-!
# The Zephyr backend

`AesCcm::aes_ccm_decrypt_impl` of `zephyr_core` rebuilds the header of the advertising
record in front of the additional data and calls `bt_ccm_decrypt`. The header it writes is
the one the record was received with (`zephyr_authenticates_record`).
-/

namespace EnoceanCore.Crypto.Zephyr

open Lib Enocean

abbrev kAdHdr : Nat := 4
abbrev kMaxAad : Nat := 32
abbrev kMaxCt : Nat := 64

/-- The arguments of `bt_ccm_decrypt`. A pointer to a local array is the array, the
plaintext is the size of its buffer or null. -/
structure BtCcmCall where
  key : List UInt8
  nonce : Buffer kNonceLen
  encData : Buffer (kMaxCt + kTagLen)
  len : Nat
  aad : Buffer (kAdHdr + kMaxAad)
  aadLen : Nat
  plaintext : Option Nat
  micSize : UInt8
  deriving DecidableEq, Repr

namespace BtCcmCall

/-- The additional data handed over. -/
def aadBytes (c : BtCcmCall) : List UInt8 := c.aad.toList.take c.aadLen

/-- The ciphertext handed over. -/
def ciphertext (c : BtCcmCall) : List UInt8 := c.encData.toList.take c.len

/-- The tag handed over, behind the ciphertext. -/
def mic (c : BtCcmCall) : List UInt8 := (c.encData.toList.drop c.len).take c.micSize.toNat

/-- The lengths handed over stay within the arrays. -/
def InRange (c : BtCcmCall) : Prop :=
  c.aadLen ≤ kAdHdr + kMaxAad ∧ c.len + c.micSize.toNat ≤ kMaxCt + kTagLen

end BtCcmCall

/-- What the backend is seen to do. -/
inductive Action where
  /-- A copy to a local array. -/
  | access (a : Access)
  /-- A call of the library and its error code. -/
  | btCcmDecrypt (call : BtCcmCall) (err : Int)
  deriving DecidableEq, Repr

instance : HasAccess Action := ⟨Action.access⟩

namespace Action

@[simp] def call? : Action → Option BtCcmCall
  | access _ => none
  | btCcmDecrypt call _ => some call

/-- An index or a length on a local array is in range. -/
def InRange : Action → Prop
  | access a => a.InBounds
  | btCcmDecrypt call _ => call.InRange

@[simp] theorem hasAccess_access (a : Access) : (HasAccess.access a : Action) = access a := rfl

end Action

/-- The calls of `bt_ccm_decrypt`. -/
abbrev btCalls {α : Type} (x : Traced Action α) : List BtCcmCall := x.proj Action.call?

/-- `full_aad`: the header of the record, then the additional data. -/
def writeFullAad (aad : List UInt8) (lenVal : Nat) :
    Traced Action (Buffer (kAdHdr + kMaxAad)) := do
  let fullAad ← (Buffer.zero (kAdHdr + kMaxAad)).copyTo 0 [UInt8.ofNat lenVal]
  let fullAad ← fullAad.copyTo 1 [0xFF]
  let fullAad ← fullAad.copyTo 2 [0xDA]
  let fullAad ← fullAad.copyTo 3 [0x03]
  if aad ≠ [] then fullAad.copyTo kAdHdr aad else return fullAad

/-- `cipher_buf`: the ciphertext, then the tag. -/
def writeCipherBuf (ciphertext : List UInt8) (tag : Vector UInt8 kTagLen) :
    Traced Action (Buffer (kMaxCt + kTagLen)) := do
  let cipherBuf := Buffer.zero (kMaxCt + kTagLen)
  if ciphertext.length > 0 then
    let cipherBuf ← cipherBuf.copyTo 0 ciphertext
    cipherBuf.copyTo ciphertext.length tag.toList
  else cipherBuf.copyTo ciphertext.length tag.toList

def aesCcmDecryptImpl (btCcmDecrypt : BtCcmCall → Int) (call : DecryptCall) :
    Traced Action Bool := do
  let nonceBuf ← (Buffer.zero kNonceLen).copyTo 0 call.nonce
  let ctLen := call.ciphertext.length
  if call.aad.length > kMaxAad then return false
  let lenVal := 1 + 2 + call.aad.length + ctLen + kTagLen
  let fullAad ← writeFullAad call.aad lenVal
  let fullAadLen := kAdHdr + call.aad.length
  if ctLen > kMaxCt then return false
  let cipherBuf ← writeCipherBuf call.ciphertext call.tag
  let btCall : BtCcmCall :=
    { key := call.key, nonce := nonceBuf, encData := cipherBuf, len := ctLen, aad := fullAad
      aadLen := fullAadLen
      plaintext := if call.plaintextSize = 0 then none else some call.plaintextSize
      micSize := UInt8.ofNat kTagLen }
  let err := btCcmDecrypt btCall
  Traced.emit (.btCcmDecrypt btCall err)
  if err ≠ 0 then return false
  return true

/-! ## The local arrays -/

theorem every_copyTo_inRange {n : Nat} (b : Buffer n) {o : Nat} {src : List UInt8}
    (h : o + src.length ≤ n) : (b.copyTo o src : Traced Action (Buffer n)).Every Action.InRange :=
  (Buffer.every_copyTo _ b _ _).mpr h

section Arrays

variable {aad ciphertext : List UInt8} (lenVal : Nat) (tag : Vector UInt8 kTagLen)

/-- The header and the additional data, byte for byte. -/
theorem toList_writeFullAad (haad : aad.length ≤ kMaxAad) :
    (writeFullAad aad lenVal).val.toList.take (kAdHdr + aad.length) =
      [UInt8.ofNat lenVal, 0xFF, 0xDA, 0x03] ++ aad := by
  have hval : (writeFullAad aad lenVal).val = ((((Buffer.overwrite (Buffer.zero _) 0
      [UInt8.ofNat lenVal]).overwrite 1 [0xFF]).overwrite 2 [0xDA]).overwrite 3
      [0x03]).overwrite kAdHdr aad := by
    by_cases hempty : aad = []
    · simp [writeFullAad, hempty]
    · simp [writeFullAad, hempty]
  have hone : ∀ (b : Buffer (kAdHdr + kMaxAad)) (o : Nat) (x : UInt8), o < 36 →
      (b.overwrite o [x]).toList.take (o + 1) = b.toList.take o ++ [x] :=
    fun b o x ho => @Buffer.take_overwrite_add _ b o [x] ho
  rw [hval, Buffer.take_overwrite_add _ (Nat.add_le_add_left haad _)]
  rw [hone _ 3 _ (by decide), hone _ 2 _ (by decide), hone _ 1 _ (by decide),
    hone _ 0 _ (by decide)]
  rfl

theorem writeFullAad_inRange (haad : aad.length ≤ kMaxAad) :
    (writeFullAad aad lenVal).Every Action.InRange := by
  have hone : ∀ (b : Buffer (kAdHdr + kMaxAad)) (o : Nat) (x : UInt8), o < 36 →
      (b.copyTo o [x] : Traced Action _).Every Action.InRange :=
    fun b o x ho => @every_copyTo_inRange _ b o [x] ho
  refine Traced.every_seq (hone _ 0 _ (by decide)) (Traced.every_seq (hone _ 1 _ (by decide)) ?_)
  refine Traced.every_seq (hone _ 2 _ (by decide)) (Traced.every_seq (hone _ 3 _ (by decide)) ?_)
  exact Traced.every_ite (fun _ => every_copyTo_inRange _ (Nat.add_le_add_left haad _))
    fun _ => Traced.every_pure _ _

@[simp] theorem btCalls_writeFullAad : btCalls (writeFullAad aad lenVal) = [] := by
  simp [writeFullAad]

theorem val_writeCipherBuf : (writeCipherBuf ciphertext tag).val =
    (Buffer.overwrite (Buffer.zero _) 0 ciphertext).overwrite ciphertext.length tag.toList := by
  by_cases hempty : ciphertext = []
  · simp [writeCipherBuf, hempty]
  · simp [writeCipherBuf, List.length_pos_iff.mpr hempty]

theorem writeCipherBuf_inRange (hct : ciphertext.length ≤ kMaxCt) :
    (writeCipherBuf ciphertext tag).Every Action.InRange := by
  have htag : ciphertext.length + tag.toList.length ≤ kMaxCt + kTagLen := by
    rw [Vector.length_toList]
    exact Nat.add_le_add_right hct _
  refine Traced.every_ite (fun _ => ?_) fun _ => every_copyTo_inRange _ htag
  exact Traced.every_seq (every_copyTo_inRange _ (by omega)) (every_copyTo_inRange _ htag)

@[simp] theorem btCalls_writeCipherBuf : btCalls (writeCipherBuf ciphertext tag) = [] := by
  simp [writeCipherBuf]

end Arrays

/-! ## The call of the library -/

/-- The call of the library for additional data and a ciphertext that fit. -/
def btCall (call : DecryptCall) : BtCcmCall where
  key := call.key
  nonce := Buffer.overwrite (Buffer.zero kNonceLen) 0 call.nonce
  encData := (writeCipherBuf call.ciphertext call.tag).val
  len := call.ciphertext.length
  aad := (writeFullAad call.aad (1 + 2 + call.aad.length + call.ciphertext.length + kTagLen)).val
  aadLen := kAdHdr + call.aad.length
  plaintext := if call.plaintextSize = 0 then none else some call.plaintextSize
  micSize := UInt8.ofNat kTagLen

section Call

variable (btCcmDecrypt : BtCcmCall → Int) {call : DecryptCall}

theorem aesCcmDecryptImpl_of_long (h : kMaxAad < call.aad.length) :
    (aesCcmDecryptImpl btCcmDecrypt call).val = false ∧
      btCalls (aesCcmDecryptImpl btCcmDecrypt call) = [] := by
  constructor <;> simp [aesCcmDecryptImpl, h]

theorem aesCcmDecryptImpl_of_fits (haad : call.aad.length ≤ kMaxAad)
    (hct : call.ciphertext.length ≤ kMaxCt) :
    ((aesCcmDecryptImpl btCcmDecrypt call).val = true ↔ btCcmDecrypt (btCall call) = 0) ∧
      btCalls (aesCcmDecryptImpl btCcmDecrypt call) = [btCall call] := by
  have haad' : ¬ call.aad.length > kMaxAad := Nat.not_lt.mpr haad
  have hct' : ¬ call.ciphertext.length > kMaxCt := Nat.not_lt.mpr hct
  constructor
  · simp only [aesCcmDecryptImpl, Traced.val_bind, Traced.val_ite, Traced.val_pure,
      Buffer.val_copyTo, haad', hct', if_false]
    change (if btCcmDecrypt (btCall call) ≠ 0 then false else true) = true ↔ _
    by_cases hok : btCcmDecrypt (btCall call) = 0 <;> simp [hok]
  · simp [aesCcmDecryptImpl, haad', hct', btCall]

/-- No copy and no length handed over leaves its array. -/
theorem aesCcmDecryptImpl_inRange (hnonce : call.nonce.length = kNonceLen) :
    (aesCcmDecryptImpl btCcmDecrypt call).Every Action.InRange := by
  have hdone : ∀ b : Bool, (pure b : Traced Action Bool).Every Action.InRange :=
    Traced.every_pure _
  apply Traced.every_seq (every_copyTo_inRange _ (by omega))
  refine Traced.every_ite (fun _ => hdone _) fun haad => ?_
  have haad' : call.aad.length ≤ kMaxAad := Nat.le_of_not_lt haad
  apply Traced.every_seq (writeFullAad_inRange _ haad')
  refine Traced.every_ite (fun _ => hdone _) fun hct => ?_
  have hct' : call.ciphertext.length ≤ kMaxCt := Nat.le_of_not_lt hct
  apply Traced.every_seq (writeCipherBuf_inRange _ hct')
  refine Traced.every_seq ((Traced.every_emit _ _).mpr ⟨?_, ?_⟩)
    (Traced.every_ite (fun _ => hdone _) fun _ => hdone _)
  · exact Nat.add_le_add_left haad' _
  · exact Nat.add_le_add_right hct' _

/-- The additional data handed over is the data given behind the header of the record. -/
theorem aadBytes_btCall (haad : call.aad.length ≤ kMaxAad) : (btCall call).aadBytes =
    [UInt8.ofNat (1 + 2 + call.aad.length + call.ciphertext.length + kTagLen), 0xFF, 0xDA,
      0x03] ++ call.aad := by
  simp only [BtCcmCall.aadBytes, btCall]
  exact toList_writeFullAad _ haad

theorem mic_btCall (hct : call.ciphertext.length ≤ kMaxCt) :
    (btCall call).mic = call.tag.toList := by
  have htag : call.ciphertext.length + call.tag.toList.length ≤ kMaxCt + kTagLen := by
    rw [Vector.length_toList]
    exact Nat.add_le_add_right hct _
  have hmic := Buffer.drop_take_overwrite (Buffer.overwrite (Buffer.zero _) 0 call.ciphertext) htag
  have hsize : (UInt8.ofNat kTagLen).toNat = kTagLen := by decide
  rw [Vector.length_toList] at hmic
  simp only [BtCcmCall.mic, btCall, hsize, val_writeCipherBuf]
  exact hmic

theorem ciphertext_btCall (hct : call.ciphertext.length ≤ kMaxCt) :
    (btCall call).ciphertext = call.ciphertext := by
  have htag : call.ciphertext.length + call.tag.toList.length ≤ kMaxCt + kTagLen := by
    rw [Vector.length_toList]
    exact Nat.add_le_add_right hct _
  have hfits : 0 + call.ciphertext.length ≤ kMaxCt + kTagLen := by omega
  have hfront := Buffer.take_overwrite_add (Buffer.zero (kMaxCt + kTagLen)) hfits
  rw [Nat.zero_add, List.take_zero, List.nil_append] at hfront
  rw [BtCcmCall.ciphertext, btCall, val_writeCipherBuf]
  exact (Buffer.take_overwrite _ htag).trans hfront

theorem nonce_btCall (hnonce : call.nonce.length = kNonceLen) :
    (btCall call).nonce.toList = call.nonce := by
  have hfits : 0 + call.nonce.length ≤ kNonceLen := by omega
  rw [btCall, Buffer.toList_overwrite _ hfits]
  simp [hnonce]

end Call

/-! ## The record on the air -/

/-- The header the backend writes and the bytes the driver strips are the record from its
length byte up to the tag. -/
theorem record_eq {data : Span} {p : Nat} (hsel : Selects data p)
    (hsize : kDataPayloadMin ≤ (payloadAt data p).size) :
    [UInt8.ofNat (1 + 2 + ((payloadAt data p).size - kTagLen) + 0 + kTagLen), 0xFF, 0xDA, 0x03] ++
        ((payloadAt data p).slice 0 ((payloadAt data p).size - kTagLen)).bytes =
      (data.slice p (adLen data p + 1 - kTagLen)).bytes := by
  obtain ⟨htype, hlow, hhigh⟩ := hsel.header
  have hlen : 9 ≤ adLen data p - 3 := hsize
  have hcount : adLen data p + 1 - kTagLen = adLen data p - 3 - kTagLen + 1 + 1 + 1 + 1 := by
    simp only [kTagLen]
    omega
  have hfirst : data.byte p =
      UInt8.ofNat (1 + 2 + ((payloadAt data p).size - kTagLen) + 0 + kTagLen) := by
    have hsum : 1 + 2 + ((payloadAt data p).size - kTagLen) + 0 + kTagLen = adLen data p := by
      simp only [payloadAt, Span.size_slice, kTagLen]
      omega
    rw [hsum, adLen, UInt8.ofNat_toNat]
  rw [hcount, Span.bytes_slice_succ, Span.bytes_slice_succ, Span.bytes_slice_succ,
    Span.bytes_slice_succ, htype, hlow, hhigh, hfirst, payloadAt, Span.slice_slice]
  rfl

/-- **The authenticated bytes on Zephyr.** For a record that lies within the advertisement,
whichever handler calls the backend: the additional data is the record from its length byte
to its tag, the tag is its last four bytes, and every local array is used in range. A payload
of more than 36 bytes is refused without a call of the library. -/
theorem zephyr_authenticates_record (btCcmDecrypt : BtCcmCall → Int)
    (callbacks : EnoceanCallbacks) (crypto : CryptoBackend) (device : EnoceanDevice)
    (data : Span) (p : Nat) (hwalk : Walk data 0 p) (hsel : Selects data p)
    (hfit : p + 1 + adLen data p ≤ data.size) (call : DecryptCall) (accepted : Bool)
    (hcall : (call, accepted) ∈ decrypts (handleSwitch callbacks crypto device (payloadOf data)) ∨
      (call, accepted) ∈ decrypts (handleSensor callbacks crypto device (payloadOf data))) :
    let r := aesCcmDecrypt (aesCcmDecryptImpl btCcmDecrypt) call
    r.Every Action.InRange ∧
    ((payloadOf data).size ≤ 36 →
      ∃ b, btCalls r = [b] ∧ b.aadBytes = (data.bytes.drop p).take (adLen data p + 1 - kTagLen) ∧
        b.mic = (data.bytes.drop (p + 1 + adLen data p - kTagLen)).take kTagLen ∧
        b.ciphertext = [] ∧ b.key = device.key.toList ∧ b.nonce.toList = call.nonce ∧
        (r.val = true ↔ btCcmDecrypt b = 0)) ∧
    (36 < (payloadOf data).size → r.val = false ∧ btCalls r = []) := by
  intro r
  have hpayload : payloadOf data = payloadAt data p := extractLoop_of_walk hwalk hsel
  obtain ⟨hsize, rfl⟩ : kDataPayloadMin ≤ (payloadOf data).size ∧
      call = decryptCall device (payloadOf data) := by
    rcases hcall with h | h
    · obtain ⟨hok, heq⟩ := (handleSwitch_outcome callbacks crypto device _).of_call h
      exact ⟨hok.1, heq⟩
    · obtain ⟨hok, heq⟩ := (handleSensor_outcome callbacks crypto device _).of_call h
      exact ⟨hok.1, heq⟩
  have hr : r = aesCcmDecryptImpl btCcmDecrypt (decryptCall device (payloadOf data)) :=
    aesCcmDecrypt_decryptCall _ device _
  have haad : (decryptCall device (payloadOf data)).aad.length =
      (payloadOf data).size - kTagLen := by
    rw [decryptCall, Span.length_bytes, Span.size_slice]
  have hct : (decryptCall device (payloadOf data)).ciphertext.length ≤ kMaxCt := Nat.zero_le _
  have hnonce : (decryptCall device (payloadOf data)).nonce.length = kNonceLen :=
    Vector.length_toList
  refine ⟨?_, fun hshort => ?_, fun hlong => ?_⟩
  · rw [hr]
    exact aesCcmDecryptImpl_inRange btCcmDecrypt hnonce
  · have hfits : (decryptCall device (payloadOf data)).aad.length ≤ kMaxAad := by
      rw [haad]
      simp only [kTagLen, kMaxAad]
      omega
    obtain ⟨hval, hcalls⟩ := aesCcmDecryptImpl_of_fits btCcmDecrypt hfits hct
    refine ⟨_, hr ▸ hcalls, ?_, ?_, ciphertext_btCall hct, rfl, nonce_btCall hnonce, hr ▸ hval⟩
    · have hrecord := record_eq hsel (hpayload ▸ hsize)
      rw [aadBytes_btCall hfits, haad, hpayload, ← Span.bytes_slice data (by omega), ← hrecord]
      rfl
    · have hlen : 9 ≤ adLen data p - 3 := by
        rw [hpayload] at hsize
        exact hsize
      have hstart : p + 4 + (adLen data p - 3 - kTagLen) = p + 1 + adLen data p - kTagLen := by
        simp only [kTagLen]
        omega
      have hend : p + 1 + adLen data p - kTagLen + kTagLen ≤ data.size := by
        simp only [kTagLen]
        omega
      rw [mic_btCall hct, tag_decryptCall_slice, hpayload, ← Span.bytes_slice data hend, payloadAt,
        Span.slice_slice, Span.size_slice, hstart]
  · have htoo : kMaxAad < (decryptCall device (payloadOf data)).aad.length := by
      rw [haad]
      simp only [kTagLen, kMaxAad]
      omega
    rw [hr]
    exact aesCcmDecryptImpl_of_long btCcmDecrypt htoo

theorem zephyr_authenticates_record_press :
    let data := enoceanRecord [2, 0, 0, 0, 0x03, 0x0A, 0x0B, 0x0C, 0x0D]
    let device : EnoceanDevice := { type := .switch, active := true }
    ∃ b, btCalls (aesCcmDecrypt (aesCcmDecryptImpl fun _ => 0)
        (decryptCall device (payloadOf data))) = [b] ∧
      b.aadBytes = [0x0C, 0xFF, 0xDA, 0x03, 2, 0, 0, 0, 0x03] ∧
      b.mic = [0x0A, 0x0B, 0x0C, 0x0D] := by
  intro data device
  obtain ⟨b, hcalls, haad, hmic, -⟩ := (zephyr_authenticates_record (fun _ => 0)
    ⟨true, true, true⟩ (fun _ => true) device data 0 (.here 0) (by decide +kernel)
    (by decide +kernel) (decryptCall device (payloadOf data)) true
    (Or.inl (by decide +kernel))).2.1 (by decide +kernel)
  exact ⟨b, hcalls, haad.trans (by decide +kernel), hmic.trans (by decide +kernel)⟩

end EnoceanCore.Crypto.Zephyr
