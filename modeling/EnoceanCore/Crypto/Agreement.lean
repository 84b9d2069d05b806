import EnoceanCore.Crypto.Posix
import EnoceanCore.Crypto.Zephyr

/-!
# The two backends side by side

Given one AES-CCM function, the POSIX backend verifies the additional data as the driver
hands it over, and the Zephyr backend verifies it behind the rebuilt header of the record. The
two never authenticate the same bytes (`backends_agree_iff`).
-/

namespace EnoceanCore.Crypto

open Lib Enocean

variable (verify : CcmFunction)

/-- `bt_ccm_decrypt` on top of an AES-CCM function. -/
def btCcmDecrypt (c : Zephyr.BtCcmCall) : Int :=
  if verify c.key c.nonce.toList c.aadBytes c.ciphertext c.mic then 0 else -74

/-- The POSIX backend, with an OpenSSL in which nothing else fails. -/
def posixBackend : CryptoBackend := fun call =>
  (Prog.exec (Posix.openSsl verify) (aesCcmDecrypt Posix.aesCcmDecryptImpl call)).val

/-- The Zephyr backend. -/
def zephyrBackend : CryptoBackend := fun call =>
  (aesCcmDecrypt (Zephyr.aesCcmDecryptImpl (btCcmDecrypt verify)) call).val

/-- The additional data the POSIX backend hands to OpenSSL. -/
def posixAad (call : DecryptCall) : List UInt8 :=
  (Posix.ctxAfter ((Prog.exec (Posix.openSsl verify)
    (aesCcmDecrypt Posix.aesCcmDecryptImpl call)).log.map Prod.fst)).aad

/-- The additional data the Zephyr backend hands to `bt_ccm_decrypt`, in one call or none. -/
def zephyrAad (call : DecryptCall) : List UInt8 :=
  (Zephyr.btCalls (aesCcmDecrypt (Zephyr.aesCcmDecryptImpl (btCcmDecrypt verify)) call)).flatMap
    Zephyr.BtCcmCall.aadBytes

theorem setupSucceeds_openSsl (call : DecryptCall) :
    Posix.SetupSucceeds (Posix.openSsl verify) call := by
  apply Prog.accepts_of_forall
  intro c hc made
  by_cases haad : call.aad = []
  · simp only [Posix.setupCalls, haad, if_true, List.append_nil, List.mem_cons,
      List.not_mem_nil, or_false] at hc
    rcases hc with rfl | rfl | rfl | rfl | rfl | rfl <;> rfl
  · simp only [Posix.setupCalls, haad, if_false, List.mem_cons, List.mem_append,
      List.not_mem_nil, or_false] at hc
    rcases hc with rfl | (rfl | rfl | rfl | rfl | rfl) | rfl <;> rfl

/-- OpenSSL is given the additional data of the driver. -/
theorem posixAad_decryptCall (device : EnoceanDevice) (p : Span) (hsize : p.size ≤ 36) :
    posixAad verify (decryptCall device p) = (decryptCall device p).aad := by
  have haad : (decryptCall device p).aad.length < 2 ^ 31 := by
    rw [decryptCall, Span.length_bytes, Span.size_slice]
    omega
  obtain ⟨-, freed, hlog⟩ := @Posix.exec_of_setup (Posix.openSsl verify) (decryptCall device p)
    (Nat.le_refl 0) (setupSucceeds_openSsl verify (decryptCall device p))
  rw [posixAad, aesCcmDecrypt_decryptCall, hlog, List.map_append, Prog.answers_map_fst,
    Posix.ctxAfter, List.foldl_append, List.foldl_append]
  change (Posix.ctxAfter (.ctxNew :: Posix.setupCalls (decryptCall device p))).aad = _
  rw [Posix.ctxAfter_setup haad]

/-- `bt_ccm_decrypt` is given the header of the record in front of it. -/
theorem zephyrAad_decryptCall (device : EnoceanDevice) (p : Span) (hsize : p.size ≤ 36) :
    (zephyrAad verify (decryptCall device p)).length = (decryptCall device p).aad.length + 4 := by
  have haad : (decryptCall device p).aad.length ≤ Zephyr.kMaxAad := by
    rw [decryptCall, Span.length_bytes, Span.size_slice]
    simp only [kTagLen, Zephyr.kMaxAad]
    omega
  obtain ⟨-, hcalls⟩ := Zephyr.aesCcmDecryptImpl_of_fits (btCcmDecrypt verify) haad
    (Nat.zero_le _)
  rw [zephyrAad, aesCcmDecrypt_decryptCall, hcalls, List.flatMap_singleton,
    Zephyr.aadBytes_btCall haad]
  simp

/-- A handler that does not get to the backend rejects the telegram. -/
theorem handleData_of_not_admissible (callbacks : EnoceanCallbacks) (crypto : CryptoBackend)
    {device : EnoceanDevice} {p : Span} (h : ¬ DataAdmissible device p) :
    (handleData callbacks crypto device p).val = (false, device) ∧
      decrypts (handleData callbacks crypto device p) = [] := by
  cases handleData_outcome callbacks crypto device p with
  | reject _ hval hdecrypts => exact ⟨hval, hdecrypts⟩
  | forged hok => exact absurd hok h
  | undelivered hok => exact absurd hok h
  | deliver hok => exact absurd hok h

/-- A handler calls an accepting backend for each admissible telegram. -/
theorem mem_decrypts_of_admissible (callbacks : EnoceanCallbacks) {device : EnoceanDevice}
    {p : Span} (h : DataAdmissible device p) :
    (decryptCall device p, true) ∈ decrypts (handleData callbacks (fun _ => true) device p) := by
  cases handleData_outcome callbacks (fun _ => true) device p with
  | reject hno => exact absurd h hno
  | forged _ hauth => cases hauth
  | undelivered _ _ _ _ hdecrypts => exact hdecrypts ▸ List.mem_singleton_self _
  | deliver _ _ _ _ hdecrypts => exact hdecrypts ▸ List.mem_singleton_self _

/-- **Agreement of the backends.** For a payload of a known device, both backends are handed
the same additional data and accept the same telegrams, for every AES-CCM function, if and
only if the handler does not get to the backend at all. -/
theorem backends_agree_iff (callbacks : EnoceanCallbacks) (device : EnoceanDevice) (p : Span)
    (hmax : p.size ≤ 36) :
    (∀ verify : CcmFunction,
      (∀ crypto call accepted, (call, accepted) ∈ decrypts (handleData callbacks crypto device p) →
        posixAad verify call = zephyrAad verify call) ∧
      (handleData callbacks (posixBackend verify) device p).val =
        (handleData callbacks (zephyrBackend verify) device p).val) ↔
      ¬ DataAdmissible device p := by
  constructor
  · intro h hok
    have hsame := (h fun _ _ _ _ _ => true).1 _ _ _ (mem_decrypts_of_admissible callbacks hok)
    have hlen := congrArg List.length hsame
    rw [posixAad_decryptCall _ device p hmax, zephyrAad_decryptCall _ device p hmax] at hlen
    omega
  · intro hno verify
    constructor
    · intro crypto call accepted hcall
      rw [(handleData_of_not_admissible callbacks crypto hno).2] at hcall
      cases hcall
    · rw [(handleData_of_not_admissible callbacks _ hno).1,
        (handleData_of_not_admissible callbacks _ hno).1]

/-- A press of a switch, for which both backends are called. -/
def samplePress : Span := .ofList [2, 0, 0, 0, 0x03, 0x0A, 0x0B, 0x0C, 0x0D]

theorem backends_agree_iff_replay :
    (handleData ⟨true, true, true⟩ (posixBackend fun _ _ _ _ _ => true)
        { type := .switch, seqNum := 2 } samplePress).val =
      (handleData ⟨true, true, true⟩ (zephyrBackend fun _ _ _ _ _ => true)
        { type := .switch, seqNum := 2 } samplePress).val :=
  (((backends_agree_iff ⟨true, true, true⟩ { type := .switch, seqNum := 2 } samplePress
    (by decide)).mpr (by decide +kernel)) _).2

/-- For a press with a new sequence number, OpenSSL is given `02 00 00 00 03` and
`bt_ccm_decrypt` is given `0C FF DA 03 02 00 00 00 03`. -/
theorem not_backends_agree_press :
    ¬ ∀ (verify : CcmFunction) (callbacks : EnoceanCallbacks) (device : EnoceanDevice) (p : Span),
      9 ≤ p.size → p.size ≤ 36 → ∀ crypto call accepted,
        (call, accepted) ∈ decrypts (handleData callbacks crypto device p) →
          posixAad verify call = zephyrAad verify call := by
  intro h
  refine absurd (h (fun _ _ _ _ _ => true) ⟨true, true, true⟩ { type := .switch } samplePress
    (by decide) (by decide) (fun _ => true) (decryptCall { type := .switch } samplePress) true
    ?_) ?_
  · decide +kernel
  · decide +kernel

end EnoceanCore.Crypto
