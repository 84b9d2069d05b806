import EnoceanCore.Enocean.Authentication

/-!
# The crypto interface

`ICrypto::aes_ccm_decrypt` checks the lengths of key and nonce and hands everything else to
the platform. The calls the driver makes pass these checks (`aesCcmDecrypt_decryptCall`).
-/

namespace EnoceanCore.Crypto

open Enocean

/-- AES-CCM verification as a function of key, nonce, additional data, ciphertext and tag. -/
abbrev CcmFunction : Type :=
  List UInt8 → List UInt8 → List UInt8 → List UInt8 → List UInt8 → Bool

def aesCcmDecrypt {m : Type → Type} [Monad m] (aesCcmDecryptImpl : DecryptCall → m Bool)
    (call : DecryptCall) : m Bool := do
  if call.key.length ≠ kKeyLen then return false
  if call.nonce.length ≠ kNonceLen then return false
  aesCcmDecryptImpl call

theorem aesCcmDecrypt_of_lengths {m : Type → Type} [Monad m] (impl : DecryptCall → m Bool)
    {call : DecryptCall} (hkey : call.key.length = kKeyLen)
    (hnonce : call.nonce.length = kNonceLen) : aesCcmDecrypt impl call = impl call := by
  rw [aesCcmDecrypt, if_neg (not_not_intro hkey), if_neg (not_not_intro hnonce)]

/-- The driver calls with a key and a nonce of the right lengths. -/
theorem aesCcmDecrypt_decryptCall {m : Type → Type} [Monad m] (impl : DecryptCall → m Bool)
    (device : EnoceanDevice) (p : Lib.Span) :
    aesCcmDecrypt impl (decryptCall device p) = impl (decryptCall device p) :=
  aesCcmDecrypt_of_lengths impl (Vector.length_toList) (Vector.length_toList)

end EnoceanCore.Crypto
