import EnoceanCore.Crypto.Posix
import EnoceanCore.Crypto.Zephyr

/-!
# The output buffer

`aes_ccm_decrypt` is given a span for the plaintext, and the library writes as many bytes to its
pointer as the ciphertext has (`Output`). The POSIX backend refuses a span that is shorter than
the ciphertext before it asks the library to write anything. The Zephyr backend hands over the
pointer and never looks at the size of the span (`refusesShort_iff`).
-/

namespace EnoceanCore.Crypto

open Lib Enocean

/-! ## What is expected -/

/-- The library is asked to write `count` bytes to a buffer that has room for `room`. -/
structure Output where
  room : Nat
  count : Nat
  deriving DecidableEq, Repr

/-- The plaintext does not fit the span of the caller. -/
def ShortSpan (call : DecryptCall) : Prop :=
  call.ciphertext ≠ [] ∧ call.plaintextSize < call.ciphertext.length

instance : DecidablePred ShortSpan := fun _ => inferInstanceAs (Decidable (_ ∧ _))

theorem length_le_of_not_short {call : DecryptCall} (h : ¬ ShortSpan call) :
    call.ciphertext.length ≤ call.plaintextSize := by
  by_cases hempty : call.ciphertext = []
  · rw [hempty]
    exact Nat.zero_le _
  · exact Nat.le_of_not_lt fun hlt => h ⟨hempty, hlt⟩

/-- A span that is too short is refused before anything is written, and nothing is ever written
past the end of a buffer. -/
structure RefusesShort (call : DecryptCall) (accepted : Bool) (outputs : List Output) : Prop where
  refuses : ShortSpan call → accepted = false ∧ outputs = []
  fits : ∀ o ∈ outputs, o.count ≤ o.room

/-! ## POSIX -/

namespace Posix

/-- What a call of OpenSSL is asked to write. -/
def EvpCall.output? : EvpCall → Option Output
  | decryptUpdate (some out) _ inl => some ⟨out, inl.toNat⟩
  | _ => none

/-- What OpenSSL is asked to write in a run. -/
def outputsOf {α : Type} (x : Traced (EvpCall × Int) α) : List Output :=
  x.proj fun e => e.1.output?

/-- The conversion of a size never yields a larger number. -/
theorem toNat_castInt_le (n : Nat) : (castInt n).toNat ≤ n := by
  rw [castInt, Int32.toInt_ofNat', Int.bmod_def]
  simp only [Int32.size]
  split
  all_goals omega

variable {call : DecryptCall}

/-- The calls before the one that verifies write nothing. -/
theorem output_setupCalls : ∀ c ∈ setupCalls call, c.output? = none := by
  intro c hc
  rw [setupCalls, List.mem_append] at hc
  rcases hc with hc | hc
  · simp only [List.mem_cons, List.not_mem_nil, or_false] at hc
    rcases hc with rfl | rfl | rfl | rfl | rfl
    all_goals rfl
  · split at hc
    · cases hc
    · obtain rfl := List.mem_singleton.mp hc
      rfl

theorem decryptWithCtx_of_short (h : ShortSpan call) :
    decryptWithCtx call = Prog.ladder EvpCall.succeeds (setupCalls call) (pure false) := by
  have hshort : call.ciphertext ≠ [] ∧ call.plaintextSize < call.ciphertext.length := h
  by_cases haad : call.aad = []
  · simp [decryptWithCtx, setupCalls, haad, Prog.ladder, EvpCall.succeeds, hshort]
  · simp [decryptWithCtx, setupCalls, haad, Prog.ladder, EvpCall.succeeds, hshort]

/-- The call that verifies writes within its buffer. -/
theorem output_verifyCall (h : ¬ ShortSpan call) :
    ∀ o, (verifyCall call).output? = some o → o.count ≤ o.room := by
  intro o ho
  have hcount := toNat_castInt_le call.ciphertext.length
  have hroom := length_le_of_not_short h
  cases ho
  by_cases hempty : call.ciphertext = []
  · rw [hempty, List.length_nil] at hcount
    simp only [hempty, if_true, List.length_nil]
    omega
  · simp only [hempty, if_false]
    omega

/-- What each call of the backend may write. -/
def Permitted (call : DecryptCall) (c : EvpCall) : Prop :=
  ∀ o, c.output? = some o → ¬ ShortSpan call ∧ o.count ≤ o.room

theorem permitted_of_none {c : EvpCall} (h : c.output? = none) : Permitted call c := by
  intro o ho
  rw [h] at ho
  cases ho

theorem decryptWithCtx_permitted (call : DecryptCall) :
    (decryptWithCtx call).Calls (Permitted call) := by
  have hsetup : ∀ c ∈ setupCalls call, Permitted call c :=
    fun c hc => permitted_of_none (output_setupCalls c hc)
  by_cases hshort : ShortSpan call
  · rw [decryptWithCtx_of_short hshort]
    exact Prog.calls_ladder hsetup (Prog.calls_pure _)
  · rw [decryptWithCtx_eq_ladder (length_le_of_not_short hshort)]
    refine Prog.calls_ladder hsetup ((Prog.calls_perform fun o ho => ?_).bind fun _ =>
      Prog.calls_pure _)
    exact ⟨hshort, output_verifyCall hshort o ho⟩

theorem aesCcmDecryptImpl_permitted (call : DecryptCall) :
    (aesCcmDecryptImpl call).Calls (Permitted call) := by
  unfold aesCcmDecryptImpl
  refine (Prog.calls_perform (permitted_of_none rfl)).bind fun ctx => ?_
  refine Prog.calls_ite (Prog.calls_pure _)
    ((decryptWithCtx_permitted call).bind fun accepted => ?_)
  exact (Prog.calls_perform (permitted_of_none rfl)).bind fun _ => Prog.calls_pure _

/-- A span that is too short is refused. -/
theorem val_of_short (env : Env EvpCall) (h : ShortSpan call) :
    (Prog.exec env (aesCcmDecryptImpl call)).val = false := by
  by_cases hnew : env [] .ctxNew = 0
  · rw [aesCcmDecryptImpl, Prog.exec_perform_bind, if_pos hnew]
    rfl
  · rw [(exec_with_ctx call hnew).1, decryptWithCtx_of_short h, Prog.exec_ladder_false]

/-- Whatever OpenSSL answers, the POSIX backend refuses a span that is too short. -/
theorem posix_refusesShort (env : Env EvpCall) (call : DecryptCall) :
    RefusesShort call (Prog.exec env (aesCcmDecryptImpl call)).val
      (outputsOf (Prog.exec env (aesCcmDecryptImpl call))) := by
  have hlog := (aesCcmDecryptImpl_permitted call).of_mem_log env
  constructor
  · intro hshort
    refine ⟨val_of_short env hshort, Traced.proj_eq_nil_of_every fun e he => ?_⟩
    cases hout : e.1.output? with
    | none => exact hout
    | some o => exact absurd hshort (hlog e he o hout).1
  · intro o ho
    obtain ⟨e, he, hout⟩ := List.mem_filterMap.mp ho
    exact (hlog e he o hout).2

end Posix

/-! ## Zephyr -/

namespace Zephyr

/-- What a call of `bt_ccm_decrypt` is asked to write; a null pointer has no room. -/
def BtCcmCall.output (c : BtCcmCall) : Output := ⟨c.plaintext.getD 0, c.len⟩

/-- What the library is asked to write in a run. -/
def outputsOf {α : Type} (x : Traced Action α) : List Output := (btCalls x).map BtCcmCall.output

/-- The additional data and the ciphertext fit the local arrays. -/
def FitsArrays (call : DecryptCall) : Prop :=
  call.aad.length ≤ kMaxAad ∧ call.ciphertext.length ≤ kMaxCt

instance : DecidablePred FitsArrays := fun _ => inferInstanceAs (Decidable (_ ∧ _))

variable (btCcmDecrypt : BtCcmCall → Int) {call : DecryptCall}

/-- What does not fit the local arrays is refused without a call. -/
theorem aesCcmDecryptImpl_of_not_fits (h : ¬ FitsArrays call) :
    (aesCcmDecryptImpl btCcmDecrypt call).val = false ∧
      btCalls (aesCcmDecryptImpl btCcmDecrypt call) = [] := by
  by_cases haad : call.aad.length ≤ kMaxAad
  · have haad' : ¬ call.aad.length > kMaxAad := Nat.not_lt.mpr haad
    have hct : call.ciphertext.length > kMaxCt := Nat.lt_of_not_le fun hle => h ⟨haad, hle⟩
    constructor <;> simp [aesCcmDecryptImpl, haad', hct]
  · exact aesCcmDecryptImpl_of_long btCcmDecrypt (Nat.lt_of_not_le haad)

theorem output_btCall (call : DecryptCall) :
    (btCall call).output = ⟨call.plaintextSize, call.ciphertext.length⟩ := by
  rw [BtCcmCall.output, btCall]
  by_cases hnull : call.plaintextSize = 0
  · rw [if_pos hnull, hnull]
    rfl
  · rw [if_neg hnull]
    rfl

/-- The Zephyr backend refuses a span that is too short only if it refuses the lengths of the
other arguments anyway. -/
theorem zephyr_refusesShort_iff (call : DecryptCall) :
    RefusesShort call (aesCcmDecryptImpl btCcmDecrypt call).val
      (outputsOf (aesCcmDecryptImpl btCcmDecrypt call)) ↔
        ¬ (ShortSpan call ∧ FitsArrays call) := by
  by_cases hfits : FitsArrays call
  · obtain ⟨-, hcalls⟩ := aesCcmDecryptImpl_of_fits btCcmDecrypt hfits.1 hfits.2
    have houtputs : outputsOf (aesCcmDecryptImpl btCcmDecrypt call) =
        [⟨call.plaintextSize, call.ciphertext.length⟩] := by
      rw [outputsOf, hcalls, List.map_singleton, output_btCall]
    rw [houtputs]
    constructor
    · intro h hshort
      obtain ⟨-, hnone⟩ := h.refuses hshort.1
      cases hnone
    · intro hno
      have hlong : ¬ ShortSpan call := fun hshort => hno ⟨hshort, hfits⟩
      refine ⟨fun hshort => absurd hshort hlong, fun o ho => ?_⟩
      obtain rfl := List.mem_singleton.mp ho
      exact length_le_of_not_short hlong
  · obtain ⟨hval, hcalls⟩ := aesCcmDecryptImpl_of_not_fits btCcmDecrypt hfits
    rw [outputsOf, hcalls, hval]
    exact iff_of_true ⟨fun _ => ⟨rfl, rfl⟩, fun o ho => by cases ho⟩ fun h => hfits h.2

end Zephyr

/-- **Short output buffers.** Of every call with a key and a nonce of the right lengths: the POSIX
backend refuses a plaintext span that is too short, and nothing is ever written past the end of a
buffer. The Zephyr backend does the same if and only if it is not given a span that is too short
together with additional data and a ciphertext that fit its local arrays. -/
theorem refusesShort_iff (call : DecryptCall) (hkey : call.key.length = kKeyLen)
    (hnonce : call.nonce.length = kNonceLen) :
    (∀ env : Env Posix.EvpCall,
      RefusesShort call (Prog.exec env (aesCcmDecrypt Posix.aesCcmDecryptImpl call)).val
        (Posix.outputsOf (Prog.exec env (aesCcmDecrypt Posix.aesCcmDecryptImpl call)))) ∧
    ∀ btCcmDecrypt : Zephyr.BtCcmCall → Int,
      (RefusesShort call (aesCcmDecrypt (Zephyr.aesCcmDecryptImpl btCcmDecrypt) call).val
        (Zephyr.outputsOf (aesCcmDecrypt (Zephyr.aesCcmDecryptImpl btCcmDecrypt) call)) ↔
          ¬ (ShortSpan call ∧ Zephyr.FitsArrays call)) := by
  constructor
  · intro env
    rw [aesCcmDecrypt_of_lengths _ hkey hnonce]
    exact Posix.posix_refusesShort env call
  · intro btCcmDecrypt
    rw [aesCcmDecrypt_of_lengths _ hkey hnonce]
    exact Zephyr.zephyr_refusesShort_iff btCcmDecrypt call

/-- A call with two bytes of ciphertext and room for as many bytes of plaintext. -/
def twoByteCall (room : Nat) : DecryptCall where
  key := List.replicate kKeyLen 0
  nonce := List.replicate kNonceLen 0
  aad := []
  ciphertext := [1, 2]
  tag := Vector.replicate kTagLen 0
  plaintextSize := room

/-- With room for both bytes, the Zephyr backend stays within the span. -/
theorem refusesShort_two :
    RefusesShort (twoByteCall 2)
      (aesCcmDecrypt (Zephyr.aesCcmDecryptImpl fun _ => 0) (twoByteCall 2)).val
      (Zephyr.outputsOf (aesCcmDecrypt (Zephyr.aesCcmDecryptImpl fun _ => 0) (twoByteCall 2))) :=
  ((refusesShort_iff (twoByteCall 2) rfl rfl).2 fun _ => 0).mpr (by decide)

/-- With room for one byte only, the Zephyr backend has the library write two. -/
theorem not_refusesShort_one :
    ¬ RefusesShort (twoByteCall 1)
      (aesCcmDecrypt (Zephyr.aesCcmDecryptImpl fun _ => 0) (twoByteCall 1)).val
      (Zephyr.outputsOf (aesCcmDecrypt (Zephyr.aesCcmDecryptImpl fun _ => 0) (twoByteCall 1))) := by
  rw [aesCcmDecrypt_of_lengths _ rfl rfl, Zephyr.zephyr_refusesShort_iff]
  decide

end EnoceanCore.Crypto
