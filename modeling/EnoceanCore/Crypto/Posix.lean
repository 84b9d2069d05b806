import EnoceanCore.Crypto.Interface
import EnoceanCore.Lib.Prog

/-!
# The POSIX backend

`AesCcm::aes_ccm_decrypt_impl` of `posix_core`: a ladder of OpenSSL calls, each of which has
to return 1, and a last call of `EVP_DecryptUpdate` that verifies the tag. That call returns
0 when the verification fails, and the backend takes any result that is not negative for a
success. `posix_accepts_iff` says when its answer is right all the same.
-/

namespace EnoceanCore.Crypto.Posix

open Lib Enocean

/-! ## The library -/

/-- A call of OpenSSL for one decryption; the context is the one just created. -/
inductive EvpCall where
  | ctxNew
  | ctxFree
  /-- `EVP_DecryptInit_ex` with the cipher only. -/
  | decryptInitCipher
  /-- `EVP_DecryptInit_ex` with key and nonce. -/
  | decryptInitKey (key nonce : List UInt8)
  | ctrlSetIvlen (len : Int)
  | ctrlSetTag (len : Int) (tag : List UInt8)
  /-- `EVP_DecryptUpdate`; the output is the size of its buffer or null. -/
  | decryptUpdate (out : Option Nat) (input : Option (List UInt8)) (inl : Int)
  deriving DecidableEq, Repr

/-- The answer means success: a context that is not null, or a return code of 1. -/
def EvpCall.succeeds : EvpCall → Int → Bool
  | ctxNew, r => r != 0
  | ctxFree, _ => true
  | _, r => r == 1

/-- What a context has been given. -/
structure EvpCtx where
  key : List UInt8 := []
  nonce : List UInt8 := []
  aad : List UInt8 := []
  tag : List UInt8 := []
  deriving DecidableEq, Repr

def EvpCtx.next (ctx : EvpCtx) : EvpCall → EvpCtx
  | .decryptInitKey key nonce => { ctx with key := key, nonce := nonce }
  | .ctrlSetTag len tag => { ctx with tag := tag.take len.toNat }
  | .decryptUpdate none (some input) inl => { ctx with aad := ctx.aad ++ input.take inl.toNat }
  | _ => ctx

/-- The context after some calls. -/
def ctxAfter (made : List EvpCall) : EvpCtx := made.foldl EvpCtx.next {}

/-- The contract of OpenSSL: return codes are 0 and 1, and the update with an output returns
0 when the tag of the context does not authenticate its additional data and the input. -/
structure OpenSslContract (verify : CcmFunction) (env : Env EvpCall) : Prop where
  codes : ∀ made c, c ≠ .ctxNew → c ≠ .ctxFree → env made c = 0 ∨ env made c = 1
  verifies : ∀ made out input inl, (∀ e ∈ made, EvpCall.succeeds e.1 e.2 = true) →
    verify (ctxAfter (made.map Prod.fst)).key (ctxAfter (made.map Prod.fst)).nonce
      (ctxAfter (made.map Prod.fst)).aad ((input.getD []).take inl.toNat)
      (ctxAfter (made.map Prod.fst)).tag = false →
    env made (.decryptUpdate (some out) input inl) = 0

/-- An OpenSSL in which nothing fails but the verification of a tag. -/
def openSsl (verify : CcmFunction) : Env EvpCall := fun made c =>
  match c with
  | .ctxFree => 0
  | .decryptUpdate (some _) input inl =>
    let ctx := ctxAfter (made.map Prod.fst)
    if verify ctx.key ctx.nonce ctx.aad ((input.getD []).take inl.toNat) ctx.tag then 1 else 0
  | _ => 1

theorem openSsl_contract (verify : CcmFunction) : OpenSslContract verify (openSsl verify) := by
  constructor
  · intro made c hnew hfree
    cases c with
    | ctxNew => exact absurd rfl hnew
    | ctxFree => exact absurd rfl hfree
    | decryptUpdate out input inl =>
      cases out with
      | none => exact Or.inr rfl
      | some out =>
        rw [openSsl]
        split
        · exact Or.inr rfl
        · exact Or.inl rfl
    | _ => exact Or.inr rfl
  · intro made out input inl _ hno
    simp [openSsl, hno]

/-! ## The backend -/

/-- The conversion `static_cast<int>` of a size. -/
def castInt (n : Nat) : Int := (Int32.ofNat n).toInt

/-- The part of `aes_ccm_decrypt_impl` that has a context. -/
def decryptWithCtx (call : DecryptCall) : Prog EvpCall Bool := do
  let r ← .perform .decryptInitCipher
  if r ≠ 1 then return false
  let r ← .perform (.ctrlSetIvlen (castInt call.nonce.length))
  if r ≠ 1 then return false
  let r ← .perform (.ctrlSetTag (castInt kTagLen) call.tag.toList)
  if r ≠ 1 then return false
  let r ← .perform (.decryptInitKey call.key call.nonce)
  if r ≠ 1 then return false
  let r ← .perform (.decryptUpdate none none (castInt call.ciphertext.length))
  if r ≠ 1 then return false
  if call.aad ≠ [] then
    let r ← .perform (.decryptUpdate none (some call.aad) (castInt call.aad.length))
    if r ≠ 1 then return false
  let out := if call.ciphertext = [] then 1 else call.plaintextSize
  if call.ciphertext ≠ [] ∧ call.plaintextSize < call.ciphertext.length then return false
  let ret ← .perform (.decryptUpdate (some out)
    (if call.ciphertext = [] then none else some call.ciphertext)
    (castInt call.ciphertext.length))
  return ret ≥ 0

/-- The context is freed on every path that created one. -/
def aesCcmDecryptImpl (call : DecryptCall) : Prog EvpCall Bool := do
  let ctx ← .perform .ctxNew
  if ctx = 0 then return false
  let accepted ← decryptWithCtx call
  let _ ← .perform .ctxFree
  return accepted

/-! ## The ladder -/

/-- The calls before the one that verifies. -/
def setupCalls (call : DecryptCall) : List EvpCall :=
  [.decryptInitCipher, .ctrlSetIvlen (castInt call.nonce.length),
    .ctrlSetTag (castInt kTagLen) call.tag.toList, .decryptInitKey call.key call.nonce,
    .decryptUpdate none none (castInt call.ciphertext.length)] ++
  if call.aad = [] then []
    else [.decryptUpdate none (some call.aad) (castInt call.aad.length)]

/-- The call that verifies the tag. -/
def verifyCall (call : DecryptCall) : EvpCall :=
  .decryptUpdate (some (if call.ciphertext = [] then 1 else call.plaintextSize))
    (if call.ciphertext = [] then none else some call.ciphertext)
    (castInt call.ciphertext.length)

theorem decryptWithCtx_eq_ladder {call : DecryptCall}
    (hbuf : call.ciphertext.length ≤ call.plaintextSize) :
    decryptWithCtx call = Prog.ladder EvpCall.succeeds (setupCalls call) (do
      let ret ← .perform (verifyCall call)
      return ret ≥ 0) := by
  have hfits : ¬ (call.ciphertext ≠ [] ∧ call.plaintextSize < call.ciphertext.length) :=
    fun h => absurd hbuf (Nat.not_le.mpr h.2)
  by_cases haad : call.aad = []
  · simp [decryptWithCtx, setupCalls, haad, Prog.ladder, EvpCall.succeeds, hfits, verifyCall]
  · simp [decryptWithCtx, setupCalls, haad, Prog.ladder, EvpCall.succeeds, hfits, verifyCall]

/-- All calls before the one that verifies succeed. -/
def SetupSucceeds (env : Env EvpCall) (call : DecryptCall) : Prop :=
  Prog.Accepts EvpCall.succeeds env (.ctxNew :: setupCalls call)

/-- All calls succeed, the one that verifies included. -/
def AllSucceed (env : Env EvpCall) (call : DecryptCall) : Prop :=
  Prog.Accepts EvpCall.succeeds env (.ctxNew :: setupCalls call ++ [verifyCall call])

instance (env : Env EvpCall) (call : DecryptCall) : Decidable (SetupSucceeds env call) :=
  Prog.decidableAccepts _ _ _

instance (env : Env EvpCall) (call : DecryptCall) : Decidable (AllSucceed env call) :=
  Prog.decidableAccepts _ _ _

/-- The answer to the call that verifies, after the others. -/
def verifyAnswer (env : Env EvpCall) (call : DecryptCall) : Int :=
  env (Prog.answers env (.ctxNew :: setupCalls call)) (verifyCall call)

theorem allSucceed_iff {env : Env EvpCall} {call : DecryptCall} :
    AllSucceed env call ↔ SetupSucceeds env call ∧ verifyAnswer env call = 1 := by
  rw [AllSucceed, Prog.accepts_append]
  refine and_congr_right fun _ => ?_
  simp [Prog.Accepts, Env.after, verifyAnswer, verifyCall, EvpCall.succeeds]

section Exec

variable {env : Env EvpCall} {call : DecryptCall}

/-- With a context the answer is that of the ladder, and the context is freed at the end. -/
theorem exec_with_ctx (call : DecryptCall) (hnew : env [] .ctxNew ≠ 0) :
    let inner := Prog.exec (env.after [(.ctxNew, env [] .ctxNew)]) (decryptWithCtx call)
    (Prog.exec env (aesCcmDecryptImpl call)).val = inner.val ∧
      ∃ freed, (Prog.exec env (aesCcmDecryptImpl call)).log =
        (.ctxNew, env [] .ctxNew) :: inner.log ++ [(.ctxFree, freed)] := by
  rw [aesCcmDecryptImpl, Prog.exec_perform_bind, if_neg hnew, Prog.exec_bind]
  exact ⟨rfl, _, rfl⟩

/-- A call before the last one fails. -/
theorem exec_of_setup_fails (hbuf : call.ciphertext.length ≤ call.plaintextSize)
    (h : ¬ SetupSucceeds env call) :
    (Prog.exec env (aesCcmDecryptImpl call)).val = false ∧
      ∃ e ∈ (Prog.exec env (aesCcmDecryptImpl call)).log, e.1.succeeds e.2 = false := by
  by_cases hnew : env [] .ctxNew = 0
  · rw [aesCcmDecryptImpl, Prog.exec_perform_bind, if_pos hnew]
    exact ⟨rfl, _, List.mem_cons_self, by simp [EvpCall.succeeds, hnew]⟩
  · have hrest : ¬ Prog.Accepts EvpCall.succeeds (env.after [(.ctxNew, env [] .ctxNew)])
        (setupCalls call) := fun hacc => h ⟨by simp [EvpCall.succeeds, hnew], hacc⟩
    obtain ⟨hval, freed, hlog⟩ := exec_with_ctx call hnew
    rw [hval, hlog, decryptWithCtx_eq_ladder hbuf]
    obtain ⟨hfalse, e, he, hfail⟩ := Prog.exec_ladder_of_not_accepts hrest _
    exact ⟨hfalse, e, List.mem_cons_of_mem _ (List.mem_append_left _ he), hfail⟩

/-- The calls before the last one succeed. -/
theorem exec_of_setup (hbuf : call.ciphertext.length ≤ call.plaintextSize)
    (h : SetupSucceeds env call) :
    (Prog.exec env (aesCcmDecryptImpl call)).val = decide (verifyAnswer env call ≥ 0) ∧
      ∃ freed, (Prog.exec env (aesCcmDecryptImpl call)).log =
        Prog.answers env (.ctxNew :: setupCalls call ++ [verifyCall call]) ++
          [(.ctxFree, freed)] := by
  obtain ⟨hnew, hacc⟩ := h
  have hnew' : env [] .ctxNew ≠ 0 := by simpa [EvpCall.succeeds] using hnew
  obtain ⟨hval, freed, hlog⟩ := exec_with_ctx call hnew'
  obtain ⟨hlast, hcalls⟩ := Prog.exec_ladder_of_accepts hacc (do
    let ret ← .perform (verifyCall call)
    return decide (ret ≥ 0))
  rw [hval, hlog, decryptWithCtx_eq_ladder hbuf, hlast, hcalls, Prog.answers_append]
  rw [Prog.after_after, Prog.exec_perform_bind]
  have hmade : Env.after env ([(.ctxNew, env [] .ctxNew)] ++
      Prog.answers (env.after [(.ctxNew, env [] .ctxNew)]) (setupCalls call)) [] (verifyCall call) =
      verifyAnswer env call := by
    rw [Env.after, List.append_nil]
    rfl
  have hone : Prog.answers (env.after (Prog.answers env (.ctxNew :: setupCalls call)))
      [verifyCall call] = [(verifyCall call, verifyAnswer env call)] := by
    rw [Prog.answers, Prog.answers, Env.after, List.append_nil]
    rfl
  rw [hmade, hone]
  exact ⟨rfl, freed, by simp [Prog.answers]⟩

end Exec

/-! ## What the library is given -/

theorem castInt_of_lt {n : Nat} (h : n < 2 ^ 31) : castInt n = n := by
  rw [castInt, Int32.toInt_ofNat']
  apply Int.bmod_eq_of_le
  · simp only [Int32.size]
    omega
  · simp only [Int32.size]
    omega

/-- The context the tag is verified in holds all the arguments. -/
theorem ctxAfter_setup {call : DecryptCall} (haad : call.aad.length < 2 ^ 31) :
    ctxAfter (.ctxNew :: setupCalls call) =
      { key := call.key, nonce := call.nonce, aad := call.aad, tag := call.tag.toList } := by
  have htag : call.tag.toList.take (castInt kTagLen).toNat = call.tag.toList := by
    rw [castInt_of_lt (by decide)]
    exact List.take_of_length_le (by simp)
  have hlen : call.aad.take (castInt call.aad.length).toNat = call.aad := by
    rw [castInt_of_lt haad]
    exact List.take_of_length_le (by simp)
  by_cases hempty : call.aad = []
  · simp [ctxAfter, setupCalls, EvpCtx.next, hempty, htag]
  · simp [ctxAfter, setupCalls, EvpCtx.next, hempty, htag, hlen]

/-! ## The answer of the backend -/

/-- The sizes handed to OpenSSL fit an `int`. -/
def FitsInt (call : DecryptCall) : Prop :=
  call.aad.length < 2 ^ 31 ∧ call.ciphertext.length < 2 ^ 31

/-- If the sizes fit and the last call succeeds, the tag authenticates. -/
theorem authentic_of_allSucceed {verify : CcmFunction} {env : Env EvpCall}
    (hssl : OpenSslContract verify env) {call : DecryptCall} (hfits : FitsInt call)
    (h : AllSucceed env call) :
    verify call.key call.nonce call.aad call.ciphertext call.tag.toList = true := by
  obtain ⟨hsetup, hlast⟩ := allSucceed_iff.mp h
  obtain ⟨haad, hct⟩ := hfits
  by_contra hno
  have hinput : ((if call.ciphertext = [] then none else some call.ciphertext).getD []).take
      (castInt call.ciphertext.length).toNat = call.ciphertext := by
    rw [castInt_of_lt hct]
    by_cases hempty : call.ciphertext = []
    · simp [hempty]
    · simp [hempty]
  have hzero := hssl.verifies (Prog.answers env (.ctxNew :: setupCalls call))
    (if call.ciphertext = [] then 1 else call.plaintextSize)
    (if call.ciphertext = [] then none else some call.ciphertext)
    (castInt call.ciphertext.length) (Prog.accepts_iff_answers.mp hsetup)
  rw [Prog.answers_map_fst, ctxAfter_setup haad, hinput] at hzero
  have hanswer : verifyAnswer env call = 0 := hzero (by simpa using hno)
  rw [hanswer] at hlast
  cases hlast

/-- **The answer of the POSIX backend.** "The backend accepts if and only if all its calls
succeed and the tag authenticates the packet" holds exactly when a call before the last one
fails, or all calls succeed and the sizes fit an `int` (or the tag authenticates anyway): a
last call that returns 0 is taken for a success. -/
theorem posix_accepts_iff (verify : CcmFunction) (env : Env EvpCall)
    (hssl : OpenSslContract verify env) (call : DecryptCall)
    (hbuf : call.ciphertext.length ≤ call.plaintextSize) :
    let r := Prog.exec env (aesCcmDecryptImpl call)
    let authentic := verify call.key call.nonce call.aad call.ciphertext call.tag.toList = true
    ((r.val = true ↔ (∀ e ∈ r.log, e.1.succeeds e.2 = true) ∧ authentic) ↔
      ¬ SetupSucceeds env call ∨ AllSucceed env call ∧ (FitsInt call ∨ authentic)) := by
  intro r authentic
  by_cases hsetup : SetupSucceeds env call
  swap
  · obtain ⟨hval, e, he, hfail⟩ := exec_of_setup_fails hbuf hsetup
    refine iff_of_true (iff_of_false ?_ ?_) (Or.inl hsetup)
    · rw [show r.val = false from hval]
      exact Bool.false_ne_true
    · rintro ⟨hall, -⟩
      rw [hall e he] at hfail
      cases hfail
  · obtain ⟨hval, freed, hlog⟩ := exec_of_setup hbuf hsetup
    have hcode : 0 ≤ verifyAnswer env call := by
      unfold verifyAnswer
      rcases hssl.codes (Prog.answers env (.ctxNew :: setupCalls call)) (verifyCall call)
        (by simp [verifyCall]) (by simp [verifyCall]) with h | h
      · rw [h]
      · rw [h]
        decide
    have htrue : r.val = true := hval.trans (decide_eq_true hcode)
    have hall : (∀ e ∈ r.log, e.1.succeeds e.2 = true) ↔ AllSucceed env call := by
      rw [show r.log = _ from hlog, AllSucceed, Prog.accepts_iff_answers]
      constructor
      · exact fun h e he => h e (List.mem_append_left _ he)
      · intro h e he
        rcases List.mem_append.mp he with he | he
        · exact h e he
        · rw [List.mem_singleton.mp he]
          rfl
    rw [hall]
    constructor
    · intro h
      obtain ⟨hlast, hauth⟩ := h.mp htrue
      exact Or.inr ⟨hlast, Or.inr hauth⟩
    · rintro (h | ⟨hlast, hfits | hauth⟩)
      · exact absurd hsetup h
      · exact iff_of_true htrue ⟨hlast, authentic_of_allSucceed hssl hfits hlast⟩
      · exact iff_of_true htrue ⟨hlast, hauth⟩

/-- A switch telegram with an empty output buffer. -/
def sampleCall : DecryptCall where
  key := List.replicate 16 0
  nonce := List.replicate 13 0
  aad := [2, 0, 0, 0, 0x03]
  ciphertext := []
  tag := #v[0xDE, 0xAD, 0xBE, 0xEF]
  plaintextSize := 0

theorem posix_accepts_iff_authentic :
    (Prog.exec (openSsl fun _ _ _ _ _ => true) (aesCcmDecryptImpl sampleCall)).val = true :=
  ((posix_accepts_iff _ _ (openSsl_contract fun _ _ _ _ _ => true) sampleCall (by decide)).mpr
    (Or.inr ⟨by decide +kernel, Or.inl ⟨by decide, by decide⟩⟩)).mpr ⟨by decide +kernel, rfl⟩

/-- With an OpenSSL that rejects every tag the backend accepts a telegram. -/
theorem not_posix_accepts_forged :
    ¬ ∀ (verify : CcmFunction) (env : Env EvpCall), OpenSslContract verify env →
      ∀ call : DecryptCall, call.ciphertext.length ≤ call.plaintextSize →
        ((Prog.exec env (aesCcmDecryptImpl call)).val = true ↔
          (∀ e ∈ (Prog.exec env (aesCcmDecryptImpl call)).log, e.1.succeeds e.2 = true) ∧
            verify call.key call.nonce call.aad call.ciphertext call.tag.toList = true) := by
  intro h
  have hforged := (h _ _ (openSsl_contract fun _ _ _ _ _ => false) sampleCall (by decide)).mp
    (by decide +kernel)
  exact Bool.false_ne_true hforged.2

end EnoceanCore.Crypto.Posix
