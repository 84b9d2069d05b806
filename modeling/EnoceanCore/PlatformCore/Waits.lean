import EnoceanCore.PlatformCore.Kernel

/-!
# Waits and their fates

A wait is granted, expires, goes on or is refused (`Fate`), which the answer of the kernel
tells. `Reports` says how a use reports it.

An object is used side by side on both platforms (`pairStep`) while its waits have the same
fate on both (`SameOrder`). `runAlike_iff` carries what holds of one such use over to runs.
-/

namespace EnoceanCore.PlatformCore

open Lib

/-! ## Fates -/

/-- What becomes of a wait: it is granted, it expires, it goes on, or the call is refused for
another reason. -/
inductive Fate where
  | granted
  | expired
  | waiting
  | refused
  deriving DecidableEq, Repr

/-- The fate of a call from its answer. -/
def Fate.of {α : Type} (granted expired : α → Bool) : Option α → Fate
  | none => waiting
  | some a => if granted a then .granted else if expired a then .expired else refused

/-- The fate of a POSIX call that answers an error number. -/
def Fate.ofErrno : Option Int → Fate := Fate.of (· == 0) (· == ETIMEDOUT)

/-- The fate of a POSIX call that sets `errno`. -/
def Fate.ofAnswer (granted : Int → Bool) : Option Answer → Fate :=
  Fate.of (fun a => granted a.result) (·.errno == ETIMEDOUT)

/-- The fate of a Zephyr call. -/
def Fate.ofResult : Option Int → Fate := Fate.of (· == 0) (· == -Zephyr.EAGAIN)

/-- What comes of a use: a result, or none while the thread waits. -/
inductive WaitOutcome (ρ : Type) where
  | returned (result : ρ)
  | waits
  | terminated
  deriving DecidableEq, Repr

/-- The outcome of a wait by its fate. -/
structure Reports {ρ : Type} (outcome : WaitOutcome ρ) (fate : Fate) (ok expired : ρ) : Prop where
  granted : fate = .granted → outcome = .returned ok
  expired : fate = .expired → outcome = .returned expired
  waiting : fate = .waiting → outcome = .waits

/-- Two outcomes of one fate are alike, and a timeout if the wait expired. -/
def Alike {ρ : Type} (fate : Fate) (timeout : ρ) (o p : WaitOutcome ρ) : Prop :=
  o = p ∧ (fate = .expired → o = .returned timeout)

/-- Two platforms that report a grant alike report the wait alike unless it expires and the
second one does not call that a timeout. -/
theorem Reports.alike_iff {ρ : Type} {o p : WaitOutcome ρ} {fate : Fate} {ok timeout other : ρ}
    (ho : Reports o fate ok timeout) (hp : Reports p fate ok other) (hfate : fate ≠ .refused) :
    Alike fate timeout o p ↔ (fate = .expired → other = timeout) := by
  cases fate with
  | granted =>
    rw [ho.granted rfl, hp.granted rfl]
    exact iff_of_true ⟨rfl, nofun⟩ nofun
  | expired =>
    rw [ho.expired rfl, hp.expired rfl]
    constructor
    · rintro ⟨heq, -⟩ -
      cases heq
      rfl
    · intro h
      rw [h rfl]
      exact ⟨rfl, fun _ => rfl⟩
  | waiting =>
    rw [ho.waiting rfl, hp.waiting rfl]
    exact iff_of_true ⟨rfl, nofun⟩ nofun
  | refused => exact absurd rfl hfate

theorem Fate.of_some_eq_granted {α : Type} {granted expired : α → Bool} (a : α) :
    Fate.of granted expired (some a) = .granted ↔ granted a = true := by
  rw [Fate.of]
  split
  · exact iff_of_true rfl ‹_›
  · split
    · exact iff_of_false nofun ‹_›
    · exact iff_of_false nofun ‹_›

/-- The value of a grant does not matter for a wait that is not granted. -/
theorem Reports.of_not_granted {ρ : Type} {o : WaitOutcome ρ} {fate : Fate} {ok ok' late : ρ}
    (h : Reports o fate ok late) (hfate : fate ≠ .granted) : Reports o fate ok' late :=
  ⟨fun hgranted => absurd hgranted hfate, h.expired, h.waiting⟩

/-- A use that waits leaves the object as it is while its thread waits. -/
def waited {ω ρ : Type} (o : ω) : Option (ρ × ω) → WaitOutcome ρ × ω
  | none => (.waits, o)
  | some (result, o') => (.returned result, o')

/-- A use that releases something and returns, unless the program is terminated. -/
def released {ω ρ : Type} (ok : ρ) (o : ω) : Option ω → WaitOutcome ρ × ω
  | none => (.terminated, o)
  | some o' => (.returned ok, o')

section Call

variable {ω α β ρ : Type} {o : ω} {call : Option β} {answer : β → α} {result : β → ρ}
  {next : β → ω} {granted expired : α → Bool}

/-- A wait that makes one call and translates what it answers. -/
theorem reports_of_call {ok late : ρ}
    (hok : ∀ b, call = some b → granted (answer b) = true → result b = ok)
    (hlate : ∀ b, granted (answer b) = false → expired (answer b) = true → result b = late) :
    Reports (waited o (call.map fun b => (result b, next b))).1
      (Fate.of granted expired (call.map answer)) ok late := by
  cases call with
  | none => exact ⟨nofun, nofun, fun _ => rfl⟩
  | some b =>
    show Reports (.returned (result b)) (if granted (answer b) then .granted
      else if expired (answer b) then .expired else .refused) ok late
    cases hgranted : granted (answer b) with
    | true =>
      rw [if_pos rfl]
      exact ⟨fun _ => congrArg _ (hok b rfl hgranted), nofun, nofun⟩
    | false =>
      rw [if_neg Bool.false_ne_true]
      cases hexpired : expired (answer b) with
      | true =>
        rw [if_pos rfl]
        exact ⟨nofun, fun _ => congrArg _ (hlate b hgranted hexpired), nofun⟩
      | false =>
        rw [if_neg Bool.false_ne_true]
        exact ⟨nofun, nofun, nofun⟩

/-- What holds of the object after a wait, by its fate. -/
theorem waited_state (P : Fate → ω → Prop) (hwait : P .waiting o)
    (hcall : ∀ b, call = some b → P (Fate.of granted expired (some (answer b))) (next b)) :
    P (Fate.of granted expired (call.map answer))
      (waited o (call.map fun b => (result b, next b))).2 := by
  cases call with
  | none => exact hwait
  | some b => exact hcall b rfl

end Call

/-! ## One object on both platforms -/

/-- An object of a platform: what comes of a use and the fate of its wait. -/
structure Platform (ω ι ρ : Type) where
  use : ω → ι → WaitOutcome ρ × ω
  fate : ω → ι → Fate

section Pair

variable {ω ω' ι ρ : Type}

/-- A step records the outcome on each platform. -/
def pairStep (posix : Platform ω ι ρ) (zephyr : Platform ω' ι ρ) (s : ω × ω') (op : ι) :
    Traced (WaitOutcome ρ × WaitOutcome ρ) (ω × ω') :=
  ⟨((posix.use s.1 op).2, (zephyr.use s.2 op).2),
    [((posix.use s.1 op).1, (zephyr.use s.2 op).1)]⟩

/-- The wait has the same fate on both platforms; it is granted, expires or goes on. -/
def SameOrder (posix : Platform ω ι ρ) (zephyr : Platform ω' ι ρ)
    (t : Transition (ω × ω') ι (WaitOutcome ρ × WaitOutcome ρ)) : Prop :=
  posix.fate t.before.1 t.input = zephyr.fate t.before.2 t.input ∧
    posix.fate t.before.1 t.input ≠ .refused

/-- The use is reported alike, and an expired wait as a timeout. -/
def ReportedAlike (posix : Platform ω ι ρ) (timeout : ρ)
    (t : Transition (ω × ω') ι (WaitOutcome ρ × WaitOutcome ρ)) : Prop :=
  ∀ o ∈ t.outcome.log, Alike (posix.fate t.before.1 t.input) timeout o.1 o.2

theorem reportedAlike_pairStep (posix : Platform ω ι ρ) (zephyr : Platform ω' ι ρ) (timeout : ρ)
    (s : ω × ω') (op : ι) :
    ReportedAlike posix timeout ⟨s, op, pairStep posix zephyr s op⟩ ↔
      Alike (posix.fate s.1 op) timeout (posix.use s.1 op).1 (zephyr.use s.2 op).1 := by
  constructor
  · exact fun h => h _ List.mem_cons_self
  · intro h o ho
    rcases List.mem_singleton.mp ho with rfl
    exact h

/-- The waits of a run have the same order of grants and expiries on both platforms. -/
def RunInOrder (posix : Platform ω ι ρ) (zephyr : Platform ω' ι ρ) (s : ω × ω') (ops : List ι) :
    Prop :=
  ∀ t ∈ history (pairStep posix zephyr) s ops, SameOrder posix zephyr t

/-- Every use of a run is reported alike. -/
def RunAlike (posix : Platform ω ι ρ) (zephyr : Platform ω' ι ρ) (timeout : ρ) (s : ω × ω')
    (ops : List ι) : Prop :=
  ∀ t ∈ history (pairStep posix zephyr) s ops, ReportedAlike posix timeout t

/-- A condition holds of every use of a run. -/
def RunMeets (posix : Platform ω ι ρ) (zephyr : Platform ω' ι ρ) (P : ω × ω' → ι → Prop)
    (s : ω × ω') (ops : List ι) : Prop :=
  ∀ t ∈ history (pairStep posix zephyr) s ops, P t.before t.input

instance (posix : Platform ω ι ρ) (zephyr : Platform ω' ι ρ) (s : ω × ω') (ops : List ι) :
    Decidable (RunInOrder posix zephyr s ops) :=
  inferInstanceAs (Decidable (∀ t ∈ _, _ ∧ _))

instance (posix : Platform ω ι ρ) (zephyr : Platform ω' ι ρ) (P : ω × ω' → ι → Prop)
    [∀ s op, Decidable (P s op)] (s : ω × ω') (ops : List ι) :
    Decidable (RunMeets posix zephyr P s ops) :=
  inferInstanceAs (Decidable (∀ t ∈ _, P _ _))

/-- **Runs.** If under an invariant the uses that are reported alike are those that do not
differ, this holds of every run with the same order of grants and expiries. -/
theorem runAlike_iff {posix : Platform ω ι ρ} {zephyr : Platform ω' ι ρ} {timeout : ρ}
    {I : ω × ω' → Prop} {differs : ω × ω' → ι → Prop}
    (hstep : ∀ s op, I s → SameOrder posix zephyr ⟨s, op, pairStep posix zephyr s op⟩ →
      I (pairStep posix zephyr s op).val ∧
        (Alike (posix.fate s.1 op) timeout (posix.use s.1 op).1 (zephyr.use s.2 op).1 ↔
          ¬ differs s op))
    {s : ω × ω'} (hs : I s) (ops : List ι) (horder : RunInOrder posix zephyr s ops) :
    RunAlike posix zephyr timeout s ops ↔
      RunMeets posix zephyr (fun s op => ¬ differs s op) s ops := by
  have hiff := history_forall_of_step (I := I) (P := SameOrder posix zephyr)
    (Q := fun t => ReportedAlike posix timeout t ↔ ¬ differs t.before t.input)
    (fun s op h hsame => ⟨(hstep s op h hsame).1,
      (reportedAlike_pairStep posix zephyr timeout s op).trans (hstep s op h hsame).2⟩)
    hs ops horder
  constructor
  · exact fun h t ht => (hiff t ht).mp (h t ht)
  · exact fun h t ht => (hiff t ht).mpr (h t ht)

end Pair

section Guarded

variable {σ τ α ρ : Type}

/-- A wait on an initialised object. -/
theorem guarded_reports {o : Guarded σ} (ho : o.initialized = true) (call : Option (α × σ))
    {result : α → ρ} {granted expired : α → Bool} {ok late : ρ}
    (hok : ∀ a, granted a = true → result a = ok)
    (hlate : ∀ a, granted a = false → expired a = true → result a = late) :
    let after := waited o (call.map fun a => (result a.1, { o with object := a.2 }))
    after.2.initialized = true ∧
      Reports after.1 (Fate.of granted expired (call.map Prod.fst)) ok late :=
  ⟨@waited_state _ _ (α × σ) _ _ _ Prod.fst _ _ granted expired
    (fun _ (o' : Guarded σ) => o'.initialized = true) ho fun _ _ => ho,
    reports_of_call (fun a _ => hok a.1) fun a => hlate a.1⟩

/-- Both objects are initialised. -/
def BothInitialized {σ τ : Type} (s : Guarded σ × Guarded τ) : Prop :=
  s.1.initialized = true ∧ s.2.initialized = true

/-- A release of two initialised objects, which the first one may refuse, is reported alike
unless it does. -/
theorem guarded_release {s : Guarded σ × Guarded τ} (hs : BothInitialized s) (ok timeout : ρ)
    {doRelease : Guarded σ → Option (Guarded σ)} {zephyrRelease : Guarded τ → Option (Guarded τ)}
    {refused : Prop} [Decidable refused] {object : σ} {zephyrObject : τ}
    (hposix : doRelease s.1 = if refused then none else some { s.1 with object := object })
    (hzephyr : zephyrRelease s.2 = some { s.2 with object := zephyrObject }) :
    let after := released ok s.1 (Guarded.release doRelease s.1)
    let zephyrAfter := released ok s.2 (Guarded.release zephyrRelease s.2)
    BothInitialized (after.2, zephyrAfter.2) ∧
      (Alike .granted timeout after.1 zephyrAfter.1 ↔ ¬ refused) := by
  intro after zephyrAfter
  have hzafter : zephyrAfter = (.returned ok, { s.2 with object := zephyrObject }) := by
    show released ok s.2 (Guarded.release zephyrRelease s.2) = _
    rw [Guarded.release_of_initialized hs.2, hzephyr]
    rfl
  by_cases hrefused : refused
  · have hafter : after = (.terminated, s.1) := by
      show released ok s.1 (Guarded.release doRelease s.1) = _
      rw [Guarded.release_of_initialized hs.1, hposix, if_pos hrefused]
      rfl
    rw [hafter, hzafter]
    refine ⟨hs, iff_of_false ?_ fun h => h hrefused⟩
    intro halike
    rcases halike with ⟨heq, -⟩
    cases heq
  · have hafter : after = (.returned ok, { s.1 with object := object }) := by
      show released ok s.1 (Guarded.release doRelease s.1) = _
      rw [Guarded.release_of_initialized hs.1, hposix, if_neg hrefused]
      rfl
    rw [hafter, hzafter]
    refine ⟨hs, iff_of_true ⟨rfl, ?_⟩ hrefused⟩
    intro hlate
    cases hlate

end Guarded

end EnoceanCore.PlatformCore
