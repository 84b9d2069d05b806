import EnoceanCore.Lib.Traced
import Mathlib.Order.Basic

/-!
# Runs of a machine

A machine is a step function `step : σ → ι → Traced ε σ`: from a state and an input it
computes the next state and records actions. `run` feeds a list of inputs, `history`
keeps every transition of the run.

The induction over a run is done here once: `run_invariant` for a property of states,
`run_log_invariant` for a property of the state and the actions so far,
`run_relation` for a relation between the first and the last state, `history_forall` for a
property of transitions, `history_forall_iff_of_good` for a property that the first bad
transition ends, `run_budget` for actions that are paid for out of the state,
`history_increasing` for a counter that the selected transitions push forward, `run_purge`
for two runs of which one skips the inputs that do not matter to an observer, and
`run_log_eq_iff`, `run_refines` and `history_forall_iff` for an abstract machine that follows
the run.
-/

namespace Lib

variable {σ ι ε δ : Type}

/-- The state after a list of inputs, with everything done on the way. -/
def run (step : σ → ι → Traced ε σ) (s : σ) : List ι → Traced ε σ
  | [] => pure s
  | i :: is => do
      let s' ← step s i
      run step s' is

/-- One step of a run. -/
structure Transition (σ ι ε : Type) where
  before : σ
  input : ι
  outcome : Traced ε σ

/-- The transitions of a run, in order. -/
def history (step : σ → ι → Traced ε σ) (s : σ) : List ι → List (Transition σ ι ε)
  | [] => []
  | i :: is => ⟨s, i, step s i⟩ :: history step (step s i).val is

variable {step : σ → ι → Traced ε σ}

@[simp] theorem run_nil (s : σ) : run step s [] = pure s := rfl

@[simp] theorem run_cons (s : σ) (i : ι) (is : List ι) :
    run step s (i :: is) = step s i >>= fun s' => run step s' is := rfl

@[simp] theorem history_nil (s : σ) : history step s [] = [] := rfl

@[simp] theorem history_cons (s : σ) (i : ι) (is : List ι) :
    history step s (i :: is) = ⟨s, i, step s i⟩ :: history step (step s i).val is := rfl

theorem run_append (s : σ) (is js : List ι) :
    run step s (is ++ js) = run step s is >>= fun s' => run step s' js := by
  induction is generalizing s with
  | nil => rw [List.nil_append, run_nil, Traced.pure_bind]
  | cons i is ih =>
    rw [List.cons_append, run_cons, run_cons, Traced.bind_assoc]
    simp only [ih]

theorem run_val_concat (s : σ) (is : List ι) (i : ι) :
    (run step s (is ++ [i])).val = (step (run step s is).val i).val := by
  simp [run_append]

theorem history_append (s : σ) (is js : List ι) :
    history step s (is ++ js) = history step s is ++ history step (run step s is).val js := by
  induction is generalizing s with
  | nil => rfl
  | cons i is ih => rw [List.cons_append, history_cons, ih, history_cons, List.cons_append,
      run_cons, Traced.val_bind]

theorem history_concat (s : σ) (is : List ι) (i : ι) :
    history step s (is ++ [i]) =
      history step s is ++ [⟨(run step s is).val, i, step (run step s is).val i⟩] :=
  history_append s is [i]

/-- An invariant of every step is an invariant of every run. -/
theorem run_invariant {I : σ → Prop} (hstep : ∀ s i, I s → I (step s i).val) {s : σ} (hs : I s)
    (is : List ι) : I (run step s is).val := by
  induction is generalizing s with
  | nil => exact hs
  | cons i is ih => exact ih (hstep s i hs)

/-- An invariant that relates the actions so far and the state. -/
theorem run_log_invariant {I : List ε → σ → Prop}
    (hstep : ∀ done s i, I done s → I (done ++ (step s i).log) (step s i).val) {done : List ε}
    {s : σ} (hs : I done s) (is : List ι) :
    I (done ++ (run step s is).log) (run step s is).val := by
  induction is generalizing done s with
  | nil =>
    rw [run_nil, Traced.log_pure, List.append_nil]
    exact hs
  | cons i is ih =>
    rw [run_cons, Traced.log_bind, ← List.append_assoc]
    exact ih (hstep done s i hs)

/-- A reflexive and transitive relation kept by the steps on inputs satisfying `P` relates
the two ends of every run over such inputs. The invariant `I` is available at each step. -/
theorem run_relation {I : σ → Prop} {P : ι → Prop} {R : σ → σ → Prop} (hrefl : ∀ s, R s s)
    (htrans : ∀ {a b c}, R a b → R b c → R a c) (hI : ∀ s i, I s → I (step s i).val)
    (hstep : ∀ s i, I s → P i → R s (step s i).val) {s : σ} (hs : I s) (is : List ι)
    (hP : ∀ i ∈ is, P i) : R s (run step s is).val := by
  induction is generalizing s with
  | nil => exact hrefl s
  | cons i is ih =>
    have hfirst := hstep s i hs (hP i List.mem_cons_self)
    exact htrans hfirst (ih (hI s i hs) fun j hj => hP j (List.mem_cons_of_mem i hj))

/-- Every transition of a run starts in a state satisfying an invariant of the steps. -/
theorem history_forall {I : σ → Prop} (hstep : ∀ s i, I s → I (step s i).val) {s : σ} (hs : I s)
    (is : List ι) :
    ∀ t ∈ history step s is, I t.before ∧ t.input ∈ is ∧ t.outcome = step t.before t.input := by
  induction is generalizing s with
  | nil => simp
  | cons i is ih =>
    intro t ht
    rcases List.mem_cons.mp ht with rfl | ht
    · exact ⟨hs, List.mem_cons_self, rfl⟩
    · obtain ⟨hb, hi, ho⟩ := ih (hstep s i hs) t ht
      exact ⟨hb, List.mem_cons_of_mem i hi, ho⟩

/-- What every step does from a state with the invariant holds of every transition of a run
whose transitions all satisfy `P`. -/
theorem history_forall_of_step {I : σ → Prop} {P Q : Transition σ ι ε → Prop}
    (hstep : ∀ s i, I s → P ⟨s, i, step s i⟩ → I (step s i).val ∧ Q ⟨s, i, step s i⟩)
    {s : σ} (hs : I s) (is : List ι) (hP : ∀ t ∈ history step s is, P t) :
    ∀ t ∈ history step s is, Q t := by
  induction is generalizing s with
  | nil => simp
  | cons i is ih =>
    obtain ⟨hfirst, hrest⟩ := List.forall_mem_cons.mp hP
    obtain ⟨hI, hQ⟩ := hstep s i hs hfirst
    exact List.forall_mem_cons.mpr ⟨hQ, ih hI hrest⟩

/-! ## Good transitions -/

section Good

variable {I : σ → Prop} {good allowed : Transition σ ι ε → Prop}

/-- An invariant that the good transitions keep holds after a run of good transitions. -/
theorem run_invariant_of_good (hkeep : ∀ s i, I s → good ⟨s, i, step s i⟩ → I (step s i).val)
    {s : σ} (hs : I s) (is : List ι) (hgood : ∀ t ∈ history step s is, good t) :
    I (run step s is).val := by
  induction is generalizing s with
  | nil => exact hs
  | cons i is ih =>
    obtain ⟨hfirst, hrest⟩ := List.forall_mem_cons.mp hgood
    exact ih (hkeep s i hs hfirst) hrest

/-- `run_invariant_of_good` for a relation between the actions so far and the state. -/
theorem run_log_invariant_of_good {I : List ε → σ → Prop}
    (hkeep : ∀ done s i, I done s → good ⟨s, i, step s i⟩ →
      I (done ++ (step s i).log) (step s i).val)
    {done : List ε} {s : σ} (hs : I done s) (is : List ι)
    (hgood : ∀ t ∈ history step s is, good t) :
    I (done ++ (run step s is).log) (run step s is).val := by
  induction is generalizing done s with
  | nil =>
    rw [run_nil, Traced.log_pure, List.append_nil]
    exact hs
  | cons i is ih =>
    obtain ⟨hfirst, hrest⟩ := List.forall_mem_cons.mp hgood
    rw [run_cons, Traced.log_bind, ← List.append_assoc]
    exact ih (hkeep done s i hs hfirst) hrest

/-- **First failures.** If under an invariant that good transitions keep a transition is good
exactly when it is allowed, then a run has good transitions only if and only if it has
allowed transitions only. -/
theorem history_forall_iff_of_good
    (hiff : ∀ s i, I s → (good ⟨s, i, step s i⟩ ↔ allowed ⟨s, i, step s i⟩))
    (hkeep : ∀ s i, I s → good ⟨s, i, step s i⟩ → I (step s i).val) {s : σ} (hs : I s)
    (is : List ι) :
    (∀ t ∈ history step s is, good t) ↔ ∀ t ∈ history step s is, allowed t := by
  induction is generalizing s with
  | nil => simp
  | cons i is ih =>
    rw [history_cons, List.forall_mem_cons, List.forall_mem_cons, ← hiff s i hs]
    constructor
    · intro h
      rcases h with ⟨hfirst, hrest⟩
      exact ⟨hfirst, (ih (hkeep s i hs hfirst)).mp hrest⟩
    · intro h
      rcases h with ⟨hfirst, hrest⟩
      exact ⟨hfirst, (ih (hkeep s i hs hfirst)).mpr hrest⟩

end Good

/-- **Budgets.** If every step on an input satisfying `P` pays for the selected actions it
records out of `budget`, then so does every run over such inputs. -/
theorem run_budget {I : σ → Prop} {P : ι → Prop} (selected : ε → Bool) (budget : σ → Nat)
    (hI : ∀ s i, I s → P i → I (step s i).val)
    (hstep : ∀ s i, I s → P i →
      (step s i).log.countP selected + budget (step s i).val ≤ budget s)
    {s : σ} (hs : I s) (is : List ι) (hP : ∀ i ∈ is, P i) :
    (run step s is).log.countP selected + budget (run step s is).val ≤ budget s := by
  induction is generalizing s with
  | nil => simp
  | cons i is ih =>
    have hPi := hP i List.mem_cons_self
    have hfirst := hstep s i hs hPi
    have hrest := ih (hI s i hs hPi) fun j hj => hP j (List.mem_cons_of_mem i hj)
    rw [run_cons, Traced.log_bind, Traced.val_bind, List.countP_append]
    omega

/-- **Counters.** If no transition decreases `measure`, and a selected one moves it from below
its `value` to its `value` or more, then the values of the selected transitions of a run are
strictly increasing and above the measure at the start. -/
theorem history_increasing {β : Type} [Preorder β] {I : σ → Prop}
    {P : Transition σ ι ε → Prop} (selected : Transition σ ι ε → Bool) (measure : σ → β)
    (value : Transition σ ι ε → β) (hI : ∀ s i, I s → I (step s i).val)
    (hmono : ∀ s i, I s → P ⟨s, i, step s i⟩ → measure s ≤ measure (step s i).val)
    (hsel : ∀ s i, I s → P ⟨s, i, step s i⟩ → selected ⟨s, i, step s i⟩ = true →
      measure s < value ⟨s, i, step s i⟩ ∧ value ⟨s, i, step s i⟩ ≤ measure (step s i).val)
    {s : σ} (hs : I s) (is : List ι) (hP : ∀ t ∈ history step s is, P t) :
    ((history step s is).filter selected).Pairwise (fun t u => value t < value u) ∧
      ∀ t ∈ (history step s is).filter selected, measure s < value t := by
  induction is generalizing s with
  | nil => exact ⟨List.Pairwise.nil, fun t ht => by cases ht⟩
  | cons i is ih =>
    have hhere := hP _ List.mem_cons_self
    obtain ⟨hpair, habove⟩ := ih (hI s i hs) fun t ht => hP t (List.mem_cons_of_mem _ ht)
    cases hone : selected ⟨s, i, step s i⟩ with
    | false =>
      rw [history_cons, List.filter_cons_of_neg (by simp [hone])]
      exact ⟨hpair, fun t ht => lt_of_le_of_lt (hmono s i hs hhere) (habove t ht)⟩
    | true =>
      obtain ⟨hlt, hle⟩ := hsel s i hs hhere hone
      rw [history_cons, List.filter_cons_of_pos hone]
      refine ⟨List.Pairwise.cons (fun t ht => lt_of_le_of_lt hle (habove t ht)) hpair, ?_⟩
      intro t ht
      rcases List.mem_cons.mp ht with rfl | ht
      · exact hlt
      · exact lt_of_le_of_lt (hmono s i hs hhere) (habove t ht)

/-- **Purging.** If the inputs that are not `relevant` keep the relation `R` on one side
and record nothing visible, and the relevant ones keep it on both sides and record the
same, then a run and the run over its relevant inputs end related and look the same. -/
theorem run_purge {R : σ → σ → Prop} {P : ι → Prop} (relevant : ι → Bool)
    (visible : ε → Option δ)
    (hskip : ∀ s t i, R s t → P i → relevant i = false →
      R (step s i).val t ∧ (step s i).proj visible = [])
    (hkeep : ∀ s t i, R s t → P i → relevant i = true →
      R (step s i).val (step t i).val ∧ (step s i).proj visible = (step t i).proj visible)
    {s t : σ} (hst : R s t) (is : List ι) (hP : ∀ i ∈ is, P i) :
    R (run step s is).val (run step t (is.filter relevant)).val ∧
      (run step s is).proj visible = (run step t (is.filter relevant)).proj visible := by
  induction is generalizing s t with
  | nil => exact ⟨hst, rfl⟩
  | cons i is ih =>
    have hPi := hP i List.mem_cons_self
    have hPs : ∀ j ∈ is, P j := fun j hj => hP j (List.mem_cons_of_mem i hj)
    cases hr : relevant i with
    | false =>
      obtain ⟨hR, hnone⟩ := hskip s t i hst hPi hr
      obtain ⟨hend, hsame⟩ := ih hR hPs
      rw [List.filter_cons_of_neg (by simp [hr])]
      exact ⟨hend, by rw [run_cons, Traced.proj_bind, hnone, List.nil_append, hsame]⟩
    | true =>
      obtain ⟨hR, hboth⟩ := hkeep s t i hst hPi hr
      obtain ⟨hend, hsame⟩ := ih hR hPs
      rw [List.filter_cons_of_pos (by simp [hr])]
      exact ⟨hend, by simp only [run_cons, Traced.proj_bind, hboth, hsame]⟩

/-! ## An abstract machine that follows a run -/

variable {α β : Type}

/-- **Equal records.** If two machines stay related and each step of both records as many
actions, then they record the same in a run if and only if they do so in each of its steps. -/
theorem run_log_eq_iff {R : α → σ → Prop} {astep : α → ι → Traced ε α}
    {allowed : Transition α ι ε → Prop}
    (hR : ∀ a s i, R a s → R (astep a i).val (step s i).val)
    (hlength : ∀ a s i, R a s → (step s i).log.length = (astep a i).log.length)
    (hlog : ∀ a s i, R a s →
      ((step s i).log = (astep a i).log ↔ allowed ⟨a, i, astep a i⟩))
    {a : α} {s : σ} (h : R a s) (is : List ι) :
    (run step s is).log = (run astep a is).log ↔ ∀ t ∈ history astep a is, allowed t := by
  induction is generalizing a s with
  | nil => simp
  | cons i is ih =>
    rw [run_cons, run_cons, Traced.log_bind, Traced.log_bind, history_cons,
      List.forall_mem_cons, ← hlog a s i h, ← ih (hR a s i h)]
    constructor
    · intro heq
      exact List.append_inj heq (hlength a s i h)
    · intro h
      rcases h with ⟨hfirst, hrest⟩
      rw [hfirst, hrest]

/-- **Refinement.** If every step of the abstract machine is what is visible of the same step of
the other, and they stay related, then so it is for every run. -/
theorem run_refines {R : α → σ → Prop} {astep : α → ι → Traced δ α} (visible : ε → Option δ)
    (hstep : ∀ a s i, R a s →
      R (astep a i).val (step s i).val ∧ (step s i).proj visible = (astep a i).log)
    {a : α} {s : σ} (h : R a s) (is : List ι) :
    R (run astep a is).val (run step s is).val ∧
      (run step s is).proj visible = (run astep a is).log := by
  induction is generalizing a s with
  | nil => exact ⟨h, rfl⟩
  | cons i is ih =>
    obtain ⟨hR, hlog⟩ := hstep a s i h
    obtain ⟨hend, hsame⟩ := ih hR
    refine ⟨hend, ?_⟩
    rw [run_cons, Traced.proj_bind, hlog, hsame, run_cons, Traced.log_bind]

/-- Each input of a list is allowed by the state of the abstract machine in which it comes. -/
def Allowed (next : α → β → α) (allows : α → β → Prop) (a : α) : List β → Prop
  | [] => True
  | b :: bs => allows a b ∧ Allowed next allows (next a b) bs

/-- **Simulation.** If the abstract machine follows every step through the inputs it sees, and
a transition is good exactly when it allows the input, then a run has good transitions only
if and only if it allows the inputs of the run. -/
theorem history_forall_iff {R : α → σ → Prop} {P : ι → Prop} {good : Transition σ ι ε → Prop}
    {next : α → β → α} {allows : α → β → Prop} (seen : ι → Option β)
    (hsilent : ∀ a s i, R a s → P i → seen i = none →
      R a (step s i).val ∧ good ⟨s, i, step s i⟩)
    (hseen : ∀ a s i b, R a s → P i → seen i = some b →
      R (next a b) (step s i).val ∧ (good ⟨s, i, step s i⟩ ↔ allows a b))
    {a : α} {s : σ} (h : R a s) (is : List ι) (hP : ∀ i ∈ is, P i) :
    (∀ t ∈ history step s is, good t) ↔ Allowed next allows a (is.filterMap seen) := by
  induction is generalizing a s with
  | nil => simp [Allowed]
  | cons i is ih =>
    have hPi := hP i List.mem_cons_self
    have hPs : ∀ j ∈ is, P j := fun j hj => hP j (List.mem_cons_of_mem i hj)
    rw [history_cons, List.forall_mem_cons]
    cases hs : seen i with
    | none =>
      obtain ⟨hR, hgood⟩ := hsilent a s i h hPi hs
      rw [List.filterMap_cons_none hs, ih hR hPs, and_iff_right hgood]
    | some b =>
      obtain ⟨hR, hgood⟩ := hseen a s i b h hPi hs
      rw [List.filterMap_cons_some hs, ih hR hPs, hgood, Allowed]

/-! ## Inputs that come again -/

/-- The second list is the first one without some inputs that came again: between an input and
its repetition there are only inputs that are `quiet` for it. -/
inductive Echoed (quiet : ι → ι → Prop) : List ι → List ι → Prop
  | refl (is : List ι) : Echoed quiet is is
  | drop {before between after rest : List ι} {i : ι} (hquiet : ∀ j ∈ between, quiet i j)
      (h : Echoed quiet (before ++ i :: (between ++ after)) rest) :
      Echoed quiet (before ++ i :: (between ++ i :: after)) rest

section Echoes

variable {quiet : ι → ι → Prop} {settled : ι → σ → Prop}

/-- What the steps on inputs satisfying `P` keep is kept over every run over such inputs. -/
theorem run_invariant_on {I : σ → Prop} {P : ι → Prop}
    (hstep : ∀ s i, P i → I s → I (step s i).val) {s : σ} (hs : I s) (is : List ι)
    (hP : ∀ i ∈ is, P i) : I (run step s is).val := by
  induction is generalizing s with
  | nil => exact hs
  | cons i is ih =>
    obtain ⟨hi, his⟩ := List.forall_mem_cons.mp hP
    exact ih (hstep s i hi hs) his

/-- **Echoes.** If an input is settled right after its step and stays settled over the steps that
are quiet for it, and a settled input does nothing, then the inputs that came again can be left
out of a run. -/
theorem run_echoed (hsettles : ∀ s i, settled i (step s i).val)
    (hstays : ∀ s i j, quiet i j → settled i s → settled i (step s j).val)
    (hnothing : ∀ s i, settled i s → step s i = pure s)
    (s : σ) {is rest : List ι} (h : Echoed quiet is rest) : run step s is = run step s rest := by
  induction h with
  | refl => rfl
  | @drop before between after rest i hquiet _ ih =>
    have hafter : ∀ t, settled i t → run step t (between ++ i :: after) =
        run step t (between ++ after) := by
      intro t ht
      have hkept : settled i (run step t between).val :=
        run_invariant_on (fun s j hj hs => hstays s i j hj hs) ht between hquiet
      rw [run_append, run_append]
      apply Traced.bind_congr_val
      rw [run_cons, hnothing _ i hkept, Traced.pure_bind]
    rw [← ih, run_append, run_append]
    apply Traced.bind_congr_val
    rw [run_cons, run_cons]
    apply Traced.bind_congr_val
    exact hafter _ (hsettles _ i)

end Echoes

end Lib
