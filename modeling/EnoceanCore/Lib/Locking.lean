import EnoceanCore.Lib.Run
import Mathlib.Logic.Function.Basic

/-!
# Critical sections

Threads share a lock and a memory. A thread runs a section: it looks whether the lock is ready,
takes it, makes the steps of the section one by one on its local value and the memory, looks again
and gives the lock back. Threads may also work on the lock itself (`Upkeep`), to set it up for
example. Between any two steps of a thread the others may move (`run (step …)` of a list of
`Move`s).

If the lock excludes (`ExclusiveLock`), the upkeep is not noticed by the threads at the lock
(`Task.Keeps`) and no two threads are at it together, then the interleaving cannot be seen
(`run_orderly`): the memory shows what the sections make of it one after the other, in the order
in which they took the lock, and while a thread is inside its section, what a first part of that
section makes of it. If two threads are at it together, two threads can get inside
(`exists_two_inside`).
-/

namespace Lib

variable {σ α β ι ℓ μ ν : Type}

/-! ## Tasks -/

/-- What a thread does on a state of type `σ`, one step at a time. How it goes on depends on the
state before the step. -/
inductive Task (σ α : Type) where
  | done (result : α)
  | step (f : σ → σ) (next : σ → Task σ α)

namespace Task

/-- Make one call on the state. -/
def call (f : σ → β × σ) : Task σ β := step (fun s => (f s).2) fun s => done (f s).1

protected def bind : Task σ α → (α → Task σ β) → Task σ β
  | done a, g => g a
  | step f next, g => step f fun s => (next s).bind g

instance : Monad (Task σ) where
  pure := done
  bind := Task.bind

/-- The whole task without interruption. -/
def run : Task σ α → σ → α × σ
  | done a, s => (a, s)
  | step f next, s => (next s).run (f s)

@[simp] theorem run_pure (a : α) (s : σ) : run (pure a : Task σ α) s = (a, s) := rfl

@[simp] theorem run_call (f : σ → β × σ) (s : σ) : run (call f) s = f s := rfl

@[simp] theorem run_bind (k : Task σ α) (g : α → Task σ β) (s : σ) :
    run (k >>= g) s = run (g (k.run s).1) (k.run s).2 := by
  induction k generalizing s with
  | done a => rfl
  | step f next ih => exact ih s (f s)

@[simp] theorem run_ite (c : Prop) [Decidable c] (k k' : Task σ α) (s : σ) :
    run (if c then k else k') s = if c then run k s else run k' s := by
  split <;> rfl

/-- The task makes some steps and then goes on as `k'`. -/
inductive Reaches : Task σ α → σ → Task σ α → σ → Prop where
  | here (k : Task σ α) (s : σ) : Reaches k s k s
  | step {f : σ → σ} {next : σ → Task σ α} {s s' : σ} {k' : Task σ α}
      (h : Reaches (next s) (f s) k' s') : Reaches (step f next) s k' s'

theorem reaches_done (k : Task σ α) (s : σ) : Reaches k s (done (k.run s).1) (k.run s).2 := by
  induction k generalizing s with
  | done a => exact .here _ s
  | step f next ih => exact .step (ih s (f s))

theorem Reaches.run_eq {k k' : Task σ α} {s s' : σ} (h : Reaches k s k' s') :
    k.run s = k'.run s' := by
  induction h with
  | here k s => rfl
  | step _ ih => exact ih

end Task

/-! ## Locks -/

/-- A lock of type `σ`; a thread calls `lock` and `unlock` only if it has found it ready. With
`none` a thread goes on waiting, with `false` it has given up; with `none` for `unlock` the program
is terminated. `Free` and `Held` say what other threads meet. -/
structure ExclusiveLock (σ : Type) where
  ready : σ → Bool
  lock : σ → (thread : Nat) → Option (Bool × σ)
  unlock : σ → (thread : Nat) → Option σ
  Free : σ → Prop
  Held : σ → (thread : Nat) → Prop
  held_of_taken : ∀ {l t l'}, Free l → ready l = true → lock l t = some (true, l') → Held l' t
  free_of_refused : ∀ {l t l'}, Free l → ready l = true → lock l t = some (false, l') → Free l'
  held_by_other : ∀ {l t u b l'}, Held l u → t ≠ u → lock l t = some (b, l') →
    b = false ∧ Held l' u
  ready_of_lock : ∀ {l t b l'}, ready l = true → lock l t = some (b, l') → ready l' = true
  ready_of_held : ∀ {l t}, Held l t → ready l = true
  released : ∀ {l t}, Held l t → ∃ l', unlock l t = some l' ∧ Free l' ∧ ready l' = true

namespace ExclusiveLock

variable (L : ExclusiveLock σ)

/-- What threads that lock and unlock do to the lock: nothing while it is not ready. -/
def Meanwhile (l l' : σ) : Prop := l' = l ∨ L.ready l = true ∧ L.ready l' = true

/-- A change of the lock that the threads at it do not notice. -/
structure Unnoticed (l l' : σ) : Prop where
  free : L.Free l → L.Free l'
  held : ∀ t, L.Held l t → L.Held l' t
  ready : L.ready l = true → L.ready l' = true

variable {L}

theorem Meanwhile.trans {a b c : σ} (hab : L.Meanwhile a b) (hbc : L.Meanwhile b c) :
    L.Meanwhile a c := by
  rcases hab with rfl | ⟨ha, hb⟩
  · exact hbc
  · rcases hbc with rfl | ⟨-, hc⟩
    · exact Or.inr ⟨ha, hb⟩
    · exact Or.inr ⟨ha, hc⟩

theorem Meanwhile.ready {l l' : σ} (h : L.Meanwhile l l') (hready : L.ready l = true) :
    L.ready l' = true := by
  rcases h with rfl | ⟨-, hready'⟩
  · exact hready
  · exact hready'

theorem unnoticed_refl (l : σ) : L.Unnoticed l l := ⟨id, fun _ => id, id⟩

end ExclusiveLock

/-- Whatever threads that lock and unlock do in between, no step is noticed by them, and at the
end `Q` holds. -/
def Task.Keeps (L : ExclusiveLock σ) : Task σ α → (α → σ → Prop) → σ → Prop
  | done a, Q, l => ∀ l', L.Meanwhile l l' → Q a l'
  | step f next, Q, l => ∀ l', L.Meanwhile l l' →
      L.Unnoticed l' (f l') ∧ Keeps L (next l') Q (f l')

namespace Task

variable {L : ExclusiveLock σ} {Q : α → σ → Prop} {l l' : σ}

theorem Keeps.wait {k : Task σ α} (h : k.Keeps L Q l) (hl : L.Meanwhile l l') :
    k.Keeps L Q l' := by
  cases k with
  | done a => exact fun _ hlater => h _ (hl.trans hlater)
  | step f next => exact fun _ hlater => h _ (hl.trans hlater)

theorem Keeps.bind {k : Task σ α} {g : α → Task σ β} {Q' : β → σ → Prop} (h : k.Keeps L Q l)
    (hg : ∀ a l, Q a l → (g a).Keeps L Q' l) : (k >>= g).Keeps L Q' l := by
  induction k generalizing l with
  | done a => exact hg a l (h l (Or.inl rfl))
  | step f next ih => exact fun l' hl => ⟨(h l' hl).1, ih l' (h l' hl).2⟩

end Task

/-! ## Threads -/

/-- The sections threads may run: each starts with a local value and makes some steps. -/
structure Sections (ι ℓ μ : Type) where
  start : ℓ
  body : ι → List (ℓ × μ → ℓ × μ)

/-- A task on the lock, and a last step on the memory, by the result of the task. -/
structure Upkeep (σ α μ : Type) where
  task : Task σ α
  after : α → μ → μ

/-- What a thread is doing. -/
inductive Doing (σ α ι ℓ μ : Type) where
  | idle
  /-- It has found the lock ready. -/
  | waiting (i : ι)
  | inside (value : ℓ) (rest : List (ℓ × μ → ℓ × μ))
  /-- It has found the lock ready after its section. -/
  | leaving
  | upkeep (rest : Task σ α)

namespace Doing

/-- It has the lock. -/
def holds : Doing σ α ι ℓ μ → Bool
  | inside _ _ => true
  | leaving => true
  | _ => false

/-- It still has to do with the lock in its upkeep. -/
def tends : Doing σ α ι ℓ μ → Bool
  | upkeep (.step _ _) => true
  | _ => false

end Doing

structure Threads (σ α ι ℓ μ : Type) where
  lock : σ
  memory : μ
  doing : Nat → Doing σ α ι ℓ μ := fun _ => .idle
  terminated : Bool := false

/-- An idle thread looks whether it can enter a section, an idle thread starts the upkeep, or a
thread makes its next step. -/
inductive Move (ι : Type) where
  | enter (thread : Nat) (i : ι)
  | start (thread : Nat)
  | advance (thread : Nat)
  deriving DecidableEq, Repr

namespace Threads

section Step

variable (L : ExclusiveLock σ) (S : Sections ι ℓ μ) (U : Upkeep σ α μ)

def turn (s : Threads σ α ι ℓ μ) (t : Nat) (doing : Doing σ α ι ℓ μ) : Threads σ α ι ℓ μ :=
  { s with doing := Function.update s.doing t doing }

def take (s : Threads σ α ι ℓ μ) (t : Nat) (i : ι) : Traced (Nat × ι) (Threads σ α ι ℓ μ) :=
  match L.lock s.lock t with
  | none => pure s
  | some (false, l) => pure ({ s with lock := l }.turn t .idle)
  | some (true, l) => do
      Traced.emit (t, i)
      return { s with lock := l }.turn t (.inside S.start (S.body i))

def leave (s : Threads σ α ι ℓ μ) (t : Nat) : Threads σ α ι ℓ μ :=
  match L.unlock s.lock t with
  | none => { s with terminated := true }
  | some l => { s with lock := l }.turn t .idle

def advance (s : Threads σ α ι ℓ μ) (t : Nat) : Traced (Nat × ι) (Threads σ α ι ℓ μ) :=
  match s.doing t with
  | .idle => pure s
  | .waiting i => s.take L S t i
  | .inside _ [] => pure (s.turn t (if L.ready s.lock then .leaving else .idle))
  | .inside value (f :: rest) =>
      let (value, memory) := f (value, s.memory)
      pure ({ s with memory := memory }.turn t (.inside value rest))
  | .leaving => pure (s.leave L t)
  | .upkeep (.done a) => pure ({ s with memory := U.after a s.memory }.turn t .idle)
  | .upkeep (.step f next) => pure ({ s with lock := f s.lock }.turn t (.upkeep (next s.lock)))

/-- The sections that are entered are recorded. -/
def step (s : Threads σ α ι ℓ μ) (move : Move ι) : Traced (Nat × ι) (Threads σ α ι ℓ μ) :=
  if s.terminated then pure s
  else
    match move with
    | .enter t i =>
        match s.doing t with
        | .idle => pure (if L.ready s.lock then s.turn t (.waiting i) else s)
        | _ => pure s
    | .start t =>
        match s.doing t with
        | .idle => pure (s.turn t (.upkeep U.task))
        | _ => pure s
    | .advance t => s.advance L S U t

end Step

@[simp] theorem turn_lock (s : Threads σ α ι ℓ μ) (t : Nat) (d : Doing σ α ι ℓ μ) :
    (s.turn t d).lock = s.lock := rfl

@[simp] theorem turn_memory (s : Threads σ α ι ℓ μ) (t : Nat) (d : Doing σ α ι ℓ μ) :
    (s.turn t d).memory = s.memory := rfl

@[simp] theorem turn_terminated (s : Threads σ α ι ℓ μ) (t : Nat) (d : Doing σ α ι ℓ μ) :
    (s.turn t d).terminated = s.terminated := rfl

@[simp] theorem turn_doing_self (s : Threads σ α ι ℓ μ) (t : Nat) (d : Doing σ α ι ℓ μ) :
    (s.turn t d).doing t = d := Function.update_self _ _ _

theorem turn_doing_of_ne (s : Threads σ α ι ℓ μ) {t u : Nat} (h : u ≠ t) (d : Doing σ α ι ℓ μ) :
    (s.turn t d).doing u = s.doing u := Function.update_of_ne h _ _

end Threads

/-! ## One after the other -/

namespace Sections

/-- Steps made without interruption. -/
def finish (steps : List (ℓ × μ → ℓ × μ)) (p : ℓ × μ) : ℓ × μ := steps.foldl (fun p f => f p) p

theorem finish_concat (steps : List (ℓ × μ → ℓ × μ)) (f : ℓ × μ → ℓ × μ) (p : ℓ × μ) :
    finish (steps ++ [f]) p = f (finish steps p) := by
  rw [finish, List.foldl_append]
  rfl

variable (S : Sections ι ℓ μ)

/-- A whole section. -/
def whole (i : ι) (m : μ) : μ := (finish (S.body i) (S.start, m)).2

/-- Whole sections one after the other. -/
def serial (m : μ) (entered : List (Nat × ι)) : μ := entered.foldl (fun m e => S.whole e.2 m) m

theorem serial_concat (m : μ) (entered : List (Nat × ι)) (e : Nat × ι) :
    S.serial m (entered ++ [e]) = S.whole e.2 (S.serial m entered) := by
  rw [serial, List.foldl_append]
  rfl

/-- On memories related by `R` the steps yield the same local value and related memories. -/
def Matches (R : μ → ν → Prop) (f : ℓ × μ → ℓ × μ) (g : ℓ × ν → ℓ × ν) : Prop :=
  ∀ v m n, R m n → (f (v, m)).1 = (g (v, n)).1 ∧ R (f (v, m)).2 (g (v, n)).2

/-- The sections do step by step what the sections `A` do on a memory that shows less. -/
structure Follow (A : Sections ι ℓ ν) (R : μ → ν → Prop) : Prop where
  start : S.start = A.start
  body : ∀ i, List.Forall₂ (Matches R) (S.body i) (A.body i)

end Sections

/-! ## Every interleaving -/

open Sections ExclusiveLock

/-- Between two sections, inside the one entered last, where only a first part of it has been
made, or just behind it. -/
inductive Serial (L : ExclusiveLock σ) (A : Sections ι ℓ ν) (R : μ → ν → Prop) (n : ν) :
    List (Nat × ι) → Threads σ α ι ℓ μ → Prop where
  | between {entered : List (Nat × ι)} {s : Threads σ α ι ℓ μ} (free : L.Free s.lock)
      (outside : ∀ t, (s.doing t).holds = false) (memory : R s.memory (A.serial n entered)) :
      Serial L A R n entered s
  | inside {before : List (Nat × ι)} {s : Threads σ α ι ℓ μ} {t : Nat} {i : ι} {value : ℓ}
      {now : List (ℓ × μ → ℓ × μ)} {made rest : List (ℓ × ν → ℓ × ν)} (held : L.Held s.lock t)
      (outside : ∀ u, u ≠ t → (s.doing u).holds = false) (here : s.doing t = .inside value now)
      (same : List.Forall₂ (Matches R) now rest) (body : A.body i = made ++ rest)
      (value_eq : value = (finish made (A.start, A.serial n before)).1)
      (memory : R s.memory (finish made (A.start, A.serial n before)).2) :
      Serial L A R n (before ++ [(t, i)]) s
  | leaving {entered : List (Nat × ι)} {s : Threads σ α ι ℓ μ} {t : Nat} (held : L.Held s.lock t)
      (outside : ∀ u, u ≠ t → (s.doing u).holds = false) (here : s.doing t = .leaving)
      (memory : R s.memory (A.serial n entered)) : Serial L A R n entered s

/-- The threads that wait have found the lock ready, and at most one is at the upkeep. -/
structure Tended (L : ExclusiveLock σ) (s : Threads σ α ι ℓ μ) : Prop where
  ready : ∀ t i, s.doing t = .waiting i → L.ready s.lock = true
  kept : ∀ t k, s.doing t = .upkeep k → k.Keeps L (fun _ _ => True) s.lock
  one : ∀ t u, (s.doing t).tends = true → (s.doing u).tends = true → t = u

/-- What holds at any time. -/
structure Orderly (L : ExclusiveLock σ) (A : Sections ι ℓ ν) (R : μ → ν → Prop) (n : ν)
    (entered : List (Nat × ι)) (s : Threads σ α ι ℓ μ) : Prop where
  running : s.terminated = false
  serial : Serial L A R n entered s
  tended : Tended L s

namespace Serial

variable {L : ExclusiveLock σ} {A : Sections ι ℓ ν} {R : μ → ν → Prop} {n : ν}
  {entered : List (Nat × ι)} {s : Threads σ α ι ℓ μ}

/-- Where all others are outside, a thread that has the lock is the owner. -/
theorem eq_owner {t owner : Nat} (outside : ∀ u, u ≠ owner → (s.doing u).holds = false)
    (ht : (s.doing t).holds = true) : t = owner := by
  by_contra hne
  rw [outside t hne] at ht
  cases ht

/-- A thread that has the lock holds it. -/
theorem held (h : Serial L A R n entered s) {t : Nat} (ht : (s.doing t).holds = true) :
    L.Held s.lock t := by
  cases h with
  | between _ outside =>
    rw [outside t] at ht
    cases ht
  | inside held outside =>
    rw [eq_owner outside ht]
    exact held
  | leaving held outside =>
    rw [eq_owner outside ht]
    exact held

/-- At most one thread has the lock. -/
theorem alone (h : Serial L A R n entered s) {t u : Nat} (ht : (s.doing t).holds = true)
    (hu : (s.doing u).holds = true) : t = u := by
  cases h with
  | between _ outside =>
    rw [outside t] at ht
    cases ht
  | inside _ outside => rw [eq_owner outside ht, eq_owner outside hu]
  | leaving _ outside => rw [eq_owner outside ht, eq_owner outside hu]

/-- All sections are whole, or a thread has the lock and the last section is made in part. -/
theorem parts (h : Serial L A R n entered s) : R s.memory (A.serial n entered) ∨
    (∃ t, (s.doing t).holds = true) ∧ ∃ before t i made rest, entered = before ++ [(t, i)] ∧
      A.body i = made ++ rest ∧ R s.memory (finish made (A.start, A.serial n before)).2 := by
  cases h with
  | between _ _ memory => exact Or.inl memory
  | inside _ _ here _ body _ memory =>
    exact Or.inr ⟨⟨_, by rw [here]; rfl⟩, _, _, _, _, _, rfl, body, memory⟩
  | leaving _ _ _ memory => exact Or.inl memory

/-- The lock and the thread `t` change, where `t` has not the lock before or after. -/
theorem frame (h : Serial L A R n entered s) {t : Nat} (ht : (s.doing t).holds = false)
    {l : σ} (hfree : L.Free s.lock → L.Free l) (hheld : ∀ u, u ≠ t → L.Held s.lock u → L.Held l u)
    {m : μ} (hm : ∀ n, R s.memory n → R m n) {d : Doing σ α ι ℓ μ} (hd : d.holds = false) :
    Serial L A R n entered ({ s with lock := l, memory := m }.turn t d) := by
  have hothers : ∀ u, (s.doing u).holds = false →
      ((Threads.turn { s with lock := l, memory := m } t d).doing u).holds = false := by
    intro u hu
    by_cases hut : u = t
    · rw [hut, Threads.turn_doing_self]
      exact hd
    · rw [Threads.turn_doing_of_ne _ hut]
      exact hu
  have hne : ∀ {owner : Nat}, (s.doing owner).holds = true → owner ≠ t := by
    rintro owner howner rfl
    rw [ht] at howner
    cases howner
  cases h with
  | between free outside memory =>
    exact between (hfree free) (fun u => hothers u (outside u)) (hm _ memory)
  | @inside _ _ owner _ _ _ _ _ held outside here same body value_eq memory =>
    have howner : owner ≠ t := hne (by rw [here]; rfl)
    exact inside (hheld owner howner held) (fun u hu => hothers u (outside u hu))
      ((Threads.turn_doing_of_ne _ howner _).trans here) same body value_eq (hm _ memory)
  | @leaving _ _ owner held outside here memory =>
    have howner : owner ≠ t := hne (by rw [here]; rfl)
    exact leaving (hheld owner howner held) (fun u hu => hothers u (outside u hu))
      ((Threads.turn_doing_of_ne _ howner _).trans here) (hm _ memory)

end Serial

namespace Tended

variable {L : ExclusiveLock σ} {s : Threads σ α ι ℓ μ}

/-- The lock changes as by locking and unlocking, and the thread `t` goes on. -/
theorem frame (h : Tended L s) {l : σ} (hl : L.Meanwhile s.lock l) (m : μ) {t : Nat}
    {d : Doing σ α ι ℓ μ} (hready : ∀ i, d = .waiting i → L.ready l = true)
    (hkept : ∀ k, d ≠ .upkeep k) : Tended L ({ s with lock := l, memory := m }.turn t d) := by
  have hcases : ∀ u e, (Threads.turn { s with lock := l, memory := m } t d).doing u = e →
      e = d ∨ s.doing u = e := by
    intro u e he
    by_cases hut : u = t
    · rw [hut, Threads.turn_doing_self] at he
      exact Or.inl he.symm
    · rw [Threads.turn_doing_of_ne _ hut] at he
      exact Or.inr he
  have htends : ∀ u, ((Threads.turn { s with lock := l, memory := m } t d).doing u).tends = true →
      (s.doing u).tends = true := by
    intro u hu
    rcases hcases u _ rfl with heq | heq
    · rw [heq] at hu
      cases d with
      | upkeep k => exact absurd rfl (hkept k)
      | _ => cases hu
    · rw [heq]
      exact hu
  refine ⟨fun u i hu => ?_, fun u k hu => ?_, fun u v hu hv => ?_⟩
  · rcases hcases u _ hu with heq | heq
    · exact hready i heq.symm
    · exact hl.ready (h.ready u i heq)
  · rcases hcases u _ hu with heq | heq
    · exact absurd heq.symm (hkept k)
    · exact (h.kept u k heq).wait hl
  · exact h.one u v (htends u hu) (htends v hv)

/-- The one thread at the upkeep goes on with it. -/
theorem upkeep (h : Tended L s) {l : σ} (hready : L.ready s.lock = true → L.ready l = true)
    {t : Nat} (hone : ∀ u, (s.doing u).tends = true → u = t) {k : Task σ α}
    (hk : k.Keeps L (fun _ _ => True) l) : Tended L ({ s with lock := l }.turn t (.upkeep k)) := by
  refine ⟨fun u i hu => ?_, fun u k' hu => ?_, fun u v hu hv => ?_⟩
  · by_cases hut : u = t
    · rw [hut, Threads.turn_doing_self] at hu
      cases hu
    · rw [Threads.turn_doing_of_ne _ hut] at hu
      exact hready (h.ready u i hu)
  · by_cases hut : u = t
    · rw [hut, Threads.turn_doing_self] at hu
      cases hu
      exact hk
    · rw [Threads.turn_doing_of_ne _ hut] at hu
      have hnot : (s.doing u).tends = false := by
        by_contra hu'
        exact hut (hone u (by simpa using hu'))
      have hu : s.doing u = .upkeep k' := hu
      cases k' with
      | done a => exact fun _ _ => trivial
      | step f next =>
        rw [hu] at hnot
        cases hnot
  · have hself : ∀ w, ((Threads.turn { s with lock := l } t (.upkeep k)).doing w).tends = true →
        w = t := by
      intro w hw
      by_contra hwt
      rw [Threads.turn_doing_of_ne _ hwt] at hw
      exact hwt (hone w hw)
    rw [hself u hu, hself v hv]

end Tended

namespace Orderly

variable {L : ExclusiveLock σ} {S : Sections ι ℓ μ} {U : Upkeep σ α μ} {A : Sections ι ℓ ν}
  {R : μ → ν → Prop} {n : ν} {entered : List (Nat × ι)} {s : Threads σ α ι ℓ μ}

/-- A thread that waits tries to take the lock. -/
theorem take (h : Orderly L A R n entered s) (hS : S.Follow A R) {t : Nat} {i : ι}
    (ht : s.doing t = .waiting i) :
    Orderly L A R n (entered ++ (s.take L S t i).log) (s.take L S t i).val := by
  have hready := h.tended.ready t i ht
  have hout : (s.doing t).holds = false := by rw [ht]; rfl
  unfold Threads.take
  cases hlock : L.lock s.lock t with
  | none =>
    rw [Traced.log_pure, List.append_nil]
    exact h
  | some answer =>
    obtain ⟨taken, l⟩ := answer
    have hready' := L.ready_of_lock hready hlock
    have hmeanwhile : L.Meanwhile s.lock l := Or.inr ⟨hready, hready'⟩
    cases taken with
    | false =>
      rw [Traced.log_pure, List.append_nil]
      refine ⟨h.running, ?_, h.tended.frame hmeanwhile s.memory (by simp) (by simp)⟩
      exact h.serial.frame hout (fun hfree => L.free_of_refused hfree hready hlock)
        (fun u hu hheld => (L.held_by_other hheld hu.symm hlock).2) (fun _ => id) rfl
    | true =>
      show Orderly L A R n (entered ++ [(t, i)])
        ({ s with lock := l }.turn t (.inside S.start (S.body i)))
      refine ⟨h.running, ?_, h.tended.frame hmeanwhile s.memory (by simp) (by simp)⟩
      have hserial := h.serial
      cases hserial with
      | between free outside memory =>
        have hbody : A.body i = [] ++ A.body i := rfl
        refine .inside (L.held_of_taken free hready hlock) (fun u hu => ?_)
          (Threads.turn_doing_self _ _ _) (hS.body i) hbody hS.start memory
        rw [Threads.turn_doing_of_ne _ hu]
        exact outside u
      | @inside _ _ owner _ _ _ _ _ held outside here =>
        have hne : t ≠ owner := by
          rintro rfl
          rw [ht] at here
          cases here
        cases (L.held_by_other held hne hlock).1
      | @leaving _ _ owner held outside here =>
        have hne : t ≠ owner := by
          rintro rfl
          rw [ht] at here
          cases here
        cases (L.held_by_other held hne hlock).1

/-- A thread inside makes the next step of its section. -/
theorem work (h : Orderly L A R n entered s) {t : Nat} {value : ℓ} {f : ℓ × μ → ℓ × μ}
    {rest : List (ℓ × μ → ℓ × μ)} (ht : s.doing t = .inside value (f :: rest)) :
    Orderly L A R n entered ({ s with memory := (f (value, s.memory)).2 }.turn t
      (.inside (f (value, s.memory)).1 rest)) := by
  have hholds : (s.doing t).holds = true := by rw [ht]; rfl
  refine ⟨h.running, ?_, h.tended.frame (Or.inl rfl) _ (by simp) (by simp)⟩
  have hserial := h.serial
  cases hserial with
  | between _ outside =>
    rw [outside t] at hholds
    cases hholds
  | @leaving _ _ owner _ outside here =>
    by_cases hne : t = owner
    · rw [← hne, ht] at here
      cases here
    · rw [outside t hne] at hholds
      cases hholds
  | @inside before _ owner i v now made rest' held outside here same body value_eq memory =>
    by_cases hne : t = owner
    · subst hne
      rw [ht] at here
      cases here
      cases same with
      | @cons _ g _ later hstep hlater =>
        obtain ⟨hvalue, hmemory⟩ := hstep value s.memory _ memory
        have hdone : finish (made ++ [g]) (A.start, A.serial n before) =
            g (value, (finish made (A.start, A.serial n before)).2) := by
          rw [finish_concat, value_eq]
        have hbody : A.body i = (made ++ [g]) ++ later := by
          rw [body, List.append_assoc]
          rfl
        refine .inside held (fun u hu => ?_) (Threads.turn_doing_self _ _ _) hlater hbody ?_ ?_
        · rw [Threads.turn_doing_of_ne _ hu]
          exact outside u hu
        · rw [hdone]
          exact hvalue
        · rw [hdone]
          exact hmemory
    · rw [outside t hne] at hholds
      cases hholds

/-- A thread at the end of its section finds the lock ready. -/
theorem finished (h : Orderly L A R n entered s) {t : Nat} {value : ℓ}
    (ht : s.doing t = .inside value []) : Orderly L A R n entered
      (s.turn t (if L.ready s.lock = true then .leaving else .idle)) := by
  have hholds : (s.doing t).holds = true := by rw [ht]; rfl
  rw [if_pos (L.ready_of_held (h.serial.held hholds))]
  refine ⟨h.running, ?_, h.tended.frame (Or.inl rfl) _ (by simp) (by simp)⟩
  have hserial := h.serial
  cases hserial with
  | between _ outside =>
    rw [outside t] at hholds
    cases hholds
  | @leaving _ _ owner _ outside here =>
    by_cases hne : t = owner
    · rw [← hne, ht] at here
      cases here
    · rw [outside t hne] at hholds
      cases hholds
  | @inside before _ owner i v now made rest held outside here same body value_eq memory =>
    by_cases hne : t = owner
    · subst hne
      rw [ht] at here
      cases here
      cases same
      refine .leaving held (fun u hu => ?_) (Threads.turn_doing_self _ _ _) ?_
      · rw [Threads.turn_doing_of_ne _ hu]
        exact outside u hu
      · rw [List.append_nil] at body
        rw [serial_concat, whole, body]
        exact memory
    · rw [outside t hne] at hholds
      cases hholds

/-- A thread behind its section gives the lock back. -/
theorem leave (h : Orderly L A R n entered s) {t : Nat} (ht : s.doing t = .leaving) :
    Orderly L A R n entered (s.leave L t) := by
  have hholds : (s.doing t).holds = true := by rw [ht]; rfl
  have hheld := h.serial.held hholds
  obtain ⟨l, hunlock, hfree, hready⟩ := L.released hheld
  have hmeanwhile : L.Meanwhile s.lock l := Or.inr ⟨L.ready_of_held hheld, hready⟩
  unfold Threads.leave
  rw [hunlock]
  refine ⟨h.running, ?_, h.tended.frame hmeanwhile s.memory (by simp) (by simp)⟩
  have houtside : ∀ u, u ≠ t → (s.doing u).holds = false := by
    intro u hu
    by_contra hother
    exact hu (h.serial.alone (by simpa using hother) hholds)
  have hmemory : R s.memory (A.serial n entered) := by
    have hserial := h.serial
    cases hserial with
    | between _ outside =>
      rw [outside t] at hholds
      cases hholds
    | leaving _ _ _ memory => exact memory
    | @inside _ _ owner _ _ _ _ _ _ outside here =>
      by_cases hne : t = owner
      · rw [← hne, ht] at here
        cases here
      · rw [outside t hne] at hholds
        cases hholds
  refine .between hfree (fun u => ?_) hmemory
  by_cases hut : u = t
  · rw [hut, Threads.turn_doing_self]
    rfl
  · rw [Threads.turn_doing_of_ne _ hut]
    exact houtside u hut

/-- The upkeep goes on. -/
theorem tend (h : Orderly L A R n entered s) {t : Nat} {f : σ → σ} {next : σ → Task σ α}
    (ht : s.doing t = .upkeep (.step f next)) : Orderly L A R n entered
      ({ s with lock := f s.lock }.turn t (.upkeep (next s.lock))) := by
  have htends : (s.doing t).tends = true := by rw [ht]; rfl
  have hout : (s.doing t).holds = false := by rw [ht]; rfl
  obtain ⟨hunnoticed, hkeeps⟩ := h.tended.kept t _ ht s.lock (Or.inl rfl)
  refine ⟨h.running, ?_, h.tended.upkeep hunnoticed.ready (fun u hu => h.tended.one u t hu htends)
    hkeeps⟩
  exact h.serial.frame hout hunnoticed.free (fun u _ => hunnoticed.held u) (fun _ => id) rfl

theorem advance (h : Orderly L A R n entered s) (hS : S.Follow A R)
    (hafter : ∀ a m n, R m n → R (U.after a m) n) (t : Nat) :
    Orderly L A R n (entered ++ (s.advance L S U t).log) (s.advance L S U t).val := by
  unfold Threads.advance
  split
  · rw [Traced.log_pure, List.append_nil]
    exact h
  · exact h.take hS ‹_›
  · rw [Traced.log_pure, List.append_nil]
    exact h.finished ‹_›
  · rw [Traced.log_pure, List.append_nil]
    exact h.work ‹_›
  · rw [Traced.log_pure, List.append_nil]
    exact h.leave ‹_›
  · rename_i a ht
    rw [Traced.log_pure, List.append_nil]
    have hout : (s.doing t).holds = false := by rw [ht]; rfl
    refine ⟨h.running, ?_, h.tended.frame (Or.inl rfl) _ (by simp) (by simp)⟩
    exact h.serial.frame hout id (fun _ _ => id) (fun n => hafter a _ n) rfl
  · rw [Traced.log_pure, List.append_nil]
    exact h.tend ‹_›

theorem step (h : Orderly L A R n entered s) (hS : S.Follow A R)
    (hafter : ∀ a m n, R m n → R (U.after a m) n)
    (hU : ∀ l, U.task.Keeps L (fun _ _ => True) l) {move : Move ι}
    (hone : ∀ t, move = .start t → s.doing t = .idle → ∀ u, (s.doing u).tends = false) :
    Orderly L A R n (entered ++ (Threads.step L S U s move).log)
      (Threads.step L S U s move).val := by
  unfold Threads.step
  rw [if_neg (by simp [h.running])]
  cases move with
  | enter t i =>
    dsimp only
    split
    · rw [Traced.log_pure, List.append_nil, Traced.val_pure]
      have hout : (s.doing t).holds = false := by rw [‹s.doing t = .idle›]; rfl
      split
      · refine ⟨h.running, ?_, h.tended.frame (Or.inl rfl) s.memory (fun _ _ => ‹_›) (by simp)⟩
        exact h.serial.frame hout id (fun _ _ => id) (fun _ => id) rfl
      · exact h
    · rw [Traced.log_pure, List.append_nil]
      exact h
  | start t =>
    dsimp only
    split
    · rw [Traced.log_pure, List.append_nil, Traced.val_pure]
      have hout : (s.doing t).holds = false := by rw [‹s.doing t = .idle›]; rfl
      have hnone : ∀ u, (s.doing u).tends = true → u = t := by
        intro u hu
        rw [hone t rfl ‹_› u] at hu
        cases hu
      exact ⟨h.running, h.serial.frame hout id (fun _ _ => id) (fun _ => id) rfl,
        h.tended.upkeep id hnone (hU s.lock)⟩
    · rw [Traced.log_pure, List.append_nil]
      exact h
  | advance t => exact h.advance hS hafter t

end Orderly

/-- An idle thread starts the upkeep only when no other is at the lock for it. -/
def Apart (L : ExclusiveLock σ) (S : Sections ι ℓ μ) (U : Upkeep σ α μ) (s : Threads σ α ι ℓ μ)
    (moves : List (Move ι)) : Prop :=
  ∀ tr ∈ history (Threads.step L S U) s moves, ∀ t, tr.input = .start t →
    tr.before.doing t = .idle → ∀ u, (tr.before.doing u).tends = false

/-- The upkeep is done once. -/
theorem apart_of_one_start {L : ExclusiveLock σ} {S : Sections ι ℓ μ} {U : Upkeep σ α μ}
    {s : Threads σ α ι ℓ μ} (hs : ∀ u, (s.doing u).tends = false) (t : Nat)
    {moves : List (Move ι)} (hmoves : ∀ u, Move.start u ∉ moves) :
    Apart L S U s (.start t :: moves) := by
  intro tr htr u hinput _
  rw [history_cons] at htr
  rcases List.mem_cons.mp htr with rfl | htr
  · exact hs
  · have hmem := (history_forall (I := fun _ => True) (fun _ _ _ => trivial) trivial moves tr
      htr).2.1
    rw [hinput] at hmem
    exact absurd hmem (hmoves u)

/-- **Serialisation.** Whatever the schedule, if the threads do the upkeep one at a time the
sections take place one after the other. -/
theorem run_orderly (L : ExclusiveLock σ) {S : Sections ι ℓ μ} {U : Upkeep σ α μ}
    {A : Sections ι ℓ ν} {R : μ → ν → Prop} (hS : S.Follow A R)
    (hafter : ∀ a m n, R m n → R (U.after a m) n)
    (hU : ∀ l, U.task.Keeps L (fun _ _ => True) l) {l : σ} (hfree : L.Free l) {m : μ} {n : ν}
    (hm : R m n) {moves : List (Move ι)} (hapart : Apart L S U { lock := l, memory := m } moves) :
    Orderly L A R n (run (Threads.step L S U) { lock := l, memory := m } moves).log
      (run (Threads.step L S U) { lock := l, memory := m } moves).val := by
  have hstart : Orderly L A R n [] ({ lock := l, memory := m } : Threads σ α ι ℓ μ) := by
    refine ⟨rfl, .between hfree (fun _ => rfl) hm, fun _ _ h => ?_, fun _ _ h => ?_,
      fun _ _ h => ?_⟩ <;> cases h
  exact run_log_invariant_of_good (I := fun entered s => Orderly L A R n entered s)
    (fun _ _ _ h hgood => h.step hS hafter hU hgood) hstart moves hapart

/-! ## Some threads alone -/

section Alone

variable {L : ExclusiveLock σ} {S : Sections ι ℓ μ} {U : Upkeep σ α μ}

/-- Some moves of the thread `t` lead to a state with this lock and memory, where `t` is doing
this. -/
structure Leads (L : ExclusiveLock σ) (S : Sections ι ℓ μ) (U : Upkeep σ α μ)
    (s : Threads σ α ι ℓ μ) (t : Nat) (l : σ) (m : μ) (d : Doing σ α ι ℓ μ)
    (s' : Threads σ α ι ℓ μ) : Prop where
  moves : ∃ moves, (run (Threads.step L S U) s moves).val = s'
  running : s'.terminated = false
  lock : s'.lock = l
  memory : s'.memory = m
  doing : s'.doing t = d
  others : ∀ u, u ≠ t → s'.doing u = s.doing u

theorem leads_move {s : Threads σ α ι ℓ μ} {t : Nat} {move : Move ι} {l : σ} {m : μ}
    {d : Doing σ α ι ℓ μ} (hrunning : s.terminated = false)
    (h : (Threads.step L S U s move).val = { s with lock := l, memory := m }.turn t d) :
    Leads L S U s t l m d ({ s with lock := l, memory := m }.turn t d) :=
  ⟨⟨[move], h⟩, hrunning, rfl, rfl, Threads.turn_doing_self _ _ _, fun _ hu =>
    Threads.turn_doing_of_ne _ hu _⟩

theorem Leads.trans {s s' s'' : Threads σ α ι ℓ μ} {t : Nat} {l l' : σ} {m m' : μ}
    {d d' : Doing σ α ι ℓ μ} (h : Leads L S U s t l m d s') (h' : Leads L S U s' t l' m' d' s'') :
    Leads L S U s t l' m' d' s'' := by
  obtain ⟨moves, hmoves⟩ := h.moves
  obtain ⟨moves', hmoves'⟩ := h'.moves
  refine ⟨⟨moves ++ moves', ?_⟩, h'.running, h'.lock, h'.memory, h'.doing, fun u hu => ?_⟩
  · rw [run_append, Traced.val_bind, hmoves, hmoves']
  · rw [h'.others u hu, h.others u hu]

theorem leads_start {s : Threads σ α ι ℓ μ} (hrunning : s.terminated = false) {t : Nat}
    (ht : s.doing t = .idle) : ∃ s', Leads L S U s t s.lock s.memory (.upkeep U.task) s' := by
  have hmove : (Threads.step L S U s (.start t)).val =
      { s with lock := s.lock, memory := s.memory }.turn t (.upkeep U.task) := by
    rw [Threads.step, if_neg (by simp [hrunning]), ht]
    rfl
  exact ⟨_, leads_move hrunning hmove⟩

theorem leads_reaches {k k' : Task σ α} {l l' : σ} (hk : k.Reaches l k' l')
    {s : Threads σ α ι ℓ μ} (hrunning : s.terminated = false) {t : Nat} (hl : s.lock = l)
    (ht : s.doing t = .upkeep k) : ∃ s', Leads L S U s t l' s.memory (.upkeep k') s' := by
  induction hk generalizing s with
  | here k l => exact ⟨s, ⟨[], rfl⟩, hrunning, hl, rfl, ht, fun _ _ => rfl⟩
  | @step f next l l' k' _ ih =>
    have hmove : (Threads.step L S U s (.advance t)).val =
        { s with lock := f l, memory := s.memory }.turn t (.upkeep (next l)) := by
      rw [Threads.step, if_neg (by simp [hrunning]), Threads.advance, ht, ← hl]
      rfl
    have hfirst := leads_move hrunning hmove
    obtain ⟨s', hrest⟩ := ih hfirst.running hfirst.lock hfirst.doing
    exact ⟨s', hfirst.trans hrest⟩

/-- An upkeep that nobody interrupts does what it does in one piece. -/
theorem leads_upkeep {s : Threads σ α ι ℓ μ} (hrunning : s.terminated = false) {t : Nat}
    {k : Task σ α} (ht : s.doing t = .upkeep k) :
    ∃ s', Leads L S U s t (k.run s.lock).2 (U.after (k.run s.lock).1 s.memory) .idle s' := by
  obtain ⟨s', htask⟩ := leads_reaches (L := L) (S := S) (U := U) (k.reaches_done s.lock) hrunning
    rfl ht
  have hmove : (Threads.step L S U s' (.advance t)).val =
      { s' with lock := (k.run s.lock).2, memory := U.after (k.run s.lock).1 s.memory }.turn t
        .idle := by
    rw [Threads.step, if_neg (by simp [htask.running]), Threads.advance, htask.doing,
      ← htask.lock, ← htask.memory]
    rfl
  exact ⟨_, htask.trans (leads_move htask.running hmove)⟩

theorem leads_enter {s : Threads σ α ι ℓ μ} (hrunning : s.terminated = false) {t : Nat}
    (ht : s.doing t = .idle) (i : ι) (hready : L.ready s.lock = true) {l : σ}
    (hlock : L.lock s.lock t = some (true, l)) :
    ∃ s', Leads L S U s t l s.memory (.inside S.start (S.body i)) s' := by
  have hlook : (Threads.step L S U s (.enter t i)).val =
      { s with lock := s.lock, memory := s.memory }.turn t (.waiting i) := by
    rw [Threads.step, if_neg (by simp [hrunning]), ht]
    dsimp only
    rw [if_pos hready]
    rfl
  have hfirst := leads_move hrunning hlook
  have htake : (Threads.step L S U ({ s with lock := s.lock, memory := s.memory }.turn t
      (.waiting i)) (.advance t)).val = Threads.turn { Threads.turn { s with
        lock := s.lock, memory := s.memory } t (.waiting i) with lock := l, memory := s.memory }
        t (.inside S.start (S.body i)) := by
    rw [Threads.step, if_neg (by simp [hrunning]), Threads.advance, hfirst.doing]
    dsimp only
    rw [Threads.take]
    simp only [Threads.turn_lock, hlock]
    rfl
  exact ⟨_, hfirst.trans (leads_move hfirst.running htake)⟩

end Alone

/-- **Upkeep together.** A thread starts the upkeep and stops on its way; another one does all of
it; a thread gets inside. When the first thread has done the rest, a second one gets inside, if the
lock lets it. -/
theorem exists_two_inside {L : ExclusiveLock σ} (S : Sections ι ℓ μ) {U : Upkeep σ α μ} (i : ι)
    (m : μ) {l l' taken taken' : σ} {rest : Task σ α} (hrest : U.task.Reaches l rest l')
    (hready : L.ready (U.task.run l').2 = true)
    (htaken : L.lock (U.task.run l').2 2 = some (true, taken))
    (hready' : L.ready (rest.run taken).2 = true)
    (htaken' : L.lock (rest.run taken).2 3 = some (true, taken')) :
    ∃ moves, ∃ t u, t ≠ u ∧
      ((run (Threads.step L S U) { lock := l, memory := m } moves).val.doing t).holds = true ∧
      ((run (Threads.step L S U) { lock := l, memory := m } moves).val.doing u).holds = true := by
  let s₀ : Threads σ α ι ℓ μ := { lock := l, memory := m }
  have hidle : ∀ t, s₀.doing t = .idle := fun _ => rfl
  obtain ⟨s₁, h₁⟩ := leads_start (L := L) (S := S) (U := U) (s := s₀) rfl (hidle 0)
  obtain ⟨s₂, h₂⟩ := leads_reaches (L := L) (S := S) (U := U) hrest h₁.running h₁.lock h₁.doing
  have h₂ := h₁.trans h₂
  obtain ⟨s₃, h₃⟩ := leads_start (L := L) (S := S) (U := U) (t := 1) h₂.running
    (h₂.others 1 (by decide))
  obtain ⟨s₄, h₄⟩ := leads_upkeep (L := L) (S := S) (U := U) h₃.running h₃.doing
  rw [h₃.lock, h₂.lock] at h₄
  have h₄ := h₃.trans h₄
  have hidle₄ : ∀ t, t ≠ 0 → t ≠ 1 → s₄.doing t = .idle := by
    intro t h0 h1
    rw [h₄.others t h1, h₂.others t h0, hidle]
  obtain ⟨s₅, h₅⟩ := leads_enter (L := L) (S := S) (U := U) h₄.running
    (hidle₄ 2 (by decide) (by decide)) i (by rw [h₄.lock]; exact hready)
    (by rw [h₄.lock]; exact htaken)
  have hfirst : s₅.doing 0 = .upkeep rest := by
    rw [h₅.others 0 (by decide), h₄.others 0 (by decide), h₂.doing]
  obtain ⟨s₆, h₆⟩ := leads_upkeep (L := L) (S := S) (U := U) h₅.running hfirst
  rw [h₅.lock] at h₆
  have hidle₆ : s₆.doing 3 = .idle := by
    rw [h₆.others 3 (by decide), h₅.others 3 (by decide), hidle₄ 3 (by decide) (by decide)]
  obtain ⟨s₇, h₇⟩ := leads_enter (L := L) (S := S) (U := U) h₆.running hidle₆ i
    (by rw [h₆.lock]; exact hready') (by rw [h₆.lock]; exact htaken')
  have hsecond : s₇.doing 2 = .inside S.start (S.body i) := by
    rw [h₇.others 2 (by decide), h₆.others 2 (by decide), h₅.doing]
  obtain ⟨moves₂, rfl⟩ := h₂.moves
  obtain ⟨moves₄, rfl⟩ := h₄.moves
  obtain ⟨moves₅, rfl⟩ := h₅.moves
  obtain ⟨moves₆, rfl⟩ := h₆.moves
  obtain ⟨moves₇, hmoves₇⟩ := h₇.moves
  refine ⟨moves₂ ++ moves₄ ++ moves₅ ++ moves₆ ++ moves₇, 2, 3, by decide, ?_⟩
  have hend : (run (Threads.step L S U) s₀ (moves₂ ++ moves₄ ++ moves₅ ++ moves₆ ++ moves₇)).val
      = s₇ := by
    simp only [run_append, Traced.val_bind]
    exact hmoves₇
  rw [hend, hsecond, h₇.doing]
  exact ⟨rfl, rfl⟩

end Lib
