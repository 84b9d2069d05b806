import Mathlib.Data.List.Basic
import Mathlib.Tactic.Common

/-!
# Computations that record what they do

`Traced ε α` is a result of type `α` together with the list of actions of type `ε` the
computation performed, in order. The result never depends on the actions already
recorded, so the value and the log of a composition are computed separately
(`val_bind`, `log_bind`).

`Every P x` says that each action of `x` satisfies `P`; `proj f x` keeps the part of the
log selected by `f`. Both follow the structure of `x` (`every_bind`, `proj_bind`).
-/

namespace Lib

/-- A value and the actions performed to compute it, oldest first. -/
structure Traced (ε α : Type) where
  val : α
  log : List ε

namespace Traced

variable {ε δ α β : Type}

instance : Monad (Traced ε) where
  pure a := ⟨a, []⟩
  bind x f := ⟨(f x.val).val, x.log ++ (f x.val).log⟩

/-- Perform one action. -/
def emit (e : ε) : Traced ε Unit := ⟨(), [e]⟩

/-! ## Values and logs -/

@[simp] theorem val_pure (a : α) : (pure a : Traced ε α).val = a := rfl

@[simp] theorem log_pure (a : α) : (pure a : Traced ε α).log = [] := rfl

@[simp] theorem val_bind (x : Traced ε α) (f : α → Traced ε β) :
    (x >>= f).val = (f x.val).val := rfl

@[simp] theorem log_bind (x : Traced ε α) (f : α → Traced ε β) :
    (x >>= f).log = x.log ++ (f x.val).log := rfl

@[simp] theorem log_emit (e : ε) : (emit e).log = [e] := rfl

@[simp] theorem val_ite (c : Prop) [Decidable c] (x y : Traced ε α) :
    (if c then x else y).val = if c then x.val else y.val := by
  split <;> rfl

theorem bind_assoc {γ : Type} (x : Traced ε α) (f : α → Traced ε β) (g : β → Traced ε γ) :
    (x >>= f) >>= g = x >>= fun a => f a >>= g := by
  change Traced.mk _ _ = Traced.mk _ _
  simp

theorem pure_bind (a : α) (f : α → Traced ε β) : (pure a >>= f) = f a := by
  change Traced.mk _ _ = _
  simp

/-- Only the continuation from the value that is computed matters. -/
theorem bind_congr_val {x : Traced ε α} {f g : α → Traced ε β} (h : f x.val = g x.val) :
    x >>= f = x >>= g := by
  change Traced.mk (f x.val).val (x.log ++ (f x.val).log) = _
  rw [h]
  rfl

/-! ## Properties of every action -/

/-- Every action of `x` satisfies `P`. -/
def Every (P : ε → Prop) (x : Traced ε α) : Prop := ∀ e ∈ x.log, P e

@[simp] theorem every_pure (P : ε → Prop) (a : α) : Every P (pure a : Traced ε α) := by
  intro e he
  cases he

@[simp] theorem every_bind (P : ε → Prop) (x : Traced ε α) (f : α → Traced ε β) :
    Every P (x >>= f) ↔ Every P x ∧ Every P (f x.val) := by
  simp only [Every, log_bind, List.mem_append]
  constructor
  · exact fun h => ⟨fun e he => h e (Or.inl he), fun e he => h e (Or.inr he)⟩
  · rintro ⟨hx, hf⟩ e (he | he)
    · exact hx e he
    · exact hf e he

@[simp] theorem every_emit (P : ε → Prop) (e : ε) : Every P (emit e) ↔ P e := by
  simp [Every]

theorem every_ite {P : ε → Prop} {c : Prop} [Decidable c] {x y : Traced ε α}
    (hx : c → Every P x) (hy : ¬ c → Every P y) : Every P (if c then x else y) := by
  split
  · exact hx ‹_›
  · exact hy ‹_›

/-- The rule for a sequence whose tail starts under a test. -/
theorem every_seq {P : ε → Prop} {x : Traced ε α} {f : α → Traced ε β} (hx : Every P x)
    (hf : Every P (f x.val)) : Every P (x >>= f) :=
  (every_bind P x f).mpr ⟨hx, hf⟩

theorem Every.mono {P Q : ε → Prop} {x : Traced ε α} (h : Every P x) (hPQ : ∀ e, P e → Q e) :
    Every Q x := fun e he => hPQ e (h e he)

/-! ## Projections of the log -/

/-- The actions selected by `f`. -/
def proj (f : ε → Option δ) (x : Traced ε α) : List δ := x.log.filterMap f

@[simp] theorem proj_pure (f : ε → Option δ) (a : α) : proj f (pure a : Traced ε α) = [] := rfl

@[simp] theorem proj_bind (f : ε → Option δ) (x : Traced ε α) (g : α → Traced ε β) :
    proj f (x >>= g) = proj f x ++ proj f (g x.val) := by
  simp [proj]

@[simp] theorem proj_emit (f : ε → Option δ) (e : ε) : proj f (emit e) = (f e).toList := by
  cases h : f e <;> simp [proj, h]

@[simp] theorem proj_ite (f : ε → Option δ) (c : Prop) [Decidable c] (x y : Traced ε α) :
    proj f (if c then x else y) = if c then proj f x else proj f y := by
  split <;> rfl

/-- A projection that selects nothing. -/
theorem proj_eq_nil_of_every {f : ε → Option δ} {x : Traced ε α}
    (h : Every (fun e => f e = none) x) : proj f x = [] :=
  List.filterMap_eq_nil_iff.mpr h

end Traced

end Lib
