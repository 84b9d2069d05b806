import EnoceanCore.Lib.Traced

/-!
# Programs that call their environment

`Prog κ α` is a program that makes calls of type `κ`, each answered by an integer, and
returns an `α`: a tree that branches over the answers. An environment (`Env`) answers a
call knowing what was called and answered before, so it can be any library or kernel;
`exec` runs a program in one.

`wp` is the weakest precondition over all answers that satisfy `ok`: a ghost state of type
`ω` follows the calls by `world`, and the postcondition speaks about the result and the
ghost state. `wp_exec` connects it with `exec`.
-/

namespace Lib

/-- A program that calls its environment. -/
inductive Prog (κ α : Type) where
  | done (value : α)
  | call (c : κ) (next : Int → Prog κ α)

/-- An environment answers a call, given the calls and answers so far. -/
abbrev Env (κ : Type) : Type := List (κ × Int) → κ → Int

variable {κ α β ω : Type}

/-- The environment after some calls. -/
def Env.after (env : Env κ) (made : List (κ × Int)) : Env κ := fun later c =>
  env (made ++ later) c

namespace Prog

protected def bind : Prog κ α → (α → Prog κ β) → Prog κ β
  | done a, f => f a
  | call c next, f => call c fun r => (next r).bind f

instance : Monad (Prog κ) where
  pure := done
  bind := Prog.bind

/-- Make one call. -/
def perform (c : κ) : Prog κ Int := call c done

/-- Run a program: its result and the calls it makes, with their answers. -/
def exec (env : Env κ) : Prog κ α → Traced (κ × Int) α
  | done a => pure a
  | call c next => do
      let r := env [] c
      Traced.emit (c, r)
      exec (env.after [(c, r)]) (next r)

@[simp] theorem exec_pure (env : Env κ) (a : α) : exec env (pure a) = pure a := rfl

@[simp] theorem exec_perform_bind (env : Env κ) (c : κ) (f : Int → Prog κ α) :
    exec env (perform c >>= f) = (do
      Traced.emit (c, env [] c)
      exec (env.after [(c, env [] c)]) (f (env [] c))) := rfl

theorem after_nil (env : Env κ) : env.after [] = env := rfl

theorem after_after (env : Env κ) (made later : List (κ × Int)) :
    (env.after made).after later = env.after (made ++ later) := by
  funext l c
  simp [Env.after]

theorem exec_bind (env : Env κ) (p : Prog κ α) (f : α → Prog κ β) :
    exec env (p >>= f) = (do
      let a ← exec env p
      exec (env.after (exec env p).log) (f a)) := by
  induction p generalizing env with
  | done a => rfl
  | call c next ih =>
    change (do
      Traced.emit (c, env [] c)
      exec (env.after [(c, env [] c)]) (next (env [] c) >>= f)) = _
    rw [ih, after_after]
    rfl

/-! ## Checked calls -/

/-- The calls of a list one after the other, stopping with `false` at the first that fails. -/
def ladder (ok : κ → Int → Bool) : List κ → Prog κ Bool → Prog κ Bool
  | [], rest => rest
  | c :: cs, rest => do
      let r ← perform c
      if ok c r then ladder ok cs rest else return false

/-- Calls made one after the other all succeed. -/
def Accepts (ok : κ → Int → Bool) (env : Env κ) : List κ → Prop
  | [] => True
  | c :: cs => ok c (env [] c) = true ∧ Accepts ok (env.after [(c, env [] c)]) cs

instance decidableAccepts (ok : κ → Int → Bool) (env : Env κ) (cs : List κ) :
    Decidable (Accepts ok env cs) :=
  match cs with
  | [] => inferInstanceAs (Decidable True)
  | c :: cs =>
    have := decidableAccepts ok (env.after [(c, env [] c)]) cs
    inferInstanceAs (Decidable (_ ∧ _))

/-- The calls of a list with their answers. -/
def answers (env : Env κ) : List κ → List (κ × Int)
  | [] => []
  | c :: cs => (c, env [] c) :: answers (env.after [(c, env [] c)]) cs

theorem accepts_append {ok : κ → Int → Bool} {env : Env κ} {cs ds : List κ} :
    Accepts ok env (cs ++ ds) ↔ Accepts ok env cs ∧ Accepts ok (env.after (answers env cs)) ds := by
  induction cs generalizing env with
  | nil => simp [Accepts, answers, after_nil]
  | cons c cs ih =>
    rw [List.cons_append, Accepts, Accepts, ih, answers, after_after, and_assoc]
    rfl

theorem answers_append (env : Env κ) (cs ds : List κ) :
    answers env (cs ++ ds) = answers env cs ++ answers (env.after (answers env cs)) ds := by
  induction cs generalizing env with
  | nil => rfl
  | cons c cs ih =>
    rw [List.cons_append, answers, ih, answers, after_after]
    rfl

theorem accepts_iff_answers {ok : κ → Int → Bool} {env : Env κ} {cs : List κ} :
    Accepts ok env cs ↔ ∀ e ∈ answers env cs, ok e.1 e.2 = true := by
  induction cs generalizing env with
  | nil => simp [Accepts, answers]
  | cons c cs ih => rw [Accepts, answers, List.forall_mem_cons, ih]

/-- Calls that succeed whatever was called before. -/
theorem accepts_of_forall {ok : κ → Int → Bool} {env : Env κ} {cs : List κ}
    (h : ∀ c ∈ cs, ∀ made, ok c (env made c) = true) : Accepts ok env cs := by
  induction cs generalizing env with
  | nil => trivial
  | cons c cs ih =>
    refine ⟨h c List.mem_cons_self [], ih fun d hd made => ?_⟩
    exact h d (List.mem_cons_of_mem c hd) _

theorem answers_map_fst (env : Env κ) (cs : List κ) : (answers env cs).map Prod.fst = cs := by
  induction cs generalizing env with
  | nil => rfl
  | cons c cs ih => rw [answers, List.map_cons, ih]

/-- If every call of a ladder succeeds, what follows is run after them. -/
theorem exec_ladder_of_accepts {ok : κ → Int → Bool} {env : Env κ} {cs : List κ}
    (h : Accepts ok env cs) (rest : Prog κ Bool) :
    (exec env (ladder ok cs rest)).val = (exec (env.after (answers env cs)) rest).val ∧
      (exec env (ladder ok cs rest)).log =
        answers env cs ++ (exec (env.after (answers env cs)) rest).log := by
  induction cs generalizing env with
  | nil => exact ⟨rfl, rfl⟩
  | cons c cs ih =>
    obtain ⟨hval, hlog⟩ := ih h.2
    rw [after_after] at hval hlog
    rw [ladder, exec_perform_bind, if_pos h.1]
    refine ⟨hval, ?_⟩
    rw [Traced.log_bind, hlog]
    rfl

/-- If a call of a ladder fails, the ladder returns `false` and the failure is the last call. -/
theorem exec_ladder_of_not_accepts {ok : κ → Int → Bool} {env : Env κ} {cs : List κ}
    (h : ¬ Accepts ok env cs) (rest : Prog κ Bool) :
    (exec env (ladder ok cs rest)).val = false ∧
      ∃ e ∈ (exec env (ladder ok cs rest)).log, ok e.1 e.2 = false := by
  induction cs generalizing env with
  | nil => exact absurd trivial h
  | cons c cs ih =>
    rw [ladder, exec_perform_bind]
    cases hok : ok c (env [] c) with
    | false =>
      rw [if_neg Bool.false_ne_true]
      exact ⟨rfl, _, List.mem_cons_self, hok⟩
    | true =>
      obtain ⟨hval, e, he, hfail⟩ := ih fun hrest => h ⟨hok, hrest⟩
      rw [if_pos rfl]
      exact ⟨hval, e, List.mem_cons_of_mem _ he, hfail⟩

/-- A ladder with nothing to do at the end returns `false`. -/
theorem exec_ladder_false (ok : κ → Int → Bool) (env : Env κ) (cs : List κ) :
    (exec env (ladder ok cs (pure false))).val = false := by
  by_cases h : Accepts ok env cs
  · exact (exec_ladder_of_accepts h (pure false)).1
  · exact (exec_ladder_of_not_accepts h (pure false)).1

/-- The program with its calls renamed, to run in a larger environment. -/
def lift {κ' : Type} (f : κ → κ') : Prog κ α → Prog κ' α
  | done a => done a
  | call c next => call (f c) fun r => (next r).lift f

/-! ## Which calls a program can make -/

/-- Every call on every path satisfies `P`. -/
def Calls (P : κ → Prop) : Prog κ α → Prop
  | done _ => True
  | call c next => P c ∧ ∀ r, (next r).Calls P

section Calls

variable {P : κ → Prop}

theorem calls_pure (a : α) : Calls P (pure a : Prog κ α) := trivial

theorem calls_perform {c : κ} (h : P c) : Calls P (perform c) := ⟨h, fun _ => trivial⟩

theorem Calls.bind {p : Prog κ α} {f : α → Prog κ β} (hp : Calls P p) (hf : ∀ a, Calls P (f a)) :
    Calls P (p >>= f) := by
  induction p with
  | done a => exact hf a
  | call c next ih => exact ⟨hp.1, fun r => ih r (hp.2 r)⟩

theorem calls_ite {c : Prop} [Decidable c] {x y : Prog κ α} (hx : Calls P x) (hy : Calls P y) :
    Calls P (if c then x else y) := by
  split
  · exact hx
  · exact hy

theorem calls_lift {κ' : Type} {P : κ' → Prop} (f : κ → κ') (h : ∀ c, P (f c)) (p : Prog κ α) :
    Calls P (p.lift f) := by
  induction p with
  | done a => trivial
  | call c next ih => exact ⟨h c, ih⟩

theorem calls_ladder {ok : κ → Int → Bool} {cs : List κ} {rest : Prog κ Bool}
    (hcs : ∀ c ∈ cs, P c) (hrest : Calls P rest) : Calls P (ladder ok cs rest) := by
  induction cs with
  | nil => exact hrest
  | cons c cs ih =>
    refine (calls_perform (hcs c List.mem_cons_self)).bind fun r => ?_
    exact calls_ite (ih fun d hd => hcs d (List.mem_cons_of_mem c hd)) (calls_pure _)

/-- A run makes only calls that the program can make. -/
theorem Calls.of_mem_log {p : Prog κ α} (hp : Calls P p) (env : Env κ) :
    ∀ e ∈ (exec env p).log, P e.1 := by
  induction p generalizing env with
  | done a =>
    intro e he
    cases he
  | call c next ih =>
    intro e he
    rcases List.mem_cons.mp he with rfl | he
    · exact hp.1
    · exact ih _ (hp.2 _) _ e he

end Calls

/-! ## Weakest preconditions -/

/-- `Q` holds at the end, whatever answers within `ok` the calls get. -/
def wp (ok : κ → Int → Prop) (world : ω → κ → Int → ω) :
    Prog κ α → (α → ω → Prop) → ω → Prop
  | done a, Q, w => Q a w
  | call c next, Q, w => ∀ r, ok c r → wp ok world (next r) Q (world w c r)

section Wp

variable {ok : κ → Int → Prop} {world : ω → κ → Int → ω}

@[simp] theorem wp_pure (a : α) (Q : α → ω → Prop) (w : ω) :
    wp ok world (pure a) Q w ↔ Q a w := Iff.rfl

@[simp] theorem wp_perform (c : κ) (Q : Int → ω → Prop) (w : ω) :
    wp ok world (perform c) Q w ↔ ∀ r, ok c r → Q r (world w c r) := Iff.rfl

@[simp] theorem wp_bind (p : Prog κ α) (f : α → Prog κ β) (Q : β → ω → Prop) (w : ω) :
    wp ok world (p >>= f) Q w ↔ wp ok world p (fun a w' => wp ok world (f a) Q w') w := by
  induction p generalizing w with
  | done a => exact Iff.rfl
  | call c next ih => exact forall_congr' fun r => imp_congr_right fun _ => ih r (world w c r)

theorem wp_ite {p : Prop} [Decidable p] {x y : Prog κ α} {Q : α → ω → Prop} {w : ω}
    (hx : p → wp ok world x Q w) (hy : ¬ p → wp ok world y Q w) :
    wp ok world (if p then x else y) Q w := by
  split
  · exact hx ‹_›
  · exact hy ‹_›

theorem wp_mono {p : Prog κ α} {Q Q' : α → ω → Prop} {w : ω} (h : wp ok world p Q w)
    (hQ : ∀ a w', Q a w' → Q' a w') : wp ok world p Q' w := by
  induction p generalizing w with
  | done a => exact hQ a w h
  | call c next ih => exact fun r hr => ih r (h r hr)

/-- A program that makes only calls the ghost state does not notice. -/
theorem wp_of_calls {P : κ → Prop} {p : Prog κ α} (hp : Calls P p) {w : ω}
    (hw : ∀ c r, P c → world w c r = w) {Q : α → ω → Prop} (hQ : ∀ a, Q a w) :
    wp ok world p Q w := by
  induction p with
  | done a => exact hQ a
  | call c next ih =>
    intro r _
    rw [hw c r hp.1]
    exact ih r (hp.2 r)

theorem wp_lift {κ' : Type} (f : κ → κ') {ok : κ' → Int → Prop} {world : ω → κ' → Int → ω}
    {p : Prog κ α} {Q : α → ω → Prop} {w : ω} :
    wp ok world (p.lift f) Q w ↔
      wp (fun c => ok (f c)) (fun w c => world w (f c)) p Q w := by
  induction p generalizing w with
  | done a => exact Iff.rfl
  | call c next ih => exact forall_congr' fun r => imp_congr_right fun _ => ih r

/-- What holds for all answers holds in each environment that gives only such answers. -/
theorem wp_exec {env : Env κ} (henv : ∀ made c, ok c (env made c)) {p : Prog κ α}
    {Q : α → ω → Prop} {w : ω} (h : wp ok world p Q w) :
    Q (exec env p).val ((exec env p).log.foldl (fun w e => world w e.1 e.2) w) := by
  induction p generalizing env w with
  | done a => exact h
  | call c next ih =>
    exact ih _ (fun made c' => henv ([(c, env [] c)] ++ made) c') (h _ (henv [] c))

/-- `wp_exec` for what follows the first call, which the environment has answered. -/
theorem wp_exec_perform_bind {env : Env κ} (henv : ∀ made c, ok c (env made c)) {c : κ}
    {f : Int → Prog κ α} {Q : α → ω → Prop} {w : ω}
    (h : wp ok world (f (env [] c)) Q (world w c (env [] c))) :
    Q (exec env (perform c >>= f)).val
      ((exec env (perform c >>= f)).log.foldl (fun w e => world w e.1 e.2) w) :=
  wp_exec (fun made c' => henv ([(c, env [] c)] ++ made) c') h

end Wp

end Prog

end Lib
