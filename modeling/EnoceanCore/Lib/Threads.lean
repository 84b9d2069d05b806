import EnoceanCore.Lib.Prog
import EnoceanCore.Lib.Run

/-!
# Programs beside each other

A list of programs, of which any one makes the next call (`advance`). A call can start another
program, which is put at the end of the list.

`Behaves` is a rely and guarantee rule: whatever calls of other programs come between its own, a
program makes only calls that are allowed at that time. If every program behaves from its start
on, every call of every interleaving is allowed (`Team.run_behaved`).

A program can be looked at alone if it keeps to a view of the story that the others leave as it is
(`Local.behaves`).
-/

namespace Lib

variable {κ α β : Type}

/-- The calls so far, with their answers. -/
abbrev Story (κ : Type) : Type := List (κ × Int)

/-- After a story come these calls, each of which satisfies `P` when it is made. -/
def Follows (P : Story κ → κ → Prop) : Story κ → Story κ → Prop
  | _, [] => True
  | story, e :: between => P story e.1 ∧ Follows P (story ++ [e]) between

theorem Follows.append {P : Story κ → κ → Prop} {story between later : Story κ}
    (h : Follows P story between) (hlater : Follows P (story ++ between) later) :
    Follows P story (between ++ later) := by
  induction between generalizing story with
  | nil => rwa [List.append_nil] at hlater
  | cons e between ih =>
    refine ⟨h.1, ih h.2 ?_⟩
    rwa [List.append_cons] at hlater

theorem follows_singleton {P : Story κ → κ → Prop} {story : Story κ} {e : κ × Int}
    (h : P story e.1) : Follows P story [e] := ⟨h, trivial⟩

namespace Prog

/-! ## One program among others -/

/-- Whatever calls of `others` come between, each call is allowed, and at the end `Q` holds. -/
def Behaves (others allowed : Story κ → κ → Prop) :
    Prog κ α → (α → Story κ → Prop) → Story κ → Prop
  | done a, Q, story => ∀ between, Follows others story between → Q a (story ++ between)
  | call c next, Q, story => ∀ between, Follows others story between →
      allowed (story ++ between) c ∧
        ∀ r, Behaves others allowed (next r) Q (story ++ between ++ [(c, r)])

/-- Calls of others do not matter. -/
theorem Behaves.wait {others allowed : Story κ → κ → Prop} {p : Prog κ α}
    {Q : α → Story κ → Prop} {story : Story κ} (h : Behaves others allowed p Q story)
    {between : Story κ} (hothers : Follows others story between) :
    Behaves others allowed p Q (story ++ between) := by
  cases p with
  | done a =>
    intro later hlater
    rw [List.append_assoc]
    exact h (between ++ later) (hothers.append hlater)
  | call c next =>
    intro later hlater
    have hnow := h (between ++ later) (hothers.append hlater)
    rw [← List.append_assoc] at hnow
    exact hnow

/-! ## One program alone -/

/-- Each call is made under its precondition, and at the end `Q` holds; the state follows the
answered calls. -/
def Checked {ω : Type} (pre : ω → κ → Prop) (world : ω → κ → Int → ω) :
    Prog κ α → (α → ω → Prop) → ω → Prop
  | done a, Q, w => Q a w
  | call c next, Q, w => pre w c ∧ ∀ r, Checked pre world (next r) Q (world w c r)

section Checked

variable {ω : Type} {pre : ω → κ → Prop} {world : ω → κ → Int → ω}

@[simp] theorem checked_pure (a : α) (Q : α → ω → Prop) (w : ω) :
    Checked pre world (pure a) Q w ↔ Q a w := Iff.rfl

@[simp] theorem checked_perform (c : κ) (Q : Int → ω → Prop) (w : ω) :
    Checked pre world (perform c) Q w ↔ pre w c ∧ ∀ r, Q r (world w c r) := Iff.rfl

@[simp] theorem checked_bind (p : Prog κ α) (f : α → Prog κ β) (Q : β → ω → Prop) (w : ω) :
    Checked pre world (p >>= f) Q w ↔
      Checked pre world p (fun a w' => Checked pre world (f a) Q w') w := by
  induction p generalizing w with
  | done a => exact Iff.rfl
  | call c next ih => exact and_congr_right fun _ => forall_congr' fun r => ih r (world w c r)

theorem checked_ite {p : Prop} [Decidable p] {x y : Prog κ α} {Q : α → ω → Prop} {w : ω}
    (hx : p → Checked pre world x Q w) (hy : ¬ p → Checked pre world y Q w) :
    Checked pre world (if p then x else y) Q w := by
  split
  · exact hx ‹_›
  · exact hy ‹_›

theorem Checked.mono {p : Prog κ α} {Q Q' : α → ω → Prop} {w : ω} (h : Checked pre world p Q w)
    (hQ : ∀ a w', Q a w' → Q' a w') : Checked pre world p Q' w := by
  induction p generalizing w with
  | done a => exact hQ a w h
  | call c next ih => exact ⟨h.1, fun r => ih r (h.2 r)⟩

end Checked

end Prog

/-- A view of the story and a fact about it. The others leave the view as it is, the program itself
moves it on, and nobody makes the fact untrue. -/
structure Local {ω : Type} (others : Story κ → κ → Prop) (pre : ω → κ → Prop)
    (world : ω → κ → Int → ω) (view : Story κ → ω) (fact : Story κ → Prop) : Prop where
  others : ∀ story e, fact story → others story e.1 →
    view (story ++ [e]) = view story ∧ fact (story ++ [e])
  own : ∀ story c r, fact story → pre (view story) c →
    view (story ++ [(c, r)]) = world (view story) c r ∧ fact (story ++ [(c, r)])

namespace Local

variable {ω : Type} {others : Story κ → κ → Prop} {pre : ω → κ → Prop} {world : ω → κ → Int → ω}
  {view : Story κ → ω} {fact : Story κ → Prop} (h : Local others pre world view fact)
  {story : Story κ}
include h

theorem wait (hfact : fact story) {between : Story κ} (hbetween : Follows others story between) :
    view (story ++ between) = view story ∧ fact (story ++ between) := by
  induction between generalizing story with
  | nil =>
    rw [List.append_nil]
    exact ⟨rfl, hfact⟩
  | cons e between ih =>
    obtain ⟨hview, hnow⟩ := h.others story e hfact hbetween.1
    rw [List.append_cons, ← hview]
    exact ih hnow hbetween.2

/-- **Views.** A program that keeps to its view behaves among others. -/
theorem behaves {allowed : Story κ → κ → Prop} {Q : α → ω → Prop} {post : α → Story κ → Prop}
    (hallowed : ∀ story c, fact story → pre (view story) c → allowed story c)
    (hpost : ∀ a story, fact story → Q a (view story) → post a story) {p : Prog κ α}
    (hp : p.Checked pre world Q (view story)) (hfact : fact story) :
    p.Behaves others allowed post story := by
  induction p generalizing story with
  | done a =>
    intro between hbetween
    obtain ⟨hview, hnow⟩ := h.wait hfact hbetween
    refine hpost a _ hnow ?_
    rw [hview]
    exact hp
  | call c next ih =>
    intro between hbetween
    obtain ⟨hview, hnow⟩ := h.wait hfact hbetween
    have hpre : pre (view (story ++ between)) c := by
      rw [hview]
      exact hp.1
    refine ⟨hallowed _ c hnow hpre, fun r => ?_⟩
    obtain ⟨hnext, hthen⟩ := h.own _ c r hnow hpre
    refine ih r ?_ hthen
    rw [hnext, hview]
    exact hp.2 r

end Local

/-! ## All programs -/

/-- The program with this number makes its next call, which is answered. -/
def advance (starts : κ → Int → Option (Prog κ α)) (threads : List (Prog κ α))
    (move : Nat × Int) : Traced (Nat × κ × Int) (List (Prog κ α)) :=
  match threads[move.1]? with
  | some (.call c next) =>
    ⟨threads.set move.1 (next move.2) ++ (starts c move.2).toList, [(move.1, c, move.2)]⟩
  | _ => pure threads

/-- The calls of a run, whoever made them. -/
def storyOf (log : List (Nat × κ × Int)) : Story κ := log.map Prod.snd

theorem storyOf_append (log log' : List (Nat × κ × Int)) :
    storyOf (log ++ log') = storyOf log ++ storyOf log' := List.map_append

/-- What a program is expected to do, by its number. -/
structure Team (κ α : Type) where
  starts : κ → Int → Option (Prog κ α)
  allowed : Nat → Story κ → κ → Prop
  post : Nat → α → Story κ → Prop

namespace Team

variable (team : Team κ α)

/-- The calls that other programs may make. -/
def others (i : Nat) (story : Story κ) (c : κ) : Prop := ∃ j, j ≠ i ∧ team.allowed j story c

/-- The program behaves as the one with this number has to. -/
def Fits (i : Nat) (p : Prog κ α) (story : Story κ) : Prop :=
  p.Behaves (team.others i) (team.allowed i) (team.post i) story

/-- How many programs were started. -/
def started (story : Story κ) : Nat := story.countP fun e => (team.starts e.1 e.2).isSome

/-- A program that is started fits the number it gets. -/
def StartsFit : Prop :=
  ∀ i story c r p, team.allowed i story c → team.starts c r = some p →
    team.Fits (team.started story + 1) p (story ++ [(c, r)])

/-- Every call was allowed when it was made. -/
inductive Permitted : List (Nat × κ × Int) → Prop
  | nil : Permitted []
  | concat {log : List (Nat × κ × Int)} {e : Nat × κ × Int} :
    Permitted log → team.allowed e.1 (storyOf log) e.2.1 → Permitted (log ++ [e])

/-- All programs go on behaving. -/
structure Behaved (log : List (Nat × κ × Int)) (threads : List (Prog κ α)) : Prop where
  permitted : team.Permitted log
  length : threads.length = team.started (storyOf log) + 1
  fits : ∀ i p, threads[i]? = some p → team.Fits i p (storyOf log)

variable {team}

theorem started_concat (story : Story κ) (c : κ) (r : Int) :
    team.started (story ++ [(c, r)]) = team.started story + (team.starts c r).toList.length := by
  rw [started, started, List.countP_append, List.countP_singleton]
  cases team.starts c r <;> rfl

/-- A call of one program, seen by another one. -/
theorem Fits.wait {i j : Nat} (hne : i ≠ j) {p : Prog κ α} {story : Story κ}
    (h : team.Fits j p story) {c : κ} (hallowed : team.allowed i story c) (r : Int) :
    team.Fits j p (story ++ [(c, r)]) :=
  Prog.Behaves.wait h (follows_singleton ⟨i, hne, hallowed⟩)

theorem Behaved.advance (hstarts : team.StartsFit) {log : List (Nat × κ × Int)}
    {threads : List (Prog κ α)} (h : team.Behaved log threads) (move : Nat × Int) :
    team.Behaved (log ++ (advance team.starts threads move).log)
      (advance team.starts threads move).val := by
  obtain ⟨i, r⟩ := move
  unfold Lib.advance
  cases hi : threads[i]? with
  | none =>
    show team.Behaved (log ++ []) threads
    rwa [List.append_nil]
  | some p =>
    cases p with
    | done a =>
      show team.Behaved (log ++ []) threads
      rwa [List.append_nil]
    | call c next =>
      have hcall := h.fits i _ hi [] trivial
      rw [List.append_nil] at hcall
      obtain ⟨hallowed, hnext⟩ := hcall
      obtain ⟨hlt, -⟩ := List.getElem?_eq_some_iff.mp hi
      have hstory : storyOf (log ++ [(i, c, r)]) = storyOf log ++ [(c, r)] := storyOf_append _ _
      show team.Behaved (log ++ [(i, c, r)]) (threads.set i (next r) ++ (team.starts c r).toList)
      refine ⟨h.permitted.concat hallowed, ?_, ?_⟩
      · rw [hstory, started_concat, List.length_append, List.length_set, h.length]
        omega
      · intro j q hj
        rw [hstory]
        by_cases hold : j < threads.length
        · rw [List.getElem?_append_left (by rwa [List.length_set])] at hj
          by_cases hij : i = j
          · subst hij
            rw [List.getElem?_set_self hlt] at hj
            cases hj
            exact hnext r
          · rw [List.getElem?_set_ne hij] at hj
            exact (h.fits j q hj).wait hij hallowed r
        · rw [List.getElem?_append_right (by rw [List.length_set]; omega), List.length_set] at hj
          cases hnew : team.starts c r with
          | none =>
            rw [hnew] at hj
            cases hj
          | some p =>
            rw [hnew] at hj
            obtain ⟨hzero, hq⟩ := List.getElem?_eq_some_iff.mp hj
            have hj' : j = team.started (storyOf log) + 1 := by
              have hlength := h.length
              simp only [Option.toList_some, List.length_singleton] at hzero
              omega
            have hpq : p = q := by simpa using hq
            rw [hj', ← hpq]
            exact hstarts i _ c r p hallowed hnew

/-- **Interleavings.** If the first program fits and so does every one that is started, all of
them behave in every run. -/
theorem run_behaved (hstarts : team.StartsFit) {p : Prog κ α} (hp : team.Fits 0 p [])
    (moves : List (Nat × Int)) :
    team.Behaved (run (Lib.advance team.starts) [p] moves).log
      (run (Lib.advance team.starts) [p] moves).val := by
  have hstart : team.Behaved [] [p] := by
    refine ⟨.nil, rfl, fun i q hi => ?_⟩
    obtain ⟨hlt, hq⟩ := List.getElem?_eq_some_iff.mp hi
    obtain rfl : i = 0 := Nat.lt_one_iff.mp hlt
    exact hq ▸ hp
  exact run_log_invariant (I := team.Behaved) (fun log threads move h => h.advance hstarts move)
    hstart moves

/-- A call of a run was allowed after the calls in front of it. -/
theorem Permitted.allowed {log before after : List (Nat × κ × Int)} {e : Nat × κ × Int}
    (h : team.Permitted log) (hlog : log = before ++ e :: after) :
    team.allowed e.1 (storyOf before) e.2.1 := by
  induction h generalizing after with
  | nil => simp at hlog
  | @concat log last _ hallowed ih =>
    rcases List.eq_nil_or_concat after with rfl | ⟨after, last', rfl⟩
    · obtain ⟨rfl, hlast⟩ := List.append_inj' hlog rfl
      obtain rfl : last = e := by simpa using hlast
      exact hallowed
    · have hsplit : log ++ [last] = (before ++ e :: after) ++ [last'] := by
        rw [hlog]
        simp
      exact ih (List.append_inj' hsplit rfl).1

/-- What a program that has ended knows. -/
theorem Behaved.ended {log : List (Nat × κ × Int)} {threads : List (Prog κ α)}
    (h : team.Behaved log threads) {i : Nat} {a : α} (hi : threads[i]? = some (.done a)) :
    team.post i a (storyOf log) := by
  have hend := h.fits i _ hi [] trivial
  rwa [List.append_nil] at hend

end Team

end Lib
