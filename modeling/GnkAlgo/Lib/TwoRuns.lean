import Mathlib

/-!
# Two runs of a system

A system takes events and answers them.  Its run on all events is compared with
the run on those of one party alone, where the party's events may name things by
other names: an index `i` says which names of the second run stand for which of
the first, and a later index knows more names.

* `Agree` — two computations fail alike, or have related results;
* `unwinding` — from what one step does, to whole runs.
-/

namespace TwoRuns

/-! ## Computations -/

/-- The computations fail with one error, or have results that `P` relates. -/
inductive Agree {ε α β : Type*} (P : α → β → Prop) : Except ε α → Except ε β → Prop
  | error (e : ε) : Agree P (.error e) (.error e)
  | ok {a : α} {b : β} (h : P a b) : Agree P (.ok a) (.ok b)

section Agree

variable {ε α β γ δ : Type*} {P : α → β → Prop} {Q : γ → δ → Prop}

theorem Agree.mono {P' : α → β → Prop} {x : Except ε α} {y : Except ε β} (h : Agree P x y)
    (hP : ∀ a b, P a b → P' a b) : Agree P' x y := by
  cases h with
  | error e => exact .error e
  | ok h => exact .ok (hP _ _ h)

/-- How the two end. -/
theorem Agree.end_cases {x : Except ε α} {y : Except ε β} (h : Agree P x y) :
    (∃ e, x = .error e ∧ y = .error e) ∨ ∃ a b, x = .ok a ∧ y = .ok b ∧ P a b := by
  cases h with
  | error e => exact Or.inl ⟨e, rfl, rfl⟩
  | ok h => exact Or.inr ⟨_, _, rfl, rfl, h⟩

end Agree

/-! ## Systems -/

section Systems

variable {σ ε ω : Type*}

/-- The state after some events, and the answers to them. -/
def run (step : σ → ε → σ × ω) : σ → List ε → σ × List (ε × ω)
  | s, [] => (s, [])
  | s, e :: es =>
    let (t, answer) := step s e
    let (u, answers) := run step t es
    (u, (e, answer) :: answers)

@[simp] theorem run_nil (step : σ → ε → σ × ω) (s : σ) : run step s [] = (s, []) := rfl

theorem run_cons (step : σ → ε → σ × ω) (s : σ) (e : ε) (es : List ε) :
    run step s (e :: es) = ((run step (step s e).1 es).1,
      (e, (step s e).2) :: (run step (step s e).1 es).2) := rfl

/-- The answers that concern some of the events. -/
def answersTo (p : ε → Bool) (answers : List (ε × ω)) : List ω :=
  (answers.filter (p ·.1)).map Prod.snd

theorem answersTo_cons_of_pos {p : ε → Bool} {e : ε} (h : p e = true) (answer : ω)
    (answers : List (ε × ω)) :
    answersTo p ((e, answer) :: answers) = answer :: answersTo p answers := by
  simp [answersTo, h]

theorem answersTo_cons_of_neg {p : ε → Bool} {e : ε} (h : p e = false) (answer : ω)
    (answers : List (ε × ω)) : answersTo p ((e, answer) :: answers) = answersTo p answers := by
  simp [answersTo, h]

variable {ι : Type*} [Preorder ι] {R : ι → σ → σ → Prop} {O : ι → ω → ω → Prop}

/-- **Unwinding.**  Where the events of others leave the party's view of the state,
and its own do the same to two states it cannot tell apart, the party sees in a
run what it sees in the run without the others. -/
theorem unwinding (step : σ → ε → σ × ω) (mine : ε → Bool) (named : ι → ε → ε)
    (hmine : ∀ i e, mine (named i e) = mine e)
    (hO : ∀ {i j a b}, i ≤ j → O i a b → O j a b)
    (hothers : ∀ {i s t e}, R i s t → mine e = false → ∃ j, i ≤ j ∧ R j (step s e).1 t)
    (hown : ∀ {i s t e}, R i s t → mine e = true → ∃ j, i ≤ j ∧ ∃ t' answer,
      R j (step s e).1 t' ∧ O j (step s e).2 answer ∧
      ∀ k, j ≤ k → step t (named k e) = (t', answer))
    (es : List ε) {i : ι} {s t : σ} (h : R i s t) :
    ∃ j, i ≤ j ∧ R j (run step s es).1 (run step t ((es.filter mine).map (named j))).1 ∧
      List.Forall₂ (O j) (answersTo mine (run step s es).2)
        (answersTo mine (run step t ((es.filter mine).map (named j))).2) := by
  induction es generalizing i s t with
  | nil => exact ⟨i, le_refl i, h, .nil⟩
  | cons e es ih =>
    rw [run_cons]
    cases he : mine e with
    | false =>
      obtain ⟨j, hij, hj⟩ := hothers h he
      obtain ⟨k, hjk, hk, hanswers⟩ := ih hj
      refine ⟨k, hij.trans hjk, ?_⟩
      rw [List.filter_cons_of_neg (by simp [he]), answersTo_cons_of_neg he]
      exact ⟨hk, hanswers⟩
    | true =>
      obtain ⟨j, hij, t', answer, hj, hanswer, hstep⟩ := hown h he
      obtain ⟨k, hjk, hk, hanswers⟩ := ih hj
      have hnamed : mine (named k e) = true := (hmine k e).trans he
      refine ⟨k, hij.trans hjk, ?_⟩
      rw [List.filter_cons_of_pos he, List.map_cons, run_cons, hstep k hjk,
        answersTo_cons_of_pos he, answersTo_cons_of_pos hnamed]
      exact ⟨hk, .cons (hO hjk hanswer) hanswers⟩

end Systems

end TwoRuns
