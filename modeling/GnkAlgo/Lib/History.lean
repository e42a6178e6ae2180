import GnkAlgo.Lib.Runs

/-!
# What happened in a run

A run is given by its events; the state an event was taken in is what the events
before it lead to.

* `Happened` — an event was taken, in a state it stands to as it should;
* `HappenedThen` — an event was taken, and another one later;
* `Run.history` — the induction rule for what is said of a state and of the events
  that lead to it.
-/

namespace Transition

variable {σ ε : Type*} {f : σ → ε → σ} {s t : σ} {e : ε} {es : List ε} {p q : σ → ε → Prop}

theorem Run.eq_foldl (h : Run (Steps f) s es t) : t = es.foldl f s := by
  induction h with
  | nil => rfl
  | snoc _ hstep ih => rw [List.foldl_concat, ← ih]; exact hstep.symm

/-- One of the events `es` from `s` on has `p` in the state it was taken in. -/
def Happened (f : σ → ε → σ) (s : σ) (p : σ → ε → Prop) (es : List ε) : Prop :=
  ∃ before e after, es = before ++ e :: after ∧ p (before.foldl f s) e

/-- One of the events has `p`, and one after it `q`. -/
def HappenedThen (f : σ → ε → σ) (s : σ) (p q : σ → ε → Prop) (es : List ε) : Prop :=
  ∃ before e after, es = before ++ e :: after ∧ Happened f s p before ∧ q (before.foldl f s) e

theorem Happened.snoc (h : Happened f s p es) (e : ε) : Happened f s p (es ++ [e]) := by
  obtain ⟨before, e', after, rfl, hp⟩ := h
  exact ⟨before, e', after ++ [e], by simp, hp⟩

theorem Happened.last (h : Run (Steps f) s es t) (hp : p t e) : Happened f s p (es ++ [e]) :=
  ⟨es, e, [], rfl, h.eq_foldl ▸ hp⟩

theorem HappenedThen.snoc (h : HappenedThen f s p q es) (e : ε) :
    HappenedThen f s p q (es ++ [e]) := by
  obtain ⟨before, e', after, rfl, hp, hq⟩ := h
  exact ⟨before, e', after ++ [e], by simp, hp, hq⟩

theorem HappenedThen.last (hp : Happened f s p es) (h : Run (Steps f) s es t) (hq : q t e) :
    HappenedThen f s p q (es ++ [e]) :=
  ⟨es, e, [], rfl, hp, h.eq_foldl ▸ hq⟩

/-- **The induction rule** for a state and the events that lead to it. -/
theorem Run.history {P : List ε → σ → Prop} (h : Run (Steps f) s es t) (h0 : P [] s)
    (hstep : ∀ es t e, Run (Steps f) s es t → P es t → P (es ++ [e]) (f t e)) : P es t := by
  induction h with
  | nil => exact h0
  | snoc hrun he ih =>
    obtain rfl := he
    exact hstep _ _ _ hrun ih

end Transition
