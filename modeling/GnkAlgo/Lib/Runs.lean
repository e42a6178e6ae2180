import Mathlib

/-!
# Runs of a transition relation

`Run step s es t` says that the events `es`, taken in order, lead from `s` to
`t`.  The rules:

* `Run.invariant` — what the first state has and every step keeps holds in the
  last state;
* `Run.invariant_of` — the same, where the step may use a second invariant that
  is already known to hold along the run;
* `Run.of_guarded` — a run all of whose steps meet a condition is a run;
* `run_of_stepsMeet` — whether the steps of a function meet a condition can be evaluated;
* `guarded_run_iff` — where a step keeps a preorder exactly under a condition,
  the states of a run are ordered exactly when every step meets it;
* `guarded_run_iff_of` — the same where the step keeps the preorder, and an
  invariant, only from states that have the invariant;
* `guarded_run_invariant_iff` — where a step keeps an invariant under a
  condition, and breaks a property of the states where it does not meet it, all
  states of a run have the property exactly when every step meets the condition;
* `guarded_run_invariant_iff_assuming` — the same for runs under an assumption.
-/

namespace Transition

variable {σ ε : Type*}

/-- The events `es`, taken in order, lead from `s` to `t`. -/
inductive Run (step : σ → ε → σ → Prop) (s : σ) : List ε → σ → Prop
  | nil : Run step s [] s
  | snoc {es : List ε} {t u : σ} {e : ε} : Run step s es t → step t e u → Run step s (es ++ [e]) u

/-- The steps of `step` that meet the condition `ok`. -/
def Guarded (ok : σ → ε → Prop) (step : σ → ε → σ → Prop) (s : σ) (e : ε) (t : σ) : Prop :=
  ok s e ∧ step s e t

namespace Run

variable {step step' : σ → ε → σ → Prop} {s t u : σ} {e : ε} {es fs : List ε}

theorem single (h : step s e t) : Run step s [e] t := .snoc .nil h

theorem append (h : Run step s es t) (h' : Run step t fs u) : Run step s (es ++ fs) u := by
  induction h' with
  | nil => rwa [List.append_nil]
  | snoc _ hstep ih => rw [← List.append_assoc]; exact .snoc ih hstep

theorem cons (h : step s e t) (h' : Run step t fs u) : Run step s (e :: fs) u :=
  append (single h) h'

/-- **The induction rule.**  What holds at the start and is kept by every step
holds at the end of every run. -/
theorem invariant {P : σ → Prop} (h : Run step s es t) (h0 : P s)
    (hstep : ∀ s e t, P s → step s e t → P t) : P t := by
  induction h with
  | nil => exact h0
  | snoc _ he ih => exact hstep _ _ _ ih he

/-- The induction rule on top of an invariant `I` that is known already. -/
theorem invariant_of {I P : σ → Prop} (h : Run step s es t) (hI0 : I s)
    (hI : ∀ s e t, I s → step s e t → I t) (h0 : P s)
    (hstep : ∀ s e t, I s → P s → step s e t → P t) : P t :=
  (h.invariant (P := fun s => I s ∧ P s) ⟨hI0, h0⟩
    fun s e t hs he => ⟨hI s e t hs.1 he, hstep s e t hs.1 hs.2 he⟩).2

theorem mono (h : Run step s es t) (hle : ∀ s e t, step s e t → step' s e t) :
    Run step' s es t := by
  induction h with
  | nil => exact .nil
  | snoc _ he ih => exact .snoc ih (hle _ _ _ he)

theorem of_guarded {ok : σ → ε → Prop} (h : Run (Guarded ok step) s es t) : Run step s es t :=
  h.mono fun _ _ _ he => he.2

/-- A run whose events all have a property is a run of such events. -/
theorem guarded_of_forall {p : ε → Prop} (h : Run step s es t) (hp : ∀ e ∈ es, p e) :
    Run (Guarded (fun _ e => p e) step) s es t := by
  induction h with
  | nil => exact .nil
  | snoc _ he ih =>
    exact .snoc (ih fun e' he' => hp e' (List.mem_append_left _ he'))
      ⟨hp _ (List.mem_append_right _ (List.mem_singleton.2 rfl)), he⟩

end Run

/-! ## Deterministic steps -/

/-- The relation of a step function: the event `e` leads from `s` to `f s e`. -/
def Steps (f : σ → ε → σ) (s : σ) (e : ε) (t : σ) : Prop := f s e = t

theorem run_foldl (f : σ → ε → σ) (s : σ) (es : List ε) : Run (Steps f) s es (es.foldl f s) := by
  induction es generalizing s with
  | nil => exact .nil
  | cons e es ih => exact .cons rfl (ih (f s e))

/-- The steps of a function along `es` meet the condition `ok`. -/
def StepsMeet (f : σ → ε → σ) (ok : σ → ε → Prop) : σ → List ε → Prop
  | _, [] => True
  | s, e :: es => ok s e ∧ StepsMeet f ok (f s e) es

instance decidableStepsMeet (f : σ → ε → σ) (ok : σ → ε → Prop) [∀ s e, Decidable (ok s e)] :
    (s : σ) → (es : List ε) → Decidable (StepsMeet f ok s es)
  | _, [] => isTrue trivial
  | s, e :: es =>
    have := decidableStepsMeet f ok (f s e) es
    inferInstanceAs (Decidable (ok s e ∧ StepsMeet f ok (f s e) es))

section GuardedRuns

variable {f : σ → ε → σ} {ok : σ → ε → Prop} {s : σ} {es : List ε}

theorem run_of_stepsMeet (h : StepsMeet f ok s es) :
    Run (Guarded ok (Steps f)) s es (es.foldl f s) := by
  induction es generalizing s with
  | nil => exact .nil
  | cons e es ih => exact .cons ⟨h.1, rfl⟩ (ih h.2)

theorem run_guarded_iff : Run (Guarded ok (Steps f)) s es (es.foldl f s) ↔
    ∀ before e after, es = before ++ e :: after → ok (before.foldl f s) e := by
  constructor
  · intro h
    have hgeneral : ∀ {es t}, Run (Guarded ok (Steps f)) s es t → t = es.foldl f s ∧
        ∀ before e after, es = before ++ e :: after → ok (before.foldl f s) e := by
      intro es t h
      induction h with
      | nil => exact ⟨rfl, fun before e after heq => absurd heq (by simp)⟩
      | @snoc es t u e _ hstep ih =>
        obtain ⟨ht, hok⟩ := ih
        obtain ⟨hguard, hu⟩ := hstep
        refine ⟨?_, fun before e' after heq => ?_⟩
        · rw [List.foldl_append, ← ht]; exact hu.symm
        rcases after.eq_nil_or_concat' with rfl | ⟨after, x, rfl⟩
        · obtain ⟨rfl, he⟩ := List.append_inj' heq rfl
          obtain rfl := List.singleton_inj.1 he
          exact ht ▸ hguard
        · rw [← List.cons_append, ← List.append_assoc] at heq
          exact hok before e' after (List.append_inj' heq rfl).1
    exact (hgeneral h).2
  · induction es using List.reverseRecOn with
    | nil => exact fun _ => .nil
    | append_singleton es e ih =>
      intro h
      have hes : Run (Guarded ok (Steps f)) s es (es.foldl f s) :=
        ih fun before e' after heq => h before e' (after ++ [e]) (by rw [heq]; simp)
      rw [List.foldl_append]
      exact .snoc hes ⟨h es e [] rfl, rfl⟩

/-- **Exact conditions.**  Where a step keeps a preorder exactly under a
condition, every state of a run is below every later one exactly when each step
of the run meets the condition. -/
theorem guarded_run_iff {R : σ → σ → Prop} (hrefl : ∀ s, R s s)
    (htrans : ∀ s t u, R s t → R t u → R s u) (hstep : ∀ s e, R s (f s e) ↔ ok s e) :
    Run (Guarded ok (Steps f)) s es (es.foldl f s) ↔
    ∀ before middle after, es = before ++ middle ++ after →
      R (before.foldl f s) ((before ++ middle).foldl f s) := by
  rw [run_guarded_iff]
  constructor
  · intro h before middle
    induction middle using List.reverseRecOn with
    | nil => intro after _; rw [List.append_nil]; exact hrefl _
    | append_singleton middle e ih =>
      intro after heq
      have hlast := h (before ++ middle) e after (by rw [heq]; simp)
      refine htrans _ _ _ (ih (e :: after) (by rw [heq]; simp)) ?_
      rw [← List.append_assoc, List.foldl_concat]
      exact (hstep _ e).2 hlast
  · intro h before e after heq
    have hone := h before [e] after (by rw [heq]; simp)
    rw [List.foldl_append] at hone
    exact (hstep _ e).1 hone

/-- The same in the presence of an invariant `I`, which a step keeps under the
condition. -/
theorem guarded_run_iff_of {I : σ → Prop} {R : σ → σ → Prop} (h0 : I s)
    (hkeep : ∀ s e, I s → ok s e → I (f s e)) (hrefl : ∀ s, I s → R s s)
    (htrans : ∀ s t u, R s t → R t u → R s u) (hstep : ∀ s e, I s → (R s (f s e) ↔ ok s e)) :
    Run (Guarded ok (Steps f)) s es (es.foldl f s) ↔
    ∀ before middle after, es = before ++ middle ++ after →
      R (before.foldl f s) ((before ++ middle).foldl f s) := by
  have hkept : ∀ {es}, Run (Guarded ok (Steps f)) s es (es.foldl f s) → I (es.foldl f s) :=
    fun h => h.invariant h0 fun s e _ hs ⟨hok, ht⟩ => ht ▸ hkeep s e hs hok
  constructor
  · intro h
    have hpart : ∀ before after, es = before ++ after →
        Run (Guarded ok (Steps f)) s before (before.foldl f s) := fun before after heq =>
      run_guarded_iff.2 fun l e l' hl => run_guarded_iff.1 h l e (l' ++ after) (by rw [heq, hl]; simp)
    intro before middle
    induction middle using List.reverseRecOn with
    | nil =>
      intro after heq
      rw [List.append_nil]
      exact hrefl _ (hkept (hpart before ([] ++ after) (by rw [heq]; simp)))
    | append_singleton middle e ih =>
      intro after heq
      have hI := hkept (hpart (before ++ middle) (e :: after) (by rw [heq]; simp))
      refine htrans _ _ _ (ih (e :: after) (by rw [heq]; simp)) ?_
      rw [← List.append_assoc, List.foldl_concat]
      exact (hstep _ e hI).2 (run_guarded_iff.1 h (before ++ middle) e after (by rw [heq]; simp))
  · intro h
    have hrun : ∀ before after, es = before ++ after →
        Run (Guarded ok (Steps f)) s before (before.foldl f s) := by
      intro before
      induction before using List.reverseRecOn with
      | nil => exact fun _ _ => .nil
      | append_singleton before e ih =>
        intro after heq
        have hone := ih ([e] ++ after) (by rw [heq]; simp)
        have hlast := h before [e] after heq
        rw [List.foldl_concat] at hlast ⊢
        exact .snoc hone ⟨(hstep _ e (hkept hone)).1 hlast, rfl⟩
    exact hrun es [] (by simp)

/-- **Exact conditions for a property of states.**  `I` is what the proof needs
of a state, `P` what is asked of it. -/
theorem guarded_run_invariant_iff {I P : σ → Prop} (h0 : I s) (hP : ∀ s, I s → P s)
    (hkeep : ∀ s e, I s → ok s e → I (f s e)) (hbreak : ∀ s e, I s → P (f s e) → ok s e) :
    (∀ before after, es = before ++ after → P (before.foldl f s)) ↔
      Run (Guarded ok (Steps f)) s es (es.foldl f s) := by
  constructor
  · intro h
    have hinvariant : ∀ before after, es = before ++ after →
        Run (Guarded ok (Steps f)) s before (before.foldl f s) := by
      intro before
      induction before using List.reverseRecOn with
      | nil => intro _ _; exact .nil
      | append_singleton before e ih =>
        intro after heq
        have hrun := ih ([e] ++ after) (by rw [heq]; simp)
        have hI : I (before.foldl f s) := hrun.invariant h0 fun s e _ hs ⟨hok, ht⟩ =>
          ht ▸ hkeep s e hs hok
        have hlast := h (before ++ [e]) after heq
        rw [List.foldl_concat] at hlast ⊢
        exact .snoc hrun ⟨hbreak _ _ hI hlast, rfl⟩
    exact hinvariant es [] (by simp)
  · intro h before after heq
    rw [run_guarded_iff] at h
    have hbefore : Run (Guarded ok (Steps f)) s before (before.foldl f s) :=
      run_guarded_iff.2 fun l e l' hl => h l e (l' ++ after) (by rw [heq, hl]; simp)
    exact hP _ (hbefore.invariant h0 fun s e _ hs ⟨hok, ht⟩ => ht ▸ hkeep s e hs hok)

/-- The same for runs whose steps meet an assumption, where the property carries
its own proof. -/
theorem guarded_run_invariant_iff_assuming {P : σ → Prop} {assumed : σ → ε → Prop} (h0 : P s)
    (hassumed : Run (Guarded assumed (Steps f)) s es (es.foldl f s))
    (hstep : ∀ s e, P s → assumed s e → (P (f s e) ↔ ok s e)) :
    (∀ before after, es = before ++ after → P (before.foldl f s)) ↔
      Run (Guarded ok (Steps f)) s es (es.foldl f s) := by
  rw [run_guarded_iff] at hassumed ⊢
  constructor
  · intro h before e after heq
    have hnext := h (before ++ [e]) after (by rw [heq]; simp)
    rw [List.foldl_concat] at hnext
    exact (hstep _ e (h before (e :: after) heq) (hassumed before e after heq)).1 hnext
  · intro h before
    induction before using List.reverseRecOn with
    | nil => exact fun _ _ => h0
    | append_singleton before e ih =>
      intro after heq
      rw [List.append_assoc, List.singleton_append] at heq
      rw [List.foldl_concat]
      exact (hstep _ e (ih _ heq) (hassumed before e after heq)).2 (h before e after heq)

end GuardedRuns

end Transition
