import Mathlib

/-!
# A lock after some strikes

A counter of strikes: at the `limit`-th one it starts over and is locked for a
while.  A locked counter takes no strike, and one that is never reset in between
takes at most `limit` in any half-open window as long as the lock.

* `Counter.strike` — one strike;
* `Bounded` — the invariant for one window: the strikes in it are among those
  counted, or the counter is locked till the window ends;
* `Bounded.strike`, `Bounded.wait` — kept by a strike of an open counter, and by
  time;
* `Bounded.le`, `Bounded.locked` — what it says of the window.
-/

namespace Lockout

variable {T : Type*} [AddCommGroup T] [LinearOrder T]

structure Counter (T : Type*) where
  strikes : ℕ
  lockedUntil : Option T

/-- The lock has not run out. -/
def Counter.Locked (c : Counter T) (now : T) : Prop := ∃ t ∈ c.lockedUntil, now < t

/-- A strike. -/
def Counter.strike (limit : ℕ) (lock : T) (c : Counter T) (now : T) : Counter T :=
  if limit ≤ c.strikes + 1 then { strikes := 0, lockedUntil := some (now + lock) }
  else { c with strikes := c.strikes + 1 }

/-- How many of some times are in the window of length `lock` from `start` on. -/
def within (start lock : T) (times : List T) : ℕ :=
  times.countP fun t => start ≤ t ∧ t < start + lock

/-- After strikes at `times`, at `now`. -/
structure Bounded (limit : ℕ) (lock start : T) (c : Counter T) (times : List T) (now : T) :
    Prop where
  positive : 0 < limit
  past : ∀ t ∈ times, t ≤ now
  counted : within start lock times ≤ c.strikes ∧ within start lock times < limit ∨
    within start lock times ≤ limit ∧ ∀ later, now ≤ later → later < start + lock → c.Locked later

variable {limit : ℕ} {lock start now : T} {c : Counter T} {times : List T}

theorem within_append_of_mem {t : T} (hstart : start ≤ t) (hend : t < start + lock) :
    within start lock (times ++ [t]) = within start lock times + 1 := by
  unfold within
  rw [List.countP_append, List.countP_singleton, if_pos (decide_eq_true ⟨hstart, hend⟩)]

theorem within_append_of_not_mem {t : T} (h : ¬ (start ≤ t ∧ t < start + lock)) :
    within start lock (times ++ [t]) = within start lock times := by
  unfold within
  rw [List.countP_append, List.countP_singleton, if_neg (by simpa using h), add_zero]

theorem within_eq_zero (h : ∀ t ∈ times, t < start) : within start lock times = 0 := by
  unfold within
  refine List.countP_eq_zero.2 fun t ht => ?_
  rw [decide_eq_true_eq]
  exact fun hwindow => absurd hwindow.1 (not_le.2 (h t ht))

/-- Before any strike. -/
theorem Bounded.nil (hlimit : 0 < limit) (c : Counter T) (now : T) :
    Bounded limit lock start c [] now where
  positive := hlimit
  past := fun _ h => absurd h List.not_mem_nil
  counted := Or.inl ⟨Nat.zero_le _, hlimit⟩

theorem Bounded.wait (h : Bounded limit lock start c times now) {later : T} (hlater : now ≤ later) :
    Bounded limit lock start c times later where
  positive := h.positive
  past := fun t ht => (h.past t ht).trans hlater
  counted := h.counted.imp id fun hlocked =>
    ⟨hlocked.1, fun t ht hend => hlocked.2 t (hlater.trans ht) hend⟩

/-- **A strike** of an open counter. -/
theorem Bounded.strike [IsOrderedAddMonoid T] (h : Bounded limit lock start c times now)
    (hopen : ¬ c.Locked now) :
    Bounded limit lock start (c.strike limit lock now) (times ++ [now]) now := by
  have hpast : ∀ t ∈ times ++ [now], t ≤ now := by
    intro t ht
    rcases List.mem_append.1 ht with ht | ht
    · exact h.past t ht
    · exact (List.mem_singleton.1 ht).le
  refine ⟨h.positive, hpast, ?_⟩
  by_cases hwindow : start ≤ now ∧ now < start + lock
  · rw [within_append_of_mem hwindow.1 hwindow.2]
    -- an open counter in the window has counted all strikes of the window
    rcases h.counted with ⟨hcounted, hlt⟩ | ⟨-, hlocked⟩
    · unfold Counter.strike
      split
      · refine Or.inr ⟨hlt, fun later _ hend => ⟨now + lock, rfl, hend.trans_le ?_⟩⟩
        exact add_le_add_left hwindow.1 lock
      · rename_i hfew
        refine Or.inl ⟨Nat.succ_le_succ hcounted, ?_⟩
        exact (Nat.succ_le_succ hcounted).trans_lt (not_le.1 hfew)
    · exact absurd (hlocked now le_rfl hwindow.2) hopen
  · rw [within_append_of_not_mem hwindow]
    rcases lt_or_ge now start with hbefore | hafter
    · rw [within_eq_zero fun t ht => (h.past t ht).trans_lt hbefore]
      exact Or.inl ⟨Nat.zero_le _, h.positive⟩
    · have hend : start + lock ≤ now := not_lt.1 fun hlt => hwindow ⟨hafter, hlt⟩
      refine Or.inr ⟨?_, fun later hlater hlt => absurd (hend.trans hlater) (not_le.2 hlt)⟩
      exact h.counted.elim (fun hcounted => hcounted.2.le) And.left

/-- At most `limit` strikes are in the window. -/
theorem Bounded.le (h : Bounded limit lock start c times now) :
    within start lock times ≤ limit :=
  h.counted.elim (fun hcounted => hcounted.2.le) And.left

/-- With all of them taken, the counter is locked till the window ends. -/
theorem Bounded.locked (h : Bounded limit lock start c times now)
    (hall : limit ≤ within start lock times) {later : T} (hlater : now ≤ later)
    (hend : later < start + lock) : c.Locked later :=
  h.counted.elim (fun hcounted => absurd hall (not_le.2 hcounted.2))
    fun hlocked => hlocked.2 later hlater hend

end Lockout
