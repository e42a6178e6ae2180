import Mathlib

/-!
# Queues that lose their oldest item

A queue of bounded length: where it is full, a new item takes the place of the oldest
one.  `Accounts` relates what was offered to a queue, what was taken from its front, what
it holds and how many items it has lost.

* `Accounts.push`, `Accounts.pop` — the two moves keep the accounts;
* `Accounts.taken_sublist` — what was taken came in the order in which it was offered;
* `Accounts.eq_of_lost_eq_zero` — and all of it, where nothing was lost.
-/

namespace DropQueue

variable {α : Type*} {cap lost : ℕ} {offered taken queue : List α} {x : α}

/-- A new item at the end; a full queue loses its first one. -/
def push (cap : ℕ) (queue : List α) (x : α) : List α :=
  if cap ≤ queue.length then queue.tail ++ [x] else queue ++ [x]

/-- The items that a push loses. -/
def pushLoss (cap : ℕ) (queue : List α) : ℕ := if cap ≤ queue.length then 1 else 0

/-- The history of a queue that can hold `cap` items. -/
structure Accounts (cap : ℕ) (offered taken queue : List α) (lost : ℕ) : Prop where
  bounded : queue.length ≤ cap
  latest : queue <:+ offered
  order : (taken ++ queue).Sublist offered
  counted : taken.length + queue.length + lost = offered.length

theorem accounts_nil (cap : ℕ) : Accounts cap ([] : List α) [] [] 0 :=
  ⟨Nat.zero_le _, List.suffix_refl _, .slnil, rfl⟩

theorem Accounts.push (h : Accounts cap offered taken queue lost) (hcap : 0 < cap) (x : α) :
    Accounts cap (offered ++ [x]) taken (push cap queue x) (lost + pushLoss cap queue) := by
  have hcounted := h.counted
  unfold DropQueue.push pushLoss
  split
  · rename_i hfull
    -- the queue is not empty, and its first item goes
    cases queue with
    | nil => exact absurd hfull (Nat.not_le.2 hcap)
    | cons y queue =>
      have hbounded := h.bounded
      rw [List.length_cons] at hbounded hcounted
      have htail : (taken ++ queue).Sublist offered :=
        ((List.sublist_cons_self y queue).append_left taken).trans h.order
      refine ⟨?_, ?_, ?_, ?_⟩
      · rw [List.tail_cons, List.length_append, List.length_singleton]
        exact hbounded
      · exact List.suffix_append_self_iff.2 ((List.suffix_cons y queue).trans h.latest)
      · rw [List.tail_cons, ← List.append_assoc]
        exact htail.append_right [x]
      · rw [List.tail_cons, List.length_append, List.length_append, List.length_singleton]
        omega
  · rename_i hroom
    refine ⟨?_, ?_, ?_, ?_⟩
    · rw [List.length_append, List.length_singleton]
      omega
    · exact List.suffix_append_self_iff.2 h.latest
    · rw [← List.append_assoc]
      exact h.order.append_right [x]
    · rw [List.length_append, List.length_append, List.length_singleton]
      omega

theorem Accounts.pop (h : Accounts cap offered taken (x :: queue) lost) :
    Accounts cap offered (taken ++ [x]) queue lost where
  bounded := (Nat.le_succ _).trans h.bounded
  latest := (List.suffix_cons x queue).trans h.latest
  order := by
    rw [List.append_assoc, List.singleton_append]
    exact h.order
  counted := by
    have hcounted := h.counted
    rw [List.length_cons] at hcounted
    rw [List.length_append, List.length_singleton]
    omega

theorem Accounts.taken_sublist (h : Accounts cap offered taken queue lost) :
    taken.Sublist offered :=
  (List.sublist_append_left taken queue).trans h.order

/-- **Nothing is missing** where nothing was lost. -/
theorem Accounts.eq_of_lost_eq_zero (h : Accounts cap offered taken queue 0) :
    taken ++ queue = offered := by
  refine h.order.eq_of_length ?_
  rw [List.length_append]
  exact h.counted

end DropQueue
