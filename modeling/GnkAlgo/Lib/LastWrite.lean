import Mathlib.Data.List.Induction

/-!
# Registers that a loop writes

A loop over a list may write a register at each of its elements.  What the
register holds at the end is what the last element that writes has written, or
else what it held before.

* `lastWrite` — the register at the end of the loop;
* `lastWrite_lastWrite` — the same loop once more changes nothing;
* `exists_split_last`, `split_last_unique` — the last element of a list with a property.
-/

namespace Writes

variable {α β : Type*}

/-- The last element of a list that has a property. -/
theorem exists_split_last {p : α → Prop} {l : List α} (h : ∃ x ∈ l, p x) :
    ∃ before x after, l = before ++ x :: after ∧ p x ∧ ∀ y ∈ after, ¬ p y := by
  induction l using List.reverseRecOn with
  | nil =>
    obtain ⟨x, hx, -⟩ := h
    cases hx
  | append_singleton l a ih =>
    by_cases ha : p a
    · exact ⟨l, a, [], rfl, ha, List.forall_mem_nil _⟩
    · have hl : ∃ x ∈ l, p x := by
        obtain ⟨x, hx, hpx⟩ := h
        rcases List.mem_append.1 hx with hx | hx
        · exact ⟨x, hx, hpx⟩
        · obtain rfl := List.mem_singleton.1 hx
          exact absurd hpx ha
      obtain ⟨before, x, after, rfl, hpx, hafter⟩ := ih hl
      refine ⟨before, x, after ++ [a], by simp, hpx, fun y hy => ?_⟩
      rcases List.mem_append.1 hy with hy | hy
      · exact hafter y hy
      · obtain rfl := List.mem_singleton.1 hy
        exact ha

/-- There is one such element. -/
theorem split_last_unique {p : α → Prop} {before before' after after' : List α} {x x' : α}
    (h : before ++ x :: after = before' ++ x' :: after') (hx : p x) (hx' : p x')
    (hafter : ∀ y ∈ after, ¬ p y) (hafter' : ∀ y ∈ after', ¬ p y) : before = before' ∧ x = x' := by
  rcases List.append_eq_append_iff.1 h with ⟨l, hl, hrest⟩ | ⟨l, hl, hrest⟩
  · cases l with
    | nil => exact ⟨by simpa using hl.symm, (List.cons.inj hrest).1⟩
    | cons y l =>
      obtain ⟨-, hrest⟩ := List.cons.inj hrest
      exact absurd hx' (hafter x' (by rw [hrest]; simp))
  · cases l with
    | nil => exact ⟨by simpa using hl, (List.cons.inj hrest).1.symm⟩
    | cons y l =>
      obtain ⟨-, hrest⟩ := List.cons.inj hrest
      exact absurd hx (hafter' x (by rw [hrest]; simp))

/-- What a register holds when a loop has written it at some elements of a list. -/
def lastWrite (w : α → Option β) (b : β) (l : List α) : β :=
  l.foldl (fun b x => (w x).getD b) b

variable (w : α → Option β) (b : β)

@[simp] theorem lastWrite_nil : lastWrite w b [] = b := rfl

theorem lastWrite_append_singleton (l : List α) (x : α) :
    lastWrite w b (l ++ [x]) = (w x).getD (lastWrite w b l) := by
  rw [lastWrite, List.foldl_append]
  rfl

/-- **The last write wins.** -/
theorem lastWrite_eq (l : List α) : lastWrite w b l = (l.filterMap w).getLast?.getD b := by
  induction l using List.reverseRecOn with
  | nil => rfl
  | append_singleton l x ih =>
    rw [lastWrite_append_singleton, ih, List.filterMap_append]
    cases hx : w x with
    | none => simp [hx]
    | some c => simp [hx]

/-- What was in a register does not matter where something is written. -/
theorem lastWrite_congr {l : List α} (h : l.filterMap w ≠ []) (b' : β) :
    lastWrite w b l = lastWrite w b' l := by
  rw [lastWrite_eq, lastWrite_eq, List.getLast?_eq_some_getLast h]
  rfl

theorem lastWrite_of_nil {l : List α} (h : l.filterMap w = []) : lastWrite w b l = b := by
  rw [lastWrite_eq, h]
  rfl

/-- **The same writes again** change nothing. -/
theorem lastWrite_lastWrite (l : List α) :
    lastWrite w (lastWrite w b l) l = lastWrite w b l := by
  by_cases h : l.filterMap w = []
  · rw [lastWrite_of_nil w _ h]
  · exact lastWrite_congr w _ h b

/-- Where every element writes, the last one decides. -/
theorem lastWrite_some (f : α → β) (l : List α) :
    lastWrite (fun x => some (f x)) b l = (l.getLast?.map f).getD b := by
  rw [lastWrite_eq, List.filterMap_eq_map', List.getLast?_map]

end Writes
