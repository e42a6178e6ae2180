import Mathlib

/-!
# Crossings of two sequences

A sequence of pairs crosses upwards on a step that leads from `first ≤ second`
to `second < first`, and downwards on one that leads from `second ≤ first` to
`first < second`.  Pairs may touch: a step between two equal pairs, or into one,
is no crossing.

* `last_crossing_up_iff` — wherever the two differ after a crossing, the last
  crossing says which of them is above;
* `exists_crossing_up`, `exists_crossing_down` — a change of sign over any
  number of steps has a crossing among them.
-/

namespace Crossings

inductive Direction
  | up
  | down
  deriving DecidableEq, Repr

/-- The other way. -/
def Direction.flip : Direction → Direction
  | up => down
  | down => up

variable {α : Type*} [LinearOrder α]

/-- What stays true after a crossing until the next one. -/
def Direction.Lasts : Direction → α × α → Prop
  | up, p => p.2 ≤ p.1
  | down, p => p.1 ≤ p.2

/-- The crossing on the step from one pair to the next. -/
def cross (before after : α × α) : Option Direction :=
  if before.1 ≤ before.2 ∧ after.2 < after.1 then some .up
  else if before.2 ≤ before.1 ∧ after.1 < after.2 then some .down
  else none

theorem cross_eq_up_iff {before after : α × α} :
    cross before after = some .up ↔ before.1 ≤ before.2 ∧ after.2 < after.1 := by
  unfold cross
  split_ifs <;> simp_all

theorem cross_eq_down_iff {before after : α × α} :
    cross before after = some .down ↔ before.2 ≤ before.1 ∧ after.1 < after.2 := by
  unfold cross
  split_ifs with hup hdown
  · simpa using fun _ => hup.2.le
  · simpa using hdown
  · simpa using hdown

/-- Exchanging the two sequences turns every crossing round. -/
theorem cross_swap (before after : α × α) :
    cross before.swap after.swap = (cross before after).map .flip := by
  rcases h : cross before after with _ | _ | _
  · have hup : ¬ cross before after = some .up := by simp [h]
    have hdown : ¬ cross before after = some .down := by simp [h]
    rw [cross_eq_up_iff] at hup
    rw [cross_eq_down_iff] at hdown
    exact (if_neg hdown).trans (if_neg hup)
  · exact cross_eq_down_iff.2 (cross_eq_up_iff.1 h)
  · exact cross_eq_up_iff.2 (cross_eq_down_iff.1 h)

section Sequence

variable (s : ℕ → α × α)

/-- The crossings on the steps from `start` on, `count` steps in all. -/
def crossings (start count : ℕ) : List Direction :=
  (List.range' start count).filterMap fun k => cross (s k) (s (k + 1))

@[simp] theorem crossings_zero (start : ℕ) : crossings s start 0 = [] := rfl

theorem crossings_succ (start count : ℕ) : crossings s start (count + 1) =
    crossings s start count ++ (cross (s (start + count)) (s (start + count + 1))).toList := by
  rw [crossings, List.range'_concat, List.filterMap_append, one_mul]
  cases h : cross (s (start + count)) (s (start + count + 1)) <;> simp [crossings, h]

variable {s}

theorem lasts_of_last_crossing {start count : ℕ} {d : Direction}
    (h : (crossings s start count).getLast? = some d) : d.Lasts (s (start + count)) := by
  induction count with
  | zero => simp at h
  | succ count ih =>
    rw [crossings_succ] at h
    cases hc : cross (s (start + count)) (s (start + count + 1)) with
    | some e =>
      rw [hc, Option.toList_some, List.getLast?_concat, Option.some_inj] at h
      subst h
      cases e with
      | up => exact (cross_eq_up_iff.1 hc).2.le
      | down => exact (cross_eq_down_iff.1 hc).2.le
    | none =>
      rw [hc, Option.toList_none, List.append_nil] at h
      have hbefore := ih h
      cases d with
      | up =>
        refine le_of_not_gt fun hlt => ?_
        have hdown := cross_eq_down_iff.2 ⟨hbefore, hlt⟩
        cases hc.symm.trans hdown
      | down =>
        refine le_of_not_gt fun hlt => ?_
        have hup := cross_eq_up_iff.2 ⟨hbefore, hlt⟩
        cases hc.symm.trans hup

/-- **The last crossing says which sequence is above.** -/
theorem last_crossing_up_iff {start count : ℕ} (hsome : crossings s start count ≠ [])
    (hne : (s (start + count)).1 ≠ (s (start + count)).2) :
    (crossings s start count).getLast? = some .up ↔
      (s (start + count)).2 < (s (start + count)).1 := by
  constructor
  · intro h
    exact lt_of_le_of_ne (lasts_of_last_crossing h) hne.symm
  · intro hlt
    obtain ⟨d, hd⟩ := Option.isSome_iff_exists.1 (List.getLast?_isSome.2 hsome)
    cases d with
    | up => exact hd
    | down => exact absurd hlt (not_lt.2 (lasts_of_last_crossing hd))

/-- **A change of sign has a crossing.** -/
theorem exists_crossing_up {i j : ℕ} (hij : i ≤ j) (hbefore : (s i).1 ≤ (s i).2)
    (hafter : (s j).2 < (s j).1) :
    ∃ k, i ≤ k ∧ k < j ∧ cross (s k) (s (k + 1)) = some .up := by
  induction j, hij using Nat.le_induction with
  | base => exact absurd hafter (not_lt.2 hbefore)
  | succ j hij ih =>
    rcases le_or_gt (s j).1 (s j).2 with hle | hlt
    · exact ⟨j, hij, j.lt_succ_self, cross_eq_up_iff.2 ⟨hle, hafter⟩⟩
    · obtain ⟨k, hik, hkj, hk⟩ := ih hlt
      exact ⟨k, hik, by omega, hk⟩

theorem exists_crossing_down {i j : ℕ} (hij : i ≤ j) (hbefore : (s i).2 ≤ (s i).1)
    (hafter : (s j).1 < (s j).2) :
    ∃ k, i ≤ k ∧ k < j ∧ cross (s k) (s (k + 1)) = some .down := by
  obtain ⟨k, hik, hkj, hk⟩ := exists_crossing_up (s := fun k => (s k).swap) hij hbefore hafter
  rw [cross_swap, Option.map_eq_some_iff] at hk
  obtain ⟨d, hd, hflip⟩ := hk
  cases d with
  | up => cases hflip
  | down => exact ⟨k, hik, hkj, hd⟩

end Sequence

end Crossings
