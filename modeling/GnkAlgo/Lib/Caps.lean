import Mathlib

/-!
# Caps

Items are admitted one after another, each on a count of the items before it.  A cap
bounds the items of every window of a family.

* `Capped` — no window holds more items than the limit;
* `Capped.admit` — an admission keeps a cap, where the count it was made on covers
  each window the new item falls into;
* `Capped.pass` — so does an item that falls into none;
* `covers_Ico`, `covers_Ioc`, `covers_period` — what a count from a moment on covers.
-/

namespace Caps

variable {α ι : Type*} {limit : ℕ} {window : ι → α → Prop} [∀ i, DecidablePred (window i)]
  {items : List α} {x : α}

/-- No window holds more items than the limit. -/
def Capped (limit : ℕ) (window : ι → α → Prop) [∀ i, DecidablePred (window i)]
    (items : List α) : Prop :=
  ∀ i, (items.filter fun y => window i y).length ≤ limit

theorem capped_nil : Capped limit window [] := fun _ => Nat.zero_le _

/-- An item outside of every window. -/
theorem Capped.pass (h : Capped limit window items) (hx : ∀ i, ¬ window i x) :
    Capped limit window (items ++ [x]) := by
  intro i
  rw [List.filter_append, List.filter_cons_of_neg (by simpa using hx i)]
  simpa using h i

/-- **An admission** on a count that covers the windows of the new item. -/
theorem Capped.admit {counted : α → Prop} [DecidablePred counted]
    (h : Capped limit window items)
    (hcount : (items.filter fun y => counted y).length < limit)
    (hcovers : ∀ i, window i x → ∀ y ∈ items, window i y → counted y) :
    Capped limit window (items ++ [x]) := by
  intro i
  rw [List.filter_append, List.length_append]
  by_cases hx : window i x
  · have hle : (items.filter fun y => window i y).length ≤
        (items.filter fun y => counted y).length := by
      simp only [← List.countP_eq_length_filter]
      apply List.countP_mono_left
      intro y hy hwindow
      simp only [decide_eq_true_eq] at hwindow ⊢
      exact hcovers i hx y hy hwindow
    rw [List.filter_cons_of_pos (by simpa using hx), List.filter_nil, List.length_singleton]
    omega
  · rw [List.filter_cons_of_neg (by simpa using hx)]
    simpa using h i

/-! ## Windows in time -/

section Windows

variable {T : Type*} [AddCommGroup T] [LinearOrder T] [IsOrderedAddMonoid T]
  {start width count new earlier : T}

/-- A count over one width back from a moment covers a window that holds a later one. -/
theorem covers_Ico (hcount : count ≤ new) (hnew : new ∈ Set.Ico start (start + width))
    (hearlier : earlier ∈ Set.Ico start (start + width)) : count - width ≤ earlier := by
  have hlt : count - width < start := sub_lt_iff_lt_add.2 (hcount.trans_lt hnew.2)
  exact hlt.le.trans hearlier.1

theorem covers_Ioc (hcount : count ≤ new) (hnew : new ∈ Set.Ioc start (start + width))
    (hearlier : earlier ∈ Set.Ioc start (start + width)) : count - width ≤ earlier := by
  have hle : count - width ≤ start := sub_le_iff_le_add.2 (hcount.trans hnew.2)
  exact hle.trans hearlier.1.le

end Windows

/-- A count from the beginning of a period on covers that of a later moment. -/
theorem covers_period {T D : Type*} [Preorder T] [Preorder D] {period : T → D}
    (hperiod : Monotone period) {count new earlier : T} (hcount : count ≤ new)
    (hsame : period earlier = period new) : period count ≤ period earlier := by
  rw [hsame]
  exact hperiod hcount

end Caps
