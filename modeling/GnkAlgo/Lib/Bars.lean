import Mathlib

/-!
# Bars and their aggregation

A bar has the first and the last price of a stretch of time, the highest, the
lowest, and the volume.  Two stretches that follow one another have the bar
`merge a b`, and a list of stretches the bar `combine bars`.

* `combine_eq_some_iff` — the combined bar opens with the first, closes with the
  last, spans all of them and has the volume of all;
* `combine_flatten` — bars of stretches combine to the bar of the whole;
* `filter_mem_eq_flatten` — what has one of some keys, in a list in the order of
  its keys, is the concatenation of what has the first, the second and so on.
-/

namespace Bars

/-- Open, high, low, close and volume. -/
structure Bar (α : Type*) where
  opening : α
  high : α
  low : α
  close : α
  volume : α
  deriving DecidableEq, Repr

section Merge

variable {α : Type*} [LinearOrder α] [AddMonoid α]

/-- A stretch and the one after it. -/
def Bar.merge (a b : Bar α) : Bar α where
  opening := a.opening
  high := max a.high b.high
  low := min a.low b.low
  close := b.close
  volume := a.volume + b.volume

theorem Bar.merge_assoc (a b c : Bar α) : (a.merge b).merge c = a.merge (b.merge c) := by
  simp [Bar.merge, max_assoc, min_assoc, add_assoc]

/-- A single trade. -/
def Bar.ofTrade (price volume : α) : Bar α := ⟨price, price, price, price, volume⟩

/-- The bar of stretches that follow one another. -/
def combine : List (Bar α) → Option (Bar α)
  | [] => none
  | b :: bs => some (bs.foldl Bar.merge b)

@[simp] theorem combine_nil : combine ([] : List (Bar α)) = none := rfl

@[simp] theorem combine_singleton (b : Bar α) : combine [b] = some b := rfl

theorem foldl_merge (a b : Bar α) (bs : List (Bar α)) :
    bs.foldl Bar.merge (a.merge b) = a.merge (bs.foldl Bar.merge b) := by
  induction bs generalizing b with
  | nil => rfl
  | cons c cs ih => rw [List.foldl_cons, Bar.merge_assoc, ih, List.foldl_cons]

theorem combine_cons {b c : Bar α} {bs : List (Bar α)} (h : combine bs = some c) :
    combine (b :: bs) = some (b.merge c) := by
  cases bs with
  | nil => cases h
  | cons d ds =>
    rw [combine, List.foldl_cons, foldl_merge]
    exact congrArg (fun x => some (b.merge x)) (Option.some_inj.1 h)

theorem combine_append {bs cs : List (Bar α)} {b c : Bar α} (hb : combine bs = some b)
    (hc : combine cs = some c) : combine (bs ++ cs) = some (b.merge c) := by
  cases bs with
  | nil => cases hb
  | cons d ds =>
    obtain rfl := Option.some_inj.1 hb
    cases cs with
    | nil => cases hc
    | cons e es =>
      obtain rfl := Option.some_inj.1 hc
      rw [List.cons_append, combine, List.foldl_append, List.foldl_cons, foldl_merge]

theorem combine_concat {bs : List (Bar α)} {b : Bar α} (hb : combine bs = some b) (c : Bar α) :
    combine (bs ++ [c]) = some (b.merge c) :=
  combine_append hb (combine_singleton c)

theorem combine_isSome_iff {bs : List (Bar α)} : (combine bs).isSome ↔ bs ≠ [] := by
  cases bs <;> simp [combine]

/-- **Bars of stretches combine to the bar of the whole.** -/
theorem combine_flatten {stretches : List (List (Bar α))} {bars : List (Bar α)}
    (h : List.Forall₂ (fun l b => combine l = some b) stretches bars) :
    combine stretches.flatten = combine bars := by
  induction h with
  | nil => rfl
  | @cons l b stretches bars hl hrest ih =>
    rw [List.flatten_cons]
    cases hrest with
    | nil => rw [List.flatten_nil, List.append_nil, hl, combine_singleton]
    | @cons l' b' stretches bars hl' hrest =>
      have hsome : combine (b' :: bars) = some (bars.foldl Bar.merge b') := rfl
      rw [combine_cons hsome]
      exact combine_append hl (ih.trans hsome)

/-- What a bar says of the bars it is made of. -/
structure Bar.Aggregates (b : Bar α) (bars : List (Bar α)) : Prop where
  opening : bars.head?.map Bar.opening = some b.opening
  close : bars.getLast?.map Bar.close = some b.close
  high : IsGreatest {x | ∃ c ∈ bars, Bar.high c = x} b.high
  low : IsLeast {x | ∃ c ∈ bars, Bar.low c = x} b.low
  volume : b.volume = (bars.map Bar.volume).sum

theorem Bar.aggregates_singleton (b : Bar α) : b.Aggregates [b] where
  opening := rfl
  close := rfl
  high := ⟨⟨b, List.mem_singleton.2 rfl, rfl⟩, by simp⟩
  low := ⟨⟨b, List.mem_singleton.2 rfl, rfl⟩, by simp⟩
  volume := by simp

theorem Bar.Aggregates.concat {b : Bar α} {bars : List (Bar α)} (h : b.Aggregates bars)
    (c : Bar α) : (b.merge c).Aggregates (bars ++ [c]) where
  opening := by
    rw [List.head?_append, Option.map_or, h.opening]
    rfl
  close := by simp [Bar.merge]
  high := by
    refine ⟨?_, ?_⟩
    · rcases le_total b.high c.high with hle | hle
      · exact ⟨c, by simp, (max_eq_right hle).symm⟩
      · obtain ⟨x, hx, heq⟩ := h.high.1
        exact ⟨x, List.mem_append_left _ hx, heq.trans (max_eq_left hle).symm⟩
    · rintro _ ⟨x, hx, rfl⟩
      rcases List.mem_append.1 hx with hx | hx
      · exact (h.high.2 ⟨x, hx, rfl⟩).trans (le_max_left ..)
      · rw [List.mem_singleton.1 hx]
        exact le_max_right ..
  low := by
    refine ⟨?_, ?_⟩
    · rcases le_total c.low b.low with hle | hle
      · exact ⟨c, by simp, (min_eq_right hle).symm⟩
      · obtain ⟨x, hx, heq⟩ := h.low.1
        exact ⟨x, List.mem_append_left _ hx, heq.trans (min_eq_left hle).symm⟩
    · rintro _ ⟨x, hx, rfl⟩
      rcases List.mem_append.1 hx with hx | hx
      · exact (min_le_left ..).trans (h.low.2 ⟨x, hx, rfl⟩)
      · rw [List.mem_singleton.1 hx]
        exact min_le_right ..
  volume := by
    rw [List.map_append, List.sum_append, ← h.volume]
    simp [Bar.merge]

/-- **The combined bar** is the one that aggregates. -/
theorem combine_aggregates {bars : List (Bar α)} {b : Bar α} (h : combine bars = some b) :
    b.Aggregates bars := by
  induction bars using List.reverseRecOn generalizing b with
  | nil => cases h
  | append_singleton bars c ih =>
    cases hbars : combine bars with
    | none =>
      have hnil : bars = [] := by
        by_contra hne
        have hsome := combine_isSome_iff.2 hne
        rw [hbars] at hsome
        cases hsome
      subst hnil
      obtain rfl := Option.some_inj.1 h
      exact Bar.aggregates_singleton c
    | some b' =>
      rw [combine_concat hbars] at h
      obtain rfl := Option.some_inj.1 h
      exact (ih hbars).concat c

/-- There is one bar that aggregates. -/
theorem combine_eq_some_iff {bars : List (Bar α)} {b : Bar α} :
    combine bars = some b ↔ b.Aggregates bars := by
  refine ⟨combine_aggregates, fun h => ?_⟩
  cases hbars : combine bars with
  | none =>
    have hnil : bars = [] := by
      by_contra hne
      have hsome := combine_isSome_iff.2 hne
      rw [hbars] at hsome
      cases hsome
    have hopening := h.opening
    rw [hnil] at hopening
    cases hopening
  | some b' =>
    have h' := combine_aggregates hbars
    obtain ⟨opening, high, low, close, volume⟩ := b
    obtain ⟨opening', high', low', close', volume'⟩ := b'
    obtain rfl : opening' = opening := Option.some_inj.1 (h'.opening.symm.trans h.opening)
    obtain rfl : close' = close := Option.some_inj.1 (h'.close.symm.trans h.close)
    obtain rfl : high' = high := h'.high.unique h.high
    obtain rfl : low' = low := h'.low.unique h.low
    obtain rfl : volume' = volume := h'.volume.trans h.volume.symm
    rfl

end Merge

/-! ## Stretches of a list in order -/

section Stretches

variable {α κ : Type*} [LinearOrder κ] {key : α → κ} {l : List α}

/-- In the order of the keys, the elements with a key of `g :: keys` are those
with the key `g` and then those with a later one. -/
theorem filter_cons_mem (hl : l.Pairwise fun x y => key x ≤ key y) {g : κ} {keys : List κ}
    (hg : ∀ k ∈ keys, g < k) : l.filter (key · ∈ g :: keys) =
      l.filter (key · = g) ++ l.filter (key · ∈ keys) := by
  induction l with
  | nil => rfl
  | cons x xs ih =>
    obtain ⟨hx, hxs⟩ := List.pairwise_cons.1 hl
    have hrest := ih hxs
    by_cases hxg : key x = g
    · have hnot : key x ∉ keys := fun hmem => (hg _ hmem).ne' hxg
      rw [List.filter_cons_of_pos (by simp [hxg]), List.filter_cons_of_pos (by simp [hxg]),
        List.filter_cons_of_neg (by simp [hnot]), hrest, List.cons_append]
    by_cases hmem : key x ∈ keys
    · have hnone : xs.filter (key · = g) = [] := by
        refine List.filter_eq_nil_iff.2 fun y hy => ?_
        have hlt := (hg _ hmem).trans_le (hx y hy)
        simpa using hlt.ne'
      rw [hnone, List.nil_append] at hrest
      rw [List.filter_cons_of_pos (by simp [hmem]), List.filter_cons_of_neg (by simp [hxg]),
        List.filter_cons_of_pos (by simp [hmem]), hrest, hnone, List.nil_append]
    · rw [List.filter_cons_of_neg (by simp [hxg, hmem]), List.filter_cons_of_neg (by simp [hxg]),
        List.filter_cons_of_neg (by simp [hmem]), hrest]

/-- **Stretches.** -/
theorem filter_mem_eq_flatten (hl : l.Pairwise fun x y => key x ≤ key y) {keys : List κ}
    (hkeys : keys.Pairwise (· < ·)) :
    l.filter (key · ∈ keys) = (keys.map fun g => l.filter (key · = g)).flatten := by
  induction keys with
  | nil => simp
  | cons g keys ih =>
    obtain ⟨hg, hrest⟩ := List.pairwise_cons.1 hkeys
    rw [filter_cons_mem hl hg, ih hrest, List.map_cons, List.flatten_cons]

end Stretches

end Bars
