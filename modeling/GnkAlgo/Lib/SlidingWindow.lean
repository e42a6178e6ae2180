import GnkAlgo.Lib.Caps

/-!
# Sliding windows

A queue of moments from which the front is evicted as it leaves the window.  Moments
are admitted in order, so that the queue is what the window still has of all that
were admitted.

* `dropWhile_le_eq_filter` — evicting the front of a sorted queue;
* `Holds` — the queue has all that any later window has;
* `Holds.evict`, `Holds.admit` — both operations keep it;
* `capped_admit` — admitting below the limit keeps every window of the width within it.
-/

namespace SlidingWindow

open Caps

/-- What is left of a sorted queue when its front is evicted up to a moment. -/
theorem dropWhile_le_eq_filter {T : Type*} [LinearOrder T] {queue : List T}
    (h : queue.Pairwise (· ≤ ·)) (cut : T) :
    queue.dropWhile (fun x => decide (x ≤ cut)) = queue.filter fun x => cut < x := by
  induction queue with
  | nil => rfl
  | cons x queue ih =>
    obtain ⟨hx, hqueue⟩ := List.pairwise_cons.1 h
    by_cases hcut : x ≤ cut
    · rw [List.dropWhile_cons_of_pos (by simpa using hcut), ih hqueue,
        List.filter_cons_of_neg (by simpa using hcut)]
    · have hlater : ∀ y ∈ x :: queue, cut < y := by
        intro y hy
        rcases List.mem_cons.1 hy with rfl | hy
        · exact not_le.1 hcut
        · exact (not_le.1 hcut).trans_le (hx y hy)
      rw [List.dropWhile_cons_of_neg (by simpa using hcut)]
      exact (List.filter_eq_self.2 fun y hy => decide_eq_true (hlater y hy)).symm

variable {T : Type*} [AddCommGroup T] [LinearOrder T] {width now t : T} {admitted queue : List T}

/-- The queue has, of the moments admitted up to now, all that a window of the width
has that ends now or later. -/
structure Holds (width : T) (admitted queue : List T) (now : T) : Prop where
  sorted : admitted.Pairwise (· ≤ ·)
  past : ∀ x ∈ admitted, x ≤ now
  sublist : queue.Sublist admitted
  recent : ∀ t, now ≤ t →
    queue.filter (fun x => t - width < x) = admitted.filter fun x => t - width < x

theorem holds_nil (width now : T) : Holds width [] [] now :=
  ⟨List.Pairwise.nil, List.forall_mem_nil _, List.Sublist.refl _, fun _ _ => rfl⟩

theorem Holds.later (h : Holds width admitted queue now) (ht : now ≤ t) :
    Holds width admitted queue t :=
  ⟨h.sorted, fun x hx => (h.past x hx).trans ht, h.sublist,
    fun t' ht' => h.recent t' (ht.trans ht')⟩

/-- **Evicted**, the queue is the window that ends now. -/
theorem Holds.evict_eq (h : Holds width admitted queue now) :
    queue.dropWhile (fun x => decide (x ≤ now - width)) =
      admitted.filter fun x => x ∈ Set.Ioc (now - width) now := by
  rw [dropWhile_le_eq_filter (h.sorted.sublist h.sublist), h.recent now le_rfl]
  refine List.filter_congr fun x hx => decide_eq_decide.2 ?_
  exact (and_iff_left (h.past x hx)).symm

/-- What has left the window is in no later one. -/
theorem Holds.evict [IsOrderedAddMonoid T] (h : Holds width admitted queue now) :
    Holds width admitted (queue.dropWhile fun x => decide (x ≤ now - width)) now := by
  have hsorted := h.sorted.sublist h.sublist
  refine ⟨h.sorted, h.past, (List.dropWhile_sublist _).trans h.sublist, fun t ht => ?_⟩
  rw [← h.recent t ht, dropWhile_le_eq_filter hsorted, List.filter_filter]
  refine List.filter_congr fun x _ => ?_
  by_cases hx : t - width < x
  · have hcut : now - width < x := (sub_le_sub_right ht width).trans_lt hx
    rw [decide_eq_true hx, decide_eq_true hcut]
    rfl
  · rw [decide_eq_false hx]
    rfl

theorem Holds.admit (h : Holds width admitted queue now) :
    Holds width (admitted ++ [now]) (queue ++ [now]) now := by
  refine ⟨?_, fun x hx => ?_, h.sublist.append_right _, fun t ht => ?_⟩
  · refine List.pairwise_append.2 ⟨h.sorted, List.pairwise_singleton _ _, fun x hx y hy => ?_⟩
    rw [List.mem_singleton.1 hy]
    exact h.past x hx
  · rcases List.mem_append.1 hx with hx | hx
    · exact h.past x hx
    · exact (List.mem_singleton.1 hx).le
  · rw [List.filter_append, List.filter_append, h.recent t ht]

/-! ## Caps -/

/-- **Admitted below the limit**: windows in which all moments are less than the width
apart stay within it. -/
theorem capped_admit {ι : Type*} {limit : ℕ} {window : ι → T → Prop}
    [∀ i, DecidablePred (window i)] (hnarrow : ∀ i x y, window i x → window i y → x - width < y)
    (h : Capped limit window admitted)
    (hcount : (admitted.filter fun x => now - width < x).length < limit) :
    Capped limit window (admitted ++ [now]) :=
  h.admit hcount fun i hnow y _ hy => hnarrow i now y hnow hy

theorem narrow_Ico [IsOrderedAddMonoid T] {start x y : T} (hx : x ∈ Set.Ico start (start + width))
    (hy : y ∈ Set.Ico start (start + width)) : x - width < y :=
  (sub_lt_iff_lt_add.2 hx.2).trans_le hy.1

theorem narrow_Ioc [IsOrderedAddMonoid T] {start x y : T} (hx : x ∈ Set.Ioc start (start + width))
    (hy : y ∈ Set.Ioc start (start + width)) : x - width < y :=
  (sub_le_iff_le_add.2 hx.2).trans_lt hy.1

end SlidingWindow
