import Mathlib.Data.List.Basic
import Mathlib.Data.List.Find

/-!
# Dictionaries over lists

A loop over a list enters each element that has a key under that key, so that a
lookup finds the element entered last.

* `Index.of` — the dictionary;
* `Index.lookup_of` — a lookup as a search from the end of the list;
* `Index.lookup_of_filter` — what is left of it for a part of the elements;
* `Index.lookup_of_assign` — one more element gets a key.
-/

namespace Index

variable {α κ ι : Type*} [DecidableEq κ] {key key' : α → Option κ} {id : α → ι} {l : List α}
  {k : κ} {x : α}

/-- The dictionary of the elements that have a key. -/
def of (key : α → Option κ) (id : α → ι) (l : List α) : List (κ × ι) :=
  (l.filterMap fun x => (key x).map (·, id x)).reverse

omit [DecidableEq κ] in
theorem of_map {β : Type*} (f : β → α) (l : List β) :
    of key id (l.map f) = of (key ∘ f) (id ∘ f) l := by
  rw [of, of, List.filterMap_map]
  rfl

theorem lookup_filterMap (l : List α) :
    (l.filterMap fun x => (key x).map (·, id x)).lookup k =
      (l.find? fun x => key x = some k).map id := by
  induction l with
  | nil => rfl
  | cons x rest ih =>
    cases hx : key x with
    | none =>
      rw [List.filterMap_cons_none (by rw [hx]; rfl), ih, List.find?_cons_of_neg (by simp [hx])]
    | some k' =>
      rw [List.filterMap_cons_some (by rw [hx]; rfl)]
      by_cases hk : k' = k
      · subst hk
        rw [List.lookup_cons_self, List.find?_cons_of_pos (by simp [hx])]
        rfl
      · have hne : (k == k') = false := beq_false_of_ne (Ne.symm hk)
        dsimp only
        rw [List.lookup_cons, hne, ih, List.find?_cons_of_neg (by simp [hx, hk])]

/-- **A lookup** finds the last element that has the key. -/
theorem lookup_of : (of key id l).lookup k = (l.reverse.find? fun x => key x = some k).map id := by
  rw [of, ← List.filterMap_reverse, lookup_filterMap]

theorem lookup_of_eq_none : (of key id l).lookup k = none ↔ ∀ x ∈ l, key x ≠ some k := by
  rw [lookup_of, Option.map_eq_none_iff, List.find?_eq_none]
  simp

theorem exists_of_lookup {i : ι} (h : (of key id l).lookup k = some i) :
    ∃ x ∈ l, key x = some k ∧ id x = i := by
  rw [lookup_of] at h
  obtain ⟨x, hx, rfl⟩ := Option.map_eq_some_iff.1 h
  have hkey := List.find?_some (p := fun x => decide (key x = some k)) hx
  exact ⟨x, List.mem_reverse.1 (List.mem_of_find?_eq_some hx), of_decide_eq_true hkey, rfl⟩

/-- An element that is alone with its key is found. -/
theorem lookup_of_unique (hx : x ∈ l) (hk : key x = some k)
    (h : ∀ y ∈ l, key y = some k → id y = id x) : (of key id l).lookup k = some (id x) := by
  cases hlookup : (of key id l).lookup k with
  | none => exact absurd hk (lookup_of_eq_none.1 hlookup x hx)
  | some i =>
    obtain ⟨y, hy, hyk, rfl⟩ := exists_of_lookup hlookup
    rw [h y hy hyk]

theorem lookup_of_congr (h : ∀ x ∈ l, key' x = some k ↔ key x = some k) :
    (of key' id l).lookup k = (of key id l).lookup k := by
  have hfind : l.reverse.find? (fun x => key' x = some k) =
      l.reverse.find? fun x => key x = some k :=
    List.find?_congr fun x hx => by simp [h x (List.mem_reverse.1 hx)]
  rw [lookup_of, lookup_of, hfind]

/-- **A part of the elements**: one of them that is found is found among them. -/
theorem lookup_of_filter (p : α → Bool) (hinj : ∀ x ∈ l, ∀ y ∈ l, id x = id y → x = y)
    (hx : x ∈ l) (hp : p x) (h : (of key id l).lookup k = some (id x)) :
    (of key id (l.filter p)).lookup k = some (id x) := by
  rw [lookup_of] at h ⊢
  obtain ⟨y, hy, hid⟩ := Option.map_eq_some_iff.1 h
  obtain rfl := hinj y (List.mem_reverse.1 (List.mem_of_find?_eq_some hy)) x hx hid
  rw [← List.filter_reverse, List.find?_filter]
  obtain ⟨hkey, before, after, hl, hbefore⟩ := List.find?_eq_some_iff_append.1 hy
  refine Option.map_eq_some_iff.2 ⟨y, List.find?_eq_some_iff_append.2
    ⟨by simpa [hp] using hkey, before, after, hl, fun z hz => ?_⟩, rfl⟩
  have := hbefore z hz
  simp_all

/-- **One more key**: an element without a key gets one that nobody has. -/
theorem lookup_of_assign {k' : κ} (hx : x ∈ l) (hkey : ∀ y ∈ l, id y = id x → key y = none)
    (hself : key' x = some k') (hsame : ∀ y ∈ l, id y = id x → key' y = some k')
    (hother : ∀ y ∈ l, id y ≠ id x → key' y = key y) (hfresh : ∀ y ∈ l, key y ≠ some k') :
    (of key' id l).lookup k = if k = k' then some (id x) else (of key id l).lookup k := by
  by_cases hk : k = k'
  · subst hk
    rw [if_pos rfl]
    refine lookup_of_unique hx hself fun y hy hyk => ?_
    by_contra hne
    exact hfresh y hy ((hother y hy hne).symm.trans hyk)
  · rw [if_neg hk]
    refine lookup_of_congr fun y hy => ?_
    by_cases hid : id y = id x
    · rw [hsame y hy hid, hkey y hy hid]
      simp [Ne.symm hk]
    · rw [hother y hy hid]

end Index
