import GnkAlgo.Lib.Rows

/-!
# Keyed collections, their differences and batches

`dictBy key items` keeps one item for each key, the last one; `without key xs ys`
keeps those of `xs` whose key none of `ys` has, and `batches size items` cuts a
list into pieces.  The keys of a collection are the finite set `keySet key items`.

* `nodup_dictBy` — no key is there twice;
* `keySet_without`, `sdiff_union_delta` — what is removed and what is added lead
  from one collection to the other;
* `flatten_batches`, `length_of_mem_batches` — the pieces are the list, and what
  their lengths are;
* `foldl_union_batches`, `foldl_sdiff_batches` — adding or removing piece by piece
  adds or removes the whole.
-/

namespace Deltas

open Rows

variable {α κ : Type*} [DecidableEq κ] (key : α → κ)

def keySet (items : List α) : Finset κ := (items.map key).toFinset

@[simp] theorem mem_keySet {items : List α} {k : κ} :
    k ∈ keySet key items ↔ ∃ x ∈ items, key x = k := by
  simp [keySet]

@[simp] theorem keySet_nil : keySet key ([] : List α) = ∅ := rfl

theorem keySet_append (xs ys : List α) : keySet key (xs ++ ys) = keySet key xs ∪ keySet key ys := by
  rw [keySet, List.map_append, List.toFinset_append]
  rfl

theorem keySet_perm {xs ys : List α} (h : xs.Perm ys) : keySet key xs = keySet key ys :=
  List.toFinset_eq_of_perm _ _ (h.map key)

/-! ## Dictionaries -/

/-- A later item takes the place of an earlier one with its key. -/
def dictBy (items : List α) : List α :=
  items.foldl (fun dict x => if key x ∈ dict.map key then replaceBy key x dict else dict ++ [x]) []

variable {key}

/-- **One item for each key.** -/
theorem nodup_dictBy (items : List α) : ((dictBy key items).map key).Nodup := by
  have hfold : ∀ items dict : List α, (dict.map key).Nodup → ((items.foldl (fun dict x =>
      if key x ∈ dict.map key then replaceBy key x dict else dict ++ [x]) dict).map key).Nodup := by
    intro items
    induction items with
    | nil => exact fun _ hdict => hdict
    | cons x items ih =>
      intro dict hdict
      refine ih _ ?_
      dsimp only
      split_ifs with hmem
      · rwa [map_key_replaceBy]
      · rw [List.map_append, List.map_singleton]
        exact hdict.append (List.nodup_singleton _) (List.disjoint_singleton.2 hmem)
  exact hfold items [] List.nodup_nil

/-! ## Differences -/

variable (key)

def without (xs ys : List α) : List α := xs.filter fun x => key x ∉ ys.map key

variable {key}

theorem keySet_without (xs ys : List α) :
    keySet key (without key xs ys) = keySet key xs \ keySet key ys := by
  ext k
  simp only [mem_keySet, without, List.mem_filter, Finset.mem_sdiff, List.mem_map,
    decide_eq_true_eq, not_exists, not_and]
  constructor
  · rintro ⟨x, ⟨hx, hnot⟩, rfl⟩
    exact ⟨⟨x, hx, rfl⟩, hnot⟩
  · rintro ⟨⟨x, hx, rfl⟩, hnot⟩
    exact ⟨x, ⟨hx, hnot⟩, rfl⟩

theorem nodup_without {xs : List α} (h : (xs.map key).Nodup) (ys : List α) :
    ((without key xs ys).map key).Nodup :=
  h.sublist (List.filter_sublist.map key)

/-- What is removed is not what is added. -/
theorem disjoint_without (xs ys : List α) :
    List.Disjoint ((without key xs ys).map key) ((without key ys xs).map key) := by
  intro k hxs hys
  obtain ⟨x, hx, rfl⟩ := List.mem_map.1 hxs
  obtain ⟨y, hy, hkey⟩ := List.mem_map.1 hys
  have hnot : key x ∉ ys.map key := of_decide_eq_true (List.mem_filter.1 hx).2
  exact hnot (List.mem_map.2 ⟨y, (List.mem_filter.1 hy).1, hkey⟩)

/-- **A delta leads from one collection to the other.** -/
theorem sdiff_union_delta (xs ys : List α) :
    (keySet key xs \ keySet key (without key xs ys)) ∪ keySet key (without key ys xs) =
      keySet key ys := by
  rw [keySet_without, keySet_without]
  ext k
  simp only [Finset.mem_union, Finset.mem_sdiff]
  tauto

/-! ## Batches -/

/-- `items[offset : offset + size]` for every `size`-th offset. -/
def batches (size : ℕ) (items : List α) : List (List α) :=
  (List.range ((items.length + size - 1) / size)).map fun i => (items.drop (i * size)).take size

omit [DecidableEq κ] in
theorem flatten_drop_take (size count : ℕ) (items : List α) :
    ((List.range count).map fun i => (items.drop (i * size)).take size).flatten =
      items.take (count * size) := by
  induction count with
  | zero => simp
  | succ count ih =>
    rw [List.range_succ, List.map_append, List.flatten_append, ih, List.map_singleton,
      List.flatten_singleton, Nat.succ_mul, List.take_add]

omit [DecidableEq κ] in
/-- **The pieces are the list.** -/
theorem flatten_batches {size : ℕ} (hsize : 0 < size) (items : List α) :
    (batches size items).flatten = items := by
  rw [batches, flatten_drop_take]
  refine List.take_of_length_le ?_
  have hdiv := Nat.div_add_mod (items.length + size - 1) size
  have hmod := Nat.mod_lt (items.length + size - 1) hsize
  rw [Nat.mul_comm] at hdiv
  omega

omit [DecidableEq κ] in
/-- No piece is empty, and none is longer than the size. -/
theorem length_of_mem_batches {size : ℕ} (hsize : 0 < size) {items piece : List α}
    (h : piece ∈ batches size items) : 1 ≤ piece.length ∧ piece.length ≤ size := by
  obtain ⟨i, hi, rfl⟩ := List.mem_map.1 h
  have hoffset : (i + 1) * size ≤ items.length + size - 1 :=
    (Nat.le_div_iff_mul_le hsize).1 (List.mem_range.1 hi)
  rw [Nat.succ_mul] at hoffset
  rw [List.length_take, List.length_drop]
  exact ⟨le_min hsize (by omega), min_le_left _ _⟩

theorem foldl_union_keys (pieces : List (List α)) (held : Finset κ) :
    pieces.foldl (fun held piece => held ∪ keySet key piece) held =
      held ∪ keySet key pieces.flatten := by
  induction pieces generalizing held with
  | nil => simp
  | cons piece pieces ih =>
    rw [List.foldl_cons, ih, List.flatten_cons, keySet_append, Finset.union_assoc]

theorem foldl_sdiff_keys (pieces : List (List α)) (held : Finset κ) :
    pieces.foldl (fun held piece => held \ keySet key piece) held =
      held \ keySet key pieces.flatten := by
  induction pieces generalizing held with
  | nil => simp
  | cons piece pieces ih =>
    rw [List.foldl_cons, ih, List.flatten_cons, keySet_append, sdiff_sdiff_left]
    rfl

/-- Adding piece by piece adds the whole. -/
theorem foldl_union_batches {size : ℕ} (hsize : 0 < size) (items : List α) (held : Finset κ) :
    (batches size items).foldl (fun held piece => held ∪ keySet key piece) held =
      held ∪ keySet key items := by
  rw [foldl_union_keys, flatten_batches hsize]

/-- Removing piece by piece removes the whole. -/
theorem foldl_sdiff_batches {size : ℕ} (hsize : 0 < size) (items : List α) (held : Finset κ) :
    (batches size items).foldl (fun held piece => held \ keySet key piece) held =
      held \ keySet key items := by
  rw [foldl_sdiff_keys, flatten_batches hsize]

end Deltas
