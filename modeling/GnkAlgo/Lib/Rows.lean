import Mathlib

/-!
# Rows of a table

A table is a list of rows.  This file has the two ways a program rewrites a
row, and how lookups, keys and totals change with them:

* `replaceBy key x` — put `x` in the place of the row with the same key
  (`mem_replaceBy`, `find?_replaceBy`, `sum_replaceBy`);
* `updateFirst p f` — apply `f` to the first row that satisfies `p`
  (`find?_updateFirst`, `sum_updateFirst`), which needs no assumption about
  how many rows satisfy it.

`total p g` adds `g` over the rows that satisfy `p`; `total_append` and
`total_congr` are what the conservation proofs use.
-/

namespace Rows

variable {α κ M : Type*}

/-! ## Replacing the row of a key -/

/-- Put `x` in the place of the row that has its key. -/
def replaceBy [DecidableEq κ] (key : α → κ) (x : α) (rows : List α) : List α :=
  rows.map fun y => if key y = key x then x else y

section ReplaceBy

variable [DecidableEq κ] {key : α → κ} {x y : α} {rows : List α}

theorem mem_replaceBy (h : y ∈ replaceBy key x rows) : y = x ∨ (y ∈ rows ∧ key y ≠ key x) := by
  obtain ⟨z, hz, rfl⟩ := List.mem_map.1 h
  by_cases hk : key z = key x
  · exact Or.inl (by rw [if_pos hk])
  · exact Or.inr ⟨by rwa [if_neg hk], by rwa [if_neg hk]⟩

theorem mem_replaceBy_self (hy : y ∈ rows) (hk : key y = key x) : x ∈ replaceBy key x rows :=
  List.mem_map.2 ⟨y, hy, if_pos hk⟩

theorem mem_replaceBy_of_ne (hy : y ∈ rows) (hk : key y ≠ key x) : y ∈ replaceBy key x rows :=
  List.mem_map.2 ⟨y, hy, if_neg hk⟩

/-- Nothing that is the same for all rows of a key can tell the table changed. -/
theorem map_replaceBy {β : Type*} {g : α → β} (h : ∀ y ∈ rows, key y = key x → g y = g x) :
    (replaceBy key x rows).map g = rows.map g := by
  rw [replaceBy, List.map_map]
  refine List.map_congr_left fun y hy => ?_
  by_cases hk : key y = key x
  · simp [hk, h y hy hk]
  · simp [hk]

theorem map_key_replaceBy : (replaceBy key x rows).map key = rows.map key :=
  map_replaceBy fun _ _ h => h

/-- With one row per key, replacing a row by itself changes nothing. -/
theorem replaceBy_self (hnd : (rows.map key).Nodup) (hx : x ∈ rows) :
    replaceBy key x rows = rows := by
  refine (List.map_congr_left fun y hy => ?_).trans (List.map_id rows)
  by_cases hk : key y = key x
  · rw [if_pos hk, List.inj_on_of_nodup_map hnd hy hx hk, id_eq]
  · rw [if_neg hk, id_eq]

/-- The last replacement of a key counts. -/
theorem replaceBy_replaceBy (h : key y = key x) :
    replaceBy key x (replaceBy key y rows) = replaceBy key x rows := by
  rw [replaceBy, replaceBy, replaceBy, List.map_map]
  refine List.map_congr_left fun z _ => ?_
  by_cases hz : key z = key x
  · simp [hz, h]
  · simp [hz, h]

/-- Replacing a row that was appended under a new key. -/
theorem replaceBy_append_singleton (hnew : ∀ z ∈ rows, key z ≠ key x) (h : key y = key x) :
    replaceBy key x (rows ++ [y]) = rows ++ [x] := by
  rw [replaceBy, List.map_append]
  refine congr_arg₂ _ ?_ (by simp [h])
  exact (List.map_congr_left fun z hz => if_neg (hnew z hz)).trans (List.map_id rows)

theorem find?_replaceBy_of_ne {k : κ} (hk : k ≠ key x) :
    (replaceBy key x rows).find? (key · = k) = rows.find? (key · = k) := by
  induction rows with
  | nil => rfl
  | cons z zs ih =>
    rw [replaceBy, List.map_cons, ← replaceBy]
    by_cases hz : key z = key x
    · have h1 : ¬ key x = k := fun h => hk h.symm
      have h2 : ¬ key z = k := fun h => hk (by rw [← h, hz])
      simp [hz, h1, ih]
    · by_cases hzk : key z = k
      · simp [hk, hzk]
      · simp [hz, hzk, ih]

theorem find?_replaceBy_self (h : ∃ y ∈ rows, key y = key x) :
    (replaceBy key x rows).find? (key · = key x) = some x := by
  induction rows with
  | nil => obtain ⟨y, hy, -⟩ := h; exact absurd hy List.not_mem_nil
  | cons z zs ih =>
    rw [replaceBy, List.map_cons, ← replaceBy]
    by_cases hz : key z = key x
    · simp [hz]
    · obtain ⟨y, hy, hyk⟩ := h
      have hyzs : y ∈ zs := by
        rcases List.mem_cons.1 hy with rfl | hy
        · exact absurd hyk hz
        · exact hy
      simp [hz, ih ⟨y, hyzs, hyk⟩]

/-- Replacing a row by one that agrees with it on `g` does not change what a
lookup by key returns of `g`. -/
theorem find?_map_replaceBy {β : Type*} {g : α → β} (h : ∀ y ∈ rows, key y = key x → g y = g x)
    (k : κ) : ((replaceBy key x rows).find? (key · = k)).map g =
      (rows.find? (key · = k)).map g := by
  induction rows with
  | nil => rfl
  | cons z zs ih =>
    rw [replaceBy, List.map_cons, ← replaceBy]
    have ih' := ih fun y hy => h y (List.mem_cons_of_mem _ hy)
    have hzg := h z (List.mem_cons_self ..)
    by_cases hz : key z = key x
    · by_cases hk : key x = k
      · simp [hz, hk, hzg hz]
      · simp [hz, hk, ih']
    · by_cases hk : key z = k
      · rw [if_neg hz]; simp [hk]
      · simp [hz, hk, ih']

/-- With one row per key, a total changes by the new row minus the old one. -/
theorem sum_replaceBy [AddCommGroup M] {g : α → M} (hnd : (rows.map key).Nodup)
    (hy : y ∈ rows) (hk : key y = key x) :
    ((replaceBy key x rows).map g).sum = (rows.map g).sum - g y + g x := by
  induction rows with
  | nil => exact absurd hy List.not_mem_nil
  | cons z zs ih =>
    rw [replaceBy, List.map_cons, ← replaceBy]
    rw [List.map_cons, List.nodup_cons] at hnd
    simp only [List.map_cons, List.sum_cons]
    by_cases hz : key z = key x
    · have hyz : y = z := by
        rcases List.mem_cons.1 hy with rfl | hy
        · rfl
        · exact absurd (List.mem_map.2 ⟨y, hy, by rw [hk, hz]⟩) hnd.1
      have hrest : replaceBy key x zs = zs := by
        rw [replaceBy]
        refine (List.map_congr_left fun w hw => ?_).trans (List.map_id zs)
        have hne : key w ≠ key x := fun h => hnd.1 (List.mem_map.2 ⟨w, hw, by rw [h, hz]⟩)
        rw [if_neg hne, id_eq]
      rw [if_pos hz, hrest, hyz]
      abel
    · have hyzs : y ∈ zs := by
        rcases List.mem_cons.1 hy with rfl | hy
        · exact absurd hk hz
        · exact hy
      rw [if_neg hz, ih hnd.2 hyzs]
      abel

/-- A selection that the rows of a key pass or fail with `x`. -/
theorem filter_replaceBy {q : α → Bool} (h : ∀ y ∈ rows, key y = key x → q y = q x) :
    (replaceBy key x rows).filter q =
      if q x then replaceBy key x (rows.filter q) else rows.filter q := by
  have hsame : ∀ y ∈ rows, q (if key y = key x then x else y) = q y := by
    intro y hy
    split
    · rename_i hk
      exact (h y hy hk).symm
    · rfl
  have hfilter : (replaceBy key x rows).filter q = replaceBy key x (rows.filter q) := by
    rw [replaceBy, List.filter_map, replaceBy]
    exact congrArg _ (List.filter_congr fun y hy => hsame y hy)
  rw [hfilter]
  split
  · rfl
  · rename_i hx
    refine (List.map_congr_left fun y hy => ?_).trans (List.map_id _)
    obtain ⟨hy, hq⟩ := List.mem_filter.1 hy
    rw [if_neg fun hk => hx ((h y hy hk).symm.trans hq), id_eq]

/-- Rows under other names. -/
theorem map_replaceBy_of_iff {β κ' : Type*} [DecidableEq κ'] {f : α → β} {key' : β → κ'}
    (h : ∀ y ∈ rows, key' (f y) = key' (f x) ↔ key y = key x) :
    (replaceBy key x rows).map f = replaceBy key' (f x) (rows.map f) := by
  rw [replaceBy, replaceBy, List.map_map, List.map_map]
  refine List.map_congr_left fun y hy => ?_
  by_cases hk : key y = key x
  · simp [hk, (h y hy).2 hk]
  · simp [hk, mt (h y hy).1 hk]

end ReplaceBy

/-! ## Updating the first row that matches -/

/-- Apply `f` to the first row that satisfies `p`. -/
def updateFirst (p : α → Bool) (f : α → α) : List α → List α
  | [] => []
  | x :: xs => if p x then f x :: xs else x :: updateFirst p f xs

section UpdateFirst

variable {p : α → Bool} {f : α → α} {x y : α} {rows : List α}

theorem map_updateFirst {β : Type*} {g : α → β} (h : ∀ x, p x → g (f x) = g x) :
    (updateFirst p f rows).map g = rows.map g := by
  induction rows with
  | nil => rfl
  | cons z zs ih =>
    rw [updateFirst]
    by_cases hz : p z
    · rw [if_pos hz, List.map_cons, List.map_cons, h z hz]
    · rw [if_neg hz, List.map_cons, List.map_cons, ih]

theorem find?_updateFirst (hp : ∀ x, p x → p (f x)) :
    (updateFirst p f rows).find? p = (rows.find? p).map f := by
  induction rows with
  | nil => rfl
  | cons z zs ih =>
    rw [updateFirst]
    by_cases hz : p z
    · simp [hz, hp z hz]
    · simp [hz, ih]

/-- A lookup that neither the old nor the new row answers is unchanged. -/
theorem find?_updateFirst_of_disjoint {q : α → Bool}
    (h : ∀ x, p x → q x = false ∧ q (f x) = false) :
    (updateFirst p f rows).find? q = rows.find? q := by
  induction rows with
  | nil => rfl
  | cons z zs ih =>
    rw [updateFirst]
    by_cases hz : p z
    · simp [hz, (h z hz).1, (h z hz).2]
    · rw [if_neg hz, List.find?_cons, List.find?_cons, ih]

/-- A selection that the rows satisfying `p` all pass or all fail. -/
theorem filter_updateFirst {q : α → Bool} {b : Bool} (h : ∀ x, p x → q x = b ∧ q (f x) = b) :
    (updateFirst p f rows).filter q =
      if b then updateFirst p f (rows.filter q) else rows.filter q := by
  induction rows with
  | nil => cases b <;> rfl
  | cons z zs ih =>
    rw [updateFirst]
    by_cases hz : p z
    · obtain ⟨hq, hfq⟩ := h z hz
      cases b <;> simp [hz, hq, hfq, updateFirst]
    · rw [if_neg hz]
      cases hq : q z <;> cases b <;> simp_all [updateFirst]

/-- A total changes by the new row minus the old one. -/
theorem sum_updateFirst [AddCommGroup M] {g : α → M} (hx : rows.find? p = some x) :
    ((updateFirst p f rows).map g).sum = (rows.map g).sum - g x + g (f x) := by
  induction rows with
  | nil => simp at hx
  | cons z zs ih =>
    rw [updateFirst]
    by_cases hz : p z
    · obtain rfl : z = x := by simpa [hz] using hx
      rw [if_pos hz]
      simp only [List.map_cons, List.sum_cons]
      abel
    · rw [if_neg hz]
      simp only [List.map_cons, List.sum_cons]
      rw [ih (by simpa [hz] using hx)]
      abel

end UpdateFirst

/-! ## Totals over the rows that match -/

/-- The total of `g` over the rows that satisfy `p`. -/
def total [AddCommMonoid M] (p : α → Bool) (g : α → M) (rows : List α) : M :=
  ((rows.filter p).map g).sum

section Total

variable [AddCommMonoid M] {p q : α → Bool} {g : α → M} {x : α} {rows rows' : List α}

@[simp] theorem total_nil : total p g [] = 0 := rfl

theorem total_cons : total p g (x :: rows) = (if p x then g x else 0) + total p g rows := by
  by_cases h : p x <;> simp [total, h]

@[simp] theorem total_append :
    total p g (rows ++ rows') = total p g rows + total p g rows' := by
  simp [total]

theorem total_singleton : total p g [x] = if p x then g x else 0 := by
  simp [total_cons]

theorem total_congr (h : ∀ x ∈ rows, p x = q x) : total p g rows = total q g rows := by
  rw [total, total, List.filter_congr h]

theorem total_eq_zero (h : ∀ x ∈ rows, p x = false) : total p g rows = 0 := by
  rw [total, List.filter_eq_nil_iff.2 fun x hx => by simp [h x hx]]
  rfl

theorem total_nonneg {N : Type*} [AddCommMonoid N] [PartialOrder N] [IsOrderedAddMonoid N]
    {f : α → N} (h : ∀ x ∈ rows, 0 ≤ f x) : 0 ≤ total p f rows :=
  List.sum_nonneg fun _ hy => by
    obtain ⟨x, hx, rfl⟩ := List.mem_map.1 hy
    exact h x (List.mem_of_mem_filter hx)

theorem total_le_of_sublist {N : Type*} [AddCommMonoid N] [PartialOrder N] [IsOrderedAddMonoid N]
    {f : α → N} (hsub : rows.Sublist rows') (h : ∀ x ∈ rows', 0 ≤ f x) :
    total p f rows ≤ total p f rows' :=
  List.Sublist.sum_le_sum ((hsub.filter p).map f) fun _ hy => by
    obtain ⟨x, hx, rfl⟩ := List.mem_map.1 hy
    exact h x (List.mem_of_mem_filter hx)

/-- With one row per key, the total over a key is what its row has. -/
theorem total_of_nodup [DecidableEq κ] {key : α → κ} (hnd : (rows.map key).Nodup) (k : κ) :
    total (key · = k) g rows = ((rows.find? (key · = k)).map g).getD 0 := by
  induction rows with
  | nil => rfl
  | cons x xs ih =>
    rw [List.map_cons, List.nodup_cons] at hnd
    rw [total_cons, List.find?_cons]
    by_cases hx : key x = k
    · have hrest : total (key · = k) g xs = 0 := total_eq_zero fun y hy => by
        have : key y ≠ k := fun h => hnd.1 (List.mem_map.2 ⟨y, hy, by rw [h, hx]⟩)
        simp [this]
      simp [hx, hrest]
    · simp [hx, ih hnd.2]

/-- The rows of either of two conditions that no row meets both of. -/
theorem total_or (h : ∀ x ∈ rows, ¬ (p x = true ∧ q x = true)) :
    total (fun x => p x || q x) g rows = total p g rows + total q g rows := by
  induction rows with
  | nil => simp
  | cons x rows ih =>
    have hx := h x (List.mem_cons_self ..)
    rw [total_cons, total_cons, total_cons, ih fun y hy => h y (List.mem_cons_of_mem _ hy)]
    cases hp : p x <;> cases hq : q x
    · simp
    · simpa using add_left_comm ..
    · simpa using (add_assoc ..).symm
    · exact absurd ⟨hp, hq⟩ hx

/-- The total over the rows that have one of several keys is the sum over the keys. -/
theorem total_of_keys [DecidableEq κ] {f : α → Option κ} {keys : List κ} (hnd : keys.Nodup)
    (rows : List α) : total (fun x => ∃ k ∈ keys, f x = some k) g rows =
      (keys.map fun k => total (fun x => f x = some k) g rows).sum := by
  induction keys with
  | nil =>
    rw [List.map_nil, List.sum_nil]
    exact total_eq_zero fun x _ => by simp
  | cons k keys ih =>
    rw [List.nodup_cons] at hnd
    rw [List.map_cons, List.sum_cons, ← ih hnd.2, ← total_or]
    · refine total_congr fun x _ => ?_
      simp [Bool.decide_or]
    · rintro x - ⟨hk, hkeys⟩
      obtain ⟨k', hk', heq⟩ := of_decide_eq_true hkeys
      have hkk' : k = k' := Option.some_inj.1 ((of_decide_eq_true hk).symm.trans heq)
      exact hnd.1 (hkk' ▸ hk')

/-- A total over the rows that match is the sum of a function that is zero on
the others. -/
theorem total_eq_sum : total p g rows = (rows.map fun x => if p x then g x else 0).sum := by
  induction rows with
  | nil => rfl
  | cons x xs ih => rw [total_cons, ih, List.map_cons, List.sum_cons]

end Total

/-- Where no two rows have a key, a row is the only one with its own. -/
theorem filter_eq_singleton [DecidableEq κ] {f : α → Option κ} {x : α} {rows : List α} {k : κ}
    (hnd : (rows.filterMap f).Nodup) (hx : x ∈ rows) (hk : f x = some k) :
    rows.filter (f · = some k) = [x] := by
  induction rows with
  | nil => cases hx
  | cons y ys ih =>
    have hnone : k ∉ ys.filterMap f → ys.filter (f · = some k) = [] := fun h =>
      List.filter_eq_nil_iff.2 fun z hz hzk =>
        h (List.mem_filterMap.2 ⟨z, hz, of_decide_eq_true hzk⟩)
    rcases List.mem_cons.1 hx with rfl | hx
    · rw [List.filterMap_cons_some hk, List.nodup_cons] at hnd
      rw [List.filter_cons, if_pos (by simpa using hk), hnone hnd.1]
    · have hy : f y ≠ some k := fun hyk => by
        rw [List.filterMap_cons_some hyk, List.nodup_cons] at hnd
        exact hnd.1 (List.mem_filterMap.2 ⟨x, hx, hk⟩)
      rw [List.filter_cons, if_neg (by simpa using hy)]
      refine ih (hnd.sublist ?_) hx
      exact (List.sublist_cons_self y ys).filterMap f

/-- A sum to which only the rows that match add, and each at most `c`. -/
theorem sum_le_countP_mul {p : α → Bool} {f : α → ℤ} {c : ℤ} {rows : List α}
    (h : ∀ x ∈ rows, f x ≤ if p x then c else 0) : (rows.map f).sum ≤ rows.countP p * c := by
  induction rows with
  | nil => simp
  | cons x xs ih =>
    have hx := h x (List.mem_cons_self ..)
    have hxs := ih fun y hy => h y (List.mem_cons_of_mem _ hy)
    rw [List.map_cons, List.sum_cons, List.countP_cons]
    by_cases hp : p x
    · rw [if_pos hp] at hx ⊢
      push_cast
      linarith
    · rw [if_neg hp] at hx ⊢
      push_cast
      linarith

/-! ## Adding a row -/

theorem filter_concat_of_pos {p : α → Bool} {x : α} (h : p x) (rows : List α) :
    (rows ++ [x]).filter p = rows.filter p ++ [x] := by
  rw [List.filter_append, List.filter_cons_of_pos h, List.filter_nil]

theorem filter_concat_of_neg {p : α → Bool} {x : α} (h : ¬ p x) (rows : List α) :
    (rows ++ [x]).filter p = rows.filter p := by
  rw [List.filter_append, List.filter_cons_of_neg h, List.filter_nil, List.append_nil]

/-! ## Rows of one owner -/

/-- Keys that say whose row it is are all different exactly when those of each
owner are. -/
theorem nodup_filterMap_iff {ω : Type*} [DecidableEq ω] {owner : α → ω} {f : α → Option κ}
    {rows : List α} (h : ∀ x y k, f x = some k → f y = some k → owner x = owner y) :
    (rows.filterMap f).Nodup ↔ ∀ u, ((rows.filter (owner · = u)).filterMap f).Nodup := by
  constructor
  · intro hnd u
    exact hnd.sublist (List.Sublist.filterMap f List.filter_sublist)
  · intro hall
    induction rows with
    | nil => exact List.nodup_nil
    | cons x rows ih =>
      have hrest := ih fun u => (hall u).sublist
        (List.Sublist.filterMap f ((List.sublist_cons_self x rows).filter _))
      cases hx : f x with
      | none => rwa [List.filterMap_cons_none hx]
      | some k =>
        rw [List.filterMap_cons_some hx, List.nodup_cons]
        refine ⟨fun hk => ?_, hrest⟩
        obtain ⟨y, hy, hyk⟩ := List.mem_filterMap.1 hk
        have hself := hall (owner x)
        rw [List.filter_cons_of_pos (by simp), List.filterMap_cons_some hx, List.nodup_cons] at hself
        exact hself.1 (List.mem_filterMap.2
          ⟨y, List.mem_filter.2 ⟨hy, by simp [h y x k hyk hx]⟩, hyk⟩)

/-- Where only the rows of `u` have changed, only their keys can collide. -/
theorem nodup_filterMap_iff_of_owner {ω : Type*} [DecidableEq ω] {owner : α → ω}
    {f : α → Option κ} {rows rows' : List α} {u : ω}
    (h : ∀ x y k, f x = some k → f y = some k → owner x = owner y)
    (hothers : ∀ v ≠ u, rows'.filter (owner · = v) = rows.filter (owner · = v))
    (hnd : (rows.filterMap f).Nodup) :
    (rows'.filterMap f).Nodup ↔ ((rows'.filter (owner · = u)).filterMap f).Nodup := by
  rw [nodup_filterMap_iff h]
  refine ⟨fun hall => hall u, fun hu v => ?_⟩
  by_cases hv : v = u
  · exact hv ▸ hu
  · rw [hothers v hv]
    exact (nodup_filterMap_iff h).1 hnd v

/-! ## Two lists row by row -/

section Forall₂

variable {β : Type*} {R : α → β → Prop} {rows : List α} {rows' : List β} {x : α} {y : β}

theorem exists_right_of_forall₂ (h : List.Forall₂ R rows rows') (hx : x ∈ rows) :
    ∃ y ∈ rows', R x y := by
  induction h with
  | nil => cases hx
  | @cons a b l l' hab _ ih =>
    rcases List.mem_cons.1 hx with rfl | hx
    · exact ⟨b, List.mem_cons_self .., hab⟩
    · obtain ⟨y, hy, hxy⟩ := ih hx
      exact ⟨y, List.mem_cons_of_mem _ hy, hxy⟩

theorem exists_left_of_forall₂ (h : List.Forall₂ R rows rows') (hy : y ∈ rows') :
    ∃ x ∈ rows, R x y :=
  exists_right_of_forall₂ h.flip hy

theorem map_eq_of_forall₂ {γ : Type*} {f : α → γ} {g : β → γ} (h : List.Forall₂ R rows rows')
    (hfg : ∀ x y, R x y → g y = f x) : rows'.map g = rows.map f := by
  induction h with
  | nil => rfl
  | cons hab _ ih => rw [List.map_cons, List.map_cons, hfg _ _ hab, ih]

/-- Fewer rows count where a row counts only if the one it comes from does. -/
theorem countP_le_of_forall₂ {p : α → Bool} {q : β → Bool} (h : List.Forall₂ R rows rows')
    (hpq : ∀ x y, R x y → q y → p x) : rows'.countP q ≤ rows.countP p := by
  induction h with
  | nil => exact le_rfl
  | @cons x y l l' hxy _ ih =>
    rw [List.countP_cons, List.countP_cons]
    by_cases hq : q y = true
    · rw [if_pos hq, if_pos (hpq x y hxy hq)]
      exact Nat.succ_le_succ ih
    · rw [if_neg hq]
      exact Nat.le_add_right_of_le ih

/-- Replacing a row keeps a relation to older rows that the new one keeps. -/
theorem forall₂_replaceBy [DecidableEq κ] {key : β → κ} (h : List.Forall₂ R rows rows')
    (hy : ∀ x z, z ∈ rows' → key z = key y → R x z → R x y) :
    List.Forall₂ R rows (replaceBy key y rows') := by
  induction h with
  | nil => exact .nil
  | @cons x z l l' hxz _ ih =>
    refine .cons ?_ (ih fun x' z' hz' => hy x' z' (List.mem_cons_of_mem _ hz'))
    dsimp only
    split_ifs with hkey
    · exact hy x z (List.mem_cons_self ..) hkey hxz
    · exact hxz

end Forall₂

/-- Where keys are unique, a row is found under its key. -/
theorem find?_key [DecidableEq κ] {key : α → κ} {x : α} {rows : List α}
    (hnd : (rows.map key).Nodup) (hx : x ∈ rows) : rows.find? (key · = key x) = some x := by
  cases h : rows.find? (key · = key x) with
  | none => exact absurd (List.find?_eq_none.1 h x hx) (by simp)
  | some y =>
    have hkey := List.find?_some h
    rw [List.inj_on_of_nodup_map hnd (List.mem_of_find?_eq_some h) hx (of_decide_eq_true hkey)]

/-- Where keys are unique, a list splits at a key in one way. -/
theorem split_unique_of_nodup {f : α → κ} {rows before after before' after' : List α} {x x' : α}
    (hnd : (rows.map f).Nodup) (h : rows = before ++ x :: after)
    (h' : rows = before' ++ x' :: after') (hf : f x = f x') :
    before = before' ∧ x = x' ∧ after = after' := by
  have hget : ∀ {before after : List α} {x : α}, rows = before ++ x :: after →
      (rows.map f)[before.length]? = some (f x) := by
    rintro before after x rfl
    simp
  have hlength : before.length = before'.length := by
    have hlt : before.length < (rows.map f).length := by
      rw [List.length_map, h, List.length_append, List.length_cons]
      omega
    refine (List.getElem?_inj hlt hnd).1 ?_
    rw [hget h, hget h', hf]
  obtain ⟨hbefore, hrest⟩ := List.append_inj (h.symm.trans h') hlength
  exact ⟨hbefore, List.cons.inj hrest⟩

/-- Rows with the same keys, found by them as a function of the old rows. -/
theorem eq_map_of_find? [DecidableEq κ] {key : α → κ} {rows rows' : List α} {f : α → α}
    (hnd : (rows.map key).Nodup) (hkeys : rows'.map key = rows.map key)
    (hfind : ∀ x ∈ rows, rows'.find? (key · = key x) = some (f x)) : rows' = rows.map f := by
  have hlength : rows'.length = rows.length := by
    rw [← List.length_map key, hkeys, List.length_map]
  refine List.ext_getElem (by rw [hlength, List.length_map]) fun i hi hi' => ?_
  rw [List.getElem_map]
  have hi'' : i < rows.length := hlength ▸ hi
  have hkey : key rows'[i] = key rows[i] := by
    have := congrArg (·[i]?) hkeys
    simpa [hi, hi''] using this
  have hfound := hfind rows[i] (List.getElem_mem hi'')
  -- the row found under the key is the one at this place
  refine List.inj_on_of_nodup_map (hkeys ▸ hnd) (List.getElem_mem hi)
    (List.mem_of_find?_eq_some hfound) ?_
  have := List.find?_some hfound
  exact hkey.trans (of_decide_eq_true this).symm

end Rows
