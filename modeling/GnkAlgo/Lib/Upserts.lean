import GnkAlgo.Lib.Rows

/-!
# Updates of rows by key

A list of updates, each with the key of the row it is for.  An update overwrites
what an earlier one of the same row has written, so that each row ends as its last
update leaves it.

* `updateById` — one update;
* `patched` — the rows as their last updates leave them;
* `patched_concat` — an update more;
* `patched_patched` — the same updates again.
-/

namespace Upserts

variable {α β κ : Type*} [DecidableEq κ]

/-- Apply `f` to the row with a key. -/
def updateById (key : α → κ) (k : κ) (f : α → α) (rows : List α) : List α :=
  rows.map fun row => if key row = k then f row else row

theorem map_of_updateById {γ : Type*} {g : α → γ} {key : α → κ} {k : κ} {f : α → α}
    (hf : ∀ row, g (f row) = g row) {rows : List α} :
    (updateById key k f rows).map g = rows.map g := by
  unfold updateById
  rw [List.map_map]
  refine List.map_congr_left fun row _ => ?_
  rw [Function.comp_apply]
  split
  · exact hf row
  · rfl

theorem forall₂_updateById {key : α → κ} {k : κ} {f : α → α} {R : α → α → Prop} {rows : List α}
    (hrefl : ∀ row, R row row) (hf : ∀ row ∈ rows, key row = k → R row (f row)) :
    List.Forall₂ R rows (updateById key k f rows) := by
  refine List.forall₂_map_right_iff.2 (List.forall₂_same.2 fun row hrow => ?_)
  split
  · rename_i hkey
    exact hf row hrow hkey
  · exact hrefl row

/-- Where keys are unique, an update by key is the replacement of one row. -/
theorem updateById_eq_replaceBy {key : α → κ} {f : α → α} {rows : List α} {row : α}
    (hnd : (rows.map key).Nodup) (hrow : row ∈ rows) (hf : key (f row) = key row) :
    updateById key (key row) f rows = Rows.replaceBy key (f row) rows := by
  unfold updateById Rows.replaceBy
  refine List.map_congr_left fun other hother => ?_
  rw [hf]
  split
  · rename_i hkey
    rw [List.inj_on_of_nodup_map hnd hother hrow hkey]
  · rfl

/-- An update of a row whose key is new. -/
theorem updateById_concat_of_fresh {key : α → κ} {f : α → α} {rows : List α} {row : α}
    (hfresh : ∀ other ∈ rows, key other ≠ key row) :
    updateById key (key row) f (rows ++ [row]) = rows ++ [f row] := by
  unfold updateById
  rw [List.map_append, List.map_singleton, if_pos rfl]
  congr 1
  exact (List.map_congr_left fun other hother => if_neg (hfresh other hother)).trans (List.map_id _)

/-- A row with another key is left as it is. -/
theorem mem_updateById_of_ne {key : α → κ} {k : κ} {f : α → α} {rows : List α} {row : α}
    (hrow : row ∈ rows) (hne : key row ≠ k) : row ∈ updateById key k f rows :=
  List.mem_map.2 ⟨row, hrow, if_neg hne⟩

/-- The last update for a key. -/
def lastFor (target : β → Option κ) (k : κ) (updates : List β) : Option β :=
  (updates.filter fun update => target update = some k).getLast?

/-- The row as its last update leaves it. -/
def patch (key : α → κ) (write : α → β → α) (target : β → Option κ) (updates : List β)
    (row : α) : α :=
  match lastFor target (key row) updates with
  | none => row
  | some update => write row update

/-- The rows as their last updates leave them. -/
def patched (key : α → κ) (write : α → β → α) (target : β → Option κ) (updates : List β)
    (rows : List α) : List α :=
  rows.map (patch key write target updates)

section LastFor

variable {target target' : β → Option κ} {k : κ} {updates : List β} {update : β}

@[simp] theorem lastFor_nil : lastFor target k [] = none := rfl

theorem lastFor_concat_of_pos (h : target update = some k) :
    lastFor target k (updates ++ [update]) = some update := by
  unfold lastFor
  rw [Rows.filter_concat_of_pos (by simpa using h), List.getLast?_concat]

theorem lastFor_concat_of_neg (h : target update ≠ some k) :
    lastFor target k (updates ++ [update]) = lastFor target k updates := by
  unfold lastFor
  rw [Rows.filter_concat_of_neg (by simpa using h)]

theorem lastFor_congr (h : ∀ update ∈ updates, target update = target' update) :
    lastFor target k updates = lastFor target' k updates := by
  unfold lastFor
  rw [List.filter_congr fun update hmem => by rw [h update hmem]]

theorem lastFor_mem (h : lastFor target k updates = some update) :
    update ∈ updates ∧ target update = some k := by
  obtain ⟨hmem, htarget⟩ := List.mem_filter.1 (List.mem_of_getLast? h)
  exact ⟨hmem, of_decide_eq_true htarget⟩

theorem lastFor_eq_none_iff :
    lastFor target k updates = none ↔ ∀ update ∈ updates, target update ≠ some k := by
  unfold lastFor
  rw [List.getLast?_eq_none_iff, List.filter_eq_nil_iff]
  simp

/-- The last of the updates for its key. -/
theorem lastFor_of_split {before after : List β} (h : target update = some k)
    (hafter : ∀ other ∈ after, target other ≠ some k) :
    lastFor target k (before ++ update :: after) = some update := by
  have hnone : after.filter (fun other => target other = some k) = [] :=
    List.filter_eq_nil_iff.2 (by simpa using hafter)
  rw [← List.singleton_append, ← List.append_assoc]
  calc lastFor target k (before ++ [update] ++ after) = lastFor target k (before ++ [update]) := by
        unfold lastFor
        rw [List.filter_append, hnone, List.append_nil]
    _ = some update := lastFor_concat_of_pos h

end LastFor

section Patched

variable {key : α → κ} {write : α → β → α} {target target' : β → Option κ} {updates : List β}
  {rows : List α}

theorem patched_nil (rows : List α) : patched key write target [] rows = rows :=
  (List.map_congr_left fun _ _ => rfl).trans (List.map_id rows)

theorem patched_append (rows rows' : List α) :
    patched key write target updates (rows ++ rows') =
      patched key write target updates rows ++ patched key write target updates rows' :=
  List.map_append

theorem patched_congr (h : ∀ update ∈ updates, target update = target' update) :
    patched key write target updates rows = patched key write target' updates rows :=
  List.map_congr_left fun row _ => by
    unfold patch
    rw [lastFor_congr h]

/-- An update for none of the rows. -/
theorem patched_concat_of_ne {update : β} (h : ∀ row ∈ rows, target update ≠ some (key row)) :
    patched key write target (updates ++ [update]) rows = patched key write target updates rows :=
  List.map_congr_left fun row hrow => by
    unfold patch
    rw [lastFor_concat_of_neg (h row hrow)]

theorem patched_concat_singleton {update : β} {row : α} (h : target update = some (key row)) :
    patched key write target (updates ++ [update]) [row] = [write row update] := by
  unfold patched patch
  rw [List.map_singleton, lastFor_concat_of_pos h]

variable (hkey : ∀ row update, key (write row update) = key row)
  (hwrite : ∀ row update update', write (write row update) update' = write row update')

include hkey

theorem key_patch (row : α) : key (patch key write target updates row) = key row := by
  unfold patch
  split
  · rfl
  · exact hkey _ _

theorem map_key_patched : (patched key write target updates rows).map key = rows.map key := by
  unfold patched
  rw [List.map_map]
  exact List.map_congr_left fun row _ => key_patch hkey row

include hwrite

/-- **An update more.** -/
theorem patched_concat {update : β} {k : κ} (h : target update = some k) :
    updateById key k (write · update) (patched key write target updates rows) =
      patched key write target (updates ++ [update]) rows := by
  unfold updateById patched
  rw [List.map_map]
  refine List.map_congr_left fun row _ => ?_
  rw [Function.comp_apply, key_patch hkey]
  unfold patch
  by_cases hrow : key row = k
  · subst hrow
    rw [if_pos rfl, lastFor_concat_of_pos h]
    split
    · rfl
    · exact hwrite _ _ _
  · rw [if_neg hrow, lastFor_concat_of_neg fun heq => hrow (Option.some.inj (heq.symm.trans h))]

/-- **The same updates again** change nothing. -/
theorem patched_patched :
    patched key write target updates (patched key write target updates rows) =
      patched key write target updates rows := by
  unfold patched
  rw [List.map_map]
  refine List.map_congr_left fun row _ => ?_
  rw [Function.comp_apply]
  have hagain : key (patch key write target updates row) = key row := key_patch hkey row
  unfold patch at hagain ⊢
  rw [hagain]
  split
  · rfl
  · exact hwrite _ _ _

end Patched

end Upserts
