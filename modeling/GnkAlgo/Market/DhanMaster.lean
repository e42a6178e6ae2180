import GnkAlgo.Market.Instruments

/-!
# The import of the Dhan master

Which instrument each row of the file is put on, and what the table is after the
file.  An instrument with a bare token takes every row with its security id that
no other instrument has the token of, whatever the segment.

* `tokenMap_eq_none_iff`, `legacyMap_eq_some_iff` — the maps of the import;
* `Filed` — the instruments found so far, along the file;
* `identities_putAll` — the symbols made keep the identities apart;
* `Filed.find?_shared` — two keys find one instrument only through a bare token;
* `dhan_import_iff` — when the import keys instruments by segment and security id.
-/

namespace GnkAlgo

open Upserts

variable {F : Type}

/-! ## The maps -/

/-- `by_token` as it is built. -/
def tokenMap (rows : List (Instrument F)) : FeedKey → Option Uuid :=
  rows.foldl noteToken fun _ => none

/-- `legacy_by_security` as it is built. -/
def legacyMap (rows : List (Instrument F)) : String → Option (Option Uuid) :=
  rows.foldl noteLegacy fun _ => none

section Maps

variable {rows : List (Instrument F)} {key : FeedKey} {id : Uuid}

theorem tokenMap_concat (rows : List (Instrument F)) (item : Instrument F)
    (hkey : key.segment ≠ "") :
    tokenMap (rows ++ [item]) key =
      if item.token = .key key then some item.id else tokenMap rows key := by
  unfold tokenMap
  rw [List.foldl_concat]
  generalize rows.foldl noteToken (fun _ => none) = byToken
  unfold noteToken
  cases item.token with
  | none => rfl
  | key other =>
    dsimp only
    rw [Function.update_apply]
    exact if_congr ⟨fun h => h ▸ rfl, fun h => (DhanToken.key.inj h).symm⟩ rfl rfl
  | bare text =>
    have hne : key ≠ ⟨"", text⟩ := fun h => hkey (h ▸ rfl)
    dsimp only
    rw [Function.update_of_ne hne]
    rfl

/-- The map has the last instrument with the token. -/
theorem tokenMap_mem (hkey : key.segment ≠ "") (h : tokenMap rows key = some id) :
    ∃ item ∈ rows, item.token = .key key ∧ item.id = id := by
  induction rows using List.reverseRecOn with
  | nil => cases h
  | append_singleton rows item ih =>
    rw [tokenMap_concat rows item hkey] at h
    split at h
    · rename_i htoken
      exact ⟨item, by simp, htoken, Option.some.inj h⟩
    · obtain ⟨other, hmem, hother⟩ := ih h
      exact ⟨other, List.mem_append_left _ hmem, hother⟩

theorem tokenMap_eq_none_iff (hkey : key.segment ≠ "") :
    tokenMap rows key = none ↔ ∀ item ∈ rows, item.token ≠ .key key := by
  induction rows using List.reverseRecOn with
  | nil => exact iff_of_true rfl fun _ h => absurd h List.not_mem_nil
  | append_singleton rows item ih =>
    rw [tokenMap_concat rows item hkey]
    constructor
    · intro h other hmem
      split at h
      · cases h
      · rename_i htoken
        rcases List.mem_append.1 hmem with hmem | hmem
        · exact ih.1 h other hmem
        · rwa [List.mem_singleton.1 hmem]
    · intro h
      rw [if_neg (h item (by simp))]
      exact ih.2 fun other hmem => h other (List.mem_append_left _ hmem)

theorem tokenMap_id_mem (h : tokenMap rows key = some id) : id ∈ rows.map Instrument.id := by
  induction rows using List.reverseRecOn with
  | nil => cases h
  | append_singleton rows item ih =>
    have hcases : tokenMap (rows ++ [item]) key = tokenMap rows key ∨
        tokenMap (rows ++ [item]) key = some item.id := by
      unfold tokenMap
      rw [List.foldl_concat]
      generalize rows.foldl noteToken (fun _ => none) = byToken
      unfold noteToken
      cases item.token with
      | none => exact Or.inl rfl
      | key other =>
        dsimp only
        rw [Function.update_apply]
        split
        · exact Or.inr rfl
        · exact Or.inl rfl
      | bare text =>
        dsimp only
        rw [Function.update_apply]
        split
        · exact Or.inr rfl
        · exact Or.inl rfl
    rw [List.map_append, List.mem_append]
    rcases hcases with hsame | hitem
    · exact Or.inl (ih (hsame ▸ h))
    · rw [hitem] at h
      cases h
      exact Or.inr (by simp)

/-- Items with the token before and after. -/
theorem tokenMap_map {f : Instrument F → Instrument F} (hkey : key.segment ≠ "")
    (h : ∀ item ∈ rows, (f item).id = item.id ∧
      ((f item).token = .key key ↔ item.token = .key key)) :
    tokenMap (rows.map f) key = tokenMap rows key := by
  induction rows using List.reverseRecOn with
  | nil => rfl
  | append_singleton rows item ih =>
    obtain ⟨hid, htoken⟩ := h item (by simp)
    rw [List.map_append, List.map_singleton, tokenMap_concat _ _ hkey, tokenMap_concat _ _ hkey,
      ih fun other hmem => h other (List.mem_append_left _ hmem), hid]
    exact if_congr htoken rfl rfl

theorem tokenMap_append_of_none {blanks : List (Instrument F)} (hkey : key.segment ≠ "")
    (h : ∀ blank ∈ blanks, blank.token = .none) :
    tokenMap (rows ++ blanks) key = tokenMap rows key := by
  induction blanks using List.reverseRecOn with
  | nil => rw [List.append_nil]
  | append_singleton blanks blank ih =>
    rw [← List.append_assoc, tokenMap_concat _ _ hkey, h blank (by simp),
      if_neg (fun h => nomatch h), ih fun other hmem => h other (List.mem_append_left _ hmem)]

theorem legacyMap_concat (rows : List (Instrument F)) (item : Instrument F) (text : String) :
    legacyMap (rows ++ [item]) text =
      if item.token = .bare text then
        some (if legacyMap rows text = none then some item.id else none)
      else legacyMap rows text := by
  unfold legacyMap
  rw [List.foldl_concat]
  generalize rows.foldl noteLegacy (fun _ => none) = legacy
  unfold noteLegacy
  cases item.token with
  | none => rfl
  | key other => rfl
  | bare other =>
    dsimp only
    rw [Function.update_apply]
    by_cases htext : text = other
    · subst htext
      rw [if_pos rfl, if_pos rfl]
    · rw [if_neg htext, if_neg fun h => htext (DhanToken.bare.inj h).symm]

/-- What the map has where some instruments have a bare token. -/
def soleId : List (Instrument F) → Option (Option Uuid)
  | [] => none
  | [item] => some (some item.id)
  | _ => some none

theorem soleId_concat (found : List (Instrument F)) (item : Instrument F) :
    soleId (found ++ [item]) = some (if soleId found = none then some item.id else none) := by
  match found with
  | [] => rfl
  | [_] => rfl
  | _ :: _ :: _ => rfl

theorem legacyMap_eq (rows : List (Instrument F)) (text : String) :
    legacyMap rows text = soleId (rows.filter (·.token = .bare text)) := by
  induction rows using List.reverseRecOn with
  | nil => rfl
  | append_singleton rows item ih =>
    rw [legacyMap_concat]
    by_cases htoken : item.token = .bare text
    · rw [if_pos htoken, Rows.filter_concat_of_pos (by simpa using htoken), soleId_concat, ih]
    · rw [if_neg htoken, Rows.filter_concat_of_neg (by simpa using htoken), ih]

/-- An instrument is found by its bare token where no other has the same. -/
theorem legacyMap_eq_some_iff {text : String} : (legacyMap rows text).join = some id ↔
    ∃ item, rows.filter (·.token = .bare text) = [item] ∧ item.id = id := by
  rw [legacyMap_eq]
  generalize rows.filter (·.token = .bare text) = found
  match found with
  | [] => simp [soleId]
  | [_] => simp [soleId]
  | _ :: _ :: _ => simp [soleId]

theorem legacyMap_mem {text : String} (h : (legacyMap rows text).join = some id) :
    ∃ item ∈ rows, item.token = .bare text ∧ item.id = id := by
  obtain ⟨item, hfilter, hid⟩ := legacyMap_eq_some_iff.1 h
  have hmem : item ∈ rows.filter (·.token = .bare text) := by rw [hfilter]; simp
  obtain ⟨hrow, htoken⟩ := List.mem_filter.1 hmem
  exact ⟨item, hrow, of_decide_eq_true htoken, hid⟩

end Maps

/-! ## Along the file -/

/-- One primary key per row, and a fresh next one. -/
structure InstrumentTable.Sound (table : InstrumentTable F) : Prop where
  ids : (table.rows.map Instrument.id).Nodup
  fresh : ∀ item ∈ table.rows, item.id < table.nextUuid

theorem InstrumentTable.Sound.lt_of_mem {table : InstrumentTable F} (h : table.Sound) {id : Uuid}
    (hmem : id ∈ table.rows.map Instrument.id) : id < table.nextUuid := by
  obtain ⟨item, hitem, rfl⟩ := List.mem_map.1 hmem
  exact h.fresh item hitem

/-- The parsed rows, one after the other. -/
def ImportState.putAll (s : ImportState F) (vs : List (DhanInstrument F)) : ImportState F :=
  vs.foldl ImportState.put s

/-- The instruments found after some parsed rows, from a table. -/
structure Filed (table : InstrumentTable F) (vs : List (DhanInstrument F)) (s : ImportState F) :
    Prop where
  legacy : s.legacyBySecurity = legacyMap table.rows
  /-- What the table has a token for. -/
  kept : ∀ key id, tokenMap table.rows key = some id → s.byToken key = some id
  /-- What has been made. -/
  made : ∀ key id, s.byToken key = some id → tokenMap table.rows key = none →
    table.nextUuid ≤ id ∧ id < s.nextUuid ∧ (legacyMap table.rows key.securityId).join = none
  apart : ∀ key key' id, s.byToken key = some id → s.byToken key' = some id →
    table.nextUuid ≤ id → key = key'
  fresh : table.nextUuid ≤ s.nextUuid
  held : s.held.map (fun e => (e.1, some e.2)) = vs.map fun v => (v.key, s.find? v.key)
  rows : ∃ blanks, s.rows = patched Instrument.id Instrument.importFrom (fun v => s.find? v.key) vs
      (table.rows ++ blanks) ∧
    ∀ blank ∈ blanks, table.nextUuid ≤ blank.id ∧ blank.id < s.nextUuid ∧ blank.token = .none
  present : ∀ key id, s.find? key = some id → id ∈ s.rows.map Instrument.id

section Put

variable {table : InstrumentTable F} {vs : List (DhanInstrument F)} {s : ImportState F}
  {v : DhanInstrument F} {key : FeedKey} {id : Uuid}

@[simp] theorem Instrument.importFrom_id (item : Instrument F) (v : DhanInstrument F) :
    (item.importFrom v).id = item.id := rfl

@[simp] theorem Instrument.importFrom_importFrom (item : Instrument F) (v w : DhanInstrument F) :
    (item.importFrom v).importFrom w = item.importFrom w := rfl

@[simp] theorem Instrument.importFrom_identity (item : Instrument F) (v : DhanInstrument F) :
    (item.importFrom v).identity = item.identity := rfl

theorem ImportState.put_of_some (h : s.find? v.key = some id) :
    s.put v = { s with
      rows := updateById Instrument.id id (·.importFrom v) s.rows
      updated := s.updated + 1
      held := s.held ++ [(v.key, id)] } := by
  unfold ImportState.put
  rw [h]

theorem ImportState.put_of_none (h : s.find? v.key = none) :
    s.put v = { s with
      rows := s.rows ++ [(s.newInstrument v).importFrom v]
      nextUuid := s.nextUuid + 1
      byToken := Function.update s.byToken v.key (some s.nextUuid)
      identities := s.identities ++ [(s.newInstrument v).identity]
      created := s.created + 1
      held := s.held ++ [(v.key, s.nextUuid)] } := by
  unfold ImportState.put
  rw [h]

/-- A row finds what earlier ones did. -/
theorem find?_put (h : s.find? key = some id) : (s.put v).find? key = some id := by
  cases hfind : s.find? v.key with
  | some found =>
    rw [ImportState.put_of_some hfind]
    exact h
  | none =>
    rw [ImportState.put_of_none hfind]
    have hne : key ≠ v.key := by
      rintro rfl
      rw [hfind] at h
      cases h
    unfold ImportState.find? at h ⊢
    dsimp only
    rw [Function.update_of_ne hne]
    exact h

theorem find?_put_new (h : s.find? v.key = none) : (s.put v).find? v.key = some s.nextUuid := by
  rw [ImportState.put_of_none h]
  unfold ImportState.find?
  dsimp only
  rw [Function.update_self]
  rfl

theorem find?_put_self :
    ∃ id, (s.put v).find? v.key = some id ∧ (s.put v).held = s.held ++ [(v.key, id)] := by
  cases hfind : s.find? v.key with
  | some found =>
    refine ⟨found, find?_put hfind, ?_⟩
    rw [ImportState.put_of_some hfind]
  | none =>
    refine ⟨s.nextUuid, find?_put_new hfind, ?_⟩
    rw [ImportState.put_of_none hfind]

/-- Before the file. -/
theorem filed_start (hsound : table.Sound) : Filed table [] (.start table) where
  legacy := rfl
  kept := fun _ _ h => h
  made := fun key id h hnone => by
    have hsame : tokenMap table.rows key = some id := h
    rw [hnone] at hsame
    cases hsame
  apart := fun key _ id h _ hle => absurd (hsound.lt_of_mem (tokenMap_id_mem h)) (not_lt.2 hle)
  fresh := le_rfl
  held := rfl
  rows := ⟨[], by rw [patched_nil, List.append_nil]; rfl, fun _ h => absurd h List.not_mem_nil⟩
  present := fun key id h => by
    unfold ImportState.find? at h
    rcases Option.or_eq_some_iff.1 h with htoken | ⟨-, hlegacy⟩
    · exact tokenMap_id_mem htoken
    · obtain ⟨item, hmem, -, rfl⟩ := legacyMap_mem hlegacy
      exact List.mem_map_of_mem hmem

/-- Nothing found is ahead of the next primary key. -/
theorem Filed.byToken_lt (hsound : table.Sound) (h : Filed table vs s)
    (htoken : s.byToken key = some id) : id < s.nextUuid := by
  cases hkept : tokenMap table.rows key with
  | none => exact (h.made key id htoken hkept).2.1
  | some id' =>
    have hsame := h.kept key id' hkept
    rw [htoken] at hsame
    cases hsame
    exact (hsound.lt_of_mem (tokenMap_id_mem hkept)).trans_le h.fresh

theorem Filed.mem_held (h : Filed table vs s) (hv : v ∈ vs) :
    ∃ e ∈ s.held, e.1 = v.key ∧ s.find? v.key = some e.2 := by
  have hmem : (v.key, s.find? v.key) ∈ s.held.map (fun e => (e.1, some e.2)) := by
    rw [h.held]
    exact List.mem_map_of_mem hv
  obtain ⟨e, he, heq⟩ := List.mem_map.1 hmem
  exact ⟨e, he, (Prod.mk.inj heq).1, (Prod.mk.inj heq).2.symm⟩

theorem Filed.of_mem_held (h : Filed table vs s) {e : FeedKey × Uuid} (he : e ∈ s.held) :
    ∃ v ∈ vs, e.1 = v.key ∧ s.find? v.key = some e.2 := by
  have hmem : (e.1, some e.2) ∈ vs.map fun v => (v.key, s.find? v.key) := by
    rw [← h.held]
    exact List.mem_map_of_mem (f := fun e : FeedKey × Uuid => (e.1, some e.2)) he
  obtain ⟨v, hv, heq⟩ := List.mem_map.1 hmem
  exact ⟨v, hv, (Prod.mk.inj heq).1.symm, (Prod.mk.inj heq).2⟩

theorem Filed.found (h : Filed table vs s) (hv : v ∈ vs) : ∃ id, s.find? v.key = some id := by
  obtain ⟨e, -, -, hfind⟩ := h.mem_held hv
  exact ⟨e.2, hfind⟩

theorem Filed.find?_put (h : Filed table vs s) {w : DhanInstrument F} (hw : w ∈ vs)
    (v : DhanInstrument F) : (s.put v).find? w.key = s.find? w.key := by
  obtain ⟨id, hid⟩ := h.found hw
  rw [hid]
  exact GnkAlgo.find?_put hid

theorem Filed.held_put (h : Filed table vs s) (v : DhanInstrument F) :
    (s.put v).held.map (fun e => (e.1, some e.2)) =
      (vs ++ [v]).map fun w => (w.key, (s.put v).find? w.key) := by
  obtain ⟨id, hfind, hheld⟩ := find?_put_self (s := s) (v := v)
  rw [hheld, List.map_append, h.held, List.map_append, List.map_singleton, List.map_singleton,
    hfind]
  congr 1
  exact List.map_congr_left fun w hw => by rw [h.find?_put hw]

/-- **A row that finds an instrument.** -/
theorem Filed.put_of_some (h : Filed table vs s) (hfind : s.find? v.key = some id) :
    Filed table (vs ++ [v]) (s.put v) := by
  have hheld := h.held_put v
  obtain ⟨blanks, hrows, hblanks⟩ := h.rows
  rw [ImportState.put_of_some hfind] at hheld ⊢
  refine ⟨h.legacy, h.kept, h.made, h.apart, h.fresh, hheld, ⟨blanks, ?_, hblanks⟩, ?_⟩
  · dsimp only
    rw [hrows]
    exact patched_concat Instrument.importFrom_id Instrument.importFrom_importFrom hfind
  · intro key found hfound
    dsimp only
    rw [map_of_updateById fun item => item.importFrom_id v]
    exact h.present key found hfound

/-- **A row that makes one.** -/
theorem Filed.put_of_none (hsound : table.Sound) (h : Filed table vs s)
    (hfind : s.find? v.key = none) : Filed table (vs ++ [v]) (s.put v) := by
  have hheld := h.held_put v
  have htargets : ∀ w ∈ vs, (s.put v).find? w.key = s.find? w.key := fun w hw => h.find?_put hw v
  have hnew := find?_put_new hfind
  obtain ⟨htoken, hlegacy⟩ := Option.or_eq_none_iff.1 hfind
  obtain ⟨blanks, hrows, hblanks⟩ := h.rows
  rw [ImportState.put_of_none hfind] at hheld htargets hnew ⊢
  refine ⟨h.legacy, ?_, ?_, ?_, h.fresh.trans (Nat.le_succ _), hheld,
    ⟨blanks ++ [s.newInstrument v], ?_, ?_⟩, ?_⟩
  · intro key id hkept
    have hne : key ≠ v.key := by
      rintro rfl
      rw [h.kept _ _ hkept] at htoken
      cases htoken
    dsimp only
    rw [Function.update_of_ne hne]
    exact h.kept key id hkept
  · intro key id hkey hnone
    dsimp only at hkey
    rw [Function.update_apply] at hkey
    split at hkey
    · rename_i heq
      cases hkey
      subst heq
      refine ⟨h.fresh, Nat.lt_succ_self _, ?_⟩
      rw [← h.legacy]
      exact hlegacy
    · obtain ⟨hle, hlt, hjoin⟩ := h.made key id hkey hnone
      exact ⟨hle, hlt.trans (Nat.lt_succ_self _), hjoin⟩
  · intro key key' id hkey hkey' hle
    dsimp only at hkey hkey'
    rw [Function.update_apply] at hkey hkey'
    split at hkey
    · rename_i heq
      split at hkey'
      · rename_i heq'
        rw [heq, heq']
      · cases hkey
        exact absurd (h.byToken_lt hsound hkey') (lt_irrefl _)
    · split at hkey'
      · cases hkey'
        exact absurd (h.byToken_lt hsound hkey) (lt_irrefl _)
      · exact h.apart key key' id hkey hkey' hle
  · have hold : ∀ row ∈ table.rows ++ blanks, some s.nextUuid ≠ some row.id := by
      intro row hrow hid
      have hlt : row.id < s.nextUuid := by
        rcases List.mem_append.1 hrow with hrow | hrow
        · exact (hsound.fresh row hrow).trans_le h.fresh
        · exact (hblanks row hrow).2.1
      exact absurd (Option.some.inj hid) hlt.ne'
    have hlast : ∀ target : DhanInstrument F → Option Uuid, target v = some s.nextUuid →
        patched Instrument.id Instrument.importFrom target (vs ++ [v]) [s.newInstrument v] =
          [(s.newInstrument v).importFrom v] := fun _ htarget => patched_concat_singleton htarget
    dsimp only
    rw [← List.append_assoc, patched_append, patched_concat_of_ne (by rw [hnew]; exact hold),
      patched_congr htargets, ← hrows, hlast _ hnew]
  · intro blank hblank
    rcases List.mem_append.1 hblank with hblank | hblank
    · obtain ⟨hle, hlt, hnone⟩ := hblanks blank hblank
      exact ⟨hle, hlt.trans (Nat.lt_succ_self _), hnone⟩
    · rw [List.mem_singleton.1 hblank]
      exact ⟨h.fresh, Nat.lt_succ_self _, rfl⟩
  · intro key id hkey
    dsimp only
    rw [List.map_append, List.mem_append]
    unfold ImportState.find? at hkey
    dsimp only at hkey
    rw [Function.update_apply] at hkey
    split at hkey
    · cases hkey
      exact Or.inr (by simp [ImportState.newInstrument])
    · exact Or.inl (h.present key id hkey)

theorem Filed.put (hsound : table.Sound) (h : Filed table vs s) (v : DhanInstrument F) :
    Filed table (vs ++ [v]) (s.put v) := by
  cases hfind : s.find? v.key with
  | none => exact h.put_of_none hsound hfind
  | some id => exact h.put_of_some hfind

/-- **Along the file.** -/
theorem filed_putAll (hsound : table.Sound) (vs : List (DhanInstrument F)) :
    Filed table vs ((ImportState.start table).putAll vs) := by
  induction vs using List.reverseRecOn with
  | nil => exact filed_start hsound
  | append_singleton vs v ih =>
    unfold ImportState.putAll at ih ⊢
    rw [List.foldl_concat]
    exact ih.put hsound v

end Put

/-! ## Identities -/

/-- **No two instruments get one identity**: the commit breaks no constraint. -/
theorem identities_putAll {table : InstrumentTable F}
    (hnodup : (table.rows.map Instrument.identity).Nodup) (vs : List (DhanInstrument F)) :
    (((ImportState.start table).putAll vs).rows.map Instrument.identity).Nodup := by
  have hall : ((ImportState.start table).putAll vs).identities =
        ((ImportState.start table).putAll vs).rows.map Instrument.identity ∧
      ((ImportState.start table).putAll vs).identities.Nodup := by
    induction vs using List.reverseRecOn with
    | nil => exact ⟨rfl, hnodup⟩
    | append_singleton vs v ih =>
      have hput : (ImportState.start table).putAll (vs ++ [v]) =
          ((ImportState.start table).putAll vs).put v := List.foldl_concat ..
      rw [hput]
      generalize (ImportState.start table).putAll vs = s at ih ⊢
      obtain ⟨hidentities, hfree⟩ := ih
      cases hfind : s.find? v.key with
      | some id =>
        rw [ImportState.put_of_some hfind]
        refine ⟨?_, hfree⟩
        dsimp only
        rw [hidentities]
        refine (map_of_updateById fun item => ?_).symm
        exact item.importFrom_identity v
      | none =>
        rw [ImportState.put_of_none hfind]
        refine ⟨?_, ?_⟩
        · dsimp only
          rw [hidentities, List.map_append, List.map_singleton, Instrument.importFrom_identity]
        · refine List.Nodup.append hfree (List.nodup_singleton _) ?_
          intro identity hmem hnew
          rw [List.mem_singleton.1 hnew] at hmem
          exact freeSymbol_free s.identities v hmem
  rw [← hall.1]
  exact hall.2

/-! ## Two keys on one instrument -/

section Shared

variable {table : InstrumentTable F} {vs : List (DhanInstrument F)} {s : ImportState F}
  {key key' : FeedKey} {id : Uuid}

theorem InstrumentTable.Sound.eq_of_id (h : table.Sound) {item item' : Instrument F}
    (hitem : item ∈ table.rows) (hitem' : item' ∈ table.rows) (hid : item.id = item'.id) :
    item = item' :=
  List.inj_on_of_nodup_map h.ids hitem hitem' hid

/-- How a key finds its instrument. -/
inductive FoundBy (table : InstrumentTable F) (s : ImportState F) (key : FeedKey) (id : Uuid) : Prop
  | token (item : Instrument F) (hitem : item ∈ table.rows) (htoken : item.token = .key key)
      (hid : item.id = id)
  | bare (item : Instrument F) (hitem : item ∈ table.rows)
      (htoken : item.token = .bare key.securityId) (hid : item.id = id)
      (hnone : tokenMap table.rows key = none)
      (hjoin : (legacyMap table.rows key.securityId).join = some id)
  | made (hle : table.nextUuid ≤ id) (htoken : s.byToken key = some id)

theorem Filed.foundBy (h : Filed table vs s) (hkey : key.segment ≠ "")
    (hfind : s.find? key = some id) : FoundBy table s key id := by
  cases hkept : tokenMap table.rows key with
  | some id' =>
    have hfind' : s.find? key = some id' := by
      unfold ImportState.find?
      rw [h.kept key id' hkept]
      rfl
    obtain rfl := Option.some.inj (hfind.symm.trans hfind')
    obtain ⟨item, hitem, htoken, hid⟩ := tokenMap_mem hkey hkept
    exact .token item hitem htoken hid
  | none =>
    unfold ImportState.find? at hfind
    rcases Option.or_eq_some_iff.1 hfind with htoken | ⟨-, hjoin⟩
    · exact .made (h.made key id htoken hkept).1 htoken
    · rw [h.legacy] at hjoin
      obtain ⟨item, hitem, htoken, hid⟩ := legacyMap_mem hjoin
      exact .bare item hitem htoken hid hkept hjoin

/-- **Two keys find one instrument** only through a bare token. -/
theorem Filed.find?_shared (hsound : table.Sound) (h : Filed table vs s) (hkey : key.segment ≠ "")
    (hkey' : key'.segment ≠ "") (hne : key ≠ key') (hfind : s.find? key = some id)
    (hfind' : s.find? key' = some id) :
    key.securityId = key'.securityId ∧ tokenMap table.rows key = none ∧
      tokenMap table.rows key' = none ∧ (legacyMap table.rows key.securityId).join = some id := by
  have hold : ∀ item ∈ table.rows, item.id = id → ¬ table.nextUuid ≤ id := by
    rintro item hitem rfl
    exact not_le.2 (hsound.fresh item hitem)
  cases h.foundBy hkey hfind with
  | token item hitem htoken hid =>
    cases h.foundBy hkey' hfind' with
    | token item' hitem' htoken' hid' =>
      obtain rfl := hsound.eq_of_id hitem hitem' (hid.trans hid'.symm)
      exact absurd (DhanToken.key.inj (htoken.symm.trans htoken')) hne
    | bare item' hitem' htoken' hid' =>
      obtain rfl := hsound.eq_of_id hitem hitem' (hid.trans hid'.symm)
      cases htoken.symm.trans htoken'
    | made hle => exact absurd hle (hold item hitem hid)
  | bare item hitem htoken hid hnone hjoin =>
    cases h.foundBy hkey' hfind' with
    | token item' hitem' htoken' hid' =>
      obtain rfl := hsound.eq_of_id hitem hitem' (hid.trans hid'.symm)
      cases htoken.symm.trans htoken'
    | bare item' hitem' htoken' hid' hnone' hjoin' =>
      obtain rfl := hsound.eq_of_id hitem hitem' (hid.trans hid'.symm)
      exact ⟨DhanToken.bare.inj (htoken.symm.trans htoken'), hnone, hnone', hjoin⟩
    | made hle => exact absurd hle (hold item hitem hid)
  | made hle htoken =>
    cases h.foundBy hkey' hfind' with
    | token item' hitem' _ hid' => exact absurd hle (hold item' hitem' hid')
    | bare item' hitem' _ hid' => exact absurd hle (hold item' hitem' hid')
    | made _ htoken' => exact absurd (h.apart key key' id htoken htoken' hle) hne

/-- The rows of the file with the security id of a bare token, one that a single
instrument has, and with no instrument of their own are of one segment. -/
def OneSegment (table : InstrumentTable F) (vs : List (DhanInstrument F)) : Prop :=
  ∀ v ∈ vs, ∀ w ∈ vs, v.securityId = w.securityId →
    (table.rows.filter (·.token = .bare v.securityId)).length = 1 →
    (∀ item ∈ table.rows, item.token ≠ .key v.key ∧ item.token ≠ .key w.key) →
    v.feedSegment = w.feedSegment

/-- Different keys are put on different instruments. -/
def Apart (vs : List (DhanInstrument F)) (s : ImportState F) : Prop :=
  ∀ v ∈ vs, ∀ w ∈ vs, v.key ≠ w.key → s.find? v.key ≠ s.find? w.key

theorem Filed.apart_iff (hsound : table.Sound) (h : Filed table vs s)
    (hsegments : ∀ v ∈ vs, v.feedSegment ≠ "") : Apart vs s ↔ OneSegment table vs := by
  constructor
  · intro hapart v hv w hw hid hsole hnone
    by_contra hne
    have hlegacy : ∀ u : DhanInstrument F, u ∈ vs → u.securityId = v.securityId →
        (∀ item ∈ table.rows, item.token ≠ .key u.key) →
        s.find? u.key = (legacyMap table.rows v.securityId).join := by
      intro u hu huid hunone
      obtain ⟨item, hitem⟩ := List.length_eq_one_iff.1 hsole
      have hjoin := legacyMap_eq_some_iff.2 ⟨item, hitem, rfl⟩
      unfold ImportState.find?
      cases htoken : s.byToken u.key with
      | none =>
        rw [h.legacy]
        exact congrArg (fun id => (legacyMap table.rows id).join) huid
      | some id =>
        have hmade := (h.made u.key id htoken
          ((tokenMap_eq_none_iff (hsegments u hu)).2 hunone)).2.2
        have hmade' : (legacyMap table.rows v.securityId).join = none := huid ▸ hmade
        rw [hjoin] at hmade'
        cases hmade'
    refine hapart v hv w hw (fun hkey => hne (FeedKey.mk.inj hkey).1) ?_
    rw [hlegacy v hv rfl fun item hitem => (hnone item hitem).1,
      hlegacy w hw hid.symm fun item hitem => (hnone item hitem).2]
  · intro hone v hv w hw hne heq
    obtain ⟨id, hfind⟩ := h.found hv
    obtain ⟨hid, hnone, hnone', hjoin⟩ := h.find?_shared hsound (hsegments v hv)
      (hsegments w hw) hne
      hfind (heq ▸ hfind)
    obtain ⟨item, hitem, -⟩ := legacyMap_eq_some_iff.1 hjoin
    have hsegment := hone v hv w hw hid
      (by rw [show v.securityId = v.key.securityId from rfl, hitem]; rfl)
      fun item hitem => ⟨(tokenMap_eq_none_iff (hsegments v hv)).1 hnone item hitem,
        (tokenMap_eq_none_iff (hsegments w hw)).1 hnone' item hitem⟩
    exact hne (congrArg₂ FeedKey.mk hsegment hid)

/-- **The last row of a key** is on an instrument with its token. -/
theorem Filed.carried (h : Filed table vs s) (hapart : Apart vs s) {before after}
    {v : DhanInstrument F} (hsplit : vs = before ++ v :: after)
    (hlast : ∀ w ∈ after, w.key ≠ v.key) :
    ∃ item ∈ s.rows, item.token = .key v.key ∧ item.tradingSymbol = v.tradingSymbol := by
  have hv : v ∈ vs := by rw [hsplit]; simp
  obtain ⟨id, hfind⟩ := h.found hv
  obtain ⟨item, hitem, rfl⟩ := List.mem_map.1 (h.present _ _ hfind)
  obtain ⟨blanks, hrows, -⟩ := h.rows
  refine ⟨item, hitem, ?_⟩
  rw [hrows] at hitem
  obtain ⟨row, -, rfl⟩ := List.mem_map.1 hitem
  have hid :
      (patch Instrument.id Instrument.importFrom (fun v => s.find? v.key) vs row).id = row.id :=
    key_patch Instrument.importFrom_id row
  rw [hid] at hfind
  have hupdate : lastFor (fun v => s.find? v.key) row.id vs = some v := by
    rw [hsplit]
    refine lastFor_of_split hfind fun w hw heq => ?_
    exact hapart w (by rw [hsplit]; simp [hw]) v hv (hlast w hw) (heq.trans hfind.symm)
  unfold patch
  rw [hupdate]
  exact ⟨rfl, rfl⟩

/-- The token of a row after the file. -/
theorem token_patch_iff (hapart : Apart vs s) {v : DhanInstrument F} (hv : v ∈ vs)
    (row : Instrument F) :
    (patch Instrument.id Instrument.importFrom (fun v => s.find? v.key) vs row).token = .key v.key ↔
      s.find? v.key = some row.id ∨
        lastFor (fun v => s.find? v.key) row.id vs = none ∧ row.token = .key v.key := by
  unfold patch
  cases hlast : lastFor (fun v => s.find? v.key) row.id vs with
  | none =>
    have hnot := lastFor_eq_none_iff.1 hlast v hv
    exact ⟨fun h => Or.inr ⟨rfl, h⟩, fun h => h.elim (fun h => absurd h hnot) And.right⟩
  | some w =>
    obtain ⟨hw, hfind⟩ := lastFor_mem hlast
    constructor
    · intro h
      have hkey : w.key = v.key := DhanToken.key.inj h
      exact Or.inl (hkey ▸ hfind)
    · rintro (h | ⟨h, -⟩)
      · by_cases hkey : w.key = v.key
        · exact congrArg DhanToken.key hkey
        · exact absurd (hfind.trans h.symm) (hapart w hw v hv hkey)
      · cases h

/-- **The file again** finds every instrument by its token. -/
theorem Filed.tokenMap_again (hsound : table.Sound) (h : Filed table vs s)
    (hsegments : ∀ v ∈ vs, v.feedSegment ≠ "") (hapart : Apart vs s) {v : DhanInstrument F}
    (hv : v ∈ vs) : tokenMap s.rows v.key = s.find? v.key := by
  obtain ⟨blanks, hrows, hblanks⟩ := h.rows
  have hseg := hsegments v hv
  have hblank : ∀ blank ∈ blanks, blank.token = .none := fun blank hmem => (hblanks blank hmem).2.2
  cases hkept : tokenMap table.rows v.key with
  | some id =>
    have hfind : s.find? v.key = some id := by
      unfold ImportState.find?
      rw [h.kept _ _ hkept]
      rfl
    obtain ⟨item, hitem, htoken, rfl⟩ := tokenMap_mem hseg hkept
    have hitem' := hsound.fresh item hitem
    rw [hfind, hrows, patched, tokenMap_map hseg, tokenMap_append_of_none hseg hblank, hkept]
    intro row hrow
    refine ⟨key_patch Instrument.importFrom_id row, (token_patch_iff hapart hv row).trans ?_⟩
    rw [hfind]
    constructor
    · rintro (hid | ⟨-, htoken'⟩)
      · rcases List.mem_append.1 hrow with hrow | hrow
        · rwa [← hsound.eq_of_id hitem hrow (Option.some.inj hid)]
        · rw [Option.some.inj hid] at hitem'
          exact absurd (hblanks row hrow).1 (not_le.2 hitem')
      · exact htoken'
    · intro htoken'
      have hrow : row ∈ table.rows := by
        refine (List.mem_append.1 hrow).resolve_right fun hblankRow => ?_
        rw [hblank row hblankRow] at htoken'
        cases htoken'
      cases hlast : lastFor (fun v => s.find? v.key) row.id vs with
      | none => exact Or.inr ⟨rfl, htoken'⟩
      | some w =>
        obtain ⟨hw, hwfind⟩ := lastFor_mem hlast
        refine Or.inl ?_
        rw [← hfind]
        cases h.foundBy (hsegments w hw) hwfind with
        | token other hother hotherToken hid =>
          obtain rfl := hsound.eq_of_id hother hrow hid
          rw [← DhanToken.key.inj (hotherToken.symm.trans htoken')]
          exact hwfind
        | bare other hother hotherToken hid =>
          obtain rfl := hsound.eq_of_id hother hrow hid
          cases hotherToken.symm.trans htoken'
        | made hle => exact absurd hle (not_le.2 (hsound.fresh row hrow))
  | none =>
    obtain ⟨id, hfind⟩ := h.found hv
    rw [hfind]
    cases htokens : tokenMap s.rows v.key with
    | none =>
      obtain ⟨item, hitem, rfl⟩ := List.mem_map.1 (h.present _ _ hfind)
      refine absurd ?_ ((tokenMap_eq_none_iff hseg).1 htokens item hitem)
      rw [hrows] at hitem
      obtain ⟨row, -, rfl⟩ := List.mem_map.1 hitem
      refine (token_patch_iff hapart hv row).2 (Or.inl ?_)
      rw [hfind]
      exact congrArg some (key_patch Instrument.importFrom_id row)
    | some id' =>
      obtain ⟨item, hitem, htoken, rfl⟩ := tokenMap_mem hseg htokens
      rw [hrows] at hitem
      obtain ⟨row, hrow, rfl⟩ := List.mem_map.1 hitem
      rcases (token_patch_iff hapart hv row).1 htoken with hid | ⟨-, htoken'⟩
      · rw [← hfind, hid]
        exact congrArg some (key_patch Instrument.importFrom_id row)
      · rcases List.mem_append.1 hrow with hrow | hrow
        · exact absurd htoken' ((tokenMap_eq_none_iff hseg).1 hkept row hrow)
        · rw [hblank row hrow] at htoken'
          cases htoken'

theorem Filed.find?_again (hsound : table.Sound) (h : Filed table vs s)
    (hsegments : ∀ v ∈ vs, v.feedSegment ≠ "") (hapart : Apart vs s) (v : DhanInstrument F)
    (hv : v ∈ vs) : (ImportState.start ⟨s.rows, s.nextUuid⟩).find? v.key = s.find? v.key := by
  have htoken := h.tokenMap_again hsound hsegments hapart hv
  obtain ⟨id, hfind⟩ := h.found hv
  rw [hfind] at htoken ⊢
  exact Option.or_eq_some_iff.2 (Or.inl htoken)

end Shared

/-! ## The file -/

section File

variable {lib : CsvLibraries F} {table : InstrumentTable F}

/-- Rows that all find an instrument. -/
theorem putAll_of_found (s : ImportState F) {vs : List (DhanInstrument F)}
    (h : ∀ v ∈ vs, ∃ id, s.find? v.key = some id) :
    (s.putAll vs).rows =
        patched Instrument.id Instrument.importFrom (fun v => s.find? v.key) vs s.rows ∧
      (s.putAll vs).nextUuid = s.nextUuid ∧ (s.putAll vs).created = s.created ∧
      ∀ key, (s.putAll vs).find? key = s.find? key := by
  induction vs using List.reverseRecOn with
  | nil => exact ⟨(patched_nil s.rows).symm, rfl, rfl, fun _ => rfl⟩
  | append_singleton vs v ih =>
    obtain ⟨hrows, huuid, hcreated, hfind⟩ := ih fun w hw => h w (List.mem_append_left _ hw)
    obtain ⟨id, hid⟩ := h v (by simp)
    have hput : s.putAll (vs ++ [v]) = (s.putAll vs).put v := List.foldl_concat ..
    rw [hput, ImportState.put_of_some ((hfind v.key).trans hid)]
    refine ⟨?_, huuid, hcreated, hfind⟩
    dsimp only
    rw [hrows]
    exact patched_concat Instrument.importFrom_id Instrument.importFrom_importFrom hid

/-- The rows of a file that an instrument is found or made for. -/
def parsedRows (lib : CsvLibraries F) (rows : List CsvRow) : List (DhanInstrument F) :=
  rows.filterMap fun row => match parseDhanInstrument lib row with
    | .ok (some v) => some v
    | _ => none

theorem putAll_skipped (s : ImportState F) (vs : List (DhanInstrument F)) (skipped : ℕ) :
    ImportState.putAll { s with skipped := skipped } vs =
      { s.putAll vs with skipped := skipped } := by
  induction vs generalizing s with
  | nil => rfl
  | cons v vs ih =>
    have hput : ImportState.put { s with skipped := skipped } v =
        { s.put v with skipped := skipped } := by
      cases hfind : s.find? v.key with
      | none =>
        have hsame : ImportState.find? { s with skipped := skipped } v.key = none := hfind
        rw [ImportState.put_of_none hfind, ImportState.put_of_none hsame]
        rfl
      | some id =>
        have hsame : ImportState.find? { s with skipped := skipped } v.key = some id := hfind
        rw [ImportState.put_of_some hfind, ImportState.put_of_some hsame]
    have hrest := ih (s.put v)
    rw [← hput] at hrest
    exact hrest

/-- A file all of whose rows parse is read as its parsed rows. -/
theorem foldlM_read {rows : List CsvRow}
    (hparse : ∀ row ∈ rows, ∃ v, parseDhanInstrument lib row = .ok v)
    (s : ImportState F) : ∃ skipped, rows.foldlM (ImportState.read lib) s =
      .ok { s.putAll (parsedRows lib rows) with skipped := skipped } := by
  induction rows generalizing s with
  | nil => exact ⟨s.skipped, rfl⟩
  | cons row rows ih =>
    obtain ⟨v, hv⟩ := hparse row (List.mem_cons_self ..)
    have hrest := ih fun other hmem => hparse other (List.mem_cons_of_mem _ hmem)
    cases v with
    | none =>
      obtain ⟨skipped, hskipped⟩ := hrest { s with skipped := s.skipped + 1 }
      have hread : ImportState.read lib s row = .ok { s with skipped := s.skipped + 1 } := by
        unfold ImportState.read
        rw [hv]
      have hparsed : parsedRows lib (row :: rows) = parsedRows lib rows := by
        unfold parsedRows
        rw [List.filterMap_cons_none (by rw [hv])]
      refine ⟨skipped, ?_⟩
      rw [List.foldlM_cons, hread, hparsed]
      rw [putAll_skipped] at hskipped
      exact hskipped
    | some v =>
      obtain ⟨skipped, hskipped⟩ := hrest (s.put v)
      have hread : ImportState.read lib s row = .ok (s.put v) := by
        unfold ImportState.read
        rw [hv]
      have hparsed : parsedRows lib (row :: rows) = v :: parsedRows lib rows := by
        unfold parsedRows
        rw [List.filterMap_cons_some (by rw [hv])]
      refine ⟨skipped, ?_⟩
      rw [List.foldlM_cons, hread, hparsed]
      exact hskipped

theorem mapped_feedSegment {exchange segmentCode canonicalExchange segment feedSegment : String}
    (h : feedSegments.lookup (exchange, segmentCode) =
      some (canonicalExchange, segment, feedSegment)) :
    feedSegment ≠ "" := by
  have hall : ∀ entry ∈ feedSegments, entry.2.2.2 ≠ "" := by decide
  obtain ⟨before, after, hentries, -⟩ := List.lookup_eq_some_iff.1 h
  exact hall ((exchange, segmentCode), canonicalExchange, segment, feedSegment)
    (by rw [hentries]; simp)

theorem parse_feedSegment {row : CsvRow} {v : DhanInstrument F}
    (h : parseDhanInstrument lib row = .ok (some v)) : v.feedSegment ≠ "" := by
  unfold parseDhanInstrument at h
  dsimp only [bind, Except.bind, pure, Except.pure] at h
  split at h
  · cases h
  split at h
  · rename_i mapped canonicalExchange segment feedSegment hmapped
    have hsegment : feedSegment ≠ "" := by
      split at hmapped
      · cases hmapped
        decide
      · exact mapped_feedSegment hmapped
    -- the row is mapped, and the rest of it parses
    split at h
    · cases h
    split at h
    · cases h
    split at h
    · cases h
    split at h
    · cases h
    cases h
    exact hsegment
  · cases h

/-- **The Dhan master.**  For every table and every file whose rows parse: the rows
with different keys are put on different instruments, each key of the file is then
the token of an instrument with the trading symbol of its last row, and the same
file changes nothing more, exactly when the rows that only a bare token finds an
instrument for are, for each security id, of one segment. -/
theorem dhan_import_iff (lib : CsvLibraries F) (hsound : table.Sound) {file : CsvFile}
    (hheader : file.header) (hparse : ∀ row ∈ file.rows, ∃ v, parseDhanInstrument lib row = .ok v) :
    ∃ s, importDhanInstruments lib table file = (⟨s.rows, s.nextUuid⟩, .ok s) ∧
      s.held.map Prod.fst = (parsedRows lib file.rows).map DhanInstrument.key ∧
      ((∀ e ∈ s.held, ∀ e' ∈ s.held, e.1 ≠ e'.1 → e.2 ≠ e'.2) ∧
        (∀ before v after, parsedRows lib file.rows = before ++ v :: after →
          (∀ w ∈ after, w.key ≠ v.key) →
          ∃ item ∈ s.rows, item.token = .key v.key ∧ item.tradingSymbol = v.tradingSymbol) ∧
        (∃ again, importDhanInstruments lib ⟨s.rows, s.nextUuid⟩ file =
          (⟨s.rows, s.nextUuid⟩, .ok again) ∧ again.created = 0) ↔
      OneSegment table (parsedRows lib file.rows)) := by
  have hsegments : ∀ v ∈ parsedRows lib file.rows, v.feedSegment ≠ "" := by
    intro v hv
    obtain ⟨row, -, hrow⟩ := List.mem_filterMap.1 hv
    split at hrow
    · rename_i hok
      cases hrow
      exact parse_feedSegment hok
    · cases hrow
  have himport : ∀ table : InstrumentTable F, ∃ skipped, importDhanInstruments lib table file =
      (⟨((ImportState.start table).putAll (parsedRows lib file.rows)).rows,
        ((ImportState.start table).putAll (parsedRows lib file.rows)).nextUuid⟩,
        .ok { (ImportState.start table).putAll (parsedRows lib file.rows) with
          skipped := skipped }) := by
    intro table
    obtain ⟨skipped, hread⟩ := foldlM_read hparse (ImportState.start table)
    refine ⟨skipped, ?_⟩
    unfold importDhanInstruments
    rw [if_neg (not_not.2 hheader), hread]
  obtain ⟨skipped, hfirst⟩ := himport table
  have hfiled := filed_putAll hsound (parsedRows lib file.rows)
  generalize (ImportState.start table).putAll (parsedRows lib file.rows) = s at hfirst hfiled
  refine ⟨{ s with skipped := skipped }, hfirst, ?_, ?_⟩
  · have hheld := congrArg (List.map Prod.fst) hfiled.held
    rw [List.map_map, List.map_map] at hheld
    exact hheld
  · rw [← hfiled.apart_iff hsound hsegments]
    constructor
    · rintro ⟨hheld, -, -⟩ v hv w hw hne heq
      obtain ⟨e, he, hkey, hfind⟩ := hfiled.mem_held hv
      obtain ⟨e', he', hkey', hfind'⟩ := hfiled.mem_held hw
      refine hheld e he e' he' (by rwa [hkey, hkey']) ?_
      rw [heq, hfind'] at hfind
      exact (Option.some.inj hfind).symm
    · intro hapart
      refine ⟨fun e he e' he' hne heq => ?_, fun before v after => hfiled.carried hapart, ?_⟩
      · obtain ⟨v, hv, hkey, hfind⟩ := hfiled.of_mem_held he
        obtain ⟨w, hw, hkey', hfind'⟩ := hfiled.of_mem_held he'
        refine hapart v hv w hw (by rwa [← hkey, ← hkey']) ?_
        rw [hfind, hfind', heq]
      · obtain ⟨skipped', hagain⟩ := himport ⟨s.rows, s.nextUuid⟩
        have hsame := hfiled.find?_again hsound hsegments hapart
        obtain ⟨hrows, huuid, hcreated, -⟩ := putAll_of_found (.start ⟨s.rows, s.nextUuid⟩)
          fun v hv => hsame v hv ▸ hfiled.found hv
        rw [patched_congr hsame] at hrows
        have hstill : patched Instrument.id Instrument.importFrom (fun v => s.find? v.key)
            (parsedRows lib file.rows) s.rows = s.rows := by
          obtain ⟨blanks, hblanks, -⟩ := hfiled.rows
          rw [hblanks]
          exact patched_patched Instrument.importFrom_id Instrument.importFrom_importFrom
        rw [hrows.trans hstill, huuid] at hagain
        exact ⟨_, hagain, hcreated⟩

end File

/-! ### One security id in two segments -/

/-- Numbers are not read, letters are taken as they are. -/
def plainCsv : CsvLibraries ℚ where
  strip text := text
  upper text := text
  float _ := none
  int _ := none
  strptime _ _ := none

/-- A row of the detailed master. -/
def masterRow (exchange securityId symbol : String) : CsvRow := fun column =>
  [("EXCH_ID", exchange), ("SEGMENT", "E"), ("SECURITY_ID", securityId), ("INSTRUMENT", "EQUITY"),
    ("SYMBOL_NAME", symbol), ("DISPLAY_NAME", symbol)].lookup column

/-- A table with one instrument, under a bare token. -/
def legacyTable : InstrumentTable ℚ where
  rows := [{
    id := 0
    exchange := "NSE"
    segment := "EQ"
    symbol := "SBIN"
    tradingSymbol := "SBIN"
    instrumentType := "EQUITY"
    token := .bare "1333" }]
  nextUuid := 1

theorem legacyTable_sound : legacyTable.Sound where
  ids := by decide
  fresh := by decide

theorem dhan_import_iff_legacyTable : ∃ s, importDhanInstruments plainCsv legacyTable
    ⟨true, [masterRow "NSE" "1333" "SBIN"]⟩ = (⟨s.rows, s.nextUuid⟩, .ok s) := by
  have hparse : ∀ row ∈ (⟨true, [masterRow "NSE" "1333" "SBIN"]⟩ : CsvFile).rows,
      ∃ v, parseDhanInstrument plainCsv row = .ok v := by
    intro row hrow
    rw [List.mem_singleton.1 hrow]
    exact ⟨_, rfl⟩
  obtain ⟨s, himport, -⟩ := dhan_import_iff plainCsv legacyTable_sound rfl hparse
  exact ⟨s, himport⟩

/-- One security id on two exchanges. -/
def twoSegments : CsvFile where
  rows := [masterRow "NSE" "1333" "SBIN", masterRow "BSE" "1333" "SBIN-B"]

/-- **A bare token takes two keys**: both rows are on the one instrument, and the
same file makes a row the next time. -/
theorem bare_token_takes_two_keys :
    (importDhanInstruments plainCsv legacyTable twoSegments).2.toOption.map (·.held) =
      some [(⟨"NSE_EQ", "1333"⟩, 0), (⟨"BSE_EQ", "1333"⟩, 0)] ∧
    (importDhanInstruments plainCsv (importDhanInstruments plainCsv legacyTable twoSegments).1
      twoSegments).2.toOption.map (·.created) = some 1 := by
  decide +kernel

end GnkAlgo
