import Mathlib

/-!
# Sets that expire

The value of a key of a store whose keys hold sets and can be given an expiry:
`sadd`, `srem` and `expire` as such a store carries them out at a moment `now`.
A key that has expired is empty and has no expiry; so is one whose last member
was removed.

A member may be added for a span of time, its *lease*, and be added again before
that span is over.  `taken x` is when the member `x` was last added, if it was
not removed since.  The set `Follows` its leases when it has a member at a moment
exactly where some lease still runs then.

* `follows_take` — adding a member and arming the expiry keeps that;
* `follows_keep_iff`, `follows_drop_iff` — when a renewal that leaves the key
  alone, and a removal, keep it.
-/

/-- The members of a key and, where there is one, the last moment it lives. -/
structure ExpiringSet (α : Type*) where
  members : Finset α
  expireAt : Option ℤ

namespace ExpiringSet

variable {α : Type*}

/-- A key that does not exist. -/
def empty : ExpiringSet α := ⟨∅, none⟩

/-- What is left of a key at a moment. -/
def live (s : ExpiringSet α) (now : ℤ) : ExpiringSet α :=
  if s.expireAt.any (· < now) then empty else s

/-- The key has a member at a moment. -/
def Lasts (s : ExpiringSet α) (now : ℤ) : Prop := (s.live now).members.Nonempty

instance (s : ExpiringSet α) (now : ℤ) : Decidable (s.Lasts now) := by
  unfold Lasts
  infer_instance

/-- `SCARD`. -/
def scard (s : ExpiringSet α) (now : ℤ) : ℕ := (s.live now).members.card

/-- `SMEMBERS`. -/
def smembers (s : ExpiringSet α) (now : ℤ) : Finset α := (s.live now).members

/-- `EXPIRE`, with the span in the unit of the clock. -/
def expire (s : ExpiringSet α) (now span : ℤ) : ExpiringSet α :=
  if s.Lasts now then { (s.live now) with expireAt := some (now + span) } else empty

section Operations

variable [DecidableEq α]

/-- `SADD`. -/
def sadd (s : ExpiringSet α) (now : ℤ) (xs : Finset α) : ExpiringSet α :=
  { (s.live now) with members := (s.live now).members ∪ xs }

/-- `SREM`. -/
def srem (s : ExpiringSet α) (now : ℤ) (x : α) : ExpiringSet α :=
  if ((s.live now).members.erase x).Nonempty then
    { (s.live now) with members := (s.live now).members.erase x }
  else empty

end Operations

variable {s : ExpiringSet α} {now t span : ℤ}

theorem live_of_le (h : ∀ e ∈ s.expireAt, now ≤ e) : s.live now = s := by
  unfold live
  rw [if_neg]
  intro hany
  obtain ⟨e, he, hlt⟩ := (Option.any_eq_true _ _).1 hany
  have hle := h e he
  have hlt := of_decide_eq_true hlt
  omega

theorem le_of_live {e : ℤ} (h : (s.live now).expireAt = some e) : now ≤ e := by
  unfold live at h
  split at h
  · cases h
  · rename_i hany
    rw [h] at hany
    simpa using hany

theorem lasts_iff : s.Lasts t ↔ s.members.Nonempty ∧ ∀ e ∈ s.expireAt, t ≤ e := by
  unfold Lasts live
  split
  · rename_i hany
    obtain ⟨e, he, hlt⟩ := (Option.any_eq_true _ _).1 hany
    have hlt := of_decide_eq_true hlt
    constructor
    · intro h
      exact absurd h (by simp [empty])
    · rintro ⟨-, h⟩
      have hle := h e he
      omega
  · rename_i hany
    have hall : ∀ e ∈ s.expireAt, t ≤ e := fun e he => by
      rw [he] at hany
      simpa using hany
    exact ⟨fun h => ⟨h, hall⟩, And.left⟩

theorem scard_ne_zero : s.scard now ≠ 0 ↔ s.Lasts now := Finset.card_ne_zero

@[simp] theorem not_lasts_empty : ¬ (empty : ExpiringSet α).Lasts t := by
  rw [lasts_iff]
  simp [empty]

theorem lasts_iff_smembers : s.Lasts now ↔ (s.smembers now).Nonempty := Iff.rfl

theorem smembers_of_le (h : ∀ e ∈ s.expireAt, now ≤ e) : s.smembers now = s.members := by
  rw [smembers, live_of_le h]

section Members

variable [DecidableEq α] {x y : α} {xs : Finset α}

/-- Adding members and arming the expiry. -/
theorem mem_smembers_take (hspan : 0 ≤ span) :
    x ∈ ((s.sadd now xs).expire now span).smembers now ↔ x ∈ s.smembers now ∨ x ∈ xs := by
  have hadded : (s.sadd now xs).live now = s.sadd now xs :=
    live_of_le fun e he => le_of_live he
  have hmembers : (s.sadd now xs).smembers now = s.smembers now ∪ xs := by
    rw [smembers, hadded]
    rfl
  rw [← Finset.mem_union, ← hmembers]
  unfold expire
  split
  · rw [smembers_of_le]
    · rfl
    · rintro _ ⟨⟩
      omega
  · rename_i hnone
    rw [lasts_iff_smembers, Finset.not_nonempty_iff_eq_empty] at hnone
    rw [hnone]
    exact Iff.rfl

theorem mem_smembers_srem : x ∈ (s.srem now y).smembers now ↔ x ∈ s.smembers now ∧ x ≠ y := by
  have herase : x ∈ (s.live now).members.erase y ↔ x ∈ s.smembers now ∧ x ≠ y := by
    rw [Finset.mem_erase, and_comm]
    rfl
  rw [← herase]
  unfold srem
  split
  · rw [smembers_of_le]
    exact fun e he => le_of_live he
  · rename_i hnone
    rw [Finset.not_nonempty_iff_eq_empty.1 hnone]
    exact Iff.rfl

end Members

/-- A key that lives on at `now` has the same members until it expires. -/
theorem lasts_live (h : now ≤ t) : (s.live now).Lasts t ↔ s.Lasts t := by
  by_cases hlive : ∀ e ∈ s.expireAt, now ≤ e
  · rw [live_of_le hlive]
  · push Not at hlive
    obtain ⟨e, he, hlt⟩ := hlive
    have hgone : s.live now = empty := if_pos ((Option.any_eq_true _ _).2 ⟨e, he, by simpa using hlt⟩)
    rw [hgone, lasts_iff (s := s)]
    refine iff_of_false not_lasts_empty ?_
    rintro ⟨-, hle⟩
    have := hle e he
    omega

/-- The key has a member exactly where some lease still runs. -/
def Follows (span : ℤ) (s : ExpiringSet α) (taken : α → Option ℤ) (now : ℤ) : Prop :=
  ∀ t, now ≤ t → (s.Lasts t ↔ ∃ x, ∃ at' ∈ taken x, t ≤ at' + span)

theorem Follows.mono {taken : α → Option ℤ} {now' : ℤ} (h : s.Follows span taken now)
    (hle : now ≤ now') : s.Follows span taken now' := fun t ht => h t (hle.trans ht)

section Leases

variable [DecidableEq α] {x : α} {taken : α → Option ℤ}

/-- A lease taken now outlives every lease there is. -/
theorem exists_update_some (htaken : ∀ y, ∀ at' ∈ taken y, at' ≤ now) :
    (∃ y, ∃ at' ∈ Function.update taken x (some now) y, t ≤ at' + span) ↔ t ≤ now + span := by
  constructor
  · rintro ⟨y, at', hat, hle⟩
    have hbound : at' ≤ now := by
      by_cases hy : y = x
      · subst hy
        rw [Function.update_self] at hat
        exact (Option.some_inj.1 hat).ge
      · rw [Function.update_of_ne hy] at hat
        exact htaken y at' hat
    omega
  · intro hle
    exact ⟨x, now, by rw [Function.update_self]; rfl, hle⟩

theorem exists_update_none :
    (∃ y, ∃ at' ∈ Function.update taken x none y, t ≤ at' + span) ↔
      ∃ y, y ≠ x ∧ ∃ at' ∈ taken y, t ≤ at' + span := by
  refine exists_congr fun y => ?_
  by_cases hy : y = x
  · subst hy
    simp
  · simp [hy]

/-- **Taking** a lease. -/
theorem follows_take (htaken : ∀ y, ∀ at' ∈ taken y, at' ≤ now) :
    ((s.sadd now {x}).expire now span).Follows span (Function.update taken x (some now)) now := by
  intro t _
  rw [exists_update_some htaken]
  have hadded : (s.sadd now {x}).live now = s.sadd now {x} :=
    live_of_le fun e he => le_of_live he
  have hlasts : (s.sadd now {x}).Lasts now := by
    unfold Lasts
    rw [hadded]
    simp [sadd]
  rw [expire, if_pos hlasts, hadded, lasts_iff]
  simp [sadd]

/-- **Renewing** a lease without touching the key. -/
theorem follows_keep_iff (hspan : 0 ≤ span) (htaken : ∀ y, ∀ at' ∈ taken y, at' ≤ now) :
    s.Follows span (Function.update taken x (some now)) now ↔
      s.Lasts now ∧ (s.live now).expireAt = some (now + span) := by
  unfold Follows
  simp only [exists_update_some htaken]
  constructor
  · intro h
    have hnow : s.Lasts now := (h now le_rfl).2 (by omega)
    have hlive := live_of_le (lasts_iff.1 hnow).2
    refine ⟨hnow, ?_⟩
    rw [hlive]
    have hend := (lasts_iff.1 ((h (now + span) (by omega)).2 le_rfl)).2
    cases hexpire : s.expireAt with
    | none =>
      have hlater : s.Lasts (now + span + 1) := lasts_iff.2 ⟨(lasts_iff.1 hnow).1, by simp [hexpire]⟩
      have := (h (now + span + 1) (by omega)).1 hlater
      omega
    | some e =>
      have hge := hend e hexpire
      have hlast : s.Lasts e := lasts_iff.2 ⟨(lasts_iff.1 hnow).1, by simp [hexpire]⟩
      have hle := (h e (by omega)).1 hlast
      rw [show e = now + span by omega]
  · rintro ⟨hnow, hexpire⟩ t _
    have hlive := live_of_le (lasts_iff.1 hnow).2
    rw [hlive] at hexpire
    rw [lasts_iff, hexpire]
    simp [(lasts_iff.1 hnow).1]

/-- **Dropping** a lease: where others are in the set, one of them must have been
added when the expiry was last armed; where nobody is, no other lease may run. -/
theorem follows_drop_iff (htaken : ∀ y, ∀ at' ∈ taken y, at' ≤ now)
    (h : s.Follows span taken now) :
    (s.srem now x).Follows span (Function.update taken x none) now ↔
      if ((s.live now).members.erase x).Nonempty then
        ∃ y, y ≠ x ∧ ∃ at' ∈ taken y, (s.live now).expireAt = some (at' + span)
      else ∀ y, y ≠ x → ∀ at' ∈ taken y, at' + span < now := by
  unfold Follows
  simp only [exists_update_none]
  by_cases hrest : ((s.live now).members.erase x).Nonempty
  · rw [if_pos hrest]
    have hlasts : ∀ t, (s.srem now x).Lasts t ↔ ∀ e ∈ (s.live now).expireAt, t ≤ e := by
      intro t
      rw [srem, if_pos hrest, lasts_iff]
      simp [hrest]
    have hkey : ∀ t, now ≤ t → (s.Lasts t ↔ ∀ e ∈ (s.live now).expireAt, t ≤ e) := by
      intro t ht
      rw [← lasts_live ht, lasts_iff]
      simp [hrest.mono (Finset.erase_subset ..)]
    simp only [hlasts]
    constructor
    · intro hfollows
      cases hexpire : (s.live now).expireAt with
      | none =>
        -- a key without an expiry outlasts every lease
        obtain ⟨y, -, at', hat, hle⟩ := (hfollows (max now (now + span + 1)) (le_max_left ..)).1
          (by simp [hexpire])
        have := htaken y at' hat
        omega
      | some e =>
        have hnow := le_of_live hexpire
        obtain ⟨y, hy, at', hat, hle⟩ := (hfollows e hnow).1 (by simp [hexpire])
        have hback := (hfollows (at' + span) (by omega)).2 ⟨y, hy, at', hat, le_rfl⟩ e hexpire
        exact ⟨y, hy, at', hat, by rw [show e = at' + span by omega]⟩
    · rintro ⟨y, hy, at', hat, hexpire⟩ t ht
      constructor
      · intro hle
        exact ⟨y, hy, at', hat, hle _ hexpire⟩
      · rintro ⟨z, -, at'', hat', hle⟩
        exact (hkey t ht).1 ((h t ht).2 ⟨z, at'', hat', hle⟩)
  · rw [if_neg hrest, srem, if_neg hrest]
    constructor
    · intro hfollows y hy at' hat
      by_contra hlate
      exact not_lasts_empty ((hfollows now le_rfl).2 ⟨y, hy, at', hat, not_lt.1 hlate⟩)
    · intro hover t ht
      refine iff_of_false not_lasts_empty ?_
      rintro ⟨y, hy, at', hat, hle⟩
      have := hover y hy at' hat
      omega

end Leases

end ExpiringSet
