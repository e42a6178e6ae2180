import Mathlib

/-!
# Single use

Users take credentials: first one holds a credential, then the use is settled, and
the credential is spent.  `uses` says what each user has taken, and whether that
is settled.

* `Exclusive` — no credential is with two users, and what is settled is spent;
* `Exclusive.hold`, `Exclusive.settle`, `Exclusive.drop` — the three moves of a
  user keep that, where a credential is only taken while it is neither spent nor
  with another user;
* `SentOnce` — each credential pays for one message at most, and `Move` says what one
  user may do about that;
* `SentOnce.move` — a move keeps it;
* `Spend` — the moves that take nothing.
-/

namespace SingleUse

variable {ρ κ : Type*}

/-- No credential is with two users, and one whose use is settled is spent. -/
structure Exclusive (spent : κ → Prop) (uses : ρ → Option (κ × Bool)) : Prop where
  once : ∀ r r' k b b', uses r = some (k, b) → uses r' = some (k, b') → r = r'
  spent : ∀ r k, uses r = some (k, true) → spent k

variable {spent spent' : κ → Prop} {uses : ρ → Option (κ × Bool)} {r : ρ} {k : κ}

theorem exclusive_none : Exclusive spent fun _ : ρ => (none : Option (κ × Bool)) where
  once _ _ _ _ _ h := by cases h
  spent _ _ h := by cases h

theorem Exclusive.mono (h : Exclusive spent uses) (hspent : ∀ k, spent k → spent' k) :
    Exclusive spent' uses where
  once := h.once
  spent r k hr := hspent k (h.spent r k hr)

variable [DecidableEq ρ]

/-- What one user takes is with no other. -/
theorem Exclusive.update (h : Exclusive spent uses) {b : Bool}
    (hfree : ∀ r' b', r' ≠ r → uses r' ≠ some (k, b')) (hsettled : b = true → spent k) :
    Exclusive spent (Function.update uses r (some (k, b))) where
  once r1 r2 k' b1 b2 h1 h2 := by
    rw [Function.update_apply] at h1 h2
    split at h1
    · rename_i heq1
      cases h1
      split at h2
      · rename_i heq2
        rw [heq1, heq2]
      · rename_i hne
        exact absurd h2 (hfree r2 b2 hne)
    · rename_i hne
      split at h2
      · cases h2
        exact absurd h1 (hfree r1 b1 hne)
      · exact h.once r1 r2 k' b1 b2 h1 h2
  spent r' k' hr' := by
    rw [Function.update_apply] at hr'
    split at hr'
    · cases hr'
      exact hsettled rfl
    · exact h.spent r' k' hr'

/-- **Hold**: a credential that is not spent, and with no user. -/
theorem Exclusive.hold (h : Exclusive spent uses) (hunspent : ¬ spent k)
    (hfree : ∀ r', uses r' ≠ some (k, false)) :
    Exclusive spent (Function.update uses r (some (k, false))) := by
  refine h.update (fun r' b' _ hr' => ?_) fun hb => nomatch hb
  cases b' with
  | false => exact hfree r' hr'
  | true => exact hunspent (h.spent r' k hr')

/-- **Settle**: the user that holds it spends it. -/
theorem Exclusive.settle (h : Exclusive spent uses) (hr : uses r = some (k, false))
    (hspent : spent k) : Exclusive spent (Function.update uses r (some (k, true))) :=
  h.update (fun r' b' hne hr' => hne (h.once r' r k b' false hr' hr)) fun _ => hspent

/-- **Take**: held and settled at once. -/
theorem Exclusive.take (h : Exclusive spent uses) (hunspent : ¬ spent k)
    (hfree : ∀ r', uses r' ≠ some (k, false)) (hspent : ∀ k, spent k → spent' k)
    (hk : spent' k) : Exclusive spent' (Function.update uses r (some (k, true))) := by
  refine (h.mono hspent).update (fun r' b' _ hr' => ?_) fun _ => hk
  cases b' with
  | false => exact hfree r' hr'
  | true => exact hunspent (h.spent r' k hr')

/-- **Drop**: nothing is taken. -/
theorem Exclusive.drop (h : Exclusive spent uses) (r : ρ) :
    Exclusive spent (Function.update uses r none) where
  once r1 r2 k' b1 b2 h1 h2 := by
    rw [Function.update_apply] at h1 h2
    split at h1
    · cases h1
    split at h2
    · cases h2
    exact h.once r1 r2 k' b1 b2 h1 h2
  spent r' k' hr' := by
    rw [Function.update_apply] at hr'
    split at hr'
    · cases hr'
    · exact h.spent r' k' hr'

/-! ## Messages -/

/-- What a user holds entitles it to one message.  No message that can still come
repeats one that was sent, or one that another user can send. -/
structure SentOnce (spent : κ → Prop) (held : ρ → Option κ) (sent : List κ) : Prop where
  exclusive : Exclusive spent fun r => (held r).map fun k => (k, true)
  spent : ∀ k ∈ sent, spent k
  unsent : ∀ r, ∀ k ∈ held r, k ∉ sent
  nodup : sent.Nodup

/-- What a user does: from what it holds to what it holds then, with the messages it
sends. -/
inductive Move (spent spent' : κ → Prop) : Option κ → Option κ → List κ → Prop
  | take {held : Option κ} {k : κ} : ¬ spent k → spent' k → Move spent spent' held (some k) []
  | keep {held : Option κ} : Move spent spent' held held []
  | send {k : κ} : Move spent spent' (some k) none [k]
  | drop {held : Option κ} : Move spent spent' held none []

/-- A move that takes nothing. -/
inductive Spend : Option κ → Option κ → List κ → Prop
  | keep {held : Option κ} : Spend held held []
  | send {k : κ} : Spend (some k) none [k]
  | drop {held : Option κ} : Spend held none []

theorem Spend.move {held held' : Option κ} {sent : List κ} (h : Spend held held' sent) :
    Move spent spent held held' sent := by
  cases h with
  | keep => exact .keep
  | send => exact .send
  | drop => exact .drop

theorem Spend.map {κ' : Type*} (f : κ → κ') {held held' : Option κ} {sent : List κ}
    (h : Spend held held' sent) : Spend (held.map f) (held'.map f) (sent.map f) := by
  cases h with
  | keep => exact .keep
  | send => exact .send
  | drop => exact .drop

variable {held : ρ → Option κ} {sent : List κ}

omit [DecidableEq ρ] in
theorem sentOnce_none (spent : κ → Prop) :
    SentOnce spent (fun _ : ρ => (none : Option κ)) [] where
  exclusive := exclusive_none
  spent := List.forall_mem_nil _
  unsent _ := fun _ h => nomatch h
  nodup := .nil

omit [DecidableEq ρ] in
/-- Users that hold what they have been given, under their own names. -/
theorem sentOnce_given (given : ρ → Option κ) :
    SentOnce (fun k : ρ × κ => given k.1 = some k.2) (fun r => (given r).map (Prod.mk r)) [] where
  exclusive := by
    have hown : ∀ r k b, ((given r).map (Prod.mk r)).map (fun k => (k, true)) = some (k, b) →
        given r = some k.2 ∧ r = k.1 := by
      intro r k b h
      rw [Option.map_map] at h
      obtain ⟨x, hx, hk⟩ := Option.map_eq_some_iff.1 h
      cases hk
      exact ⟨hx, rfl⟩
    refine ⟨fun r r' k b b' h h' => ?_, fun r k h => ?_⟩
    · exact (hown r k b h).2.trans (hown r' k b' h').2.symm
    · obtain ⟨hr, rfl⟩ := hown r k true h
      exact hr
  spent := List.forall_mem_nil _
  unsent _ _ _ := List.not_mem_nil
  nodup := .nil

omit [DecidableEq ρ] in
/-- No user sends twice of what it has been given. -/
theorem SentOnce.nodup_users {given : ρ → Option κ} {held : ρ → Option (ρ × κ)}
    {sent : List (ρ × κ)} (h : SentOnce (fun k : ρ × κ => given k.1 = some k.2) held sent) :
    (sent.map Prod.fst).Nodup := by
  refine List.Nodup.map_on (fun x hx y hy hxy => ?_) h.nodup
  have hy' := h.spent y hy
  rw [← hxy, h.spent x hx] at hy'
  exact Prod.ext hxy (Option.some_inj.1 hy')

omit [DecidableEq ρ] in
theorem SentOnce.spent_of_held (h : SentOnce spent held sent) (hk : held r = some k) : spent k :=
  h.exclusive.spent r k (by rw [hk, Option.map_some])

omit [DecidableEq ρ] in
theorem SentOnce.eq_of_held (h : SentOnce spent held sent) {r' : ρ} (hk : held r = some k)
    (hk' : held r' = some k) : r = r' :=
  h.exclusive.once r r' k true true (by rw [hk, Option.map_some]) (by rw [hk', Option.map_some])

/-- The uses after a change of what one user holds. -/
theorem map_update (held : ρ → Option κ) (r : ρ) (x : Option κ) :
    (fun q => (Function.update held r x q).map fun k => (k, true)) =
      Function.update (fun q => (held q).map fun k => (k, true)) r (x.map fun k => (k, true)) :=
  Function.comp_update (Option.map fun k => (k, true)) held r x

theorem SentOnce.drop (h : SentOnce spent held sent) (r : ρ) :
    SentOnce spent (Function.update held r none) sent where
  exclusive := by
    rw [map_update]
    exact h.exclusive.drop r
  spent := h.spent
  unsent q k hk := by
    rw [Function.update_apply] at hk
    split at hk
    · cases hk
    · exact h.unsent q k hk
  nodup := h.nodup

omit [DecidableEq ρ] in
/-- Users that let go of what they hold. -/
theorem SentOnce.sub {held' : ρ → Option κ} (h : SentOnce spent held sent)
    (hsub : ∀ r, ∀ k ∈ held' r, k ∈ held r) : SentOnce spent held' sent where
  exclusive := by
    have huses : ∀ r k b, (held' r).map (fun k => (k, true)) = some (k, b) →
        (held r).map (fun k => (k, true)) = some (k, b) := by
      intro r k b hr
      obtain ⟨k', hk', heq⟩ := Option.map_eq_some_iff.1 hr
      exact Option.map_eq_some_iff.2 ⟨k', hsub r k' hk', heq⟩
    refine ⟨fun r r' k b b' hr hr' => ?_, fun r k hr => ?_⟩
    · exact h.exclusive.once r r' k b b' (huses r k b hr) (huses r' k b' hr')
    · exact h.exclusive.spent r k (huses r k true hr)
  spent := h.spent
  unsent r k hk := h.unsent r k (hsub r k hk)
  nodup := h.nodup

/-- **A move of one user**: nobody sends what was sent before. -/
theorem SentOnce.move (h : SentOnce spent held sent) (hspent : ∀ k, spent k → spent' k)
    {x : Option κ} {new : List κ} (hmove : Move spent spent' (held r) x new) :
    SentOnce spent' (Function.update held r x) (sent ++ new) := by
  have hmono : SentOnce spent' held sent :=
    ⟨h.exclusive.mono hspent, fun k hk => hspent k (h.spent k hk), h.unsent, h.nodup⟩
  generalize hx : held r = x₀ at hmove
  cases hmove with
  | take hfree htaken =>
    rw [List.append_nil]
    refine ⟨?_, hmono.spent, fun q k hk => ?_, h.nodup⟩
    · rw [map_update]
      refine h.exclusive.take hfree (fun q hq => ?_) hspent htaken
      obtain ⟨k', -, hk'⟩ := Option.map_eq_some_iff.1 hq
      cases hk'
    · rw [Function.update_apply] at hk
      split at hk
      · cases hk
        exact fun hsent => hfree (h.spent _ hsent)
      · exact h.unsent q k hk
  | keep =>
    rw [← hx, Function.update_eq_self, List.append_nil]
    exact hmono
  | send =>
    rename_i k
    have hdrop := hmono.drop r
    refine ⟨hdrop.exclusive, fun k' hk' => ?_, fun q k' hk' => ?_, ?_⟩
    · rcases List.mem_append.1 hk' with hk' | hk'
      · exact hmono.spent k' hk'
      · rw [List.mem_singleton.1 hk']
        exact hmono.spent_of_held hx
    · have hunsent := hdrop.unsent q k' hk'
      rw [Function.update_apply] at hk'
      split at hk'
      · cases hk'
      rename_i hne
      intro hsent
      rcases List.mem_append.1 hsent with hsent | hsent
      · exact hunsent hsent
      · rw [List.mem_singleton.1 hsent] at hk'
        exact hne (h.eq_of_held hk' hx)
    · refine List.nodup_append.2 ⟨h.nodup, List.nodup_singleton k, ?_⟩
      rintro k' hold _ hnew rfl
      exact h.unsent r k' (List.mem_singleton.1 hnew ▸ hx) hold
  | drop =>
    rw [List.append_nil]
    exact hmono.drop r

end SingleUse
