import GnkAlgo.Lib.ExpiringSet
import GnkAlgo.Lib.Runs
import GnkAlgo.Models

/-!
# Subscription leases

The subscriptions of the `MarketBus` of `backend/app/market/bus.py`, with Redis
reachable.  A client is known by its user and its client id; the bus remembers in
its own process what each client asked for last, and Redis has a set of
instruments for every client and a set of subscribers for every instrument, both
with an expiry of 120 seconds.

* `replaceSubscriptions`, `disconnectClient`, `activeSubscriptions`;
* `LeaseRun.Follows` — an instrument is active exactly while a client's last call
  with it is not older than the lease;
* `subscriptions_follow_iff` — the calls of a run under which it is.
-/

namespace GnkAlgo

open Transition

abbrev ClientId := String

/-- The `120` of the `expire` calls, in microseconds. -/
def leaseSpan : Time := 120 * 1000000

/-- The `_clients` of the bus and the two families of Redis keys. -/
structure MarketBus where
  clients : Uuid × ClientId → Option (Finset Uuid) := fun _ => none
  clientKeys : Uuid × ClientId → ExpiringSet Uuid := fun _ => .empty
  subscribers : Uuid × Uuid → ExpiringSet ClientId := fun _ => .empty

/-- `self._clients.get((user_id, client_id), set())`. -/
def MarketBus.held (bus : MarketBus) (userId : Uuid) (clientId : ClientId) : Finset Uuid :=
  (bus.clients (userId, clientId)).getD ∅

/-- `MarketBus.replace_subscriptions`.  The commands of the pipeline are sent as
one transaction, and no two of them name the same key of an instrument. -/
def replaceSubscriptions (now : Time) (bus : MarketBus) (userId : Uuid) (clientId : ClientId)
    (instrumentIds : Finset Uuid) : MarketBus :=
  let old := bus.held userId clientId
  let added := instrumentIds \ old
  let removed := old \ instrumentIds
  { clients := Function.update bus.clients (userId, clientId) (some instrumentIds)
    clientKeys := Function.update bus.clientKeys (userId, clientId)
      (if instrumentIds.Nonempty then
        (ExpiringSet.empty.sadd now instrumentIds).expire now leaseSpan
      else .empty)
    subscribers := fun key =>
      if key.1 = userId ∧ key.2 ∈ added then
        ((bus.subscribers key).sadd now {clientId}).expire now leaseSpan
      else if key.1 = userId ∧ key.2 ∈ removed then (bus.subscribers key).srem now clientId
      else bus.subscribers key }

/-- `MarketBus.disconnect_client`. -/
def disconnectClient (now : Time) (bus : MarketBus) (userId : Uuid) (clientId : ClientId) :
    MarketBus :=
  let bus := replaceSubscriptions now bus userId clientId ∅
  { bus with clients := Function.update bus.clients (userId, clientId) none }

/-- `MarketBus.active_subscriptions`: the keys whose set has a member. -/
def activeSubscriptions (now : Time) (bus : MarketBus) : Set (Uuid × Uuid) :=
  {key | (bus.subscribers key).scard now ≠ 0}

instance (now : Time) (bus : MarketBus) (key : Uuid × Uuid) :
    Decidable (key ∈ activeSubscriptions now bus) :=
  inferInstanceAs (Decidable ((bus.subscribers key).scard now ≠ 0))

/-! ## Timed calls -/

inductive LeaseRequest
  | replace (instrumentIds : Finset Uuid)
  | disconnect

/-- What a client is left with. -/
def LeaseRequest.instrumentIds : LeaseRequest → Finset Uuid
  | .replace instrumentIds => instrumentIds
  | .disconnect => ∅

/-- A call of a client, some time after the call before it. -/
structure LeaseCall where
  elapsed : ℕ
  userId : Uuid
  clientId : ClientId
  request : LeaseRequest

/-- The bus at a moment, and when each client called last and with what. -/
structure LeaseRun where
  now : Time := 0
  bus : MarketBus := {}
  latest : Uuid × ClientId → Option (Time × Finset Uuid) := fun _ => none

def leaseStep (s : LeaseRun) (call : LeaseCall) : LeaseRun :=
  let now := s.now + call.elapsed
  { now := now
    bus := match call.request with
      | .replace instrumentIds =>
        replaceSubscriptions now s.bus call.userId call.clientId instrumentIds
      | .disconnect => disconnectClient now s.bus call.userId call.clientId
    latest := Function.update s.latest (call.userId, call.clientId)
      (some (now, call.request.instrumentIds)) }

/-- The client's latest call has the instrument, and its lease runs at `t`. -/
def LeaseRun.LeasedBy (s : LeaseRun) (clientId : ClientId) (userId instrumentId : Uuid)
    (t : Time) : Prop :=
  ∃ call ∈ s.latest (userId, clientId), instrumentId ∈ call.2 ∧ t ≤ call.1 + leaseSpan

/-- From now on, an instrument is active exactly while a client leases it. -/
def LeaseRun.Follows (s : LeaseRun) : Prop :=
  ∀ t, s.now ≤ t → ∀ userId instrumentId,
    (userId, instrumentId) ∈ activeSubscriptions t s.bus ↔
      ∃ clientId, s.LeasedBy clientId userId instrumentId t

/-- The calls that keep the expiry of an instrument's subscribers at what the
leases are.  A call that repeats an instrument does not touch the expiry, so that
it must have been armed at this very moment.  A call that drops one does not
either: where other clients are in the set, the latest call of one of them must
be the one that armed it; where there are none, no lease of another client may
run. -/
def Rearms (s : LeaseRun) (call : LeaseCall) : Prop :=
  let now := s.now + call.elapsed
  ∀ instrumentId ∈ s.bus.held call.userId call.clientId,
    let key := (s.bus.subscribers (call.userId, instrumentId)).live now
    if instrumentId ∈ call.request.instrumentIds then
      key.members.Nonempty ∧ key.expireAt = some (now + leaseSpan)
    else if (key.members.erase call.clientId).Nonempty then
      ∃ other, other ≠ call.clientId ∧ ∃ latest ∈ s.latest (call.userId, other),
        instrumentId ∈ latest.2 ∧ key.expireAt = some (latest.1 + leaseSpan)
    else ∀ other, other ≠ call.clientId → ¬ s.LeasedBy other call.userId instrumentId now

/-! ## One instrument -/

variable {s : LeaseRun} {call : LeaseCall} {userId instrumentId : Uuid}

/-- When each client took up the instrument last, where it still has it. -/
def LeaseRun.takenBy (s : LeaseRun) (userId instrumentId : Uuid) (clientId : ClientId) :
    Option Time :=
  (s.latest (userId, clientId)).bind fun call =>
    if instrumentId ∈ call.2 then some call.1 else none

theorem LeaseRun.mem_takenBy {clientId : ClientId} {at' : Time} :
    at' ∈ s.takenBy userId instrumentId clientId ↔
      ∃ call ∈ s.latest (userId, clientId), instrumentId ∈ call.2 ∧ call.1 = at' := by
  unfold LeaseRun.takenBy
  simp only [Option.mem_def, Option.bind_eq_some_iff]
  refine exists_congr fun call => and_congr_right fun _ => ?_
  split
  · rename_i hmem; simp [hmem]
  · rename_i hmem; simp [hmem]

theorem LeaseRun.leasedBy_iff {clientId : ClientId} {t : Time} :
    s.LeasedBy clientId userId instrumentId t ↔
      ∃ at' ∈ s.takenBy userId instrumentId clientId, t ≤ at' + leaseSpan := by
  simp only [LeaseRun.LeasedBy, LeaseRun.mem_takenBy]
  constructor
  · rintro ⟨call, hcall, hmem, hle⟩; exact ⟨_, ⟨call, hcall, hmem, rfl⟩, hle⟩
  · rintro ⟨_, ⟨call, hcall, hmem, rfl⟩, hle⟩; exact ⟨call, hcall, hmem, hle⟩

/-- The leases are followed key by key. -/
theorem LeaseRun.follows_iff : s.Follows ↔ ∀ userId instrumentId,
    (s.bus.subscribers (userId, instrumentId)).Follows leaseSpan (s.takenBy userId instrumentId)
      s.now := by
  simp only [LeaseRun.Follows, ExpiringSet.Follows, LeaseRun.leasedBy_iff]
  constructor
  · intro h userId instrumentId t ht
    rw [← ExpiringSet.scard_ne_zero]
    exact h t ht userId instrumentId
  · intro h t ht userId instrumentId
    rw [← h userId instrumentId t ht, ← ExpiringSet.scard_ne_zero]
    exact Iff.rfl

/-- What the bus remembers of a client is what it asked for last, and no call
lies ahead. -/
structure LeaseRun.Sound (s : LeaseRun) : Prop where
  held : ∀ userId clientId, s.bus.held userId clientId =
    ((s.latest (userId, clientId)).map Prod.snd).getD ∅
  past : ∀ client, ∀ call ∈ s.latest client, call.1 ≤ s.now

theorem LeaseRun.now_le (s : LeaseRun) (call : LeaseCall) : s.now ≤ s.now + call.elapsed :=
  le_add_of_nonneg_right (Int.natCast_nonneg _)

theorem LeaseRun.Sound.taken_le (h : s.Sound) (call : LeaseCall) (clientId : ClientId) :
    ∀ at' ∈ s.takenBy userId instrumentId clientId, at' ≤ s.now + call.elapsed := by
  intro at' hat
  obtain ⟨latest, hlatest, -, rfl⟩ := LeaseRun.mem_takenBy.1 hat
  exact (h.past _ latest hlatest).trans (s.now_le call)

theorem LeaseRun.Sound.takenBy_eq_none (h : s.Sound) {clientId : ClientId}
    (hnot : instrumentId ∉ s.bus.held userId clientId) :
    s.takenBy userId instrumentId clientId = none := by
  rw [h.held] at hnot
  unfold LeaseRun.takenBy
  cases hlatest : s.latest (userId, clientId) with
  | none => rfl
  | some call =>
    rw [hlatest] at hnot
    exact if_neg hnot

theorem leaseStep_held (userId : Uuid) (clientId : ClientId) :
    (leaseStep s call).bus.held userId clientId =
      if (userId, clientId) = (call.userId, call.clientId) then call.request.instrumentIds
      else s.bus.held userId clientId := by
  unfold leaseStep MarketBus.held
  cases call.request with
  | replace instrumentIds =>
    simp only [replaceSubscriptions, Function.update_apply, LeaseRequest.instrumentIds]
    split
    · rfl
    · rfl
  | disconnect =>
    simp only [disconnectClient, replaceSubscriptions, Function.update_apply,
      LeaseRequest.instrumentIds]
    split
    · rfl
    · rfl

theorem leaseStep_subscribers (userId instrumentId : Uuid) :
    (leaseStep s call).bus.subscribers (userId, instrumentId) =
      let now := s.now + call.elapsed
      let key := s.bus.subscribers (userId, instrumentId)
      let old := s.bus.held call.userId call.clientId
      if userId = call.userId ∧ instrumentId ∈ call.request.instrumentIds \ old then
        (key.sadd now {call.clientId}).expire now leaseSpan
      else if userId = call.userId ∧ instrumentId ∈ old \ call.request.instrumentIds then
        key.srem now call.clientId
      else key := by
  unfold leaseStep
  cases call.request with
  | replace instrumentIds => rfl
  | disconnect => rfl

theorem leaseStep_takenBy (userId instrumentId : Uuid) :
    (leaseStep s call).takenBy userId instrumentId =
      if userId = call.userId then
        Function.update (s.takenBy userId instrumentId) call.clientId
          (if instrumentId ∈ call.request.instrumentIds then some (s.now + call.elapsed) else none)
      else s.takenBy userId instrumentId := by
  funext clientId
  unfold LeaseRun.takenBy leaseStep
  by_cases huser : userId = call.userId
  · rw [if_pos huser]
    by_cases hclient : clientId = call.clientId
    · subst huser hclient
      simp
    · have hne : (userId, clientId) ≠ (call.userId, call.clientId) := fun h =>
        hclient (Prod.mk.inj h).2
      simp [Function.update_of_ne hne, Function.update_of_ne hclient]
  · have hne : (userId, clientId) ≠ (call.userId, call.clientId) := fun h =>
      huser (Prod.mk.inj h).1
    simp [huser]

/-! ## Steps -/

theorem LeaseRun.Sound.step (h : s.Sound) (call : LeaseCall) : (leaseStep s call).Sound := by
  constructor
  · intro userId clientId
    rw [leaseStep_held]
    unfold leaseStep
    split
    · rename_i heq; simp [heq]
    · rename_i hne; simp [Function.update_of_ne hne, h.held]
  · intro client latest hlatest
    unfold leaseStep at hlatest ⊢
    by_cases hclient : client = (call.userId, call.clientId)
    · subst hclient
      simp only [Function.update_self, Option.mem_def, Option.some.injEq] at hlatest
      rw [← hlatest]
    · simp only [Function.update_of_ne hclient] at hlatest
      exact (h.past client latest hlatest).trans (s.now_le call)

/-- A call of the user, for one instrument. -/
theorem follows_leaseStep_key_iff (h : s.Sound) (hfollows : s.Follows) (call : LeaseCall)
    (instrumentId : Uuid) :
    ((leaseStep s call).bus.subscribers (call.userId, instrumentId)).Follows leaseSpan
      ((leaseStep s call).takenBy call.userId instrumentId) (leaseStep s call).now ↔
    (instrumentId ∈ s.bus.held call.userId call.clientId →
      let now := s.now + call.elapsed
      let key := (s.bus.subscribers (call.userId, instrumentId)).live now
      if instrumentId ∈ call.request.instrumentIds then
        key.members.Nonempty ∧ key.expireAt = some (now + leaseSpan)
      else if (key.members.erase call.clientId).Nonempty then
        ∃ other, other ≠ call.clientId ∧ ∃ latest ∈ s.latest (call.userId, other),
          instrumentId ∈ latest.2 ∧ key.expireAt = some (latest.1 + leaseSpan)
      else ∀ other, other ≠ call.clientId → ¬ s.LeasedBy other call.userId instrumentId now) := by
  have hkey := (LeaseRun.follows_iff.1 hfollows call.userId instrumentId).mono
    (s.now_le call)
  have htaken : ∀ clientId, ∀ at' ∈ s.takenBy call.userId instrumentId clientId,
      at' ≤ s.now + call.elapsed := h.taken_le call
  rw [leaseStep_subscribers, leaseStep_takenBy, if_pos rfl]
  change ExpiringSet.Follows _ _ _ (s.now + call.elapsed) ↔ _
  dsimp only
  by_cases hold : instrumentId ∈ s.bus.held call.userId call.clientId
  · by_cases hnew : instrumentId ∈ call.request.instrumentIds
    · rw [if_neg (by simp [hold]), if_neg (by simp [hnew]), if_pos hnew,
        ExpiringSet.follows_keep_iff (by decide) htaken]
      simp only [hold, hnew, if_true, forall_const]
      exact Iff.rfl
    · rw [if_neg (by simp [hold]), if_pos (by simp [hold, hnew]), if_neg hnew,
        ExpiringSet.follows_drop_iff htaken hkey]
      simp only [hold, hnew, if_false, forall_const]
      split
      · refine exists_congr fun other => and_congr_right fun _ => ?_
        simp only [LeaseRun.mem_takenBy]
        constructor
        · rintro ⟨_, ⟨latest, hlatest, hmem, rfl⟩, hexpire⟩
          exact ⟨latest, hlatest, hmem, hexpire⟩
        · rintro ⟨latest, hlatest, hmem, hexpire⟩
          exact ⟨_, ⟨latest, hlatest, hmem, rfl⟩, hexpire⟩
      · refine forall_congr' fun other => imp_congr_right fun _ => ?_
        rw [LeaseRun.leasedBy_iff]
        simp
  · have hnone := h.takenBy_eq_none hold
    simp only [hold, false_implies, iff_true]
    by_cases hnew : instrumentId ∈ call.request.instrumentIds
    · rw [if_pos (by simp [hold, hnew]), if_pos hnew]
      exact ExpiringSet.follows_take htaken
    · rw [if_neg (by simp [hnew]), if_neg (by simp [hold]), if_neg hnew, ← hnone,
        Function.update_eq_self]
      exact hkey

/-- **A step** keeps the leases exactly where it rearms what it repeats and drops. -/
theorem follows_leaseStep_iff (h : s.Sound) (hfollows : s.Follows) (call : LeaseCall) :
    (leaseStep s call).Follows ↔ Rearms s call := by
  rw [LeaseRun.follows_iff]
  constructor
  · intro hall instrumentId hold
    exact (follows_leaseStep_key_iff h hfollows call instrumentId).1 (hall call.userId instrumentId)
      hold
  · intro hrearms userId instrumentId
    by_cases huser : userId = call.userId
    · subst huser
      exact (follows_leaseStep_key_iff h hfollows call instrumentId).2 (hrearms instrumentId)
    · rw [leaseStep_subscribers, leaseStep_takenBy, if_neg huser]
      simp only [huser, false_and, if_false]
      exact (LeaseRun.follows_iff.1 hfollows userId instrumentId).mono
        (s.now_le call)

/-! ## Runs -/

/-- **Runs.**  After every call of a run, the active subscriptions follow the
leases exactly when every call rearms what it repeats and drops. -/
theorem subscriptions_follow_iff (calls : List LeaseCall) :
    (∀ before after, calls = before ++ after → (before.foldl leaseStep {}).Follows) ↔
    Run (Guarded Rearms (Steps leaseStep)) {} calls (calls.foldl leaseStep {}) := by
  have hsound : LeaseRun.Sound {} := ⟨fun _ _ => rfl, fun _ _ h => by cases h⟩
  have hfollows : LeaseRun.Follows {} := by
    rw [LeaseRun.follows_iff]
    intro userId instrumentId t _
    refine iff_of_false ExpiringSet.not_lasts_empty ?_
    rintro ⟨clientId, at', hat, -⟩
    cases hat
  refine guarded_run_invariant_iff (I := fun s => s.Sound ∧ s.Follows) ⟨hsound, hfollows⟩
    (fun _ h => h.2) ?_ ?_
  · rintro s call ⟨hs, hf⟩ hrearms
    exact ⟨hs.step call, (follows_leaseStep_iff hs hf call).2 hrearms⟩
  · rintro s call ⟨hs, hf⟩ hnext
    exact (follows_leaseStep_iff hs hf call).1 hnext

/-- A browser that subscribes and pings every 25 seconds. -/
def pings : List LeaseCall := [
  ⟨0, 7, "browser", .replace {3}⟩,
  ⟨25 * 1000000, 7, "browser", .replace {3}⟩,
  ⟨25 * 1000000, 7, "browser", .replace {3}⟩,
  ⟨25 * 1000000, 7, "browser", .replace {3}⟩,
  ⟨25 * 1000000, 7, "browser", .replace {3}⟩,
  ⟨25 * 1000000, 7, "browser", .replace {3}⟩]

/-- **A client that repeats its set loses the instrument.**  Five pings after
the subscription nobody is subscribed. -/
theorem subscriptions_pinged_away :
    ¬ ∀ calls : List LeaseCall, (calls.foldl leaseStep {}).Follows := by
  intro h
  have hleased : (pings.foldl leaseStep {}).LeasedBy "browser" 7 3 (pings.foldl leaseStep {}).now :=
    ⟨(125 * 1000000, {3}), by decide +kernel, by decide, by decide +kernel⟩
  have hgone : (7, 3) ∉
      activeSubscriptions (pings.foldl leaseStep {}).now (pings.foldl leaseStep {}).bus := by
    decide +kernel
  exact hgone ((h pings _ le_rfl 7 3).2 ⟨"browser", hleased⟩)

end GnkAlgo
