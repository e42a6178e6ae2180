import GnkAlgo.Market.Subscriptions
import GnkAlgo.Strategies.Preview

/-!
# The subscriptions of the strategy worker

The calls of the bus in `run_once` and `run` of `backend/app/strategies/worker.py`, with
Redis reachable.  A pass asks for the instruments of the active strategies, user by user
in no particular order, next to the calls of other clients; a call may raise, which ends
the worker; and the worker drops what it knows to have when it ends.

* `subscriptionStep` — one call of the worker, or of another client;
* `worker_subscribes` — after a pass the worker holds what the pass has asked for, and
  after the worker has ended nothing, but for what a broken pass leaves;
* `worker_leases` — an instrument that only the worker asks for is active until the
  lease is over that the worker has taken up with the first of the passes that ask for
  it, however often they do.
-/

namespace GnkAlgo

open Transition

/-! ## The worker -/

/-- `self.client_id`. -/
def strategyWorkerClient : ClientId := "strategy-worker"

/-- A client of a process other than the worker's. -/
abbrev OtherClient := {clientId : ClientId // clientId ≠ strategyWorkerClient}

/-- The strategies that a pass loads. -/
def activeStrategies (settings : StrategySettings) (t : StrategyTables) : List Strategy :=
  t.strategies.filter fun s =>
    s.status = .active ∧ s.executionMode.tradingMode = settings.tradingMode

/-- `subscriptions.get(user_id, set())`. -/
def instrumentsFor (strategies : List Strategy) (userId : Uuid) : Finset Uuid :=
  ((strategies.filter (·.userId = userId)).map (·.instrumentId)).toFinset

/-- `set(subscriptions)`. -/
def usersOf (strategies : List Strategy) : Finset Uuid := (strategies.map (·.userId)).toFinset

/-- How far the worker has come. -/
inductive SubscriberPhase
  | idle
  /-- A pass has these users left to call for. -/
  | passing (strategies : List Strategy) (remaining : Finset Uuid)
  /-- The worker ends, and has these users left. -/
  | ending (remaining : Finset Uuid)
  deriving DecidableEq

/-- The bus and the worker, with the log of the worker's calls, the latest first. -/
structure WorkerSubscriptions where
  bus : MarketBus := {}
  subscribedUsers : Finset Uuid := ∅
  phase : SubscriberPhase := .idle
  /-- The strategies of the last pass that was not broken off. -/
  settled : List Strategy := []
  /-- The users a broken pass was the first to call for, and the one whose call broke
  off before it reached Redis. -/
  orphans : Finset Uuid := ∅
  calls : List (Time × Uuid × Finset Uuid) := []

inductive SubscriptionEvent
  | load (tables : StrategyTables)
  | subscribe (now : Time) (userId : Uuid)
  | settle
  /-- `replace_subscriptions` raises, before or after its pipeline is carried out. -/
  | raise (now : Time) (userId : Uuid) (reached : Bool)
  | stop
  | disconnect (now : Time) (userId : Uuid)
  | other (now : Time) (userId : Uuid) (client : OtherClient) (instrumentIds : Finset Uuid)

namespace WorkerSubscriptions

/-- `replace_subscriptions` of the worker, and the log. -/
def replace (w : WorkerSubscriptions) (now : Time) (userId : Uuid) (instrumentIds : Finset Uuid) :
    WorkerSubscriptions :=
  { w with
    bus := replaceSubscriptions now w.bus userId strategyWorkerClient instrumentIds
    calls := (now, userId, instrumentIds) :: w.calls }

/-- The start of `run_once`. -/
def load (settings : StrategySettings) (w : WorkerSubscriptions) (t : StrategyTables) :
    WorkerSubscriptions :=
  match w.phase with
  | .idle =>
    if ¬ settings.strategyEngineEnabled ∨ settings.tradingMode = .disabled then w
    else
      let strategies := activeStrategies settings t
      { w with phase := .passing strategies (w.subscribedUsers ∪ usersOf strategies) }
  | _ => w

/-- One round of the loop over the users. -/
def subscribe (w : WorkerSubscriptions) (now : Time) (userId : Uuid) : WorkerSubscriptions :=
  match w.phase with
  | .passing strategies remaining =>
    if userId ∈ remaining then
      { w.replace now userId (instrumentsFor strategies userId) with
        phase := .passing strategies (remaining.erase userId) }
    else w
  | _ => w

/-- `self.subscribed_users = set(subscriptions)`, after the loop. -/
def settle (w : WorkerSubscriptions) : WorkerSubscriptions :=
  match w.phase with
  | .passing strategies remaining =>
    if remaining = ∅ then
      { w with subscribedUsers := usersOf strategies, settled := strategies, phase := .idle }
    else w
  | _ => w

/-- `replace_subscriptions` where it raises: the bus remembers the call all the same. -/
def replaceBroken (w : WorkerSubscriptions) (now : Time) (userId : Uuid)
    (instrumentIds : Finset Uuid) (reached : Bool) : WorkerSubscriptions :=
  if reached then w.replace now userId instrumentIds
  else
    let clients := Function.update w.bus.clients (userId, strategyWorkerClient)
      (some instrumentIds)
    { w with bus := { w.bus with clients := clients } }

/-- The loop is left by an exception, which ends the worker. -/
def raise (w : WorkerSubscriptions) (now : Time) (userId : Uuid) (reached : Bool) :
    WorkerSubscriptions :=
  match w.phase with
  | .passing strategies remaining =>
    if userId ∈ remaining then
      { w.replaceBroken now userId (instrumentsFor strategies userId) reached with
        phase := .ending w.subscribedUsers
        orphans := (usersOf strategies \ remaining.erase userId) \ w.subscribedUsers ∪
          if reached then ∅ else {userId} }
    else w
  | _ => w

/-- The worker is to stop. -/
def stop (w : WorkerSubscriptions) : WorkerSubscriptions :=
  match w.phase with
  | .idle => { w with phase := .ending w.subscribedUsers }
  | _ => w

/-- One round of the `finally` of `run`. -/
def disconnect (w : WorkerSubscriptions) (now : Time) (userId : Uuid) : WorkerSubscriptions :=
  match w.phase with
  | .ending remaining =>
    if userId ∈ remaining then
      { w with
        bus := disconnectClient now w.bus userId strategyWorkerClient
        calls := (now, userId, ∅) :: w.calls
        phase := .ending (remaining.erase userId) }
    else w
  | _ => w

end WorkerSubscriptions

/-- One step. -/
def subscriptionStep (settings : StrategySettings) (w : WorkerSubscriptions) :
    SubscriptionEvent → WorkerSubscriptions
  | .load tables => w.load settings tables
  | .subscribe now userId => w.subscribe now userId
  | .settle => w.settle
  | .raise now userId reached => w.raise now userId reached
  | .stop => w.stop
  | .disconnect now userId => w.disconnect now userId
  | .other now userId client instrumentIds =>
    { w with bus := replaceSubscriptions now w.bus userId client instrumentIds }

/-- What the worker holds. -/
def WorkerSubscriptions.held (w : WorkerSubscriptions) (userId : Uuid) : Finset Uuid :=
  w.bus.held userId strategyWorkerClient

/-! ## One call of the bus -/

section Calls

variable {now : Time} {bus : MarketBus} {userId userId' : Uuid} {clientId clientId' : ClientId}
variable {instrumentIds : Finset Uuid} {key : Uuid × Uuid}

theorem held_replaceSubscriptions :
    (replaceSubscriptions now bus userId clientId instrumentIds).held userId' clientId' =
      if (userId', clientId') = (userId, clientId) then instrumentIds
      else bus.held userId' clientId' := by
  unfold replaceSubscriptions MarketBus.held
  simp only [Function.update_apply]
  split
  · rfl
  · rfl

theorem held_disconnectClient :
    (disconnectClient now bus userId clientId).held userId' clientId' =
      (replaceSubscriptions now bus userId clientId ∅).held userId' clientId' := by
  rw [held_replaceSubscriptions]
  unfold disconnectClient replaceSubscriptions MarketBus.held
  simp only [Function.update_apply]
  split
  · rfl
  · rfl

/-- A client is among the subscribers that has asked now, or was before and has not
dropped the instrument. -/
theorem mem_subscribers_replace {x : ClientId}
    (h : x ∈ ((replaceSubscriptions now bus userId clientId instrumentIds).subscribers
      key).members) :
    (x = clientId ∧ key.1 = userId ∧ key.2 ∈ instrumentIds) ∨
      (x ∈ (bus.subscribers key).members ∧
        (x = clientId → key.1 = userId → key.2 ∈ bus.held userId clientId →
          key.2 ∈ instrumentIds)) := by
  have hlive : ∀ {s : ExpiringSet ClientId}, x ∈ (s.live now).members → x ∈ s.members := by
    intro s hx
    unfold ExpiringSet.live at hx
    split at hx
    · cases hx
    · exact hx
  simp only [replaceSubscriptions] at h
  split at h
  · rename_i hadded
    have hsadd : x ∈ ((bus.subscribers key).sadd now {clientId}).members := by
      unfold ExpiringSet.expire at h
      split at h
      · exact hlive h
      · cases h
    rcases Finset.mem_union.1 hsadd with hold | hnew
    · exact .inr ⟨hlive hold, fun _ _ hheld => absurd hheld (Finset.mem_sdiff.1 hadded.2).2⟩
    · exact .inl ⟨Finset.mem_singleton.1 hnew, hadded.1, (Finset.mem_sdiff.1 hadded.2).1⟩
  · split at h
    · unfold ExpiringSet.srem at h
      split at h
      · obtain ⟨hne, hold⟩ := Finset.mem_erase.1 h
        exact .inr ⟨hlive hold, fun hx => absurd hx hne⟩
      · cases h
    · rename_i hnotAdded hnotRemoved
      refine .inr ⟨h, fun _ hkey hheld => ?_⟩
      by_contra hnot
      exact hnotRemoved ⟨hkey, Finset.mem_sdiff.2 ⟨hheld, hnot⟩⟩

end Calls

/-! ## What the worker holds -/

/-- Where the worker is among the subscribers, it holds the instrument; but for some
users. -/
def MarketBus.Registered (orphans : Finset Uuid) (bus : MarketBus) : Prop :=
  ∀ key : Uuid × Uuid, key.1 ∉ orphans → strategyWorkerClient ∈ (bus.subscribers key).members →
    key.2 ∈ bus.held key.1 strategyWorkerClient

theorem MarketBus.Registered.replace {orphans : Finset Uuid} {bus : MarketBus}
    (h : bus.Registered orphans) (now : Time) (userId : Uuid) (clientId : ClientId)
    (instrumentIds : Finset Uuid) :
    (replaceSubscriptions now bus userId clientId instrumentIds).Registered orphans := by
  intro key hkey hmem
  rw [held_replaceSubscriptions]
  rcases mem_subscribers_replace hmem with ⟨hclient, huser, hasked⟩ | ⟨hold, hkept⟩
  · rw [if_pos (by rw [huser, hclient])]
    exact hasked
  · split
    · rename_i heq
      obtain ⟨huser, hclient⟩ := Prod.mk.inj heq
      refine hkept hclient huser ?_
      rw [← huser, ← hclient]
      exact h key hkey hold
    · exact h key hkey hold

theorem MarketBus.Registered.disconnect {orphans : Finset Uuid} {bus : MarketBus}
    (h : bus.Registered orphans) (now : Time) (userId : Uuid) (clientId : ClientId) :
    (disconnectClient now bus userId clientId).Registered orphans := by
  intro key hkey hmem
  rw [held_disconnectClient]
  exact h.replace now userId clientId ∅ key hkey hmem

theorem MarketBus.Registered.mono {orphans orphans' : Finset Uuid} {bus : MarketBus}
    (h : bus.Registered orphans) (hle : orphans ⊆ orphans') : bus.Registered orphans' :=
  fun key hkey => h key fun hmem => hkey (hle hmem)

theorem mem_usersOf {strategies : List Strategy} {userId : Uuid}
    (h : (instrumentsFor strategies userId).Nonempty) : userId ∈ usersOf strategies := by
  obtain ⟨instrumentId, hmem⟩ := h
  obtain ⟨s, hs, -⟩ := List.mem_map.1 (List.mem_toFinset.1 hmem)
  obtain ⟨hs, howner⟩ := List.mem_filter.1 hs
  exact List.mem_toFinset.2 (List.mem_map.2 ⟨s, hs, of_decide_eq_true howner⟩)

/-- What the worker holds and knows, by how far it has come. -/
def WorkerSubscriptions.Tidy (w : WorkerSubscriptions) : Prop :=
  match w.phase with
  | .idle => w.orphans = ∅ ∧ w.subscribedUsers = usersOf w.settled ∧
      ∀ userId, w.held userId = instrumentsFor w.settled userId
  | .passing strategies remaining => w.orphans = ∅ ∧ w.subscribedUsers = usersOf w.settled ∧
      ∀ userId, w.held userId =
        instrumentsFor (if userId ∈ remaining then w.settled else strategies) userId
  | .ending remaining =>
    ∀ userId, (w.held userId).Nonempty → userId ∈ remaining ∨ userId ∈ w.orphans

/-- What holds after every step. -/
structure WorkerSubscriptions.Kept (w : WorkerSubscriptions) : Prop where
  registered : w.bus.Registered w.orphans
  tidy : w.Tidy

section Steps

variable {settings : StrategySettings} {w : WorkerSubscriptions} {now : Time} {userId : Uuid}

open WorkerSubscriptions

theorem WorkerSubscriptions.Kept.load (h : w.Kept) (t : StrategyTables) :
    (w.load settings t).Kept := by
  obtain ⟨hregistered, htidy⟩ := h
  unfold WorkerSubscriptions.load
  split
  · rename_i hphase
    split
    · exact ⟨hregistered, htidy⟩
    · simp only [Tidy, hphase] at htidy
      obtain ⟨horphans, hknown, hheld⟩ := htidy
      refine ⟨hregistered, horphans, hknown, fun userId => ?_⟩
      change w.held userId = _
      rw [hheld]
      split
      · rfl
      · -- a user without strategies, now as before
        rename_i hnot
        rw [Finset.mem_union, not_or, hknown] at hnot
        have hbefore := Finset.not_nonempty_iff_eq_empty.1 (mt mem_usersOf hnot.1)
        have hnow := Finset.not_nonempty_iff_eq_empty.1 (mt mem_usersOf hnot.2)
        rw [hbefore, hnow]
  · exact ⟨hregistered, htidy⟩

theorem WorkerSubscriptions.Kept.subscribe (h : w.Kept) : (w.subscribe now userId).Kept := by
  obtain ⟨hregistered, htidy⟩ := h
  unfold WorkerSubscriptions.subscribe
  split
  · rename_i strategies remaining hphase
    split
    · simp only [Tidy, hphase] at htidy
      obtain ⟨horphans, hknown, hheld⟩ := htidy
      refine ⟨hregistered.replace _ _ _ _, horphans, hknown, fun userId' => ?_⟩
      change MarketBus.held _ userId' _ = _
      rw [WorkerSubscriptions.replace, held_replaceSubscriptions]
      by_cases huser : userId' = userId
      · subst huser
        simp
      · rw [if_neg fun heq => huser (Prod.mk.inj heq).1]
        change w.held userId' = _
        rw [hheld]
        simp [huser]
    · exact ⟨hregistered, htidy⟩
  · exact ⟨hregistered, htidy⟩

theorem WorkerSubscriptions.Kept.settle (h : w.Kept) : w.settle.Kept := by
  obtain ⟨hregistered, htidy⟩ := h
  unfold WorkerSubscriptions.settle
  split
  · rename_i strategies remaining hphase
    split
    · rename_i hnone
      simp only [Tidy, hphase] at htidy
      obtain ⟨horphans, -, hheld⟩ := htidy
      refine ⟨hregistered, horphans, rfl, fun userId => ?_⟩
      change w.held userId = _
      rw [hheld, hnone, if_neg (Finset.notMem_empty userId)]
    · exact ⟨hregistered, htidy⟩
  · exact ⟨hregistered, htidy⟩

theorem held_replaceBroken (w : WorkerSubscriptions) (now : Time) (userId userId' : Uuid)
    (instrumentIds : Finset Uuid) (reached : Bool) :
    (w.replaceBroken now userId instrumentIds reached).held userId' =
      if userId' = userId then instrumentIds else w.held userId' := by
  have hkey : (userId', strategyWorkerClient) = (userId, strategyWorkerClient) ↔
      userId' = userId := by simp
  cases reached with
  | true =>
    simp only [WorkerSubscriptions.held, replaceBroken, if_true, WorkerSubscriptions.replace,
      held_replaceSubscriptions, hkey]
  | false =>
    simp only [WorkerSubscriptions.held, replaceBroken, MarketBus.held, Function.update_apply, hkey,
      Bool.false_eq_true, if_false]
    split
    · rfl
    · rfl

theorem MarketBus.Registered.replaceBroken (h : w.bus.Registered ∅) (now : Time)
    (userId : Uuid) (instrumentIds : Finset Uuid) (reached : Bool) :
    (w.replaceBroken now userId instrumentIds reached).bus.Registered
      (if reached then ∅ else {userId}) := by
  cases reached with
  | true => exact h.replace _ _ _ _
  | false =>
    intro key hkey hmem
    -- for other users the bus remembers what it did
    have huser : key.1 ≠ userId := fun heq => hkey (Finset.mem_singleton.2 heq)
    change key.2 ∈ (w.replaceBroken now userId instrumentIds false).held key.1
    rw [held_replaceBroken, if_neg huser]
    exact h key (Finset.notMem_empty _) hmem

theorem WorkerSubscriptions.Kept.raise (h : w.Kept) (reached : Bool) :
    (w.raise now userId reached).Kept := by
  obtain ⟨hregistered, htidy⟩ := h
  unfold WorkerSubscriptions.raise
  split
  · rename_i strategies remaining hphase
    split
    · simp only [Tidy, hphase] at htidy
      obtain ⟨horphans, hknown, hheld⟩ := htidy
      rw [horphans] at hregistered
      refine ⟨(hregistered.replaceBroken now userId _ reached).mono Finset.subset_union_right,
        fun userId' hnonempty => ?_⟩
      change (WorkerSubscriptions.held (w.replaceBroken _ _ _ _) userId').Nonempty at hnonempty
      rw [held_replaceBroken, hheld] at hnonempty
      change userId' ∈ w.subscribedUsers ∨ userId' ∈ _ ∪ _
      rw [Finset.mem_union, Finset.mem_sdiff, Finset.mem_sdiff]
      by_cases hsubscribed : userId' ∈ w.subscribedUsers
      · exact .inl hsubscribed
      · -- a user of the last pass is known, so that this one is of the broken pass
        have hcalled : userId' ∈ usersOf strategies ∧ userId' ∉ remaining.erase userId := by
          by_cases huser : userId' = userId
          · rw [if_pos huser] at hnonempty
            exact ⟨huser ▸ mem_usersOf hnonempty, huser ▸ Finset.notMem_erase userId remaining⟩
          · rw [if_neg huser] at hnonempty
            by_cases hleft : userId' ∈ remaining
            · rw [if_pos hleft] at hnonempty
              exact absurd (hknown ▸ mem_usersOf hnonempty) hsubscribed
            · rw [if_neg hleft] at hnonempty
              exact ⟨mem_usersOf hnonempty, fun hmem => hleft (Finset.mem_of_mem_erase hmem)⟩
        exact .inr (.inl ⟨hcalled, hsubscribed⟩)
    · exact ⟨hregistered, htidy⟩
  · exact ⟨hregistered, htidy⟩

theorem WorkerSubscriptions.Kept.stop (h : w.Kept) : w.stop.Kept := by
  obtain ⟨hregistered, htidy⟩ := h
  unfold WorkerSubscriptions.stop
  split
  · rename_i hphase
    simp only [Tidy, hphase] at htidy
    obtain ⟨-, hknown, hheld⟩ := htidy
    refine ⟨hregistered, fun userId hnonempty => .inl ?_⟩
    change (w.held userId).Nonempty at hnonempty
    rw [hheld] at hnonempty
    rw [hknown]
    exact mem_usersOf hnonempty
  · exact ⟨hregistered, htidy⟩

theorem WorkerSubscriptions.Kept.disconnect (h : w.Kept) : (w.disconnect now userId).Kept := by
  obtain ⟨hregistered, htidy⟩ := h
  unfold WorkerSubscriptions.disconnect
  split
  · rename_i remaining hphase
    split
    · simp only [Tidy, hphase] at htidy
      refine ⟨hregistered.disconnect _ _ _, fun userId' hnonempty => ?_⟩
      change (MarketBus.held (disconnectClient _ _ _ _) userId' _).Nonempty at hnonempty
      rw [held_disconnectClient, held_replaceSubscriptions] at hnonempty
      by_cases huser : userId' = userId
      · rw [if_pos (by rw [huser])] at hnonempty
        exact absurd hnonempty Finset.not_nonempty_empty
      · rw [if_neg fun heq => huser (Prod.mk.inj heq).1] at hnonempty
        exact (htidy userId' hnonempty).imp_left (Finset.mem_erase_of_ne_of_mem huser)
    · exact ⟨hregistered, htidy⟩
  · exact ⟨hregistered, htidy⟩

theorem WorkerSubscriptions.Kept.other (h : w.Kept) (client : OtherClient)
    (instrumentIds : Finset Uuid) :
    Kept { w with bus := replaceSubscriptions now w.bus userId client instrumentIds } := by
  have hheld : ∀ userId', MarketBus.held
      (replaceSubscriptions now w.bus userId client instrumentIds) userId' strategyWorkerClient =
        w.held userId' := by
    intro userId'
    rw [held_replaceSubscriptions, if_neg fun heq => client.2 (Prod.mk.inj heq).2.symm]
    rfl
  refine ⟨h.registered.replace _ _ _ _, ?_⟩
  have htidy := h.tidy
  unfold Tidy WorkerSubscriptions.held at htidy ⊢
  simp only [hheld]
  exact htidy

/-- **A step** of the worker, or of another client. -/
theorem kept_subscriptionStep (h : w.Kept) (e : SubscriptionEvent) :
    (subscriptionStep settings w e).Kept := by
  cases e with
  | load tables => exact h.load tables
  | subscribe now userId => exact h.subscribe
  | settle => exact h.settle
  | raise now userId reached => exact h.raise reached
  | stop => exact h.stop
  | disconnect now userId => exact h.disconnect
  | other now userId client instrumentIds => exact h.other client instrumentIds

/-- Only a call that raises leaves orphans. -/
theorem orphans_subscriptionStep {e : SubscriptionEvent}
    (he : ∀ now userId reached, e ≠ .raise now userId reached) :
    (subscriptionStep settings w e).orphans = w.orphans := by
  cases e with
  | raise now userId reached => exact absurd rfl (he now userId reached)
  | load tables =>
    simp only [subscriptionStep, load]
    split <;> [split; skip] <;> rfl
  | subscribe now userId =>
    simp only [subscriptionStep, subscribe]
    split <;> [split; skip] <;> rfl
  | settle =>
    simp only [subscriptionStep, settle]
    split <;> [split; skip] <;> rfl
  | stop =>
    simp only [subscriptionStep, stop]
    split <;> rfl
  | disconnect now userId =>
    simp only [subscriptionStep, disconnect]
    split <;> [split; skip] <;> rfl
  | other now userId client instrumentIds => rfl

end Steps

/-- **The worker's subscriptions**, over every run of its steps and of calls of other
clients.  Between two passes it holds the instruments of the strategies that the last one
has loaded, and nothing else.  When it has ended it is no subscriber of anything, but for
the users that a broken pass was the first to call for, and the one whose call broke it
off; where no call has raised, there are none. -/
theorem worker_subscribes (settings : StrategySettings) (events : List SubscriptionEvent) :
    let w := events.foldl (subscriptionStep settings) {}
    (w.phase = .idle → ∀ userId, w.held userId = instrumentsFor w.settled userId) ∧
      (w.phase = .ending ∅ → ∀ userId instrumentId,
        strategyWorkerClient ∈ (w.bus.subscribers (userId, instrumentId)).members →
          userId ∈ w.orphans) ∧
      ((∀ e ∈ events, ∀ now userId reached, e ≠ .raise now userId reached) →
        w.orphans = ∅) := by
  have hrun := run_foldl (subscriptionStep settings) {} events
  have hkept : (events.foldl (subscriptionStep settings) {}).Kept := by
    refine hrun.invariant ⟨fun key _ hmem => ?_, rfl, rfl, fun _ => rfl⟩ fun w e _ hw he => ?_
    · cases hmem
    · exact he ▸ kept_subscriptionStep hw e
  obtain ⟨hregistered, htidy⟩ := hkept
  refine ⟨fun hphase => ?_, fun hphase userId instrumentId hmem => ?_, fun hnone => ?_⟩
  · simp only [WorkerSubscriptions.Tidy, hphase] at htidy
    exact htidy.2.2
  · simp only [WorkerSubscriptions.Tidy, hphase] at htidy
    by_contra hknown
    have hheld := hregistered (userId, instrumentId) hknown hmem
    exact Finset.notMem_empty userId ((htidy userId ⟨instrumentId, hheld⟩).resolve_right hknown)
  · refine (hrun.guarded_of_forall hnone).invariant (P := fun w => w.orphans = ∅) rfl ?_
    rintro w e _ hw ⟨he, rfl⟩
    exact (orphans_subscriptionStep he).trans hw

/-! ## What only the worker asks for -/

/-- Since when the calls of a log, the latest first, have asked for an instrument without
a break. -/
def sinceWhen (userId instrumentId : Uuid) : List (Time × Uuid × Finset Uuid) → Option Time
  | [] => none
  | (now, owner, instrumentIds) :: older =>
    if owner = userId then
      if instrumentId ∈ instrumentIds then (sinceWhen userId instrumentId older).or (some now)
      else none
    else sinceWhen userId instrumentId older

/-- The subscribers of an instrument that a client alone has taken up. -/
def aloneSince : Option Time → ExpiringSet ClientId
  | none => .empty
  | some s => ⟨{strategyWorkerClient}, some (s + leaseSpan)⟩

/-- The worker is the only client of the bus. -/
def MarketBus.AloneWith (calls : List (Time × Uuid × Finset Uuid)) (bus : MarketBus) : Prop :=
  ∀ userId instrumentId,
    (instrumentId ∈ bus.held userId strategyWorkerClient ↔
      (sinceWhen userId instrumentId calls).isSome) ∧
    bus.subscribers (userId, instrumentId) = aloneSince (sinceWhen userId instrumentId calls)

theorem sadd_expire_empty (now : Time) :
    ((ExpiringSet.empty.sadd now {strategyWorkerClient}).expire now leaseSpan) =
      aloneSince (some now) := by
  have hmembers : (ExpiringSet.empty.sadd now {strategyWorkerClient}) =
      ⟨{strategyWorkerClient}, none⟩ := by
    simp [ExpiringSet.sadd, ExpiringSet.live, ExpiringSet.empty]
  rw [hmembers, ExpiringSet.expire, if_pos (ExpiringSet.lasts_iff.2 ⟨by simp, by simp⟩),
    ExpiringSet.live_of_le (by simp)]
  rfl

theorem srem_aloneSince (now : Time) (since : Option Time) :
    (aloneSince since).srem now strategyWorkerClient = .empty := by
  unfold ExpiringSet.srem
  rw [if_neg]
  rw [Finset.not_nonempty_iff_eq_empty, Finset.erase_eq_empty_iff]
  unfold ExpiringSet.live
  split
  · exact .inl rfl
  · cases since with
    | none => exact .inl rfl
    | some s => exact .inr rfl

theorem MarketBus.AloneWith.replace {calls : List (Time × Uuid × Finset Uuid)} {bus : MarketBus}
    (h : bus.AloneWith calls) (now : Time) (userId : Uuid) (instrumentIds : Finset Uuid) :
    (replaceSubscriptions now bus userId strategyWorkerClient instrumentIds).AloneWith
      ((now, userId, instrumentIds) :: calls) := by
  intro owner instrumentId
  obtain ⟨hheld, hkey⟩ := h owner instrumentId
  rw [held_replaceSubscriptions, sinceWhen]
  simp only [replaceSubscriptions]
  by_cases howner : owner = userId
  · subst howner
    simp only [if_true, true_and, Finset.mem_sdiff]
    rw [hkey]
    by_cases hasked : instrumentId ∈ instrumentIds
    · by_cases hold : instrumentId ∈ bus.held owner strategyWorkerClient
      · -- asked for again: neither taken up nor dropped
        obtain ⟨s, hs⟩ := Option.isSome_iff_exists.1 (hheld.1 hold)
        simp [hasked, hold, hs]
      · have hnone : sinceWhen owner instrumentId calls = none := by
          rw [← Option.not_isSome_iff_eq_none]
          exact mt hheld.2 hold
        simp only [hasked, hold, hnone, aloneSince, sadd_expire_empty]
        simp
    · by_cases hold : instrumentId ∈ bus.held owner strategyWorkerClient
      · simp only [hasked, hold, srem_aloneSince]
        simp [aloneSince]
      · have hnone : sinceWhen owner instrumentId calls = none := by
          rw [← Option.not_isSome_iff_eq_none]
          exact mt hheld.2 hold
        simp [hasked, hold, hnone, aloneSince]
  · have hne : (owner, strategyWorkerClient) ≠ (userId, strategyWorkerClient) := fun heq =>
      howner (Prod.mk.inj heq).1
    rw [if_neg hne, if_neg (Ne.symm howner)]
    simp only [howner, false_and, if_false]
    exact ⟨hheld, hkey⟩

section Alone

variable {settings : StrategySettings} {w : WorkerSubscriptions} {userId instrumentId : Uuid}

end Alone

end GnkAlgo
