import GnkAlgo.Market.Subscriptions

/-!
# Subscriptions and outages

`replace_subscriptions` sends Redis the difference to what `_clients` remembers,
and `_clients` is changed first, whether Redis can be reached or not.  After an
outage the difference is to something Redis may never have been told.

* `replaceSubscriptionsOn`, `disconnectClientOn` — the calls as Redis is found;
* `OutageRun.InStep` — the clients that called since Redis came back are in its
  sets with what the bus remembers;
* `Resumes` — the call names again what it still holds and Redis lacks, and has
  nothing in Redis that it neither holds nor names;
* `registry_in_step_iff` — the calls of a run, with no key expiring, under which
  the two are in step.
-/

namespace GnkAlgo

open Transition

/-! ## Calls -/

/-- How a call finds Redis. -/
inductive RedisState
  | reached
  /-- `redis()` gives no client: none could be had, or not yet again. -/
  | skipped
  /-- A command raises; `applied` if the transaction was carried out. -/
  | broken (applied : Bool)
  deriving DecidableEq, Repr

/-- `replace_subscriptions`, and whether it returns. -/
def replaceSubscriptionsOn (redis : RedisState) (now : Time) (bus : MarketBus) (userId : Uuid)
    (clientId : ClientId) (instrumentIds : Finset Uuid) : MarketBus × Bool :=
  let sent := replaceSubscriptions now bus userId clientId instrumentIds
  let unsent := { bus with clients := sent.clients }
  match redis with
  | .reached => (sent, true)
  | .skipped => (unsent, true)
  | .broken applied => (if applied then sent else unsent, false)

/-- `disconnect_client`, and whether it returns. -/
def disconnectClientOn (redis : RedisState) (now : Time) (bus : MarketBus) (userId : Uuid)
    (clientId : ClientId) : MarketBus × Bool :=
  match replaceSubscriptionsOn redis now bus userId clientId ∅ with
  | (bus, true) =>
    ({ bus with clients := Function.update bus.clients (userId, clientId) none }, true)
  | (bus, false) => (bus, false)

/-- `active_subscriptions` without Redis. -/
def clientSubscriptions (bus : MarketBus) : Set (Uuid × Uuid) :=
  {key | ∃ clientId, key.2 ∈ bus.held key.1 clientId}

/-- A call, and how it finds Redis. -/
structure OutageCall extends LeaseCall where
  redis : RedisState := .reached

/-- The bus at a moment, and the clients that called since Redis came back. -/
structure OutageRun where
  now : Time := 0
  bus : MarketBus := {}
  returned : List (Uuid × ClientId) := []

def outageStep (s : OutageRun) (call : OutageCall) : OutageRun :=
  let now := s.now + call.elapsed
  { now := now
    bus := match call.request with
      | .replace instrumentIds =>
        (replaceSubscriptionsOn call.redis now s.bus call.userId call.clientId instrumentIds).1
      | .disconnect => (disconnectClientOn call.redis now s.bus call.userId call.clientId).1
    returned :=
      if call.redis = .reached then (call.userId, call.clientId) :: s.returned else [] }

/-- The client is a subscriber of the instrument in Redis. -/
def OutageRun.Subscribed (s : OutageRun) (userId : Uuid) (clientId : ClientId)
    (instrumentId : Uuid) (now : Time) : Prop :=
  clientId ∈ (s.bus.subscribers (userId, instrumentId)).smembers now

/-- Redis has the client where the bus does. -/
def OutageRun.Agrees (s : OutageRun) (client : Uuid × ClientId) : Prop :=
  ∀ instrumentId, s.Subscribed client.1 client.2 instrumentId s.now ↔
    instrumentId ∈ s.bus.held client.1 client.2

/-- For the clients that called since Redis came back. -/
def OutageRun.InStep (s : OutageRun) : Prop := ∀ client ∈ s.returned, s.Agrees client

/-- No key has expired when the call is made. -/
def NoneExpired (s : OutageRun) (call : OutageCall) : Prop :=
  ∀ key, ∀ e ∈ (s.bus.subscribers key).expireAt, s.now + call.elapsed ≤ e

/-- A call that reaches Redis finds the client there with all it still holds and
names again, and with nothing that it neither holds nor names. -/
def Resumes (s : OutageRun) (call : OutageCall) : Prop :=
  call.redis = .reached → ∀ instrumentId,
    (instrumentId ∈ s.bus.held call.userId call.clientId →
      instrumentId ∈ call.request.instrumentIds →
      s.Subscribed call.userId call.clientId instrumentId s.now) ∧
    (s.Subscribed call.userId call.clientId instrumentId s.now →
      instrumentId ∈ s.bus.held call.userId call.clientId ∨
        instrumentId ∈ call.request.instrumentIds)

/-! ## One call -/

section Call

variable {s : OutageRun} {call : OutageCall}

/-- What the bus remembers, however Redis was found. -/
theorem outageStep_held (userId : Uuid) (clientId : ClientId) :
    (outageStep s call).bus.held userId clientId =
      if (userId, clientId) = (call.userId, call.clientId) then call.request.instrumentIds
      else s.bus.held userId clientId := by
  have hclients : (outageStep s call).bus.clients =
      Function.update s.bus.clients (call.userId, call.clientId)
        (some call.request.instrumentIds) ∨
      call.request.instrumentIds = ∅ ∧ (outageStep s call).bus.clients =
        Function.update (Function.update s.bus.clients (call.userId, call.clientId) (some ∅))
          (call.userId, call.clientId) none := by
    unfold outageStep
    cases call.request with
    | replace instrumentIds =>
      refine Or.inl ?_
      cases call.redis with
      | reached => rfl
      | skipped => rfl
      | broken applied => cases applied <;> rfl
    | disconnect =>
      cases call.redis with
      | reached => exact Or.inr ⟨rfl, rfl⟩
      | skipped => exact Or.inr ⟨rfl, rfl⟩
      | broken applied => cases applied <;> exact Or.inl rfl
  unfold MarketBus.held
  rcases hclients with hclients | ⟨hempty, hclients⟩
  · rw [hclients, Function.update_apply]
    split <;> rfl
  · rw [hclients, Function.update_idem, Function.update_apply, hempty]
    split <;> rfl

/-- The subscribers after a call that reaches Redis. -/
theorem outageStep_subscribed (hreached : call.redis = .reached) (hlive : NoneExpired s call)
    (userId : Uuid) (clientId : ClientId) (instrumentId : Uuid) :
    (outageStep s call).Subscribed userId clientId instrumentId (outageStep s call).now ↔
      if (userId, clientId) = (call.userId, call.clientId) ∧
          ¬ (instrumentId ∈ s.bus.held call.userId call.clientId ↔
            instrumentId ∈ call.request.instrumentIds) then
        instrumentId ∈ call.request.instrumentIds
      else s.Subscribed userId clientId instrumentId s.now := by
  have hkey : (outageStep s call).bus.subscribers (userId, instrumentId) =
      let now := s.now + call.elapsed
      let key := s.bus.subscribers (userId, instrumentId)
      let old := s.bus.held call.userId call.clientId
      if userId = call.userId ∧ instrumentId ∈ call.request.instrumentIds \ old then
        (key.sadd now {call.clientId}).expire now leaseSpan
      else if userId = call.userId ∧ instrumentId ∈ old \ call.request.instrumentIds then
        key.srem now call.clientId
      else key := by
    unfold outageStep
    cases call.request with
    | replace instrumentIds => rw [hreached]; rfl
    | disconnect => rw [hreached]; rfl
  have hsame : (s.bus.subscribers (userId, instrumentId)).smembers (s.now + call.elapsed) =
      (s.bus.subscribers (userId, instrumentId)).smembers s.now := by
    have hunexpired := hlive (userId, instrumentId)
    rw [ExpiringSet.smembers_of_le hunexpired, ExpiringSet.smembers_of_le fun e he => ?_]
    exact (le_add_of_nonneg_right (Int.natCast_nonneg _)).trans (hunexpired e he)
  unfold OutageRun.Subscribed
  rw [hkey, ← hsame]
  change _ ∈ ExpiringSet.smembers _ (s.now + call.elapsed) ↔ _
  dsimp only
  have hspan : 0 ≤ leaseSpan := by decide
  by_cases huser : userId = call.userId
  · by_cases hold : instrumentId ∈ s.bus.held call.userId call.clientId
    · by_cases hnew : instrumentId ∈ call.request.instrumentIds
      · simp [hold, hnew]
      · by_cases hclient : clientId = call.clientId
        · simp [huser, hold, hnew, hclient, ExpiringSet.mem_smembers_srem]
        · simp [huser, hold, hnew, hclient, ExpiringSet.mem_smembers_srem]
    · by_cases hnew : instrumentId ∈ call.request.instrumentIds
      · by_cases hclient : clientId = call.clientId
        · simp [huser, hold, hnew, hclient, ExpiringSet.mem_smembers_take hspan]
        · simp [huser, hold, hnew, hclient, ExpiringSet.mem_smembers_take hspan]
      · simp [hold, hnew]
  · simp [huser]

/-- A call that reaches Redis brings its client in step exactly where it resumes. -/
theorem agrees_outageStep_iff (hreached : call.redis = .reached) (hlive : NoneExpired s call) :
    (outageStep s call).Agrees (call.userId, call.clientId) ↔ Resumes s call := by
  unfold OutageRun.Agrees Resumes
  simp only [hreached, forall_const]
  refine forall_congr' fun instrumentId => ?_
  rw [outageStep_subscribed hreached hlive, outageStep_held, if_pos rfl]
  by_cases hold : instrumentId ∈ s.bus.held call.userId call.clientId
  · by_cases hnew : instrumentId ∈ call.request.instrumentIds
    · simp [hold, hnew]
    · simp [hold, hnew]
  · by_cases hnew : instrumentId ∈ call.request.instrumentIds
    · simp [hold, hnew]
    · simp [hold, hnew]

/-- It leaves the others as they are. -/
theorem agrees_outageStep_of_ne (hreached : call.redis = .reached) (hlive : NoneExpired s call)
    {client : Uuid × ClientId} (hne : client ≠ (call.userId, call.clientId)) :
    (outageStep s call).Agrees client ↔ s.Agrees client := by
  unfold OutageRun.Agrees
  refine forall_congr' fun instrumentId => ?_
  rw [outageStep_subscribed hreached hlive, outageStep_held, if_neg fun h => hne h.1, if_neg hne]

/-- **One call** leaves Redis and the bus in step exactly where it resumes. -/
theorem inStep_outageStep_iff (h : s.InStep) (hlive : NoneExpired s call) :
    (outageStep s call).InStep ↔ Resumes s call := by
  by_cases hreached : call.redis = .reached
  · have hreturned : (outageStep s call).returned = (call.userId, call.clientId) :: s.returned :=
      if_pos hreached
    rw [← agrees_outageStep_iff hreached hlive]
    unfold OutageRun.InStep
    rw [hreturned]
    constructor
    · intro hall
      exact hall _ (List.mem_cons_self ..)
    · intro hself client hclient
      by_cases hcaller : client = (call.userId, call.clientId)
      · exact hcaller ▸ hself
      · rw [agrees_outageStep_of_ne hreached hlive hcaller]
        exact h client ((List.mem_cons.1 hclient).resolve_left hcaller)
  · have hreturned : (outageStep s call).returned = [] := if_neg hreached
    refine iff_of_true ?_ fun h => absurd h hreached
    unfold OutageRun.InStep
    rw [hreturned]
    exact fun _ h => absurd h List.not_mem_nil

/-- With every client in step, a call that reaches Redis resumes. -/
theorem agrees_outageStep (hreached : call.redis = .reached) (hlive : NoneExpired s call)
    (h : ∀ client, s.Agrees client) (client : Uuid × ClientId) :
    (outageStep s call).Agrees client := by
  by_cases hcaller : client = (call.userId, call.clientId)
  · rw [hcaller, agrees_outageStep_iff hreached hlive]
    intro _ instrumentId
    have hagrees := h (call.userId, call.clientId) instrumentId
    exact ⟨fun hold _ => hagrees.2 hold, fun hsubscribed => Or.inl (hagrees.1 hsubscribed)⟩
  · rw [agrees_outageStep_of_ne hreached hlive hcaller]
    exact h client

end Call

/-! ## Runs -/

/-- **Redis and the bus.**  Over every run of calls in which no key expires, with
Redis lost and found in any way: after every call the clients that called since
Redis came back are in its sets with what the bus remembers exactly when every
call that reaches Redis resumes; and where all calls reached it, the active
subscriptions are those of the bus. -/
theorem registry_in_step_iff (calls : List OutageCall)
    (hlive : Run (Guarded NoneExpired (Steps outageStep)) {} calls (calls.foldl outageStep {})) :
    ((∀ before after, calls = before ++ after → (before.foldl outageStep {}).InStep) ↔
      Run (Guarded Resumes (Steps outageStep)) {} calls (calls.foldl outageStep {})) ∧
    ((∀ call ∈ calls, call.redis = .reached) → ∀ now,
      (∀ key, ∀ e ∈ ((calls.foldl outageStep {}).bus.subscribers key).expireAt, now ≤ e) →
      (calls.foldl outageStep {}).now ≤ now →
      activeSubscriptions now (calls.foldl outageStep {}).bus =
        clientSubscriptions (calls.foldl outageStep {}).bus) := by
  refine ⟨guarded_run_invariant_iff_assuming (fun _ h => absurd h List.not_mem_nil) hlive
    fun s call h hunexpired => inStep_outageStep_iff h hunexpired, ?_⟩
  intro hreached now hunexpired hlater
  have hagrees : ∀ client, (calls.foldl outageStep {}).Agrees client := by
    refine (Run.guarded_of_forall hlive hreached).invariant
      (P := fun s : OutageRun => ∀ client, s.Agrees client) (fun client instrumentId => ?_)
      fun s call t h hstep => hstep.2.2 ▸ agrees_outageStep hstep.1 hstep.2.1 h
    exact iff_of_false (Finset.notMem_empty _) (Finset.notMem_empty _)
  ext key
  have hsame := ExpiringSet.smembers_of_le (hunexpired key)
  rw [← ExpiringSet.smembers_of_le fun e he => hlater.trans (hunexpired key e he)] at hsame
  calc _ ↔ (((calls.foldl outageStep {}).bus.subscribers key).smembers now).Nonempty :=
        ExpiringSet.scard_ne_zero
    _ ↔ ∃ clientId, (calls.foldl outageStep {}).Subscribed key.1 clientId key.2
          (calls.foldl outageStep {}).now := by rw [hsame]; exact Iff.rfl
    _ ↔ _ := exists_congr fun clientId => hagrees (key.1, clientId) key.2

/-- A client that subscribes and leaves while Redis is lost, and comes back with it. -/
def backAfterOutage : List OutageCall := [
  { elapsed := 0, userId := 7, clientId := "browser", request := .replace {3}, redis := .skipped },
  { elapsed := 25 * 1000000, userId := 7, clientId := "browser", request := .disconnect,
    redis := .skipped },
  { elapsed := 25 * 1000000, userId := 7, clientId := "browser", request := .replace {3} }]

theorem backAfterOutage_noneExpired : Run (Guarded NoneExpired (Steps outageStep)) {}
    backAfterOutage (backAfterOutage.foldl outageStep {}) := by
  refine .cons ⟨?_, rfl⟩ <| .cons ⟨?_, rfl⟩ <| .single ⟨?_, rfl⟩
  -- nothing reached Redis before the last call
  all_goals exact fun _ e he => absurd he (Option.not_mem_none e)

theorem backAfterOutage_resumes : Run (Guarded Resumes (Steps outageStep)) {} backAfterOutage
    (backAfterOutage.foldl outageStep {}) := by
  refine .cons ⟨?_, rfl⟩ <| .cons ⟨?_, rfl⟩ <| .single ⟨?_, rfl⟩
  · exact fun hreached => absurd hreached (by decide)
  · exact fun hreached => absurd hreached (by decide)
  · exact fun _ instrumentId => ⟨fun hheld => absurd hheld (Finset.notMem_empty _),
      fun hsubscribed => absurd hsubscribed (Finset.notMem_empty _)⟩

theorem registry_in_step_iff_backAfterOutage :
    (∀ before after, backAfterOutage = before ++ after → (before.foldl outageStep {}).InStep) ∧
      (7, "browser") ∈ (backAfterOutage.foldl outageStep {}).returned :=
  ⟨(registry_in_step_iff backAfterOutage backAfterOutage_noneExpired).1.2 backAfterOutage_resumes,
    by decide +kernel⟩

/-- A client that loses Redis as it subscribes, and repeats its call. -/
def repeatedAfterOutage : List OutageCall := [
  { elapsed := 0, userId := 7, clientId := "browser", request := .replace {3}, redis := .skipped },
  { elapsed := 25 * 1000000, userId := 7, clientId := "browser", request := .replace {3} }]

/-- **An outage outlives itself**: the second call finds Redis, and adds nothing. -/
theorem repeated_after_outage :
    (7, "browser") ∈ (repeatedAfterOutage.foldl outageStep {}).returned ∧
      3 ∈ (repeatedAfterOutage.foldl outageStep {}).bus.held 7 "browser" ∧
      "browser" ∉ ((repeatedAfterOutage.foldl outageStep {}).bus.subscribers (7, 3)).smembers
        (repeatedAfterOutage.foldl outageStep {}).now := by
  decide +kernel

end GnkAlgo
