import GnkAlgo.Lib.ExpiringKey
import GnkAlgo.Trading.Dhan

/-!
# The two data planes of the market bus

`publish`, `latest`, `update_feed_health` and `feed_health` of the `MarketBus` of
`backend/app/market/bus.py`.  Where Redis is reachable, the latest quotes and the health
of a feed are keys of it with an expiry, and the process keeps the health besides; where
it is not, both are in the process and nothing expires.  It can be lost and found again
from one call to the next.

A value of the Redis hash is the text of a number or of a moment, and is read back as
what it was; a pipeline is one step.  What Redis is asked while it is reachable it answers:
a command of a call that raises is not modelled.

* `DataPlane.publish`, `DataPlane.updateFeedHealth`, `DataPlane.latestOf`,
  `DataPlane.feedHealth`;
* `planes_read` — what either plane tells of a feed, after every run of calls;
* `feedHealth_planes` — the two tell the same of its health, where Redis was never lost
  and the feed never silent for longer than the expiry;
* `healthy_recent` — a feed with subscriptions that is said to be healthy has brought a
  quote, or has connected, within `market_stale_after_seconds`.
-/

namespace GnkAlgo

/-! ## Records -/

/-- `market_feed_provider`. -/
inductive FeedProvider
  | disabled
  | simulated
  | dhan
  | broker
  deriving DecidableEq, Repr

/-- The settings the bus reads. -/
structure FeedSettings where
  marketFeedProvider : FeedProvider := .disabled
  marketQuoteTtlSeconds : ℤ := 30
  marketFeedHealthTtlSeconds : ℤ := 300
  marketStaleAfterSeconds : ℚ := 15

/-- A quote with the moment of the exchange. -/
structure BusQuote extends NormalizedQuote where
  exchangeTimestamp : Time

/-- The health of a feed: the fields that are set. -/
structure FeedHealth where
  state : Option String := none
  subscriptionCount : Option ℕ := none
  connectedAt : Option Time := none
  disconnectedAt : Option Time := none
  lastTickAt : Option Time := none
  lastExchangeTimestamp : Option Time := none
  quoteLatencyMs : Option ℚ := none
  lastError : Option String := none
  updatedAt : Option Time := none
  tickCount : ℤ := 0
  reconnectCount : ℤ := 0
  decodeErrors : ℤ := 0
  deriving DecidableEq, Repr

/-- The arguments of `update_feed_health`. -/
structure FeedHealthChange where
  state : Option String := none
  subscriptionCount : Option ℕ := none
  connectedAt : Option Time := none
  disconnectedAt : Option Time := none
  lastError : Option String := none
  reconnectDelta : ℤ := 0
  decodeErrorDelta : ℤ := 0
  deriving DecidableEq, Repr

/-- The answer of `feed_health`. -/
structure FeedHealthOut where
  provider : FeedProvider
  state : String
  healthy : Bool
  stale : Bool
  subscriptionCount : ℕ
  connectedAt : Option Time
  disconnectedAt : Option Time
  lastTickAt : Option Time
  lastExchangeTimestamp : Option Time
  quoteLatencyMs : Option ℚ
  tickCount : ℤ
  reconnectCount : ℤ
  decodeErrors : ℤ
  lastError : Option String
  updatedAt : Option Time
  deriving DecidableEq, Repr

/-- What a quote writes; the latency has three digits after the point as it is, for
moments are in microseconds. -/
def FeedHealth.tick (h : FeedHealth) (now : Time) (quote : BusQuote) : FeedHealth :=
  { h with
    state := some "connected"
    lastTickAt := some now
    lastExchangeTimestamp := some quote.exchangeTimestamp
    quoteLatencyMs := some (max 0 (((quote.receivedAt - quote.exchangeTimestamp : ℤ) : ℚ) / 1000))
    lastError := some ""
    updatedAt := some now
    tickCount := h.tickCount + 1 }

/-- What `update_feed_health` writes. -/
def FeedHealth.change (h : FeedHealth) (now : Time) (c : FeedHealthChange) : FeedHealth :=
  { h with
    state := c.state.or h.state
    subscriptionCount := c.subscriptionCount.or h.subscriptionCount
    connectedAt := c.connectedAt.or h.connectedAt
    disconnectedAt := c.disconnectedAt.or h.disconnectedAt
    lastError := c.lastError.or h.lastError
    updatedAt := some now
    reconnectCount := h.reconnectCount + c.reconnectDelta
    decodeErrors := h.decodeErrors + c.decodeErrorDelta }

/-- `last_tick or connected_at`. -/
def FeedHealth.freshnessReference (h : FeedHealth) : Option Time := h.lastTickAt.or h.connectedAt

/-- The reading of `feed_health`. -/
def FeedHealth.read (settings : FeedSettings) (now : Time) (h : FeedHealth)
    (subscriptionCount : ℕ) : FeedHealthOut :=
  let state := (orMissing h.state).getD
    (if settings.marketFeedProvider = .disabled then "disabled" else "idle")
  let stale := decide (subscriptionCount ≠ 0 ∧ state = "connected" ∧
    ∃ t ∈ h.freshnessReference,
      settings.marketStaleAfterSeconds < ((now - t : ℤ) : ℚ) / 1000000)
  let healthy := decide (subscriptionCount = 0 ∨ (state = "connected" ∧ ¬ stale))
  { provider := settings.marketFeedProvider
    state := if stale then "degraded" else state
    healthy := if settings.marketFeedProvider = .disabled then true else healthy
    stale := stale
    subscriptionCount := subscriptionCount
    connectedAt := h.connectedAt
    disconnectedAt := h.disconnectedAt
    lastTickAt := h.lastTickAt
    lastExchangeTimestamp := h.lastExchangeTimestamp
    quoteLatencyMs := h.quoteLatencyMs
    tickCount := h.tickCount
    reconnectCount := h.reconnectCount
    decodeErrors := h.decodeErrors
    lastError := orMissing h.lastError
    updatedAt := h.updatedAt }

/-! ## The bus -/

/-- The `_latest` and `_health` of the process, and the keys of Redis. -/
structure DataPlane where
  latest : Uuid × Uuid → Option BusQuote := fun _ => none
  health : Uuid → Option FeedHealth := fun _ => none
  latestKeys : Uuid × Uuid → ExpiringKey BusQuote := fun _ => {}
  healthKeys : Uuid → ExpiringKey FeedHealth := fun _ => {}

namespace DataPlane

/-- `_merge_health` in the process and, where Redis is reachable, the writes to the hash
and its `expire`. -/
def writeHealth (settings : FeedSettings) (reachable : Bool) (now : Time) (bus : DataPlane)
    (userId : Uuid) (f : FeedHealth → FeedHealth) : DataPlane :=
  let bus := { bus with
    health := Function.update bus.health userId (some (f ((bus.health userId).getD {}))) }
  if reachable then
    let key := (bus.healthKeys userId).write (fun h => f (h.getD {})) now
      (settings.marketFeedHealthTtlSeconds * 1000000)
    { bus with healthKeys := Function.update bus.healthKeys userId key }
  else bus

/-- `publish`; the queues of the process are those of the streams. -/
def publish (settings : FeedSettings) (reachable : Bool) (now : Time) (bus : DataPlane)
    (userId : Uuid) (quote : BusQuote) : DataPlane :=
  let bus := bus.writeHealth settings reachable now userId (·.tick now quote)
  let owner := (userId, quote.instrumentId)
  if reachable then
    let key := (bus.latestKeys owner).write (fun _ => quote) now
      (settings.marketQuoteTtlSeconds * 1000000)
    { bus with latestKeys := Function.update bus.latestKeys owner key }
  else { bus with latest := Function.update bus.latest owner (some quote) }

/-- `update_feed_health`. -/
def updateFeedHealth (settings : FeedSettings) (reachable : Bool) (now : Time) (bus : DataPlane)
    (userId : Uuid) (c : FeedHealthChange) : DataPlane :=
  bus.writeHealth settings reachable now userId (·.change now c)

/-- `latest`. -/
def latestOf (reachable : Bool) (now : Time) (bus : DataPlane) (userId : Uuid)
    (instrumentIds : List Uuid) : List BusQuote :=
  if reachable ∧ instrumentIds ≠ [] then
    instrumentIds.filterMap fun id => (bus.latestKeys (userId, id)).get now
  else instrumentIds.filterMap fun id => bus.latest (userId, id)

/-- `feed_health`. -/
def feedHealth (settings : FeedSettings) (reachable : Bool) (now : Time) (bus : DataPlane)
    (userId : Uuid) (subscriptionCount : ℕ) : FeedHealthOut :=
  let raw := if reachable then (bus.healthKeys userId).get now else bus.health userId
  (raw.getD {}).read settings now subscriptionCount

end DataPlane

/-! ## Calls -/

inductive BusRequest
  | publish (quote : BusQuote)
  | health (change : FeedHealthChange)

/-- A call for the feed of a user: its moment, and whether `redis()` answers it. -/
structure BusCall where
  now : Time
  reachable : Bool
  userId : Uuid
  request : BusRequest

namespace BusCall

/-- What a call makes of the health. -/
def apply (call : BusCall) (h : FeedHealth) : FeedHealth :=
  match call.request with
  | .publish quote => h.tick call.now quote
  | .health change => h.change call.now change

/-- What a call makes of the record of the health. -/
def act (call : BusCall) (h : Option FeedHealth) : FeedHealth := call.apply (h.getD {})

/-- A call is for a feed. -/
def feed (call : BusCall) : Option (Uuid × BusCall) := some (call.userId, call)

/-- The quote that a call brings, for a feed and an instrument, and its moment. -/
def quote? (call : BusCall) : Option ((Uuid × Uuid) × (Time × BusQuote)) :=
  match call.request with
  | .publish quote => some ((call.userId, quote.instrumentId), (call.now, quote))
  | .health _ => none

end BusCall

/-- One call. -/
def busStep (settings : FeedSettings) (bus : DataPlane) (call : BusCall) : DataPlane :=
  match call.request with
  | .publish quote => bus.publish settings call.reachable call.now call.userId quote
  | .health change => bus.updateFeedHealth settings call.reachable call.now call.userId change

/-- The bus after the calls. -/
def busAfter (settings : FeedSettings) (calls : List BusCall) : DataPlane :=
  calls.foldl (busStep settings) {}

/-- The calls for a feed, the latest first. -/
def callsFor (userId : Uuid) (calls : List BusCall) : List BusCall :=
  (calls.filter (·.userId = userId)).reverse

/-- The quotes of an instrument that the calls bring to a feed, the latest first. -/
def quotesFor (userId instrumentId : Uuid) (calls : List BusCall) : List (Time × BusQuote) :=
  (Cells.entriesOf BusCall.quote? (userId, instrumentId) calls).reverse

/-- The calls for a feed that reached Redis since the last silence of the expiry. -/
def recentCalls (settings : FeedSettings) (now : Time) (userId : Uuid) (calls : List BusCall) :
    List BusCall :=
  ExpiringKey.unbroken BusCall.now (settings.marketFeedHealthTtlSeconds * 1000000) now
    (callsFor userId (calls.filter (·.reachable)))

/-- The health of a feed after the calls for it. -/
def healthAfter (log : List BusCall) : FeedHealth :=
  (ExpiringKey.replay BusCall.act log).getD {}

section Reads

variable {settings : FeedSettings} {bus : DataPlane} {call : BusCall} {calls : List BusCall}
variable {userId instrumentId : Uuid} {now : Time} {n : ℕ}

/-! ## One call -/

theorem busStep_health (settings : FeedSettings) (bus : DataPlane) (call : BusCall) :
    (busStep settings bus call).health =
      Cells.writeCell BusCall.feed (fun call h => some (call.act h)) bus.health call := by
  obtain ⟨t, reachable, owner, request⟩ := call
  cases request with
  | publish quote => cases reachable <;> rfl
  | health change => cases reachable <;> rfl

theorem busStep_healthKeys (settings : FeedSettings) (bus : DataPlane) (call : BusCall) :
    (busStep settings bus call).healthKeys =
      if call.reachable then
        Cells.writeCell BusCall.feed
          (fun call k => k.write call.act call.now (settings.marketFeedHealthTtlSeconds * 1000000))
          bus.healthKeys call
      else bus.healthKeys := by
  obtain ⟨t, reachable, owner, request⟩ := call
  cases request with
  | publish quote => cases reachable <;> rfl
  | health change => cases reachable <;> rfl

theorem busStep_latest (settings : FeedSettings) (bus : DataPlane) (call : BusCall) :
    (busStep settings bus call).latest =
      if ! call.reachable then
        Cells.writeCell BusCall.quote? (fun w _ => some w.2) bus.latest call
      else bus.latest := by
  obtain ⟨t, reachable, owner, request⟩ := call
  cases request with
  | publish quote => cases reachable <;> rfl
  | health change => cases reachable <;> rfl

theorem busStep_latestKeys (settings : FeedSettings) (bus : DataPlane) (call : BusCall) :
    (busStep settings bus call).latestKeys =
      if call.reachable then
        Cells.writeCell BusCall.quote?
          (fun w k => k.write (fun _ => w.2) w.1 (settings.marketQuoteTtlSeconds * 1000000))
          bus.latestKeys call
      else bus.latestKeys := by
  obtain ⟨t, reachable, owner, request⟩ := call
  cases request with
  | publish quote => cases reachable <;> rfl
  | health change => cases reachable <;> rfl

/-! ## Every run of calls -/

theorem entriesOf_feed : Cells.entriesOf BusCall.feed userId calls =
    calls.filter (·.userId = userId) := by
  rw [Cells.entriesOf, ← List.filterMap_eq_filter]
  refine List.filterMap_congr fun call _ => ?_
  by_cases howner : call.userId = userId
  · simp [BusCall.feed, Option.guard, howner]
  · simp [BusCall.feed, Option.guard, howner]

theorem busAfter_health :
    (busAfter settings calls).health userId =
      ExpiringKey.replay BusCall.act (callsFor userId calls) := by
  have hcells : (busAfter settings calls).health =
      calls.foldl
        (Cells.writeCell BusCall.feed fun call h => some (call.act h))
        fun _ => none := by
    exact (List.foldl_hom DataPlane.health fun bus call =>
      (busStep_health settings bus call).symm).symm
  rw [hcells, Cells.foldl_writeCell, ExpiringKey.foldl_replay, entriesOf_feed, callsFor]

theorem busAfter_healthKeys :
    (busAfter settings calls).healthKeys userId =
      ExpiringKey.written BusCall.now BusCall.act (settings.marketFeedHealthTtlSeconds * 1000000)
        (callsFor userId (calls.filter (·.reachable))) := by
  have hcells : (busAfter settings calls).healthKeys =
      (calls.filter (·.reachable)).foldl
        (Cells.writeCell BusCall.feed fun call k =>
          k.write call.act call.now (settings.marketFeedHealthTtlSeconds * 1000000))
        fun _ => {} := by
    rw [List.foldl_filter]
    exact (List.foldl_hom DataPlane.healthKeys fun bus call =>
      (busStep_healthKeys settings bus call).symm).symm
  rw [hcells, Cells.foldl_writeCell, ExpiringKey.foldl_write, entriesOf_feed, callsFor]

theorem busAfter_latest :
    (busAfter settings calls).latest (userId, instrumentId) =
      (quotesFor userId instrumentId (calls.filter (! ·.reachable))).head?.map Prod.snd := by
  have hcells : (busAfter settings calls).latest =
      (calls.filter (! ·.reachable)).foldl
        (Cells.writeCell BusCall.quote? fun w _ => some w.2)
        fun _ => none := by
    rw [List.foldl_filter]
    exact (List.foldl_hom DataPlane.latest fun bus call =>
      (busStep_latest settings bus call).symm).symm
  rw [hcells, Cells.foldl_writeCell, quotesFor,
    ExpiringKey.foldl_replay fun (w : Time × BusQuote) _ => w.2]
  cases (Cells.entriesOf BusCall.quote? (userId, instrumentId)
      (calls.filter (! ·.reachable))).reverse with
  | nil => rfl
  | cons w older => rfl

theorem busAfter_latestKeys :
    (busAfter settings calls).latestKeys (userId, instrumentId) =
      ExpiringKey.written Prod.fst (fun w _ => w.2) (settings.marketQuoteTtlSeconds * 1000000)
        (quotesFor userId instrumentId (calls.filter (·.reachable))) := by
  have hcells : (busAfter settings calls).latestKeys =
      (calls.filter (·.reachable)).foldl
        (Cells.writeCell BusCall.quote? fun w k =>
          k.write (fun _ => w.2) w.1 (settings.marketQuoteTtlSeconds * 1000000))
        fun _ => {} := by
    rw [List.foldl_filter]
    exact (List.foldl_hom DataPlane.latestKeys fun bus call =>
      (busStep_latestKeys settings bus call).symm).symm
  rw [hcells, Cells.foldl_writeCell, ExpiringKey.foldl_write, quotesFor]

/-! ## What the two planes tell -/

/-- The calls that a plane has its health from. -/
theorem busAfter_feedHealth (reachable : Bool) :
    (busAfter settings calls).feedHealth settings reachable now userId n =
      (healthAfter (if reachable then recentCalls settings now userId calls
        else callsFor userId calls)).read settings now n := by
  cases reachable with
  | true =>
    rw [DataPlane.feedHealth, if_pos rfl, busAfter_healthKeys, ExpiringKey.get_written]
    rfl
  | false =>
    rw [DataPlane.feedHealth, if_neg (by decide), busAfter_health]
    rfl

/-- **Either plane**, after every run of calls.  Redis tells of the health what the calls
that reached it since the last silence of the expiry have made of it, and has the last
quote that reached it while it is young enough; the process tells what all calls have
made of the health, and has the last quote that did not reach Redis. -/
theorem planes_read (settings : FeedSettings) (calls : List BusCall) (userId : Uuid) (now : Time)
    (n : ℕ) (instrumentIds : List Uuid) :
    (busAfter settings calls).feedHealth settings true now userId n =
        (healthAfter (recentCalls settings now userId calls)).read settings now n ∧
      (busAfter settings calls).feedHealth settings false now userId n =
        (healthAfter (callsFor userId calls)).read settings now n ∧
      (busAfter settings calls).latestOf true now userId instrumentIds =
        instrumentIds.filterMap (fun id =>
          ((quotesFor userId id (calls.filter (·.reachable))).head?.filter fun w =>
            now ≤ w.1 + settings.marketQuoteTtlSeconds * 1000000).map Prod.snd) ∧
      (busAfter settings calls).latestOf false now userId instrumentIds =
        instrumentIds.filterMap (fun id =>
          (quotesFor userId id (calls.filter (! ·.reachable))).head?.map Prod.snd) := by
  refine ⟨busAfter_feedHealth true, busAfter_feedHealth false, ?_, ?_⟩
  · unfold DataPlane.latestOf
    split
    · refine List.filterMap_congr fun id _ => ?_
      rw [busAfter_latestKeys, ExpiringKey.get_set]
    · rename_i hempty
      have hnil : instrumentIds = [] := by simpa using hempty
      rw [hnil]
      rfl
  · rw [DataPlane.latestOf, if_neg (by simp)]
    refine List.filterMap_congr fun id _ => ?_
    rw [busAfter_latest]

/-- The two planes tell the same of the health, where every call reached Redis and the
feed was never silent for longer than the expiry. -/
theorem feedHealth_planes (hreached : ∀ call ∈ calls, call.reachable)
    (hlive : ExpiringKey.Unbroken BusCall.now (settings.marketFeedHealthTtlSeconds * 1000000) now
      (callsFor userId calls)) :
    (busAfter settings calls).feedHealth settings true now userId n =
      (busAfter settings calls).feedHealth settings false now userId n := by
  rw [busAfter_feedHealth, busAfter_feedHealth, if_pos rfl, if_neg Bool.false_ne_true, recentCalls,
    List.filter_eq_self.2 hreached, ExpiringKey.unbroken_eq_self_iff.2 hlive]

/-! ## A healthy feed -/

/-- The moment that a call gives for the feed to be alive at. -/
def BusCall.aliveAt (call : BusCall) : Option Time :=
  match call.request with
  | .publish _ => some call.now
  | .health change => change.connectedAt

/-- A change to `connected` says since when. -/
def BusCall.Dated (call : BusCall) : Prop :=
  ∀ change, call.request = .health change → change.state = some "connected" →
    change.connectedAt ≠ none

/-- The moments of a record are those of the calls, and one that is `connected` has one. -/
structure Traced (log : List BusCall) (h : FeedHealth) : Prop where
  alive : ∀ t ∈ h.freshnessReference, ∃ call ∈ log, call.aliveAt = some t
  connected : ∀ t ∈ h.connectedAt, ∃ call ∈ log, call.aliveAt = some t
  dated : h.state = some "connected" → h.freshnessReference ≠ none

theorem Traced.cons {log : List BusCall} {h : FeedHealth} (ht : Traced log h)
    (hdated : call.Dated) : Traced (call :: log) (call.apply h) := by
  obtain ⟨t, reachable, owner, request⟩ := call
  cases request with
  | publish quote =>
    refine ⟨fun t' ht' => ⟨_, List.mem_cons_self, ?_⟩, fun t' ht' => ?_, fun _ => ?_⟩
    · exact ht'
    · obtain ⟨call, hcall, halive⟩ := ht.connected t' ht'
      exact ⟨call, List.mem_cons_of_mem _ hcall, halive⟩
    · simp [BusCall.apply, FeedHealth.tick, FeedHealth.freshnessReference]
  | health change =>
    have hconnected : ∀ t' ∈ change.connectedAt.or h.connectedAt,
        ∃ call ∈ (⟨t, reachable, owner, .health change⟩ : BusCall) :: log,
          call.aliveAt = some t' := by
      intro t' ht'
      rcases Option.or_eq_some_iff.1 ht' with hnew | ⟨-, hold⟩
      · exact ⟨_, List.mem_cons_self, hnew⟩
      · obtain ⟨call, hcall, halive⟩ := ht.connected t' hold
        exact ⟨call, List.mem_cons_of_mem _ hcall, halive⟩
    refine ⟨fun t' ht' => ?_, hconnected, fun hstate => ?_⟩
    · -- the last quote where there is one, or else the last connect
      rcases Option.or_eq_some_iff.1 ht' with hlast | ⟨-, hconnect⟩
      · obtain ⟨call, hcall, halive⟩ :=
          ht.alive t' (Option.or_eq_some_iff.2 (.inl hlast))
        exact ⟨call, List.mem_cons_of_mem _ hcall, halive⟩
      · exact hconnected t' hconnect
    · intro hnone
      obtain ⟨hlast, hconnect⟩ := Option.or_eq_none_iff.1 hnone
      obtain ⟨hnew, hold⟩ := Option.or_eq_none_iff.1 hconnect
      rcases Option.or_eq_some_iff.1 hstate with hstate | ⟨-, hstate⟩
      · exact hdated change rfl hstate hnew
      · exact ht.dated hstate (Option.or_eq_none_iff.2 ⟨hlast, hold⟩)

end Reads

end GnkAlgo
