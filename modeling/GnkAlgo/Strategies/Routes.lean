import GnkAlgo.Auth.Requests
import GnkAlgo.Strategies.Executor

/-!
# The routes of the strategy API

The requests of `backend/app/routers/strategies.py` that write, and the activation
check of the executor.  A request is one transaction: where it is refused, or a
constraint fails at its commit, the tables stay as they were.

* `createStrategy`, `updateStrategy`, `activate`, `pause` — the requests;
* `strategyStep` — a request, an evaluation or a quote, handled to its end.
-/

namespace GnkAlgo

open StrategyExecutor

/-! ## Bodies -/

/-- `StrategyCreate`; the kind is set by the request. -/
structure StrategyCreate extends StrategyDefinition where
  name : String
  name_length : 1 ≤ name.length ∧ name.length ≤ 100 := by decide
  inBounds : toStrategyDefinition.InBounds

/-- A field of a body that may be left out, or be null. -/
abbrev Sent (α : Type) := Option (Option α)

/-- The value of a field that was sent, or else another one: `changes.get`. -/
def Sent.get {α : Type} (field : Sent α) (other : α) : α := field.join.getD other

/-- `StrategyUpdate`. -/
structure StrategyUpdate where
  name : Sent String := none
  timeframeSeconds : Sent ℕ := none
  fastPeriod : Sent ℕ := none
  slowPeriod : Sent ℕ := none
  quantity : Sent ℤ := none
  productType : Sent ProductType := none
  orderType : Sent OrderType := none
  limitOffsetBps : Sent ℚ := none
  maxOrdersPerDay : Sent ℕ := none
  name_length : ∀ v ∈ name.join, 1 ≤ v.length ∧ v.length ≤ 100 := by simp
  timeframe : ∀ v ∈ timeframeSeconds.join, 60 ≤ v ∧ v ≤ 86400 := by simp
  fast : ∀ v ∈ fastPeriod.join, 2 ≤ v ∧ v ≤ 200 := by simp
  slow : ∀ v ∈ slowPeriod.join, 3 ≤ v ∧ v ≤ 500 := by simp
  one_le_quantity : ∀ v ∈ quantity.join, 1 ≤ v := by simp
  offset : ∀ v ∈ limitOffsetBps.join, 0 ≤ v ∧ v ≤ 100 := by simp
  maxOrders : ∀ v ∈ maxOrdersPerDay.join, 1 ≤ v ∧ v ≤ 100 := by simp

namespace StrategyUpdate

/-- `any(value is None for value in changes.values())`. -/
def hasNull (u : StrategyUpdate) : Bool :=
  u.name = some none ∨ u.timeframeSeconds = some none ∨ u.fastPeriod = some none ∨
  u.slowPeriod = some none ∨ u.quantity = some none ∨ u.productType = some none ∨
  u.orderType = some none ∨ u.limitOffsetBps = some none ∨ u.maxOrdersPerDay = some none

/-- No field was sent. -/
def isEmpty (u : StrategyUpdate) : Bool :=
  u.name = none ∧ u.timeframeSeconds = none ∧ u.fastPeriod = none ∧ u.slowPeriod = none ∧
  u.quantity = none ∧ u.productType = none ∧ u.orderType = none ∧ u.limitOffsetBps = none ∧
  u.maxOrdersPerDay = none

/-- The parameters after the changes. -/
def apply (u : StrategyUpdate) (d : StrategyDefinition) : StrategyDefinition :=
  { d with
    timeframeSeconds := u.timeframeSeconds.get d.timeframeSeconds
    fastPeriod := u.fastPeriod.get d.fastPeriod
    slowPeriod := u.slowPeriod.get d.slowPeriod
    quantity := u.quantity.get d.quantity
    productType := u.productType.get d.productType
    orderType := u.orderType.get d.orderType
    limitOffsetBps := u.limitOffsetBps.get d.limitOffsetBps
    maxOrdersPerDay := u.maxOrdersPerDay.get d.maxOrdersPerDay }

theorem get_of {α : Type} {p : α → Prop} {field : Sent α} {other : α} (hother : p other)
    (hfield : ∀ v ∈ field.join, p v) : p (field.get other) := by
  rw [Sent.get]
  cases h : field.join with
  | none => exact hother
  | some v => exact hfield v h

/-- Changes within their bounds, with the periods in order, stay within bounds. -/
theorem apply_inBounds (u : StrategyUpdate) {d : StrategyDefinition} (h : d.InBounds)
    (hperiods : (u.apply d).fastPeriod < (u.apply d).slowPeriod) : (u.apply d).InBounds where
  timeframe := get_of (p := fun v => 60 ≤ v ∧ v ≤ 86400) h.timeframe u.timeframe
  fast := get_of (p := fun v => 2 ≤ v ∧ v ≤ 200) h.fast u.fast
  slow := get_of (p := fun v => v ≤ 500) h.slow fun v hv => (u.slow v hv).2
  periods := hperiods
  quantity := get_of (p := fun v => 1 ≤ v) h.quantity u.one_le_quantity
  offset := get_of (p := fun v => 0 ≤ v ∧ v ≤ 100) h.offset u.offset
  maxOrders := get_of (p := fun v => 1 ≤ v ∧ v ≤ 100) h.maxOrders u.maxOrders

end StrategyUpdate

/-! ## Creating and editing -/

/-- `_owned`. -/
def ownedStrategy? (tables : StrategyTables) (userId strategyId : Uuid) : Option Strategy :=
  tables.strategies.find? fun s => s.id = strategyId ∧ s.userId = userId

def strategyNotFound : HttpError := ⟨404, "Strategy not found"⟩

/-- The snapshot of a strategy. -/
def versionOf (strategy : Strategy) (userId : Uuid) : StrategyVersion where
  strategyId := strategy.id
  userId := userId
  version := strategy.version
  definition := strategyDefinition strategy
  createdByUserId := userId

/-- Commit new tables, or roll back where the name is taken. -/
def commitNamed (tables new : StrategyTables) (strategy : Strategy) :
    StrategyTables × Except HttpError Strategy :=
  if new.Valid then (new, .ok strategy)
  else (tables, .error ⟨409, "Strategy name already exists"⟩)

/-- The row of a new strategy. -/
def newStrategy (id userId : Uuid) (name : String) (payload : StrategyCreate) : Strategy where
  toStrategyDefinition := { payload.toStrategyDefinition with kind := "SMA_CROSS" }
  id := id
  userId := userId
  name := name
  inBounds := ⟨payload.inBounds.timeframe, payload.inBounds.fast, payload.inBounds.slow,
    payload.inBounds.periods, payload.inBounds.quantity, payload.inBounds.offset,
    payload.inBounds.maxOrders⟩

/-- `create_strategy`, where `instrument` is what the query for the instrument finds. -/
def createStrategy (lib : StrategyLibraries) (intervals : CandleIntervals)
    (instrument : Option TradedInstrument) (tables : StrategyTables) (userId : Uuid)
    (payload : StrategyCreate) : StrategyTables × Except HttpError Strategy :=
  match instrument.filter TradedInstrument.isActive with
  | none => (tables, .error ⟨404, "Instrument not found"⟩)
  | some _ =>
    if payload.timeframeSeconds ∉ intervals.values then
      (tables, .error ⟨422, "Unsupported candle interval"⟩)
    else if lib.strip payload.name = "" then (tables, .error ⟨422, "Strategy name required"⟩)
    else
      let strategy := newStrategy tables.nextUuid userId (lib.strip payload.name) payload
      commitNamed tables ((tables.insertStrategy strategy).addVersion (versionOf strategy userId))
        strategy

/-- The statuses in which a strategy may be edited or activated. -/
def idleStatuses : List StrategyStatus := [.draft, .paused, .error]

/-- The row after an edit with changes. -/
def editedStrategy (strategy : Strategy) (name : String) (payload : StrategyUpdate)
    (h : (payload.apply strategy.toStrategyDefinition).InBounds) : Strategy :=
  { strategy with
    toStrategyDefinition := payload.apply strategy.toStrategyDefinition
    name := name
    version := strategy.version + 1
    status := .draft
    lastError := none
    inBounds := h }

/-- `update_strategy`. -/
def updateStrategy (lib : StrategyLibraries) (intervals : CandleIntervals)
    (tables : StrategyTables) (userId strategyId : Uuid) (payload : StrategyUpdate) :
    StrategyTables × Except HttpError Strategy :=
  match ownedStrategy? tables userId strategyId with
  | none => (tables, .error strategyNotFound)
  | some strategy =>
    let name := payload.name.join.map lib.strip
    let changed := payload.apply strategy.toStrategyDefinition
    if strategy.status ∉ idleStatuses then (tables, .error ⟨409, "Pause strategy before editing"⟩)
    else if payload.hasNull then (tables, .error ⟨422, "Strategy fields cannot be null"⟩)
    else if name = some "" then (tables, .error ⟨422, "Strategy name required"⟩)
    else if h : changed.slowPeriod ≤ changed.fastPeriod then
      (tables, .error ⟨422, "fast_period must be less than slow_period"⟩)
    else if changed.timeframeSeconds ∉ intervals.values then
      (tables, .error ⟨422, "Unsupported candle interval"⟩)
    else if payload.isEmpty then (tables, .ok strategy)
    else
      let edited := editedStrategy strategy (name.getD strategy.name) payload
        (payload.apply_inBounds strategy.inBounds (not_le.1 h))
      commitNamed tables
        ((tables.updateStrategy strategy.id fun _ => edited).addVersion (versionOf edited userId))
        edited

/-! ## Activating and pausing -/

/-- `activation_check`; the status and code of the `StrategyError` it raises. -/
def activationCheck (settings : StrategySettings) (strategy : Strategy) (mfaEnabled : Bool)
    (confirmation : Option String) : Except HttpError Unit :=
  if ¬ settings.strategyEngineEnabled then .error ⟨403, "STRATEGY_ENGINE_DISABLED"⟩
  else if strategy.executionMode.tradingMode ≠ settings.tradingMode then
    .error ⟨422, "STRATEGY_TRADING_MODE_MISMATCH"⟩
  else if strategy.executionMode = .live then
    if ¬ mfaEnabled then .error ⟨403, "MFA_REQUIRED_FOR_LIVE_STRATEGY"⟩
    else if settings.strategyLiveConfirmation ≠ "ENABLE_LIVE_STRATEGIES" then
      .error ⟨403, "LIVE_STRATEGIES_NOT_CONFIRMED"⟩
    else if confirmation ≠ some "ENABLE_LIVE_STRATEGY" then
      .error ⟨403, "LIVE_STRATEGY_ACTIVATION_NOT_CONFIRMED"⟩
    else
      match liveGate settings.toSettings with
      | .error e => .error ⟨e.statusCode, e.code⟩
      | .ok () => .ok ()
  else .ok ()

/-- An order in doubt that a signal of the strategy names. -/
def hasUnknownOrder (d : Database) (tables : StrategyTables) (strategyId : Uuid) : Bool :=
  d.orders.any fun o => o.status = .unknown ∧ tables.signals.any fun s =>
    s.strategyId = strategyId ∧ s.userId = o.userId ∧ s.clientOrderId = o.clientOrderId

/-- `activate`. -/
def activate (settings : StrategySettings) (now : Time) (p : Platform) (userId strategyId : Uuid)
    (mfaEnabled : Bool) (confirmation : Option String) :
    StrategyTables × Except HttpError Strategy :=
  match ownedStrategy? p.tables userId strategyId with
  | none => (p.tables, .error strategyNotFound)
  | some strategy =>
    if strategy.status ∉ idleStatuses then
      (p.tables, .error ⟨409, "Strategy cannot be activated"⟩)
    else if p.tables.runs.any fun r => r.strategyId = strategy.id ∧ r.status = .started then
      (p.tables, .error ⟨409, "Incomplete run requires manual reconciliation"⟩)
    else if p.tables.signals.any fun s => s.strategyId = strategy.id ∧ s.status = .created then
      (p.tables, .error ⟨409, "Unresolved signal requires manual reconciliation"⟩)
    else if hasUnknownOrder p.trading.toDatabase p.tables strategy.id then
      (p.tables, .error ⟨409, "Unknown broker order requires reconciliation"⟩)
    else
      match activationCheck settings strategy mfaEnabled confirmation with
      | .error e => (p.tables, .error e)
      | .ok () =>
        let activated (s : Strategy) : Strategy :=
          { s with status := .active, activatedAt := some now, lastError := none }
        (p.tables.updateStrategy strategy.id activated, .ok (activated strategy))

/-- `pause`. -/
def pause (now : Time) (tables : StrategyTables) (userId strategyId : Uuid) :
    StrategyTables × Except HttpError Strategy :=
  match ownedStrategy? tables userId strategyId with
  | none => (tables, .error strategyNotFound)
  | some strategy =>
    let paused (s : Strategy) : Strategy := { s with status := .paused, pausedAt := some now }
    (tables.updateStrategy strategy.id paused, .ok (paused strategy))

/-! ## What the requests write -/

section Cases

variable {settings : StrategySettings} {lib : StrategyLibraries} {intervals : CandleIntervals}
  {tables : StrategyTables} {userId strategyId : Uuid}

theorem ownedStrategy?_eq_some {s : Strategy} (h : ownedStrategy? tables userId strategyId = some s) :
    s ∈ tables.strategies ∧ s.id = strategyId ∧ s.userId = userId := by
  have hfound := List.find?_some h
  exact ⟨List.mem_of_find?_eq_some h, by simpa using hfound⟩

theorem commitNamed_cases {new : StrategyTables} {strategy : Strategy}
    {r : StrategyTables × Except HttpError Strategy} (hr : r = commitNamed tables new strategy) :
    (r.1 = tables ∧ ∃ e, r.2 = .error e) ∨ (new.Valid ∧ r = (new, .ok strategy)) := by
  unfold commitNamed at hr
  split_ifs at hr with hvalid
  · exact Or.inr ⟨hvalid, hr⟩
  · exact Or.inl (hr ▸ ⟨rfl, _, rfl⟩)

/-- A strategy is created whole, or nothing is. -/
theorem createStrategy_cases {instrument : Option TradedInstrument} {payload : StrategyCreate}
    {r : StrategyTables × Except HttpError Strategy}
    (hr : r = createStrategy lib intervals instrument tables userId payload) :
    (r.1 = tables ∧ ∃ e, r.2 = .error e) ∨
    ∃ s, s = newStrategy tables.nextUuid userId (lib.strip payload.name) payload ∧
      r.1 = (tables.insertStrategy s).addVersion (versionOf s userId) ∧ r.1.Valid := by
  unfold createStrategy at hr
  split at hr
  · exact Or.inl (hr ▸ ⟨rfl, _, rfl⟩)
  split_ifs at hr
  any_goals exact Or.inl (hr ▸ ⟨rfl, _, rfl⟩)
  rcases commitNamed_cases hr with hrefused | ⟨hvalid, hr⟩
  · exact Or.inl hrefused
  · exact Or.inr ⟨_, rfl, congrArg Prod.fst hr, hr ▸ hvalid⟩

/-- An edit is refused and leaves the tables as they are, changes nothing, or writes
the strategy with all its changes and their version. -/
theorem updateStrategy_cases {payload : StrategyUpdate}
    {r : StrategyTables × Except HttpError Strategy}
    (hr : r = updateStrategy lib intervals tables userId strategyId payload) :
    r.1 = tables ∨
    ∃ s ∈ tables.strategies, s.id = strategyId ∧ s.userId = userId ∧ s.status ∈ idleStatuses ∧
      ∃ name h, r.2 = .ok (editedStrategy s name payload h) ∧
        r.1 = (tables.updateStrategy s.id fun _ => editedStrategy s name payload h).addVersion
          (versionOf (editedStrategy s name payload h) userId) ∧ r.1.Valid := by
  unfold updateStrategy at hr
  split at hr
  · exact Or.inl (hr ▸ rfl)
  rename_i s hs
  obtain ⟨hmem, hid, huser⟩ := ownedStrategy?_eq_some hs
  dsimp only at hr
  split_ifs at hr with hstatus _ _ hperiods
  any_goals exact Or.inl (hr ▸ rfl)
  rcases commitNamed_cases hr with ⟨hsame, -⟩ | ⟨hvalid, hr⟩
  · exact Or.inl hsame
  · exact Or.inr ⟨s, hmem, hid, huser, hstatus, _, _, congrArg Prod.snd hr,
      congrArg Prod.fst hr, hr ▸ hvalid⟩

/-- **A refused edit leaves the tables as they are.** -/
theorem updateStrategy_refused {payload : StrategyUpdate} {e : HttpError}
    (h : (updateStrategy lib intervals tables userId strategyId payload).2 = .error e) :
    (updateStrategy lib intervals tables userId strategyId payload).1 = tables := by
  rcases updateStrategy_cases (r := updateStrategy lib intervals tables userId strategyId payload)
    rfl with hsame | ⟨s, -, -, -, -, name, hbounds, hok, -⟩
  · exact hsame
  · cases h.symm.trans hok

theorem activate_cases {p : Platform} {now : Time} {mfaEnabled : Bool}
    {confirmation : Option String} {r : StrategyTables × Except HttpError Strategy}
    (hr : r = activate settings now p userId strategyId mfaEnabled confirmation) :
    r.1 = p.tables ∨
    ∃ s ∈ p.tables.strategies, s.id = strategyId ∧ s.userId = userId ∧
      r.1 = p.tables.updateStrategy s.id fun s =>
        { s with status := .active, activatedAt := some now, lastError := none } := by
  unfold activate at hr
  split at hr
  · exact Or.inl (hr ▸ rfl)
  rename_i s hs
  obtain ⟨hmem, hid, huser⟩ := ownedStrategy?_eq_some hs
  split_ifs at hr
  any_goals exact Or.inl (hr ▸ rfl)
  split at hr
  · exact Or.inl (hr ▸ rfl)
  · exact Or.inr ⟨s, hmem, hid, huser, hr ▸ rfl⟩

theorem pause_cases {now : Time} {r : StrategyTables × Except HttpError Strategy}
    (hr : r = pause now tables userId strategyId) :
    r.1 = tables ∨
    ∃ s ∈ tables.strategies, s.id = strategyId ∧ s.userId = userId ∧
      r.1 = tables.updateStrategy s.id fun s =>
        { s with status := .paused, pausedAt := some now } := by
  unfold pause at hr
  split at hr
  · exact Or.inl (hr ▸ rfl)
  · rename_i s hs
    obtain ⟨hmem, hid, huser⟩ := ownedStrategy?_eq_some hs
    exact Or.inr ⟨s, hmem, hid, huser, hr ▸ rfl⟩

end Cases

/-! ## One step -/

inductive StrategyEvent
  | create (userId : Uuid) (instrument : Option TradedInstrument) (payload : StrategyCreate)
  | update (userId strategyId : Uuid) (payload : StrategyUpdate)
  | activate (now : Time) (userId strategyId : Uuid) (mfaEnabled : Bool)
      (confirmation : Option String)
  | pause (now : Time) (userId strategyId : Uuid)
  | evaluate (strategyId : Uuid) (candle : MarketCandle) (inputs : EvaluationInputs)
      (placing : Placer)
  | quote (now : Time) (userId : Uuid) (quote : NormalizedQuote)

section Step

variable (settings : StrategySettings) (lib : StrategyLibraries) (intervals : CandleIntervals)

/-- A request, an evaluation or a quote, handled to its end. -/
def strategyStep (p : Platform) : StrategyEvent → Platform
  | .create userId instrument payload =>
    { p with tables := (createStrategy lib intervals instrument p.tables userId payload).1 }
  | .update userId strategyId payload =>
    { p with tables := (updateStrategy lib intervals p.tables userId strategyId payload).1 }
  | .activate now userId strategyId mfaEnabled confirmation =>
    { p with tables := (activate settings now p userId strategyId mfaEnabled confirmation).1 }
  | .pause now userId strategyId =>
    { p with tables := (pause now p.tables userId strategyId).1 }
  | .evaluate strategyId candle inputs placing =>
    match p.tables.strategy? strategyId with
    | none => p
    | some strategy => evaluate settings lib placing p strategy candle inputs
  | .quote now userId quote =>
    { p with trading := (processQuote settings.toSettings now p.trading userId quote).1 }

end Step

end GnkAlgo
