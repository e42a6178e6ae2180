import GnkAlgo.Market.Candles
import GnkAlgo.Strategies.Evaluator
import GnkAlgo.Strategies.Tables
import GnkAlgo.Trading.Service

/-!
# The strategy executor

`StrategyExecutor` of `backend/app/strategies/service.py`.  An evaluation claims its
candle with a run that is committed first, checks the gates, the clock and the
candles, and routes the action of a crossing: order limits, exposure and quote,
then a signal, then the order manager.

* `judge` — everything between the claim and the routing;
* `route` — from an action to the order, over any way a placement may end;
* `evaluate` — one evaluation, from its claim to its last commit.
-/

namespace GnkAlgo

/-! ## What an evaluation works on -/

/-- The trading tables and the strategy tables. -/
structure Platform where
  trading : Store
  tables : StrategyTables

/-- The columns of a user an evaluation reads. -/
structure StrategyUser where
  isActive : Bool := true
  mfaEnabled : Bool := false
  deriving DecidableEq, Repr

/-- The columns of an instrument an evaluation reads. -/
structure TradedInstrument where
  isActive : Bool := true
  tickSize : Option ℚ := none
  deriving DecidableEq, Repr

/-- The readings of the clock, in the order in which they are made. -/
structure EvaluationClock where
  started : Time
  lag : Time := started
  /-- The reading of `_day_start_utc`. -/
  day : Time := lag
  /-- The reading the last minute is counted back from. -/
  minute : Time := day
  quote : Time := minute
  /-- The flush of the signal. -/
  generated : Time := quote
  finished : Time := generated
  ordered : started ≤ lag ∧ lag ≤ day ∧ day ≤ minute ∧ minute ≤ quote ∧ quote ≤ generated ∧
    generated ≤ finished := by decide

/-- What an evaluation reads elsewhere. -/
structure EvaluationInputs where
  candles : List MarketCandle
  user : Option StrategyUser
  instrument : Option TradedInstrument
  /-- The user's latest quote of the instrument, or an exception of the bus. -/
  latest : Except Unit (Option NormalizedQuote)
  /-- The class of an exception that is neither a refusal nor foreseen. -/
  exceptionName : String := "Exception"
  clock : EvaluationClock

/-- How a placement ends: what is committed, whether the session was committed on
the way, and with it the signal that waits in it, and what the call returns or
raises, unless the process dies. -/
structure Placement where
  trading : Store
  committed : Bool
  ends : Option (Except Raised TradingOrder)

/-- A way to place orders: of a user, in an instrument, at a quote. -/
abbrev Placer := Store → Uuid → Uuid → OrderValues → NormalizedQuote → Placement

/-- `order_manager.place`: the session is committed exactly where the store changes. -/
def orderManagerPlace (settings : Settings) (now later : Time) (subscribed : Bool)
    (outcome : HttpOutcome) : Placer := fun s userId instrumentId values quote =>
  let (s', result) :=
    place settings now later s userId instrumentId values (some quote) subscribed outcome
  ⟨s', s'.toDatabase ≠ s.toDatabase, some result⟩

/-! ## Small functions of the module -/

/-- The day of a moment in `Asia/Kolkata`. -/
def indianDay (t : Time) : ℤ := (t + 19800 * 1000000) / (86400 * 1000000)

/-- `_day_start_utc`. -/
def dayStartUtc (now : Time) : Time := indianDay now * (86400 * 1000000) - 19800 * 1000000

/-- What the engine takes from libraries: `str.strip`, and the first ten digits of an
identifier's text. -/
structure StrategyLibraries where
  strip : String → String
  idPrefix : Uuid → String

/-- `_client_order_id`. -/
def clientOrderIdOf (lib : StrategyLibraries) (strategyId : Uuid) (candleStart : Time) : String :=
  s!"s{lib.idPrefix strategyId}{candleStart.tdiv 1000000}"

/-- `_limit_price`. -/
def strategyLimitPrice (strategy : Strategy) (instrument : TradedInstrument) (side : OrderSide)
    (reference : ℚ) : ℚ :=
  let direction := match side with
    | .buy => -1
    | .sell => 1
  let raw := reference * (1 + direction * strategy.limitOffsetBps / 10000)
  let tick := orNumber instrument.tickSize (5 / 100)
  let ticks := match side with
    | .buy => (raw / tick).floor
    | .sell => (raw / tick).ceil
  roundDigits (max tick (ticks * tick)) 8

/-- The trading mode that serves an execution mode. -/
def Mode.tradingMode : Mode → TradingMode
  | .paper => .paper
  | .live => .live

/-! ## Runs that end before an order -/

/-- How a run ends: its status and diagnostics, and the error its strategy gets. -/
structure RunEnd where
  status : StrategyRunStatus
  diagnostics : Diagnostics
  strategyError : Option String := none
  deriving DecidableEq, Repr

def RunEnd.skipped (reason : String) : RunEnd := ⟨.skipped, { reason := some reason }, none⟩

/-- The run fails and the strategy goes to ERROR. -/
def RunEnd.failed (reason : String) : RunEnd := ⟨.failed, { reason := some reason }, some reason⟩

namespace StrategyExecutor

/-- The gates of `evaluate`. -/
def gateCheck (settings : StrategySettings) (strategy : Strategy) (user : Option StrategyUser) :
    Except RunEnd Unit :=
  if ¬ settings.strategyEngineEnabled then .error (.skipped "STRATEGY_ENGINE_DISABLED")
  else if strategy.status ≠ .active then .error (.skipped "STRATEGY_NOT_ACTIVE")
  else if strategy.executionMode.tradingMode ≠ settings.tradingMode then
    .error (.skipped "TRADING_MODE_MISMATCH")
  else
    match user.filter StrategyUser.isActive with
    | none => .error (.failed "STRATEGY_USER_INACTIVE")
    | some user =>
      if strategy.executionMode = .live then
        if settings.strategyLiveConfirmation ≠ "ENABLE_LIVE_STRATEGIES" then
          .error (.skipped "LIVE_STRATEGIES_NOT_CONFIRMED")
        else if ¬ user.mfaEnabled then .error (.failed "LIVE_STRATEGY_USER_NOT_ELIGIBLE")
        else
          match liveGate settings.toSettings with
          | .error e => .error (.failed e.code)
          | .ok () => .ok ()
      else .ok ()

/-- The candle has closed, and not too long ago. -/
def lagCheck (settings : StrategySettings) (strategy : Strategy) (candleStart now : Time) :
    Except RunEnd Unit :=
  let closedAt := candleStart + strategy.timeframeSeconds * 1000000
  let lag := totalSeconds (now - closedAt)
  if lag < 0 then .error (.skipped "CANDLE_NOT_CLOSED")
  else if settings.strategyMaxCandleLagSeconds < lag then
    .error ⟨.skipped, { reason := some "STALE_CANDLE", lagSeconds := some lag }, none⟩
  else .ok ()

/-- The series a strategy is evaluated on. -/
def seriesOf (strategy : Strategy) : Series :=
  ⟨strategy.userId, strategy.instrumentId, strategy.timeframeSeconds⟩

/-- The query for the completed candles of a series, the latest first. -/
def completeCandles (rows : List MarketCandle) (series : Series) : List MarketCandle :=
  (rows.filter fun c => c.series = series ∧ c.isComplete).insertionSort
    fun a b => b.startAt ≤ a.startAt

/-- The last candles up to a start, as many as the slow average needs twice. -/
def candleWindow (rows : List MarketCandle) (strategy : Strategy) (candleStart : Time) :
    List MarketCandle :=
  (((completeCandles rows (seriesOf strategy)).filter fun c => c.startAt ≤ candleStart).take
    (strategy.slowPeriod + 1)).reverse

/-- Two neighbours do not start one timeframe apart. -/
def hasGap (timeframeSeconds : ℕ) (candles : List MarketCandle) : Bool :=
  (candles.zip candles.tail).any fun (left, right) =>
    totalSeconds (right.startAt - left.startAt) ≠ timeframeSeconds

/-- The averages of a decision. -/
def averageDiagnostics (decision : CrossDecision) : Diagnostics where
  fastAverage := some decision.fastAverage
  slowAverage := some decision.slowAverage
  previousFastAverage := some decision.previousFastAverage
  previousSlowAverage := some decision.previousSlowAverage

/-- The candles of `evaluate`, and its decision. -/
def crossCheck (strategy : Strategy) (rows : List MarketCandle) (candleStart : Time) :
    Except RunEnd (OrderSide × Diagnostics) :=
  let candles := candleWindow rows strategy candleStart
  if strategy.slowPeriod + 1 ≤ candles.length ∧ hasGap strategy.timeframeSeconds candles then
    .error (.skipped "CANDLE_GAP")
  else
    match evaluateSmaCross (candles.map fun c => c.close) strategy.fastPeriod
        strategy.slowPeriod with
    | none =>
      .error ⟨.noSignal,
        { reason := some "INSUFFICIENT_CANDLES", count := some candles.length }, none⟩
    | some decision =>
      match decision.action with
      | none => .error ⟨.noSignal, averageDiagnostics decision, none⟩
      | some side => .ok (side, averageDiagnostics decision)

/-- What `evaluate` finds between its claim and the routing: the end of the run, or
the action to route. -/
def judge (settings : StrategySettings) (strategy : Strategy) (candleStart : Time)
    (inputs : EvaluationInputs) : Except RunEnd (OrderSide × Diagnostics) := do
  gateCheck settings strategy inputs.user
  lagCheck settings strategy candleStart inputs.clock.lag
  crossCheck strategy inputs.candles candleStart

/-- `_finish`, with the error the strategy gets. -/
def finish (tables : StrategyTables) (strategyId runId : Uuid) (finishedAt : Time) (e : RunEnd) :
    StrategyTables :=
  let tables := tables.updateRun runId fun r =>
    { r with status := e.status, diagnostics := e.diagnostics, finishedAt := some finishedAt }
  match e.strategyError with
  | none => tables
  | some code => tables.updateStrategy strategyId fun s =>
    { s with status := .error, lastError := some code }

/-- An exception nobody foresaw: the transaction is rolled back first. -/
def crashed (exceptionName : String) : RunEnd :=
  ⟨.failed, { reason := some "STRATEGY_EVALUATION_FAILED" }, some exceptionName⟩

/-! ## Limits and exposure -/

/-- The submitted signals of a user since a moment. -/
def submittedSince (tables : StrategyTables) (userId : Uuid) (since : Time) :
    List StrategySignal :=
  tables.signals.filter fun s =>
    s.userId = userId ∧ s.status = .orderSubmitted ∧ since ≤ s.generatedAt

/-- The attempts to order of a user since a moment. -/
def attemptsSince (tables : StrategyTables) (userId : Uuid) (since : Time) :
    List StrategySignal :=
  tables.signals.filter fun s =>
    s.userId = userId ∧ s.status ∈ [.created, .orderSubmitted, .rejected] ∧ since ≤ s.generatedAt

/-- `_order_count_check`; the code of the `StrategyError` it raises. -/
def orderCountCheck (settings : StrategySettings) (tables : StrategyTables) (strategy : Strategy)
    (day minute : Time) : Except String Unit :=
  let base := submittedSince tables strategy.userId (dayStartUtc day)
  if settings.strategyMaxOrdersPerUserPerDay ≤ base.length then
    .error "USER_STRATEGY_DAILY_ORDER_LIMIT"
  else if strategy.maxOrdersPerDay ≤ (base.filter fun s => s.strategyId = strategy.id).length then
    .error "STRATEGY_DAILY_ORDER_LIMIT"
  else if settings.strategyMaxOrderAttemptsPerMinute ≤
      (attemptsSince tables strategy.userId (minute - 60 * 1000000)).length then
    .error "STRATEGY_ORDER_RATE_LIMIT"
  else .ok ()

/-- An order is joined to a strategy by a signal. -/
def IsOrderOf (tables : StrategyTables) (strategyId orderId : Uuid) : Prop :=
  ∃ s ∈ tables.signals, s.strategyId = strategyId ∧ s.orderId = some orderId

instance (tables : StrategyTables) (strategyId orderId : Uuid) :
    Decidable (IsOrderOf tables strategyId orderId) :=
  inferInstanceAs (Decidable (∃ s ∈ tables.signals, s.strategyId = strategyId ∧
    s.orderId = some orderId))

/-- `_strategy_exposure`.  An execution has one order, and an order at most one
signal, so the join repeats none. -/
def strategyExposure (d : Database) (tables : StrategyTables) (strategyId : Uuid) : ℤ :=
  ((d.executions.filter fun e => IsOrderOf tables strategyId e.orderId).map
    fun e => e.side.signed e.quantity).sum

/-- `_has_open_order`. -/
def hasOpenOrder (d : Database) (tables : StrategyTables) (strategyId : Uuid) : Bool :=
  d.orders.any fun o => o.status ∈ openOrderStatuses ∧ IsOrderOf tables strategyId o.id

/-! ## Routing -/

/-- The signal of a suppressed action, and the end of its run. -/
def suppressed (lib : StrategyLibraries) (tables : StrategyTables) (strategy : Strategy)
    (candle : MarketCandle) (runId : Uuid) (side : OrderSide) (reason : String)
    (diagnostics : Diagnostics) (clock : EvaluationClock) : StrategyTables :=
  let signal : StrategySignal := {
    id := tables.nextUuid
    strategyId := strategy.id
    runId := runId
    userId := strategy.userId
    instrumentId := strategy.instrumentId
    action := side
    status := .suppressed
    quantity := strategy.quantity
    referencePrice := candle.close
    clientOrderId := clientOrderIdOf lib strategy.id candle.startAt
    reason := some reason
    generatedAt := clock.generated }
  finish (tables.insertSignal signal) strategy.id runId clock.finished
    ⟨.skipped, { diagnostics with reason := some reason }, none⟩

/-- The quantity of the order: a sale closes no more than the exposure. -/
def orderQuantity (strategy : Strategy) (side : OrderSide) (exposure : ℤ) : ℤ :=
  match side with
  | .buy => strategy.quantity
  | .sell => min strategy.quantity exposure

theorem one_le_orderQuantity {strategy : Strategy} {side : OrderSide} {exposure : ℤ}
    (h : ¬ (side = .sell ∧ exposure ≤ 0)) : 1 ≤ orderQuantity strategy side exposure := by
  have hquantity := strategy.inBounds.quantity
  cases side with
  | buy => exact hquantity
  | sell =>
    have hexposure : ¬ exposure ≤ 0 := fun hle => h ⟨rfl, hle⟩
    exact le_min hquantity (by omega)

/-- The values of the order. -/
def orderValues (lib : StrategyLibraries) (strategy : Strategy) (instrument : TradedInstrument)
    (candleStart : Time) (side : OrderSide) (exposure : ℤ) (ltp : ℚ)
    (h : ¬ (side = .sell ∧ exposure ≤ 0)) : OrderValues where
  clientOrderId := clientOrderIdOf lib strategy.id candleStart
  side := side
  orderType := strategy.orderType
  productType := strategy.productType
  validity := .day
  quantity := orderQuantity strategy side exposure
  limitPrice :=
    if strategy.orderType = .limit then some (strategyLimitPrice strategy instrument side ltp)
    else none
  one_le_quantity := one_le_orderQuantity h

/-- The signal of an order, as it is flushed. -/
def createdSignal (strategy : Strategy) (id runId : Uuid) (values : OrderValues) (ltp : ℚ)
    (generatedAt : Time) : StrategySignal where
  id := id
  strategyId := strategy.id
  runId := runId
  userId := strategy.userId
  instrumentId := strategy.instrumentId
  action := values.side
  status := .created
  quantity := values.quantity
  referencePrice := ltp
  clientOrderId := values.clientOrderId
  generatedAt := generatedAt

/-- The tables after a placed order. -/
def submitted (tables : StrategyTables) (strategy : Strategy) (runId signalId : Uuid)
    (order : TradingOrder) (diagnostics : Diagnostics) (finishedAt : Time) : StrategyTables :=
  let tables := tables.updateSignal signalId fun s =>
    { s with orderId := some order.id, status := .orderSubmitted }
  let tables := tables.updateStrategy strategy.id fun s => { s with lastError := none }
  finish tables strategy.id runId finishedAt
    ⟨.succeeded, { diagnostics with orderStatus := some order.status }, none⟩

/-- The tables after a refused order. -/
def rejected (tables : StrategyTables) (strategy : Strategy) (runId signalId : Uuid)
    (code : String) (diagnostics : Diagnostics) (finishedAt : Time) : StrategyTables :=
  let tables := tables.updateSignal signalId fun s =>
    { s with status := .rejected, reason := some code }
  let tables := tables.updateStrategy strategy.id fun s => { s with
    lastError := some code
    status := if strategy.executionMode = .live then .error else s.status }
  finish tables strategy.id runId finishedAt
    ⟨.failed, { diagnostics with reason := some code }, none⟩

/-- From the flushed signal on: the placement and what follows its end.  What was
flushed but not committed is rolled back with an exception. -/
def settle (placement : Placement) (inputs : EvaluationInputs) (claimed created : StrategyTables)
    (strategy : Strategy) (runId signalId : Uuid) (diagnostics : Diagnostics) : Platform :=
  let kept := if placement.committed then created else claimed
  let failed : Platform := ⟨placement.trading,
    finish kept strategy.id runId inputs.clock.finished (crashed inputs.exceptionName)⟩
  match placement.ends with
  | none => ⟨placement.trading, kept⟩
  | some (.ok order) =>
    let tables := submitted created strategy runId signalId order diagnostics inputs.clock.finished
    if tables.Valid then ⟨placement.trading, tables⟩ else failed
  | some (.error (.trading e)) =>
    ⟨placement.trading,
      rejected created strategy runId signalId e.code diagnostics inputs.clock.finished⟩
  | some (.error _) => failed

/-- `_route`, with the handlers of `evaluate` around it. -/
def route (settings : StrategySettings) (lib : StrategyLibraries) (placing : Placer)
    (p : Platform) (strategy : Strategy) (candle : MarketCandle) (runId : Uuid) (side : OrderSide)
    (diagnostics : Diagnostics) (inputs : EvaluationInputs) : Platform :=
  let clock := inputs.clock
  let ended (e : RunEnd) : Platform :=
    { p with tables := finish p.tables strategy.id runId clock.finished e }
  let suppress (reason : String) : Platform :=
    { p with tables :=
      suppressed lib p.tables strategy candle runId side reason diagnostics clock }
  match orderCountCheck settings p.tables strategy clock.day clock.minute with
  | .error code => ended (.skipped code)
  | .ok () =>
    if hasOpenOrder p.trading.toDatabase p.tables strategy.id then suppress "OPEN_STRATEGY_ORDER"
    else
      let exposure := strategyExposure p.trading.toDatabase p.tables strategy.id
      if side = .buy ∧ exposure ≠ 0 then suppress "STRATEGY_ALREADY_EXPOSED"
      else if h : side = .sell ∧ exposure ≤ 0 then suppress "NO_STRATEGY_LONG_POSITION"
      else
        match inputs.latest with
        | .error () => ended (crashed inputs.exceptionName)
        | .ok latest =>
          match quoteCheck settings.toSettings clock.quote latest with
          | .error e => ended (.skipped e.code)
          | .ok quote =>
            match inputs.instrument.filter TradedInstrument.isActive with
            | none => ended (.skipped "INSTRUMENT_NOT_AVAILABLE")
            | some instrument =>
              let values := orderValues lib strategy instrument candle.startAt side exposure
                quote.ltp h
              let signalId := p.tables.nextUuid
              let created := p.tables.insertSignal
                (createdSignal strategy signalId runId values quote.ltp clock.generated)
              if ¬ created.Valid then ended (crashed "IntegrityError")
              else settle (placing p.trading strategy.userId strategy.instrumentId values quote)
                inputs p.tables created strategy runId signalId diagnostics

/-- The run that claims a candle. -/
def claim (tables : StrategyTables) (strategy : Strategy) (candleStart now : Time) :
    StrategyTables :=
  let run : StrategyRun := {
    id := tables.nextUuid
    strategyId := strategy.id
    userId := strategy.userId
    strategyVersion := strategy.version
    candleStartAt := candleStart }
  (tables.insertRun run).updateStrategy strategy.id fun s => { s with lastEvaluatedAt := some now }

/-- The run of a strategy for a candle. -/
def run? (tables : StrategyTables) (strategyId : Uuid) (candleStart : Time) :
    Option StrategyRun :=
  tables.runs.find? fun r => r.strategyId = strategyId ∧ r.candleStartAt = candleStart

/-- `evaluate`: what it leaves behind. -/
def evaluate (settings : StrategySettings) (lib : StrategyLibraries) (placing : Placer)
    (p : Platform) (strategy : Strategy) (candle : MarketCandle) (inputs : EvaluationInputs) :
    Platform :=
  match run? p.tables strategy.id candle.startAt with
  | some _ => p
  | none =>
    let runId := p.tables.nextUuid
    let claimed := claim p.tables strategy candle.startAt inputs.clock.started
    match judge settings strategy candle.startAt inputs with
    | .error e =>
      { p with tables := finish claimed strategy.id runId inputs.clock.finished e }
    | .ok (side, diagnostics) =>
      route settings lib placing { p with tables := claimed } strategy candle runId side
        diagnostics inputs

end StrategyExecutor

end GnkAlgo
