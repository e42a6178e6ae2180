import GnkAlgo.Strategies.Constraints
import GnkAlgo.Trading.PlaceSteps

/-!
# An evaluation, statement by statement

`StrategyExecutor.evaluate` of `backend/app/strategies/service.py` between its queries,
its commits and its awaits.  Other processes commit there, and it may be killed there.

* `EvaluationCall.advance` — one statement more;
* `EvaluationStage.unsent` — its candle is claimed and its order not sent, but it may be;
* `advance_clients`, `advance_candles` — what a statement does to the client ids, and to
  the candles that have a run;
* `evaluate_reached` — a call that nobody interrupts ends as `evaluate` does.
-/

namespace GnkAlgo

open SingleUse StrategyExecutor StrategyTables

/-- The arguments of a call of `evaluate`, and what it will read elsewhere. -/
structure EvaluationCall where
  strategy : Strategy
  candle : MarketCandle
  inputs : EvaluationInputs

/-- The arguments of `_route`. -/
structure RoutedAction where
  runId : Uuid
  side : OrderSide
  diagnostics : Diagnostics

/-- An order `_route` places; the identifier of its signal once that is committed. -/
structure RoutedOrder where
  values : OrderValues
  quote : NormalizedQuote
  signalId : Option Uuid := none

/-- Where a call stands: what it does next. -/
inductive EvaluationStage
  | called
  /-- The query for a run of the candle has found none. -/
  | absent
  | claimed (runId : Uuid)
  | routing (action : RoutedAction)
  /-- The orders of the user on the day are counted. -/
  | userCounted (action : RoutedAction) (userCount : ℕ)
  /-- The limits of the day leave room. -/
  | withinDay (action : RoutedAction)
  /-- The limit of the minute leaves room too. -/
  | counted (action : RoutedAction)
  /-- No order of the strategy is open. -/
  | unopened (action : RoutedAction)
  | sized (action : RoutedAction) (exposure : ℤ) (long : ¬ (action.side = .sell ∧ exposure ≤ 0))
  /-- The signal is flushed, and the order manager is called. -/
  | placing (action : RoutedAction) (order : RoutedOrder) (stage : PlaceStage)
  | ending (runId : Uuid) (e : RunEnd)
  | suppressing (action : RoutedAction) (reason : String)
  | ended

namespace EvaluationCall

/-- The key of the run that claims the candle. -/
def candleKey (c : EvaluationCall) : Uuid × Time := (c.strategy.id, c.candle.startAt)

/-- The call of `place`. -/
def placeCall (c : EvaluationCall) (order : RoutedOrder) : PlaceCall where
  userId := c.strategy.userId
  instrumentId := c.strategy.instrumentId
  values := order.values
  quote := some order.quote

/-- The tables with the flushed signal. -/
def flushed (t : StrategyTables) (c : EvaluationCall) (action : RoutedAction)
    (order : RoutedOrder) : StrategyTables :=
  t.insertSignal (createdSignal c.strategy t.nextUuid action.runId order.values order.quote.ltp
    c.inputs.clock.generated)

/-- The handlers of `_route` and `evaluate`, once `place` has returned or raised. -/
def settled (p : Platform) (c : EvaluationCall) (action : RoutedAction) (order : RoutedOrder)
    (result : Except Raised TradingOrder) : Platform :=
  match order.signalId with
  | none =>
    settle ⟨p.trading, false, some result⟩ c.inputs p.tables (flushed p.tables c action order)
      c.strategy action.runId p.tables.nextUuid action.diagnostics
  | some signalId =>
    settle ⟨p.trading, true, some result⟩ c.inputs p.tables p.tables c.strategy action.runId
      signalId action.diagnostics

/-- The next statement of `StrategyExecutor.evaluate`. -/
def advance (settings : StrategySettings) (lib : StrategyLibraries) (now : Time)
    (subscribed : Bool) (outcome : HttpOutcome) (p : Platform) (c : EvaluationCall) :
    EvaluationStage → Platform × EvaluationStage
  | .called =>
    match run? p.tables c.strategy.id c.candle.startAt with
    | some _ => (p, .ended)
    | none => (p, .absent)
  | .absent =>
    match run? p.tables c.strategy.id c.candle.startAt with
    -- the constraint on the candle: an `IntegrityError` goes to the caller
    | some _ => (p, .ended)
    | none =>
      (⟨p.trading, claim p.tables c.strategy c.candle.startAt c.inputs.clock.started⟩,
        .claimed p.tables.nextUuid)
  | .claimed runId =>
    match judge settings c.strategy c.candle.startAt c.inputs with
    | .error e => (p, .ending runId e)
    | .ok (side, diagnostics) => (p, .routing ⟨runId, side, diagnostics⟩)
  | .routing action =>
    let base := submittedSince p.tables c.strategy.userId (dayStartUtc c.inputs.clock.day)
    (p, .userCounted action base.length)
  | .userCounted action userCount =>
    let base := submittedSince p.tables c.strategy.userId (dayStartUtc c.inputs.clock.day)
    if settings.strategyMaxOrdersPerUserPerDay ≤ userCount then
      (p, .ending action.runId (.skipped "USER_STRATEGY_DAILY_ORDER_LIMIT"))
    else if c.strategy.maxOrdersPerDay ≤
        (base.filter fun s => s.strategyId = c.strategy.id).length then
      (p, .ending action.runId (.skipped "STRATEGY_DAILY_ORDER_LIMIT"))
    else (p, .withinDay action)
  | .withinDay action =>
    if settings.strategyMaxOrderAttemptsPerMinute ≤
        (attemptsSince p.tables c.strategy.userId (c.inputs.clock.minute - 60 * 1000000)).length then
      (p, .ending action.runId (.skipped "STRATEGY_ORDER_RATE_LIMIT"))
    else (p, .counted action)
  | .counted action =>
    if hasOpenOrder p.trading.toDatabase p.tables c.strategy.id then
      (p, .suppressing action "OPEN_STRATEGY_ORDER")
    else (p, .unopened action)
  | .unopened action =>
    let exposure := strategyExposure p.trading.toDatabase p.tables c.strategy.id
    if action.side = .buy ∧ exposure ≠ 0 then (p, .suppressing action "STRATEGY_ALREADY_EXPOSED")
    else if h : action.side = .sell ∧ exposure ≤ 0 then
      (p, .suppressing action "NO_STRATEGY_LONG_POSITION")
    else (p, .sized action exposure h)
  | .sized action exposure h =>
    match c.inputs.latest with
    | .error () => (p, .ending action.runId (crashed c.inputs.exceptionName))
    | .ok latest =>
      match quoteCheck settings.toSettings c.inputs.clock.quote latest with
      | .error e => (p, .ending action.runId (.skipped e.code))
      | .ok quote =>
        match c.inputs.instrument.filter TradedInstrument.isActive with
        | none => (p, .ending action.runId (.skipped "INSTRUMENT_NOT_AVAILABLE"))
        | some instrument =>
          let order : RoutedOrder := {
            values := orderValues lib c.strategy instrument c.candle.startAt action.side exposure
              quote.ltp h
            quote := quote }
          if (flushed p.tables c action order).Valid then (p, .placing action order .called)
          else (p, .ending action.runId (crashed "IntegrityError"))
  | .placing action order stage =>
    match stage.result? with
    | some result => (settled p c action order result, .ended)
    | none =>
      let (s, stage) :=
        (c.placeCall order).advance settings.toSettings now subscribed outcome p.trading stage
      -- a commit of the order manager takes the flushed signal with it
      if order.signalId = none ∧ s.toDatabase ≠ p.trading.toDatabase then
        (⟨s, flushed p.tables c action order⟩,
          .placing action { order with signalId := some p.tables.nextUuid } stage)
      else (⟨s, p.tables⟩, .placing action order stage)
  | .ending runId e =>
    (⟨p.trading, finish p.tables c.strategy.id runId c.inputs.clock.finished e⟩, .ended)
  | .suppressing action reason =>
    (⟨p.trading, suppressed lib p.tables c.strategy c.candle action.runId action.side reason
      action.diagnostics c.inputs.clock⟩, .ended)
  | .ended => (p, .ended)

end EvaluationCall

/-! ## What it holds and sends -/

namespace EvaluationStage

/-- The client id that is taken for the request. -/
def held : EvaluationStage → Option (Uuid × String)
  | .placing _ _ stage => stage.held
  | _ => none

/-- The candle is claimed; the request has not been sent, and may be. -/
def unsent : EvaluationStage → Bool
  | .claimed _ | .routing _ | .userCounted _ _ | .withinDay _ | .counted _ | .unopened _
  | .sized _ _ _ => true
  | .placing _ _ stage => stage.unsent
  | _ => false

/-- The client ids of the requests the next statement sends. -/
def sends (subscribed : Bool) : EvaluationStage → List (Uuid × String)
  | .placing _ _ stage => stage.sends subscribed
  | _ => []

/-- The order manager has been called, and has executed a statement. -/
def begun : EvaluationStage → Bool
  | .placing _ _ .called => false
  | .placing _ _ _ => true
  | _ => false

theorem held_of_not_begun {stage : EvaluationStage} (h : stage.begun = false) :
    stage.held = none := by
  cases stage with
  | placing action order at' =>
    cases at' with
    | called => rfl
    | _ => cases h
  | _ => rfl

end EvaluationStage

/-- The candle that the call has claimed for the request it may come to. -/
def EvaluationCall.held (c : EvaluationCall) (stage : EvaluationStage) : Option (Uuid × Time) :=
  if stage.unsent then some c.candleKey else none

/-- The candles that have a run. -/
def StrategyTables.candleKeys (t : StrategyTables) : List (Uuid × Time) :=
  t.runs.map fun r => (r.strategyId, r.candleStartAt)

/-- A candle that is not found has no run. -/
theorem candleKey_not_mem {t : StrategyTables} {strategyId : Uuid} {candleStart : Time}
    (h : run? t strategyId candleStart = none) : (strategyId, candleStart) ∉ t.candleKeys := by
  intro hmem
  obtain ⟨r, hr, hkey⟩ := List.mem_map.1 hmem
  have hnone := List.find?_eq_none.1 h r hr
  exact hnone (by simpa using hkey)

theorem StrategyTables.Quiet.candleKeys {t u : StrategyTables} (h : t.Quiet u) :
    u.candleKeys = t.candleKeys := by
  have hkeys : ∀ v : StrategyTables, v.candleKeys =
      (v.runs.map StrategyRun.claimed).map fun c => (c.2.1, c.2.2.2.2) := by
    intro v
    rw [List.map_map]
    rfl
  rw [hkeys, h.runs, ← hkeys]

/-! ## What a statement does -/

theorem settle_trading (placement : Placement) (inputs : EvaluationInputs)
    (claimed created : StrategyTables) (strategy : Strategy) (runId signalId : Uuid)
    (diagnostics : Diagnostics) :
    (settle placement inputs claimed created strategy runId signalId diagnostics).trading =
      placement.trading := by
  unfold settle
  dsimp only
  generalize (if placement.committed then created else claimed) = kept
  split
  · rfl
  · split <;> rfl
  · rfl
  · rfl

namespace EvaluationCall

theorem settled_trading (p : Platform) (c : EvaluationCall) (action : RoutedAction)
    (order : RoutedOrder) (result : Except Raised TradingOrder) :
    (settled p c action order result).trading = p.trading := by
  unfold settled
  split <;> exact settle_trading ..

theorem quiet_flushed (t : StrategyTables) (c : EvaluationCall) (action : RoutedAction)
    (order : RoutedOrder) : t.Quiet (flushed t c action order) := quiet_insertSignal _ _

theorem quiet_settled (p : Platform) (c : EvaluationCall) (action : RoutedAction)
    (order : RoutedOrder) (result : Except Raised TradingOrder) :
    p.tables.Quiet (settled p c action order result).tables := by
  unfold settled
  split
  · exact quiet_settle (quiet_flushed ..) ..
  · exact quiet_settle (.refl _) ..

section Advance

variable {settings : StrategySettings} {lib : StrategyLibraries} {now : Time} {subscribed : Bool}
  {outcome : HttpOutcome} {p : Platform} {c : EvaluationCall} {stage : EvaluationStage}
  {r : Platform × EvaluationStage}

/-- A statement that neither claims the candle nor is one of the order manager. -/
structure Aside (subscribed : Bool) (p : Platform) (stage : EvaluationStage)
    (r : Platform × EvaluationStage) : Prop where
  trading : r.1.trading = p.trading
  tables : p.tables.Quiet r.1.tables
  begun : r.2.begun = false
  sends : stage.sends subscribed = []
  unsent : stage.unsent = false → r.2.unsent = false

theorem Aside.held (h : Aside subscribed p stage r) : r.2.held = none :=
  EvaluationStage.held_of_not_begun h.begun

theorem aside_same {stage' : EvaluationStage} (hbegun : stage'.begun = false)
    (hsends : stage.sends subscribed = [])
    (hunsent : stage.unsent = false → stage'.unsent = false) :
    Aside subscribed p stage (p, stage') :=
  ⟨rfl, .refl _, hbegun, hsends, hunsent⟩

/-- **A statement of an evaluation**: it claims the candle, or is one of the order
manager, or neither. -/
theorem advance_cases (hr : r = c.advance settings lib now subscribed outcome p stage) :
    (stage = .absent ∧ run? p.tables c.strategy.id c.candle.startAt = none ∧
      r = (⟨p.trading, claim p.tables c.strategy c.candle.startAt c.inputs.clock.started⟩,
        .claimed p.tables.nextUuid)) ∨
    (∃ action order order' at', stage = .placing action order at' ∧
      order'.values = order.values ∧ p.tables.Quiet r.1.tables ∧
      r.1.trading = ((c.placeCall order).advance settings.toSettings now subscribed outcome
        p.trading at').1 ∧
      r.2 = .placing action order' ((c.placeCall order).advance settings.toSettings now subscribed
        outcome p.trading at').2) ∨
    Aside subscribed p stage r := by
  cases stage with
  | called =>
    rw [advance] at hr
    split at hr
    · exact Or.inr (Or.inr (hr ▸ aside_same rfl rfl fun _ => rfl))
    · exact Or.inr (Or.inr (hr ▸ aside_same rfl rfl fun _ => rfl))
  | absent =>
    rw [advance] at hr
    split at hr
    · exact Or.inr (Or.inr (hr ▸ aside_same rfl rfl fun _ => rfl))
    · rename_i hnone
      exact Or.inl ⟨rfl, hnone, hr⟩
  | claimed runId =>
    rw [advance] at hr
    split at hr
    · exact Or.inr (Or.inr (hr ▸ aside_same rfl rfl fun _ => rfl))
    · exact Or.inr (Or.inr (hr ▸ aside_same rfl rfl fun h => absurd h.symm Bool.false_ne_true))
  | routing action =>
    exact Or.inr (Or.inr (hr ▸ aside_same rfl rfl fun h => absurd h.symm Bool.false_ne_true))
  | userCounted action userCount =>
    rw [advance] at hr
    split_ifs at hr
    · exact Or.inr (Or.inr (hr ▸ aside_same rfl rfl fun _ => rfl))
    · exact Or.inr (Or.inr (hr ▸ aside_same rfl rfl fun _ => rfl))
    · exact Or.inr (Or.inr (hr ▸ aside_same rfl rfl fun h => absurd h.symm Bool.false_ne_true))
  | withinDay action =>
    rw [advance] at hr
    split_ifs at hr
    · exact Or.inr (Or.inr (hr ▸ aside_same rfl rfl fun _ => rfl))
    · exact Or.inr (Or.inr (hr ▸ aside_same rfl rfl fun h => absurd h.symm Bool.false_ne_true))
  | counted action =>
    rw [advance] at hr
    split at hr
    · exact Or.inr (Or.inr (hr ▸ aside_same rfl rfl fun _ => rfl))
    · exact Or.inr (Or.inr (hr ▸ aside_same rfl rfl fun h => absurd h.symm Bool.false_ne_true))
  | unopened action =>
    rw [advance] at hr
    split_ifs at hr
    · exact Or.inr (Or.inr (hr ▸ aside_same rfl rfl fun _ => rfl))
    · exact Or.inr (Or.inr (hr ▸ aside_same rfl rfl fun _ => rfl))
    · exact Or.inr (Or.inr (hr ▸ aside_same rfl rfl fun h => absurd h.symm Bool.false_ne_true))
  | sized action exposure h =>
    right
    right
    rw [advance] at hr
    split at hr
    · exact hr ▸ aside_same rfl rfl fun _ => rfl
    split at hr
    · exact hr ▸ aside_same rfl rfl fun _ => rfl
    split at hr
    · exact hr ▸ aside_same rfl rfl fun _ => rfl
    dsimp only at hr
    split_ifs at hr
    · exact hr ▸ aside_same rfl rfl fun h => absurd h.symm Bool.false_ne_true
    · exact hr ▸ aside_same rfl rfl fun _ => rfl
  | placing action order at' =>
    rw [advance] at hr
    split at hr
    · rename_i result hresult
      right
      right
      rw [hr]
      cases at' with
      | returned result' =>
        exact ⟨settled_trading .., quiet_settled .., rfl, rfl, fun _ => rfl⟩
      | _ => cases hresult
    · refine Or.inr (Or.inl ⟨action, order, ?_⟩)
      dsimp only at hr
      split_ifs at hr
      · rw [hr]
        exact ⟨{ order with signalId := some p.tables.nextUuid }, at', rfl, rfl, quiet_flushed ..,
          rfl, rfl⟩
      · rw [hr]
        exact ⟨order, at', rfl, rfl, .refl _, rfl, rfl⟩
  | ending runId e =>
    right
    right
    rw [hr]
    exact ⟨rfl, quiet_finish .., rfl, rfl, fun _ => rfl⟩
  | suppressing action reason =>
    right
    right
    rw [hr]
    exact ⟨rfl, quiet_suppressed .., rfl, rfl, fun _ => rfl⟩
  | ended => exact Or.inr (Or.inr (hr ▸ aside_same rfl rfl fun _ => rfl))

/-- **One request for a client id**: the statements of an evaluation in live mode. -/
theorem advance_clients (hlive : settings.tradingMode = .live)
    (hr : r = c.advance settings lib now subscribed outcome p stage) :
    (∀ k ∈ p.trading.orders.map TradingOrder.clientKey,
      k ∈ r.1.trading.orders.map TradingOrder.clientKey) ∧
    Move (· ∈ p.trading.orders.map TradingOrder.clientKey)
      (· ∈ r.1.trading.orders.map TradingOrder.clientKey) stage.held r.2.held
      (stage.sends subscribed) := by
  rcases advance_cases hr with ⟨rfl, -, rfl⟩ | ⟨action, order, order', at', rfl, -, -, hs,
    hstage⟩ | h
  · exact ⟨fun _ hk => hk, .keep⟩
  · rw [hs, hstage]
    exact PlaceCall.advance_move hlive rfl
  · rw [h.trading, h.held, h.sends]
    exact ⟨fun _ hk => hk, .drop⟩

/-- **One request for a candle.** -/
theorem advance_candles (hr : r = c.advance settings lib now subscribed outcome p stage) :
    (∀ k ∈ p.tables.candleKeys, k ∈ r.1.tables.candleKeys) ∧
    Move (· ∈ p.tables.candleKeys) (· ∈ r.1.tables.candleKeys) (c.held stage) (c.held r.2)
      ((stage.sends subscribed).map fun _ => c.candleKey) := by
  rcases advance_cases hr with ⟨rfl, hnone, rfl⟩ | ⟨action, order, order', at', rfl, -, hquiet, -,
    hstage⟩ | h
  · have hkeys : (claim p.tables c.strategy c.candle.startAt c.inputs.clock.started).candleKeys =
        p.tables.candleKeys ++ [c.candleKey] := List.map_append
    refine ⟨fun k hk => hkeys ▸ List.mem_append_left _ hk, .take ?_ ?_⟩
    · exact candleKey_not_mem hnone
    · exact hkeys ▸ List.mem_append_right _ (List.mem_singleton.2 rfl)
  · refine ⟨fun k hk => hquiet.candleKeys ▸ hk, ?_⟩
    rw [hstage]
    exact PlaceCall.advance_unsent c.candleKey at'
  · refine ⟨fun k hk => h.tables.candleKeys ▸ hk, ?_⟩
    rw [h.sends]
    unfold held
    cases hunsent : stage.unsent with
    | false =>
      rw [h.unsent hunsent]
      exact .drop
    | true =>
      cases r.2.unsent with
      | false => exact .drop
      | true => exact .keep

end Advance

/-! ## Alone -/

section Alone

variable (settings : StrategySettings) (lib : StrategyLibraries) (now : Time) (subscribed : Bool)
  (outcome : HttpOutcome) (c : EvaluationCall)

/-- A statement of a call that nobody interrupts. -/
def Next (x y : Platform × EvaluationStage) : Prop :=
  c.advance settings lib now subscribed outcome x.1 x.2 = y

/-- A call that nobody interrupts comes from one point to another. -/
def Reaches : Platform × EvaluationStage → Platform × EvaluationStage → Prop :=
  Relation.ReflTransGen (c.Next settings lib now subscribed outcome)

variable {settings lib now subscribed outcome c} {p : Platform} {action : RoutedAction}
  {order : RoutedOrder}

theorem Reaches.of_next {x z : Platform × EvaluationStage} (y : Platform × EvaluationStage)
    (hnext : c.advance settings lib now subscribed outcome x.1 x.2 = y)
    (h : c.Reaches settings lib now subscribed outcome y z) :
    c.Reaches settings lib now subscribed outcome x z := .head hnext h

theorem Reaches.trans {x y z : Platform × EvaluationStage}
    (h : c.Reaches settings lib now subscribed outcome x y)
    (h' : c.Reaches settings lib now subscribed outcome y z) :
    c.Reaches settings lib now subscribed outcome x z := Relation.ReflTransGen.trans h h'

/-- What a placement that began on `p` leaves the evaluation with, at a point of it: the
flushed signal is committed with the first commit of the order manager. -/
inductive Follows (settings : StrategySettings) (c : EvaluationCall) (p : Platform)
    (action : RoutedAction) (order : RoutedOrder) :
    Store → StrategyTables → RoutedOrder → PlaceStage → Prop
  | unchanged {stage : PlaceStage} :
    Follows settings c p action order p.trading p.tables order stage
  | committed {s : Store} {stage : PlaceStage} :
    s.toDatabase ≠ p.trading.toDatabase →
    ((∃ result, stage = .returned result) ∨
      (settings.tradingMode = .live ∧ p.trading.orders.length < s.orders.length)) →
    Follows settings c p action order s (flushed p.tables c action order)
      { order with signalId := some p.tables.nextUuid } stage

theorem settle_of_committed (s : Store) (ends : Option (Except Raised TradingOrder))
    (inputs : EvaluationInputs) (claimed created : StrategyTables) (strategy : Strategy)
    (runId signalId : Uuid) (diagnostics : Diagnostics) :
    settle ⟨s, true, ends⟩ inputs claimed created strategy runId signalId diagnostics =
      settle ⟨s, true, ends⟩ inputs created created strategy runId signalId diagnostics := rfl

/-- The end of a placement. -/
theorem Follows.settled {s : Store} {t : StrategyTables} {order' : RoutedOrder} {stage : PlaceStage}
    (h : Follows settings c p action order s t order' stage) (horder : order.signalId = none)
    (result : Except Raised TradingOrder) :
    settled ⟨s, t⟩ c action order' result =
      settle ⟨s, decide (s.toDatabase ≠ p.trading.toDatabase), some result⟩ c.inputs p.tables
        (flushed p.tables c action order) c.strategy action.runId p.tables.nextUuid
        action.diagnostics := by
  cases h with
  | unchanged =>
    rw [EvaluationCall.settled, horder, decide_eq_false (fun h => h rfl)]
  | committed hchanged =>
    rw [decide_eq_true hchanged, settle_of_committed]
    rfl

variable (lib now subscribed outcome) in
/-- A statement of the order manager in an evaluation. -/
theorem Follows.next {s : Store} {t : StrategyTables} {order' : RoutedOrder} {stage : PlaceStage}
    (h : Follows settings c p action order s t order' stage) (horder : order.signalId = none)
    (hmode : settings.tradingMode = .live ∨ stage = .called) (hresult : stage.result? = none) :
    ∃ t' order'',
      c.advance settings lib now subscribed outcome ⟨s, t⟩ (.placing action order' stage) =
        (⟨((c.placeCall order).advance settings.toSettings now subscribed outcome s stage).1, t'⟩,
          .placing action order''
            ((c.placeCall order).advance settings.toSettings now subscribed outcome s stage).2) ∧
      Follows settings c p action order
        ((c.placeCall order).advance settings.toSettings now subscribed outcome s stage).1 t' order''
        ((c.placeCall order).advance settings.toSettings now subscribed outcome s stage).2 := by
  have hcases := PlaceCall.advance_cases (r := (c.placeCall order).advance settings.toSettings now
    subscribed outcome s stage) rfl
  have hnotLive : settings.tradingMode ≠ .live → ∃ result, ((c.placeCall order).advance
      settings.toSettings now subscribed outcome s stage).2 = .returned result := by
    intro hlive
    obtain rfl := hmode.resolve_left hlive
    exact PlaceCall.advance_called_of_not_live hlive
  have hlength : ∀ {u v : Store} {keys : List (Uuid × String)},
      u.orders.map TradingOrder.clientKey = v.orders.map TradingOrder.clientKey ++ keys →
        u.orders.length = v.orders.length + keys.length := by
    intro u v keys hkeys
    have hlengths := congrArg List.length hkeys
    rwa [List.length_append, List.length_map, List.length_map] at hlengths
  rw [advance, hresult]
  dsimp only
  cases h with
  | unchanged =>
    by_cases hsame : ((c.placeCall order).advance settings.toSettings now subscribed outcome
        p.trading stage).1.toDatabase = p.trading.toDatabase
    · rw [if_neg fun hand => hand.2 hsame, Store.ext' hsame]
      exact ⟨_, _, rfl, .unchanged⟩
    · rw [if_pos ⟨horder, hsame⟩]
      refine ⟨_, _, rfl, .committed hsame ?_⟩
      rcases hcases with ⟨hsame', -⟩ | ⟨result, hstage, -⟩ | ⟨o, hstage, -, -, hkeys⟩
      · exact absurd (congrArg Store.toDatabase hsame') hsame
      · exact Or.inl ⟨result, hstage⟩
      · right
        refine ⟨?_, ?_⟩
        · by_contra hlive
          obtain ⟨result, hreturned⟩ := hnotLive hlive
          rw [hreturned] at hstage
          cases hstage
        · rw [hlength hkeys]
          exact Nat.lt_succ_self _
  | committed hchanged hlong =>
    rw [if_neg fun hand => nomatch hand.1]
    refine ⟨_, _, rfl, ?_⟩
    obtain ⟨hlive, hlong⟩ : settings.tradingMode = .live ∧
        p.trading.orders.length < s.orders.length := by
      refine hlong.resolve_left ?_
      rintro ⟨result, rfl⟩
      cases hresult
    have hlonger : p.trading.orders.length < ((c.placeCall order).advance settings.toSettings now
        subscribed outcome s stage).1.orders.length := by
      rcases hcases with ⟨hsame, -⟩ | ⟨result, -, hkeys⟩ | ⟨o, -, -, -, hkeys⟩
      · rwa [hsame]
      · have hsame := hlength ((hkeys hlive).trans (List.append_nil _).symm)
        rwa [hsame]
      · rw [hlength hkeys]
        exact hlong.trans (Nat.lt_succ_self _)
    refine .committed (fun heq => ?_) (Or.inr ⟨hlive, hlonger⟩)
    rw [heq] at hlonger
    exact lt_irrefl _ hlonger

theorem placing_reaches {result : Except Raised TradingOrder} {s₁ : Store}
    (horder : order.signalId = none) (n : ℕ) {s : Store} {t : StrategyTables}
    {order' : RoutedOrder} {stage : PlaceStage}
    (h : Follows settings c p action order s t order' stage)
    (hmode : settings.tradingMode = .live ∨ stage = .called ∨ ∃ result, stage = .returned result)
    (hlast : ((c.placeCall order).next settings.toSettings now subscribed outcome)^[n] (s, stage) =
      (s₁, .returned result)) :
    c.Reaches settings lib now subscribed outcome (⟨s, t⟩, .placing action order' stage)
      (settle ⟨s₁, decide (s₁.toDatabase ≠ p.trading.toDatabase), some result⟩ c.inputs p.tables
        (flushed p.tables c action order) c.strategy action.runId p.tables.nextUuid
        action.diagnostics, .ended) := by
  induction n generalizing s t order' stage with
  | zero =>
    obtain ⟨rfl, rfl⟩ := Prod.mk.inj hlast
    exact .single (congrArg (·, EvaluationStage.ended) (h.settled horder result))
  | succ n ih =>
    cases hresult : stage.result? with
    | some result' =>
      obtain rfl : stage = .returned result' := by
        cases stage with
        | returned result => exact congrArg _ (Option.some.inj hresult)
        | _ => cases hresult
      rw [PlaceCall.next_iterate_returned] at hlast
      obtain ⟨rfl, heq⟩ := Prod.mk.inj hlast
      cases heq
      exact .single (congrArg (·, EvaluationStage.ended) (h.settled horder result))
    | none =>
      have hmode' : settings.tradingMode = .live ∨ stage = .called := by
        rcases hmode with hlive | hcalled | ⟨result, rfl⟩
        · exact Or.inl hlive
        · exact Or.inr hcalled
        · cases hresult
      obtain ⟨t', order'', hnext, hfollows⟩ := h.next lib now subscribed
        outcome horder hmode' hresult
      refine .of_next _ hnext (ih hfollows ?_ hlast)
      rcases hmode' with hlive | rfl
      · exact Or.inl hlive
      · by_cases hlive : settings.tradingMode = .live
        · exact Or.inl hlive
        · exact Or.inr (Or.inr (PlaceCall.advance_called_of_not_live hlive))

/-- From the call of the order manager on. -/
theorem order_reaches (p : Platform) (horder : order.signalId = none) :
    c.Reaches settings lib now subscribed outcome (p, .placing action order .called)
      (settle (orderManagerPlace settings.toSettings now now subscribed outcome p.trading
        c.strategy.userId c.strategy.instrumentId order.values order.quote) c.inputs p.tables
        (flushed p.tables c action order) c.strategy action.runId p.tables.nextUuid
        action.diagnostics, .ended) :=
  placing_reaches horder 8 (.unchanged (p := p)) (Or.inr (Or.inl rfl)) place_eq_advance

/-- The three queries of `_order_count_check`. -/
theorem count_reaches (p : Platform) (action : RoutedAction) :
    c.Reaches settings lib now subscribed outcome (p, .routing action)
      (p, match orderCountCheck settings p.tables c.strategy c.inputs.clock.day
          c.inputs.clock.minute with
        | .error code => .ending action.runId (.skipped code)
        | .ok () => .counted action) := by
  unfold orderCountCheck
  dsimp only
  refine .of_next (p, .userCounted action _) rfl ?_
  split_ifs with huser hstrategy hminute
  · exact .single (if_pos huser)
  · exact .single ((if_neg huser).trans (if_pos hstrategy))
  · exact .of_next (p, .withinDay action) ((if_neg huser).trans (if_neg hstrategy))
      (.single (if_pos hminute))
  · exact .of_next (p, .withinDay action) ((if_neg huser).trans (if_neg hstrategy))
      (.single (if_neg hminute))

/-- From an action on: the statements of `_route`. -/
theorem route_reaches (p : Platform) (action : RoutedAction) :
    c.Reaches settings lib now subscribed outcome (p, .routing action)
      (route settings lib (orderManagerPlace settings.toSettings now now subscribed outcome) p
        c.strategy c.candle action.runId action.side action.diagnostics c.inputs, .ended) := by
  unfold route
  dsimp only
  have hended : ∀ e : RunEnd, c.Reaches settings lib now subscribed outcome
      (p, .ending action.runId e) ({ p with
        tables := finish p.tables c.strategy.id action.runId c.inputs.clock.finished e }, .ended) :=
    fun e => .single rfl
  have hsuppressed : ∀ reason, c.Reaches settings lib now subscribed outcome
      (p, .suppressing action reason) ({ p with
        tables := suppressed lib p.tables c.strategy c.candle action.runId action.side reason
          action.diagnostics c.inputs.clock }, .ended) :=
    fun reason => .single rfl
  refine (count_reaches p action).trans ?_
  cases orderCountCheck settings p.tables c.strategy c.inputs.clock.day
      c.inputs.clock.minute with
  | error code => exact hended (.skipped code)
  | ok u =>
    dsimp only
    cases hopen : hasOpenOrder p.trading.toDatabase p.tables c.strategy.id with
    | true =>
      exact .of_next (p, .suppressing action "OPEN_STRATEGY_ORDER")
        (by rw [advance, hopen]; rfl) (hsuppressed _)
    | false =>
      refine .of_next (p, .unopened action) (by rw [advance, hopen]; rfl) ?_
      rw [if_neg Bool.false_ne_true]
      split_ifs with hbuy hsell
      · exact .of_next (p, .suppressing action "STRATEGY_ALREADY_EXPOSED") (if_pos hbuy)
          (hsuppressed _)
      · exact .of_next (p, .suppressing action "NO_STRATEGY_LONG_POSITION")
          ((if_neg hbuy).trans (dif_pos hsell)) (hsuppressed _)
      · refine .of_next (p, .sized action _ hsell) ((if_neg hbuy).trans (dif_neg hsell)) ?_
        cases hlatest : c.inputs.latest with
        | error u =>
          exact .of_next (p, .ending action.runId (crashed c.inputs.exceptionName))
            (by rw [advance, hlatest]) (hended _)
        | ok latest =>
          dsimp only
          cases hquote : quoteCheck settings.toSettings c.inputs.clock.quote latest with
          | error e =>
            exact .of_next (p, .ending action.runId (.skipped e.code))
              (by rw [advance, hlatest]; dsimp only; rw [hquote]) (hended _)
          | ok quote =>
            dsimp only
            cases hinstrument : c.inputs.instrument.filter TradedInstrument.isActive with
            | none =>
              exact .of_next (p, .ending action.runId (.skipped "INSTRUMENT_NOT_AVAILABLE"))
                (by rw [advance, hlatest]; dsimp only; rw [hquote, hinstrument]) (hended _)
            | some instrument =>
              let order : RoutedOrder := {
                values := orderValues lib c.strategy instrument c.candle.startAt action.side
                  (strategyExposure p.trading.toDatabase p.tables c.strategy.id) quote.ltp hsell
                quote := quote }
              dsimp only
              split_ifs with hvalid
              · refine .of_next (p, .placing action order .called) ?_ (order_reaches p rfl)
                rw [advance, hlatest]
                dsimp only
                rw [hquote, hinstrument]
                exact if_pos hvalid
              · refine .of_next (p, .ending action.runId (crashed "IntegrityError")) ?_ (hended _)
                rw [advance, hlatest]
                dsimp only
                rw [hquote, hinstrument]
                exact if_neg hvalid

/-- **A call that nobody interrupts** evaluates as `evaluate` does. -/
theorem evaluate_reached (p : Platform) :
    c.Reaches settings lib now subscribed outcome (p, .called)
      (evaluate settings lib (orderManagerPlace settings.toSettings now now subscribed outcome) p
        c.strategy c.candle c.inputs, .ended) := by
  unfold evaluate
  cases hrun : run? p.tables c.strategy.id c.candle.startAt with
  | some run => exact .single (by rw [Next, advance, hrun])
  | none =>
    let claimed : Platform :=
      ⟨p.trading, claim p.tables c.strategy c.candle.startAt c.inputs.clock.started⟩
    refine .of_next (p, .absent) (by rw [advance, hrun]) ?_
    refine .of_next (claimed, .claimed p.tables.nextUuid) (by rw [advance, hrun]) ?_
    dsimp only
    cases hjudged : judge settings c.strategy c.candle.startAt c.inputs with
    | error e =>
      refine .of_next (claimed, .ending p.tables.nextUuid e) (by rw [advance, hjudged]) ?_
      exact .single rfl
    | ok routed =>
      obtain ⟨side, diagnostics⟩ := routed
      refine .of_next (claimed, .routing ⟨p.tables.nextUuid, side, diagnostics⟩)
        (by rw [advance, hjudged]) ?_
      exact route_reaches claimed ⟨p.tables.nextUuid, side, diagnostics⟩

end Alone

end EvaluationCall

end GnkAlgo
