import GnkAlgo.Lib.Upserts
import GnkAlgo.Models

/-!
# The rows of the strategy engine

The strategy tables of `backend/app/models.py`, their settings, and the bounds
that `StrategyCreate` and `StrategyUpdate` of `backend/app/schemas.py` check.  The
parameters that `strategy_definition` puts into a version are a structure of their
own, and a strategy carries the proof that its parameters are within bounds.
-/

namespace GnkAlgo

open Upserts

/-! ## Enumerations and settings -/

inductive StrategyStatus
  | draft
  | active
  | paused
  | archived
  | error
  deriving DecidableEq, Repr

inductive StrategyRunStatus
  | started
  | succeeded
  | noSignal
  | skipped
  | failed
  deriving DecidableEq, Repr

inductive StrategySignalStatus
  | created
  | orderSubmitted
  | suppressed
  | rejected
  deriving DecidableEq, Repr

/-- The settings of the strategy engine, with those of order handling. -/
structure StrategySettings extends Settings where
  strategyEngineEnabled : Bool := false
  strategyLiveConfirmation : String := ""
  strategyMaxOrdersPerUserPerDay : ℕ := 20
  strategyMaxOrderAttemptsPerMinute : ℕ := 8
  strategyMaxCandleLagSeconds : ℚ := 180
  one_le_strategyMaxOrdersPerUserPerDay : 1 ≤ strategyMaxOrdersPerUserPerDay := by norm_num
  strategyMaxOrderAttemptsPerMinute_mem : 1 ≤ strategyMaxOrderAttemptsPerMinute ∧
    strategyMaxOrderAttemptsPerMinute ≤ 10 := by norm_num
  strategyMaxCandleLagSeconds_pos : 0 < strategyMaxCandleLagSeconds := by norm_num

/-! ## Strategies -/

/-- What `strategy_definition` returns. -/
structure StrategyDefinition where
  kind : String := "SMA_CROSS"
  instrumentId : Uuid
  executionMode : Mode := .paper
  timeframeSeconds : ℕ := 60
  fastPeriod : ℕ := 5
  slowPeriod : ℕ := 20
  quantity : ℤ := 1
  productType : ProductType := .intraday
  orderType : OrderType := .market
  limitOffsetBps : ℚ := 0
  maxOrdersPerDay : ℕ := 4
  deriving DecidableEq, Repr

/-- The bounds of the fields, and `periods_are_ordered`. -/
structure StrategyDefinition.InBounds (d : StrategyDefinition) : Prop where
  timeframe : 60 ≤ d.timeframeSeconds ∧ d.timeframeSeconds ≤ 86400
  fast : 2 ≤ d.fastPeriod ∧ d.fastPeriod ≤ 200
  slow : d.slowPeriod ≤ 500
  periods : d.fastPeriod < d.slowPeriod
  quantity : 1 ≤ d.quantity
  offset : 0 ≤ d.limitOffsetBps ∧ d.limitOffsetBps ≤ 100
  maxOrders : 1 ≤ d.maxOrdersPerDay ∧ d.maxOrdersPerDay ≤ 100

theorem StrategyDefinition.inBounds_iff (d : StrategyDefinition) : d.InBounds ↔
    (60 ≤ d.timeframeSeconds ∧ d.timeframeSeconds ≤ 86400) ∧
    (2 ≤ d.fastPeriod ∧ d.fastPeriod ≤ 200) ∧ d.slowPeriod ≤ 500 ∧
    d.fastPeriod < d.slowPeriod ∧ 1 ≤ d.quantity ∧
    (0 ≤ d.limitOffsetBps ∧ d.limitOffsetBps ≤ 100) ∧
    1 ≤ d.maxOrdersPerDay ∧ d.maxOrdersPerDay ≤ 100 :=
  ⟨fun ⟨h1, h2, h3, h4, h5, h6, h7⟩ => ⟨h1, h2, h3, h4, h5, h6, h7⟩,
    fun ⟨h1, h2, h3, h4, h5, h6, h7⟩ => ⟨h1, h2, h3, h4, h5, h6, h7⟩⟩

instance (d : StrategyDefinition) : Decidable d.InBounds := decidable_of_iff' _ d.inBounds_iff

structure Strategy extends StrategyDefinition where
  id : Uuid
  userId : Uuid
  name : String
  status : StrategyStatus := .draft
  version : ℕ := 1
  lastEvaluatedAt : Option Time := none
  activatedAt : Option Time := none
  pausedAt : Option Time := none
  lastError : Option String := none
  inBounds : toStrategyDefinition.InBounds
  deriving DecidableEq

/-- `strategy_definition`. -/
def strategyDefinition (strategy : Strategy) : StrategyDefinition := strategy.toStrategyDefinition

structure StrategyVersion where
  strategyId : Uuid
  userId : Uuid
  version : ℕ
  /-- `definition_json`. -/
  definition : StrategyDefinition
  createdByUserId : Uuid
  deriving DecidableEq, Repr

/-! ## Runs and signals -/

/-- The keys of `diagnostics_json`. -/
structure Diagnostics where
  reason : Option String := none
  lagSeconds : Option ℚ := none
  count : Option ℕ := none
  fastAverage : Option ℚ := none
  slowAverage : Option ℚ := none
  previousFastAverage : Option ℚ := none
  previousSlowAverage : Option ℚ := none
  orderStatus : Option OrderStatus := none
  deriving DecidableEq, Repr

structure StrategyRun where
  id : Uuid
  strategyId : Uuid
  userId : Uuid
  strategyVersion : ℕ
  candleStartAt : Time
  status : StrategyRunStatus := .started
  diagnostics : Diagnostics := {}
  finishedAt : Option Time := none
  deriving DecidableEq, Repr

structure StrategySignal where
  id : Uuid
  strategyId : Uuid
  runId : Uuid
  userId : Uuid
  instrumentId : Uuid
  orderId : Option Uuid := none
  action : OrderSide
  status : StrategySignalStatus
  quantity : ℤ
  referencePrice : ℚ
  clientOrderId : String
  reason : Option String := none
  generatedAt : Time
  deriving DecidableEq, Repr

/-! ## The tables -/

structure StrategyTables where
  strategies : List Strategy := []
  versions : List StrategyVersion := []
  runs : List StrategyRun := []
  signals : List StrategySignal := []
  nextUuid : Uuid := 0
  deriving DecidableEq

namespace StrategyTables

/-- The declared constraints; identifiers are drawn from the counter. -/
structure Valid (t : StrategyTables) : Prop where
  strategyIds : (t.strategies.map Strategy.id).Nodup
  names : (t.strategies.map fun s => (s.userId, s.name)).Nodup
  versions : (t.versions.map fun v => (v.strategyId, v.version)).Nodup
  runIds : (t.runs.map StrategyRun.id).Nodup
  candleRuns : (t.runs.map fun r => (r.strategyId, r.candleStartAt)).Nodup
  signalIds : (t.signals.map StrategySignal.id).Nodup
  signalRuns : (t.signals.map StrategySignal.runId).Nodup
  signalOrders : (t.signals.filterMap StrategySignal.orderId).Nodup
  strategyUuids : ∀ s ∈ t.strategies, s.id < t.nextUuid
  runUuids : ∀ r ∈ t.runs, r.id < t.nextUuid
  signalUuids : ∀ s ∈ t.signals, s.id < t.nextUuid

theorem valid_iff_all (t : StrategyTables) : t.Valid ↔
    (t.strategies.map Strategy.id).Nodup ∧
    (t.strategies.map fun s => (s.userId, s.name)).Nodup ∧
    (t.versions.map fun v => (v.strategyId, v.version)).Nodup ∧
    (t.runs.map StrategyRun.id).Nodup ∧
    (t.runs.map fun r => (r.strategyId, r.candleStartAt)).Nodup ∧
    (t.signals.map StrategySignal.id).Nodup ∧
    (t.signals.map StrategySignal.runId).Nodup ∧
    (t.signals.filterMap StrategySignal.orderId).Nodup ∧
    (∀ s ∈ t.strategies, s.id < t.nextUuid) ∧ (∀ r ∈ t.runs, r.id < t.nextUuid) ∧
    ∀ s ∈ t.signals, s.id < t.nextUuid :=
  ⟨fun ⟨h1, h2, h3, h4, h5, h6, h7, h8, h9, h10, h11⟩ =>
      ⟨h1, h2, h3, h4, h5, h6, h7, h8, h9, h10, h11⟩,
    fun ⟨h1, h2, h3, h4, h5, h6, h7, h8, h9, h10, h11⟩ =>
      ⟨h1, h2, h3, h4, h5, h6, h7, h8, h9, h10, h11⟩⟩

instance (t : StrategyTables) : Decidable t.Valid := decidable_of_iff' _ t.valid_iff_all

/-- `db.get(Strategy, id)`. -/
def strategy? (t : StrategyTables) (id : Uuid) : Option Strategy := t.strategies.find? (·.id = id)

/-- Write columns of a strategy. -/
def updateStrategy (t : StrategyTables) (id : Uuid) (f : Strategy → Strategy) : StrategyTables :=
  { t with strategies := updateById Strategy.id id f t.strategies }

/-- Write columns of a run. -/
def updateRun (t : StrategyTables) (id : Uuid) (f : StrategyRun → StrategyRun) : StrategyTables :=
  { t with runs := updateById StrategyRun.id id f t.runs }

/-- Write columns of a signal. -/
def updateSignal (t : StrategyTables) (id : Uuid) (f : StrategySignal → StrategySignal) :
    StrategyTables :=
  { t with signals := updateById StrategySignal.id id f t.signals }

/-- Insert a strategy with the next identifier. -/
def insertStrategy (t : StrategyTables) (s : Strategy) : StrategyTables :=
  { t with strategies := t.strategies ++ [s], nextUuid := t.nextUuid + 1 }

def addVersion (t : StrategyTables) (v : StrategyVersion) : StrategyTables :=
  { t with versions := t.versions ++ [v] }

/-- Insert a run with the next identifier. -/
def insertRun (t : StrategyTables) (r : StrategyRun) : StrategyTables :=
  { t with runs := t.runs ++ [r], nextUuid := t.nextUuid + 1 }

/-- Insert a signal with the next identifier. -/
def insertSignal (t : StrategyTables) (s : StrategySignal) : StrategyTables :=
  { t with signals := t.signals ++ [s], nextUuid := t.nextUuid + 1 }

end StrategyTables

end GnkAlgo
