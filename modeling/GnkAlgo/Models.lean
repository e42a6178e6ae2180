import Mathlib

/-!
# The data of the trading system

The enumerations and rows of `backend/app/models.py`, the settings of
`backend/app/config.py`, the quote of `backend/app/market/contracts.py` and the
order body of `backend/app/schemas.py`, as far as order handling reads and
writes them.  Floats are exact rationals, integers are `ℤ`, `datetime` values
are microseconds since the epoch and a generated `uuid4` is a number drawn from
a counter.  A setting or a quote carries the bounds its pydantic class checks.
-/

namespace GnkAlgo

/-- A generated primary key (`uuid_str`). -/
abbrev Uuid := ℕ

/-- A moment, in microseconds since the epoch. -/
abbrev Time := ℤ

/-- `(value).total_seconds()` of a difference of two moments. -/
def totalSeconds (span : Time) : ℚ := span / 1000000

/-! ## Enumerations -/

inductive OrderSide
  | buy
  | sell
  deriving DecidableEq, Repr

inductive OrderType
  | market
  | limit
  deriving DecidableEq, Repr

inductive OrderStatus
  | pending
  | open
  | partiallyFilled
  | filled
  | cancelPending
  | canceled
  | rejected
  | expired
  | unknown
  deriving DecidableEq, Repr

inductive ProductType
  | cnc
  | intraday
  | margin
  | mtf
  deriving DecidableEq, Repr

inductive OrderValidity
  | day
  | ioc
  deriving DecidableEq, Repr

/-- The `mode` column: `"PAPER"` or `"LIVE"`. -/
inductive Mode
  | paper
  | live
  deriving DecidableEq, Repr

inductive BrokerName
  | dhan
  | fyers
  | upstox
  deriving DecidableEq, Repr

inductive BrokerStatus
  | pending
  | connected
  | disconnected
  | expired
  | error
  | reauthRequired
  deriving DecidableEq, Repr

/-- `trading_mode` of the settings. -/
inductive TradingMode
  | disabled
  | paper
  | live
  deriving DecidableEq, Repr

/-- The `source` column of an execution. -/
inductive ExecutionSource
  | paper
  | dhanReconciliation
  deriving DecidableEq, Repr

/-- The `broker_execution_id` column: `f"paper-{uuid.uuid4()}"` or the
`exchangeTradeId` of the broker's trade book. -/
inductive BrokerExecutionId
  | paper (uuid : Uuid)
  | exchange (tradeId : String)
  deriving DecidableEq, Repr

/-- The `scope_key` of a trading control: `"GLOBAL"` or `f"USER:{user_id}"`. -/
inductive ControlScope
  | global
  | user (userId : Uuid)
  deriving DecidableEq, Repr

/-! ## Rows -/

/-- The identity of a position: the columns of `uq_trading_position`. -/
structure PositionKey where
  userId : Uuid
  instrumentId : Uuid
  mode : Mode
  productType : ProductType
  deriving DecidableEq, Repr

structure TradingOrder where
  id : Uuid
  userId : Uuid
  instrumentId : Uuid
  brokerConnectionId : Option Uuid := none
  clientOrderId : String
  brokerOrderId : Option String := none
  mode : Mode
  side : OrderSide
  orderType : OrderType
  productType : ProductType
  validity : OrderValidity
  quantity : ℤ
  filledQuantity : ℤ := 0
  limitPrice : Option ℚ
  triggerPrice : Option ℚ := none
  averageFillPrice : Option ℚ := none
  status : OrderStatus
  rejectionReason : Option String := none
  version : ℤ := 1
  submittedAt : Option Time := none
  completedAt : Option Time := none
  deriving DecidableEq, Repr

structure TradeExecution where
  orderId : Uuid
  userId : Uuid
  instrumentId : Uuid
  brokerExecutionId : Option BrokerExecutionId
  mode : Mode
  side : OrderSide
  quantity : ℤ
  price : ℚ
  source : ExecutionSource
  executedAt : Time
  deriving DecidableEq, Repr

structure TradingPosition where
  userId : Uuid
  instrumentId : Uuid
  mode : Mode
  productType : ProductType
  quantity : ℤ := 0
  averagePrice : ℚ := 0
  realizedPnl : ℚ := 0
  lastPrice : Option ℚ := none
  deriving DecidableEq, Repr

structure TradingControl where
  scopeKey : ControlScope
  isHalted : Bool := false
  deriving DecidableEq, Repr

/-- The JSON object behind `encrypted_credentials`. -/
structure Credentials where
  clientId : Option String
  accessToken : Option String
  deriving DecidableEq, Repr

structure BrokerConnection where
  id : Uuid
  userId : Uuid
  broker : BrokerName
  brokerClientId : Option String
  credentials : Credentials
  status : BrokerStatus
  tokenExpiresAt : Option Time
  errorCode : Option String := none
  deriving DecidableEq, Repr

/-- The key under which an order's fills are booked. -/
def TradingOrder.positionKey (o : TradingOrder) : PositionKey :=
  ⟨o.userId, o.instrumentId, o.mode, o.productType⟩

def TradingPosition.positionKey (p : TradingPosition) : PositionKey :=
  ⟨p.userId, p.instrumentId, p.mode, p.productType⟩

/-- A quantity with the sign of its side. -/
def OrderSide.signed : OrderSide → ℤ → ℤ
  | .buy, q => q
  | .sell, q => -q

/-- `OPEN_ORDER_STATUSES`. -/
def openOrderStatuses : List OrderStatus :=
  [.pending, .open, .partiallyFilled, .cancelPending, .unknown]

/-- `TERMINAL` of the reconciler. -/
def terminalStatuses : List OrderStatus :=
  [.filled, .canceled, .rejected, .expired]

/-- A status is open or terminal, and never both. -/
theorem mem_terminalStatuses {status : OrderStatus} :
    status ∈ terminalStatuses ↔ status ∉ openOrderStatuses := by
  cases status <;> decide

/-! ## Settings -/

/-- The settings order handling reads, with the bounds of their `Field`s. -/
structure Settings where
  tradingMode : TradingMode := .disabled
  tradingLiveConfirmation : String := ""
  dhanStaticIpConfirmed : Bool := false
  tradingMaxOrderQuantity : ℤ := 1000
  tradingMaxOrderNotional : ℚ := 500000
  tradingMaxOpenOrders : ℕ := 20
  tradingMaxAbsolutePosition : ℤ := 5000
  paperSlippageBps : ℚ := 2
  marketStaleAfterSeconds : ℚ := 15
  one_le_tradingMaxOrderQuantity : 1 ≤ tradingMaxOrderQuantity := by norm_num
  tradingMaxOrderNotional_pos : 0 < tradingMaxOrderNotional := by norm_num
  one_le_tradingMaxOpenOrders : 1 ≤ tradingMaxOpenOrders := by norm_num
  one_le_tradingMaxAbsolutePosition : 1 ≤ tradingMaxAbsolutePosition := by norm_num
  paperSlippageBps_mem : 0 ≤ paperSlippageBps ∧ paperSlippageBps ≤ 100 := by norm_num
  marketStaleAfterSeconds_pos : 0 < marketStaleAfterSeconds := by norm_num

/-- The defaults. -/
instance : Inhabited Settings := ⟨{}⟩

/-! ## Quotes and order bodies -/

/-- A missing bid or ask. -/
theorem none_nonneg : ∀ x ∈ (none : Option ℚ), 0 ≤ x := by simp

/-- The fields of `NormalizedQuote` that order handling reads. -/
structure NormalizedQuote where
  instrumentId : Uuid
  receivedAt : Time
  ltp : ℚ
  bid : Option ℚ := none
  ask : Option ℚ := none
  stale : Bool := false
  ltp_pos : 0 < ltp := by norm_num
  bid_nonneg : ∀ b ∈ bid, 0 ≤ b := by first | exact none_nonneg | simp
  ask_nonneg : ∀ a ∈ ask, 0 ≤ a := by first | exact none_nonneg | simp

/-- The `values` of a placement.  Both callers pass a quantity of at least one:
the API through `OrderCreate`, the strategy engine through `StrategyCreate`. -/
structure OrderValues where
  clientOrderId : String
  side : OrderSide
  orderType : OrderType
  productType : ProductType := .intraday
  validity : OrderValidity := .day
  quantity : ℤ
  limitPrice : Option ℚ := none
  triggerPrice : Option ℚ := none
  one_le_quantity : 1 ≤ quantity := by norm_num

/-! ## An instrument at 100

The quotes and orders of the runs below. -/

theorem hundred_pos : (0 : ℚ) < 100 := by norm_num

def quoteAtHundred : NormalizedQuote where
  instrumentId := 3
  receivedAt := 0
  ltp := 100
  ltp_pos := hundred_pos

/-- A quote that crosses a limit to buy at 100. -/
def crossingQuote (receivedAt : Time) : NormalizedQuote where
  instrumentId := 3
  receivedAt := receivedAt
  ltp := 95

/-- A limit order for 10. -/
def tenAtHundred : OrderValues where
  clientOrderId := "a"
  side := .buy
  orderType := .limit
  quantity := 10
  limitPrice := some 100

/-- A market order for 10. -/
def marketValues : OrderValues where
  clientOrderId := "a"
  side := .buy
  orderType := .market
  quantity := 10

end GnkAlgo
