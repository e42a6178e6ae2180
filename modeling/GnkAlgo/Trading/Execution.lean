import GnkAlgo.Database

/-!
# Booking an execution

The first half of `backend/app/trading/engine.py`: the crossing test, the fill
price and `apply_execution`.

`applyExecution_cases` is the only thing later files need to know of
`applyExecution`: it finds the execution recorded already, refuses, or books.
-/

namespace GnkAlgo

/-! ## Prices -/

/-- Python's `x or y` on an optional number: zero counts as missing. -/
def orNumber (x : Option ℚ) (y : ℚ) : ℚ :=
  match x with
  | some v => if v = 0 then y else v
  | none => y

/-- `round(x)` of Python: to the nearest integer, ties to the even one. -/
def roundHalfEven (x : ℚ) : ℤ :=
  let low := x.floor
  let rest := x - low
  if rest < 1 / 2 then low
  else if 1 / 2 < rest then low + 1
  else if low % 2 = 0 then low else low + 1

/-- `round(x, digits)`. -/
def roundDigits (x : ℚ) (digits : ℕ) : ℚ := roundHalfEven (x * 10 ^ digits) / 10 ^ digits

/-- The price an order of this side trades against. -/
def referencePrice (side : OrderSide) (quote : NormalizedQuote) : ℚ :=
  match side with
  | .buy => orNumber quote.ask quote.ltp
  | .sell => orNumber quote.bid quote.ltp

def isCrossing (order : TradingOrder) (quote : NormalizedQuote) : Bool :=
  match order.orderType with
  | .market => true
  | .limit =>
    match order.limitPrice, order.side with
    | none, _ => false
    | some limit, .buy => referencePrice .buy quote ≤ limit
    | some limit, .sell => limit ≤ referencePrice .sell quote

/-- `_fill_price`. -/
def fillPrice (order : TradingOrder) (quote : NormalizedQuote) (slippageBps : ℚ) : ℚ :=
  let reference := referencePrice order.side quote
  match order.orderType, order.side with
  | .limit, .buy => min (orNumber order.limitPrice reference) reference
  | .limit, .sell => max (orNumber order.limitPrice reference) reference
  | .market, .buy => roundDigits (reference * (1 + slippageBps / 10000)) 8
  | .market, .sell => roundDigits (reference * (1 - slippageBps / 10000)) 8

/-! ## Booking an execution -/

/-- What `apply_execution` writes to the order. -/
def TradingOrder.fill (o : TradingOrder) (quantity : ℤ) (price : ℚ) (at' : Time) : TradingOrder :=
  let filled := o.filledQuantity + quantity
  let status := if filled = o.quantity then .filled else .partiallyFilled
  { o with
    filledQuantity := filled
    averageFillPrice :=
      some ((o.averageFillPrice.getD 0 * o.filledQuantity + price * quantity) / filled)
    status := status
    completedAt := if status = .filled then some at' else o.completedAt }

/-- What `apply_execution` writes to the position: open or add, or else close
up to the old quantity, flat and flipped positions starting afresh. -/
def TradingPosition.book (p : TradingPosition) (side : OrderSide) (quantity : ℤ) (price : ℚ) :
    TradingPosition :=
  let old := p.quantity
  let signedFill := side.signed quantity
  let new := old + signedFill
  if old = 0 ∨ 0 < old * signedFill then
    let totalCost := p.averagePrice * |old| + price * |signedFill|
    { p with averagePrice := totalCost / |new|, quantity := new, lastPrice := some price }
  else
    let closing := min |old| |signedFill|
    let direction : ℤ := if 0 < old then 1 else -1
    { p with
      realizedPnl := p.realizedPnl + closing * (price - p.averagePrice) * direction
      averagePrice := if new = 0 then 0 else if old * new < 0 then price else p.averagePrice
      quantity := new
      lastPrice := some price }

/-- The row `_position` adds where the query finds none. -/
def TradingPosition.flat (key : PositionKey) : TradingPosition where
  userId := key.userId
  instrumentId := key.instrumentId
  mode := key.mode
  productType := key.productType

/-- The execution row of a fill. -/
def TradingOrder.execution (o : TradingOrder) (quantity : ℤ) (price : ℚ)
    (source : ExecutionSource) (brokerExecutionId : Option BrokerExecutionId) (at' : Time) :
    TradeExecution where
  orderId := o.id
  userId := o.userId
  instrumentId := o.instrumentId
  brokerExecutionId := brokerExecutionId
  mode := o.mode
  side := o.side
  quantity := quantity
  price := price
  source := source
  executedAt := at'

namespace Session

/-- `_position` and the update of the row it returns.  The query does not see a
row that is still pending, so a second fill under a key without a stored row
adds a second one. -/
def bookPosition (s : Session) (o : TradingOrder) (quantity : ℤ) (price : ℚ) : Session :=
  match s.stored.position? o.positionKey with
  | some _ => { s with work := s.work.updatePosition o.positionKey (·.book o.side quantity price) }
  | none =>
    { s with work :=
        s.work.addPosition ((TradingPosition.flat o.positionKey).book o.side quantity price) }

/-- The session after a fill: the execution is pending, the order and the
position are changed in memory. -/
def bookExecution (s : Session) (o : TradingOrder) (quantity : ℤ) (price : ℚ)
    (source : ExecutionSource) (brokerExecutionId : Option BrokerExecutionId) (at' : Time) :
    Session :=
  bookPosition { s with work := (s.work.addExecution
    (o.execution quantity price source brokerExecutionId at')).setOrder (o.fill quantity price at') }
    o quantity price

end Session

/-- Python's truth of an id: an empty string is none. -/
def BrokerExecutionId.truthy : BrokerExecutionId → Bool
  | .paper _ => true
  | .exchange tradeId => tradeId ≠ ""

/-- The execution a call finds recorded under its broker execution id. -/
def Session.recorded? (s : Session) (o : TradingOrder) (id : Option BrokerExecutionId) :
    Option TradeExecution :=
  (id.filter BrokerExecutionId.truthy).bind (s.stored.execution? o.userId)

/-- `apply_execution`.  It returns the session and the order as they are in
memory afterwards; no caller uses the execution it returns in the source. -/
def applyExecution (now : Time) (s : Session) (o : TradingOrder) (quantity : ℤ) (price : ℚ)
    (source : ExecutionSource) (brokerExecutionId : Option BrokerExecutionId)
    (executedAt : Option Time) : Except TradingError (Session × TradingOrder) :=
  match s.recorded? o brokerExecutionId with
  | some _ => .ok (s, o)
  | none =>
    if quantity ≤ 0 ∨ o.quantity < o.filledQuantity + quantity then
      .error ⟨"INVALID_EXECUTION_QUANTITY", 409⟩
    else
      let at' := executedAt.getD now
      .ok (s.bookExecution o quantity price source brokerExecutionId at', o.fill quantity price at')

/-- **What `apply_execution` can do**: return the recorded execution, refuse,
or book. -/
theorem applyExecution_cases (now : Time) (s : Session) (o : TradingOrder) (quantity : ℤ)
    (price : ℚ) (source : ExecutionSource) (id : Option BrokerExecutionId)
    (executedAt : Option Time) :
    ((∃ e, s.recorded? o id = some e) ∧
      applyExecution now s o quantity price source id executedAt = .ok (s, o)) ∨
    (s.recorded? o id = none ∧
      (quantity ≤ 0 ∨ o.quantity < o.filledQuantity + quantity) ∧
      applyExecution now s o quantity price source id executedAt =
        .error ⟨"INVALID_EXECUTION_QUANTITY", 409⟩) ∨
    (s.recorded? o id = none ∧
      0 < quantity ∧ o.filledQuantity + quantity ≤ o.quantity ∧
      applyExecution now s o quantity price source id executedAt =
        .ok (s.bookExecution o quantity price source id (executedAt.getD now),
          o.fill quantity price (executedAt.getD now))) := by
  unfold applyExecution
  cases h : s.recorded? o id with
  | some e => exact Or.inl ⟨⟨e, rfl⟩, rfl⟩
  | none =>
    by_cases hq : quantity ≤ 0 ∨ o.quantity < o.filledQuantity + quantity
    · exact Or.inr (Or.inl ⟨rfl, hq, if_pos hq⟩)
    · have hq' := not_or.1 hq
      exact Or.inr (Or.inr ⟨rfl, by omega, by omega, if_neg hq⟩)

end GnkAlgo
