import GnkAlgo.Trading.Execution

/-!
# The paper engine

The second half of `backend/app/trading/engine.py`: the risk gate and the
operations of `PaperTradingEngine`.  An operation takes the store its session
starts from and returns the store that is committed afterwards, together with
what the call returned or raised; where the transaction is rolled back the
store is the old one.
-/

namespace GnkAlgo

/-! ## The risk gate -/

/-- A control row that concerns the user is halted. -/
def isHalted (d : Database) (userId : Uuid) : Bool :=
  d.controls.any fun c => (c.scopeKey = .global ∨ c.scopeKey = .user userId) ∧ c.isHalted

/-- `_control_check`. -/
def controlCheck (d : Database) (userId : Uuid) : Except TradingError Unit :=
  if isHalted d userId then .error ⟨"TRADING_HALTED", 409⟩ else .ok ()

/-- `_quote_check`; the quote is handed on where it passes. -/
def quoteCheck (settings : Settings) (now : Time) (quote : Option NormalizedQuote) :
    Except TradingError NormalizedQuote :=
  match quote with
  | none => .error ⟨"LIVE_QUOTE_REQUIRED", 422⟩
  | some q =>
    let age := totalSeconds (now - q.receivedAt)
    if q.stale ∨ settings.marketStaleAfterSeconds < age then .error ⟨"STALE_MARKET_DATA", 409⟩
    else .ok q

theorem quoteCheck_ok {settings : Settings} {now : Time} {quote : Option NormalizedQuote}
    {q : NormalizedQuote} (h : quoteCheck settings now quote = .ok q) : quote = some q := by
  unfold quoteCheck at h
  split at h
  · cases h
  · dsimp only at h
    split at h
    · cases h
    · cases h; rfl

/-- The two limits of `_risk_check` on the order alone. -/
def sizeCheck (settings : Settings) (quantity : ℤ) (price : ℚ) : Except TradingError Unit :=
  if settings.tradingMaxOrderQuantity < quantity then
    .error ⟨"MAX_ORDER_QUANTITY_EXCEEDED", 422⟩
  else if settings.tradingMaxOrderNotional < quantity * price then
    .error ⟨"MAX_ORDER_NOTIONAL_EXCEEDED", 422⟩
  else .ok ()

/-- The number of a user's orders with an open status, in either mode. -/
def openOrderCount (d : Database) (userId : Uuid) : ℕ :=
  d.orders.countP fun o => o.userId = userId ∧ o.status ∈ openOrderStatuses

/-- The open-order limit of `_risk_check`. -/
def openOrderCheck (settings : Settings) (d : Database) (userId : Uuid) :
    Except TradingError Unit :=
  if settings.tradingMaxOpenOrders ≤ openOrderCount d userId then
    .error ⟨"MAX_OPEN_ORDERS_EXCEEDED", 422⟩
  else .ok ()

/-- The position limit of `_risk_check`: the quantity held with the order's own
quantity added, whatever else is still open. -/
def positionCheck (settings : Settings) (d : Database) (key : PositionKey) (side : OrderSide)
    (quantity : ℤ) : Except TradingError Unit :=
  if settings.tradingMaxAbsolutePosition < |d.heldQuantity key + side.signed quantity| then
    .error ⟨"MAX_POSITION_EXCEEDED", 422⟩
  else .ok ()

/-- `_risk_check`. -/
def riskCheck (settings : Settings) (d : Database) (userId instrumentId : Uuid)
    (side : OrderSide) (productType : ProductType) (quantity : ℤ) (price : ℚ) (mode : Mode) :
    Except TradingError Unit := do
  controlCheck d userId
  sizeCheck settings quantity price
  openOrderCheck settings d userId
  positionCheck settings d ⟨userId, instrumentId, mode, productType⟩ side quantity

/-- **What the gate lets through.** -/
theorem riskCheck_eq_ok {settings : Settings} {d : Database} {userId instrumentId : Uuid}
    {side : OrderSide} {productType : ProductType} {quantity : ℤ} {price : ℚ} {mode : Mode} :
    riskCheck settings d userId instrumentId side productType quantity price mode = .ok () ↔
      isHalted d userId = false ∧ quantity ≤ settings.tradingMaxOrderQuantity ∧
      quantity * price ≤ settings.tradingMaxOrderNotional ∧
      openOrderCount d userId < settings.tradingMaxOpenOrders ∧
      |d.heldQuantity ⟨userId, instrumentId, mode, productType⟩ + side.signed quantity| ≤
        settings.tradingMaxAbsolutePosition := by
  simp only [riskCheck, controlCheck, sizeCheck, openOrderCheck, positionCheck]
  by_cases h1 : isHalted d userId = true
  · simp [h1, bind, Except.bind]
  by_cases h2 : settings.tradingMaxOrderQuantity < quantity
  · simp [h1, h2, bind, Except.bind]
  by_cases h3 : settings.tradingMaxOrderNotional < quantity * price
  · simp [h1, h2, h3, bind, Except.bind]
  by_cases h4 : settings.tradingMaxOpenOrders ≤ openOrderCount d userId
  · simp [h1, h2, h3, h4, bind, Except.bind]
  simp [h1, h2, h3, h4, bind, Except.bind, not_lt.1 h2, not_lt.1 h3, not_le.1 h4]

/-! ## Placing -/

/-- The query for an order of a user with a client order id. -/
def orderOfClient? (d : Database) (userId : Uuid) (clientOrderId : String) :
    Option TradingOrder :=
  d.orders.find? fun o => o.userId = userId ∧ o.clientOrderId = clientOrderId

/-- `_matches`: the fields a repeated placement is compared on. -/
def matchesValues (existing : TradingOrder) (instrumentId : Uuid) (values : OrderValues) : Bool :=
  existing.instrumentId = instrumentId ∧ existing.side = values.side ∧
  existing.orderType = values.orderType ∧ existing.productType = values.productType ∧
  existing.validity = values.validity ∧ existing.quantity = values.quantity ∧
  existing.limitPrice = values.limitPrice

/-- What a repeated placement returns or raises. -/
def replay (existing : TradingOrder) (instrumentId : Uuid) (values : OrderValues) :
    Except Raised TradingOrder :=
  if matchesValues existing instrumentId values then .ok existing
  else .error (.trading ⟨"IDEMPOTENCY_CONFLICT", 409⟩)

/-- The price the gate values an order at: `quote.ltp if quote else limit_price`. -/
def riskPrice? (quote : Option NormalizedQuote) (limitPrice : Option ℚ) : Option ℚ :=
  match quote with
  | some q => some q.ltp
  | none => limitPrice

/-- The checks of `PaperTradingEngine.place` before the order is created. -/
def paperChecks (settings : Settings) (now : Time) (d : Database) (userId instrumentId : Uuid)
    (values : OrderValues) (quote : Option NormalizedQuote) : Except TradingError Unit := do
  if values.orderType = .limit ∧ values.limitPrice = none then
    throw ⟨"LIMIT_PRICE_REQUIRED", 422⟩
  if values.orderType = .market then
    let _ ← quoteCheck settings now quote
  match riskPrice? quote values.limitPrice with
  | none => throw ⟨"RISK_PRICE_REQUIRED", 422⟩
  | some price =>
    riskCheck settings d userId instrumentId values.side values.productType values.quantity price
      .paper

/-- Checks that pass went through the risk gate at some price. -/
theorem paperChecks_ok {settings : Settings} {now : Time} {d : Database}
    {userId instrumentId : Uuid} {values : OrderValues} {quote : Option NormalizedQuote}
    (h : paperChecks settings now d userId instrumentId values quote = .ok ()) :
    ∃ price, riskPrice? quote values.limitPrice = some price ∧
      riskCheck settings d userId instrumentId values.side values.productType values.quantity price
        .paper = .ok () := by
  simp only [paperChecks, bind, Except.bind] at h
  split at h
  · cases h
  · cases hprice : riskPrice? quote values.limitPrice with
    | none =>
      rw [hprice] at h
      split at h
      · split at h <;> cases h
      · cases h
    | some price =>
      rw [hprice] at h
      refine ⟨price, rfl, ?_⟩
      split at h
      · split at h
        · cases h
        · exact h
      · exact h

/-- The order row of a paper placement. -/
def paperOrder (id : Uuid) (userId instrumentId : Uuid) (values : OrderValues) (now : Time) :
    TradingOrder where
  id := id
  userId := userId
  instrumentId := instrumentId
  clientOrderId := values.clientOrderId
  mode := .paper
  side := values.side
  orderType := values.orderType
  productType := values.productType
  validity := values.validity
  quantity := values.quantity
  limitPrice := values.limitPrice
  status := .open
  submittedAt := some now

/-- Fill `quantity` of an order at the quote's price, under a fresh paper
execution id. -/
def paperFill (settings : Settings) (now : Time) (s : Session) (o : TradingOrder) (quantity : ℤ)
    (quote : NormalizedQuote) : Except TradingError (Session × TradingOrder) :=
  applyExecution now s.draw o quantity (fillPrice o quote settings.paperSlippageBps) .paper
    (some (.paper s.work.nextUuid)) none

/-- What `place` does with the new order: fill it where the quote crosses it,
or else cancel it where it must not rest. -/
def settleNew (settings : Settings) (now : Time) (s : Session) (o : TradingOrder)
    (quote : Option NormalizedQuote) : Except TradingError (Session × TradingOrder) :=
  match quote with
  | some q =>
    if isCrossing o q then paperFill settings now s o o.quantity q
    else if o.validity = .ioc then cancelNew s o
    else .ok (s, o)
  | none => if o.validity = .ioc then cancelNew s o else .ok (s, o)
where
  cancelNew (s : Session) (o : TradingOrder) : Except TradingError (Session × TradingOrder) :=
    let o' := { o with status := .canceled, completedAt := some now }
    .ok ({ s with work := s.work.setOrder o' }, o')

/-- `PaperTradingEngine.place`. -/
def paperPlace (settings : Settings) (now : Time) (s : Store) (userId instrumentId : Uuid)
    (values : OrderValues) (quote : Option NormalizedQuote) : Store × Except Raised TradingOrder :=
  if settings.tradingMode ≠ .paper then (s, .error (.trading ⟨"PAPER_TRADING_DISABLED", 403⟩))
  else match orderOfClient? s.toDatabase userId values.clientOrderId with
  | some existing => (s, replay existing instrumentId values)
  | none =>
    match paperChecks settings now s.toDatabase userId instrumentId values quote with
    | .error e => (s, .error (.trading e))
    | .ok () =>
      let o := paperOrder s.nextUuid userId instrumentId values now
      match Session.flush ⟨s.toDatabase, s.toDatabase.insertOrder o⟩ with
      | .error e => (s, .error e)
      | .ok session =>
        match settleNew settings now session o quote with
        | .error e => (s, .error (.trading e))
        | .ok (session, o') => session.commitOr s (.ok o')

/-! ## Canceling and modifying -/

/-- What `cancel` writes to the order. -/
def TradingOrder.canceledAt (o : TradingOrder) (now : Time) : TradingOrder :=
  { o with status := .canceled, completedAt := some now, version := o.version + 1 }

/-- The order in memory after `PaperTradingEngine.cancel`. -/
def paperCancelOrder (now : Time) (o : TradingOrder) : Except TradingError TradingOrder :=
  if o.mode ≠ .paper ∨ o.status ∉ openOrderStatuses then .error ⟨"ORDER_NOT_CANCELABLE", 409⟩
  else .ok (o.canceledAt now)

/-- `PaperTradingEngine.cancel`. -/
def paperCancel (now : Time) (s : Store) (o : TradingOrder) : Store × Except Raised TradingOrder :=
  match paperCancelOrder now o with
  | .error e => (s, .error (.trading e))
  | .ok o' => Session.commitOr ⟨s.toDatabase, s.toDatabase.setOrder o'⟩ s (.ok o')

/-- What `modify` writes to the order before it tries the quote. -/
def TradingOrder.modified (o : TradingOrder) (quantity : ℤ) (limitPrice : ℚ) : TradingOrder :=
  { o with quantity := quantity, limitPrice := some limitPrice, version := o.version + 1 }

/-- The session and the order in memory after `PaperTradingEngine.modify`, up to
its commit. -/
def paperModifySession (settings : Settings) (now : Time) (s : Session) (o : TradingOrder)
    (quantity : ℤ) (limitPrice : ℚ) (quote : Option NormalizedQuote) :
    Except TradingError (Session × TradingOrder) :=
  if o.mode ≠ .paper ∨ o.status ∉ openOrderStatuses ∨ o.orderType ≠ .limit then
    .error ⟨"ORDER_NOT_MODIFIABLE", 409⟩
  else if quantity < max 1 o.filledQuantity then .error ⟨"QUANTITY_BELOW_FILLED", 422⟩
  else
    let o' := o.modified quantity limitPrice
    let s' := { s with work := s.work.setOrder o' }
    match quote with
    | some q =>
      if isCrossing o' q then paperFill settings now s' o' (quantity - o.filledQuantity) q
      else .ok (s', o')
    | none => .ok (s', o')

/-- `PaperTradingEngine.modify`. -/
def paperModify (settings : Settings) (now : Time) (s : Store) (o : TradingOrder) (quantity : ℤ)
    (limitPrice : ℚ) (quote : Option NormalizedQuote) : Store × Except Raised TradingOrder :=
  match paperModifySession settings now s.begin o quantity limitPrice quote with
  | .error e => (s, .error (.trading e))
  | .ok (session, o') => session.commitOr s (.ok o')

/-! ## Processing a quote -/

/-- The resting orders a quote is tried on. -/
def restingOrders (d : Database) (userId instrumentId : Uuid) : List TradingOrder :=
  d.orders.filter fun o => o.userId = userId ∧ o.instrumentId = instrumentId ∧ o.mode = .paper ∧
    (o.status = .open ∨ o.status = .partiallyFilled)

/-- The loop of `process_quote`: fill what is left of every order the quote
crosses, and count the fills. -/
def fillCrossed (settings : Settings) (now : Time) (quote : NormalizedQuote) :
    Session → List TradingOrder → Except TradingError (Session × ℕ)
  | s, [] => .ok (s, 0)
  | s, o :: rest =>
    if isCrossing o quote then
      match paperFill settings now s o (o.quantity - o.filledQuantity) quote with
      | .error e => .error e
      | .ok (s', _) => (fillCrossed settings now quote s' rest).map fun r => (r.1, r.2 + 1)
    else fillCrossed settings now quote s rest

/-- `PaperTradingEngine.process_quote`. -/
def processQuote (settings : Settings) (now : Time) (s : Store) (userId : Uuid)
    (quote : NormalizedQuote) : Store × Except Raised ℕ :=
  match fillCrossed settings now quote s.begin
      (restingOrders s.toDatabase userId quote.instrumentId) with
  | .error e => (s, .error (.trading e))
  | .ok (session, filled) => if 0 < filled then session.commitOr s (.ok filled) else (s, .ok 0)

end GnkAlgo
