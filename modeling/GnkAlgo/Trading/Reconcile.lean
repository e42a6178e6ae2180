import GnkAlgo.Trading.Service

/-!
# The order reconciler

`backend/app/trading/reconcile.py`: one pass over the order book and the trade
book of a user's broker account.  `_apply` first attaches broker ids to the
local orders, then imports the trades, then takes over the statuses; the whole
pass is one transaction.

The dictionaries `by_broker` and `by_correlation` hold orders; here they hold
their ids, and the order itself is read off the session.  A lookup finds the
entry made last.
-/

namespace GnkAlgo

/-! ## The books -/

/-- An entry of the order book: the fields `_apply` reads, ids as `str` of them,
empty where missing. -/
structure BrokerOrderItem where
  orderId : String := ""
  correlationId : String := ""
  orderStatus : Option String := none
  omsErrorDescription : Option String := none
  orderStatusDescription : Option String := none
  deriving DecidableEq, Repr

/-- What `datetime.fromisoformat` makes of `exchangeTime`: nothing, a moment
with an offset, or one without. -/
inductive ExchangeTime
  | missing
  | aware (moment : Time)
  | naive (moment : Time)
  deriving DecidableEq, Repr

/-- An entry of the trade book. -/
structure TradeItem where
  orderId : String := ""
  exchangeTradeId : String := ""
  tradedQuantity : ℤ := 0
  tradedPrice : ℚ := 0
  exchangeTime : ExchangeTime := .missing
  deriving DecidableEq, Repr

/-- `_trade_time`: a moment without an offset is one in Asia/Kolkata, five hours
and a half ahead of UTC. -/
def tradeTime (now : Time) : ExchangeTime → Time
  | .missing => now
  | .aware moment => moment
  | .naive moment => moment - 19800 * 1000000

/-! ## A pass -/

/-- The state of a pass. -/
structure Pass where
  session : Session
  byBroker : List (String × Uuid)
  byCorrelation : List (String × Uuid)

namespace Pass

/-- The order object of an id. -/
def order? (p : Pass) (id : Uuid) : Option TradingOrder := p.session.work.order? id

/-- Change an order object. -/
def setOrder (p : Pass) (o : TradingOrder) : Pass :=
  { p with session := { p.session with work := p.session.work.setOrder o } }

/-- `by_broker.get(broker_id)`. -/
def ofBroker? (p : Pass) (brokerId : String) : Option TradingOrder :=
  (p.byBroker.lookup brokerId).bind p.order?

/-- `by_broker.get(broker_id) or by_correlation.get(correlation)`. -/
def ofItem? (p : Pass) (item : BrokerOrderItem) : Option TradingOrder :=
  (p.ofBroker? item.orderId).or ((p.byCorrelation.lookup item.correlationId).bind p.order?)

/-- The first loop: an order without a broker id takes that of its entry. -/
def attach (p : Pass) (item : BrokerOrderItem) : Pass :=
  match p.ofItem? item with
  | none => p
  | some o =>
    if item.orderId ≠ "" ∧ orMissing o.brokerOrderId = none then
      { p.setOrder { o with brokerOrderId := some item.orderId } with
        byBroker := (item.orderId, o.id) :: p.byBroker }
    else p

/-- The second loop: book the trade, or mark the order where it cannot be. -/
def importTrade (now : Time) (p : Pass) (item : TradeItem) : Pass :=
  match p.ofBroker? item.orderId with
  | none => p
  | some o =>
    if item.exchangeTradeId = "" then p
    else
      match applyExecution now p.session o item.tradedQuantity item.tradedPrice .dhanReconciliation
        (some (.exchange item.exchangeTradeId)) (some (tradeTime now item.exchangeTime)) with
      | .ok (session, _) => { p with session := session }
      | .error e => p.setOrder { o with
          status := .unknown
          rejectionReason := some ("RECONCILIATION_" ++ e.code) }

/-- What the third loop writes to an order. -/
def statusOf (now : Time) (o : TradingOrder) (item : BrokerOrderItem) : TradingOrder :=
  let brokerStatus := mapDhanStatus item.orderStatus
  if brokerStatus = .filled ∧ o.filledQuantity ≠ o.quantity then
    { o with status := .unknown, rejectionReason := some "TRADE_BOOK_INCOMPLETE" }
  else
    let reason := (orMissing item.omsErrorDescription).or (orMissing item.orderStatusDescription)
    { o with
      status := brokerStatus
      rejectionReason := match brokerStatus, reason with
        | .rejected, some text => some (text.take 120).toString
        | _, _ => o.rejectionReason
      completedAt := if brokerStatus ∈ terminalStatuses then some (o.completedAt.getD now)
        else o.completedAt }

/-- The third loop: take over the status of the entry. -/
def takeStatus (now : Time) (p : Pass) (item : BrokerOrderItem) : Pass :=
  match p.ofItem? item with
  | none => p
  | some o => p.setOrder (statusOf now o item)

end Pass

/-- `local_orders`: the LIVE orders of the user with an open status. -/
def localOrders (d : Database) (userId : Uuid) : List TradingOrder :=
  d.orders.filter fun o => o.userId = userId ∧ o.mode = .live ∧ o.status ∈ openOrderStatuses

/-- The state `_apply` starts its loops from. -/
def startPass (s : Session) (userId : Uuid) : Pass where
  session := s
  byBroker := ((localOrders s.stored userId).filterMap fun o =>
    (orMissing o.brokerOrderId).map (·, o.id)).reverse
  byCorrelation := ((localOrders s.stored userId).map fun o => (o.clientOrderId, o.id)).reverse

/-- `DhanOrderReconciler._apply`. -/
def reconcileApply (now : Time) (s : Session) (userId : Uuid) (brokerOrders : List BrokerOrderItem)
    (trades : List TradeItem) : Session :=
  let p := brokerOrders.foldl Pass.attach (startPass s userId)
  let p := trades.foldl (Pass.importTrade now) p
  (brokerOrders.foldl (Pass.takeStatus now) p).session

/-- One pass over the account of a user: `_apply` and its commit, or a rollback. -/
def reconcile (now : Time) (s : Store) (userId : Uuid) (brokerOrders : List BrokerOrderItem)
    (trades : List TradeItem) : Store × Except Raised Unit :=
  (reconcileApply now s.begin userId brokerOrders trades).commitOr s (.ok ())

end GnkAlgo
