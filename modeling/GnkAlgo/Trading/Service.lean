import GnkAlgo.Trading.Engine
import GnkAlgo.Trading.Dhan

/-!
# The order manager

`backend/app/trading/service.py`.  A call of `OrderManager` runs up to its
`await` of the broker, and from the answer to its end; between the two other
sessions commit.  `placeBegin`, `cancelBegin` and `modifyBegin` are the code
before the `await`, `placeFinish`, `cancelFinish` and `modifyFinish` the code
after it, and `place`, `cancel` and `modify` the two in sequence.

A session writes back the attributes it changed and no others
(`TradingOrder.writeBack`), so a commit after the `await` can meet a row that is
not the one that was read before it.
-/

namespace GnkAlgo

/-! ## Writing back -/

/-- The column of `row` after a session that read `base` and holds `new` commits. -/
def writeColumn {β : Type*} [DecidableEq β] (base new row : β) : β :=
  if new = base then row else new

@[simp] theorem writeColumn_self {β : Type*} [DecidableEq β] (base new : β) :
    writeColumn base new base = new := by
  unfold writeColumn
  split
  · rename_i h; exact h.symm
  · rfl

@[simp] theorem writeColumn_unchanged {β : Type*} [DecidableEq β] (base row : β) :
    writeColumn base base row = row := if_pos rfl

/-- The row after a session that read `base` and holds `new` commits. -/
def TradingOrder.writeBack (base new row : TradingOrder) : TradingOrder :=
  { row with
    brokerOrderId := writeColumn base.brokerOrderId new.brokerOrderId row.brokerOrderId
    quantity := writeColumn base.quantity new.quantity row.quantity
    filledQuantity := writeColumn base.filledQuantity new.filledQuantity row.filledQuantity
    limitPrice := writeColumn base.limitPrice new.limitPrice row.limitPrice
    averageFillPrice :=
      writeColumn base.averageFillPrice new.averageFillPrice row.averageFillPrice
    status := writeColumn base.status new.status row.status
    rejectionReason := writeColumn base.rejectionReason new.rejectionReason row.rejectionReason
    version := writeColumn base.version new.version row.version
    completedAt := writeColumn base.completedAt new.completedAt row.completedAt }

/-- Commit the attributes of an order that changed since `base`. -/
def Database.writeOrder (d : Database) (base new : TradingOrder) : Database :=
  match d.order? base.id with
  | none => d
  | some row => d.setOrder (base.writeBack new row)

theorem Database.Valid.writeOrder {d : Database} (hd : d.Valid) (base new : TradingOrder) :
    (d.writeOrder base new).Valid := by
  unfold Database.writeOrder
  split
  · exact hd
  · rename_i row hrow
    exact hd.setOrder (Database.order?_mem hrow).1 rfl rfl

namespace Store

/-- Commit the attributes of an order that changed since `base`. -/
def writeOrder (s : Store) (base new : TradingOrder) : Store where
  toDatabase := s.toDatabase.writeOrder base new
  valid := s.valid.writeOrder base new

/-- Commit a broker connection. -/
def setConnection (s : Store) (c : BrokerConnection) : Store where
  toDatabase := { s.toDatabase with
    connections := Rows.replaceBy BrokerConnection.id c s.connections }
  valid := ⟨s.valid.orderIds, s.valid.clientKeys, s.valid.positionKeys, s.valid.brokerKeys,
    s.valid.executionOrders, s.valid.orderUuids, s.valid.paperUuids⟩

end Store

/-! ## Gates -/

/-- `_live_gate`. -/
def liveGate (settings : Settings) : Except TradingError Unit :=
  if settings.tradingMode ≠ .live then .error ⟨"LIVE_TRADING_DISABLED", 403⟩
  else if settings.tradingLiveConfirmation ≠ "ENABLE_DHAN_LIVE_ORDERS" then
    .error ⟨"LIVE_TRADING_NOT_CONFIRMED", 403⟩
  else if ¬ settings.dhanStaticIpConfirmed then .error ⟨"DHAN_STATIC_IP_NOT_CONFIRMED", 403⟩
  else .ok ()

/-- `_connection`: the user's connection, its credentials and the client id.  An
expired token is recorded at once. -/
def liveConnection (now : Time) (s : Store) (userId : Uuid) :
    Store × Except TradingError (BrokerConnection × Credentials × String) :=
  match s.connections.find? fun c =>
    c.userId = userId ∧ c.broker = .dhan ∧ c.status = .connected with
  | none => (s, .error ⟨"DHAN_CONNECTION_REQUIRED", 422⟩)
  | some c =>
    if ∃ expiresAt ∈ c.tokenExpiresAt, expiresAt ≤ now then
      (s.setConnection { c with status := .reauthRequired, errorCode := some "TOKEN_EXPIRED" },
        .error ⟨"DHAN_REAUTH_REQUIRED", 422⟩)
    else
      let clientId := (orMissing c.credentials.clientId).or (orMissing c.brokerClientId)
      match orMissing c.credentials.accessToken, clientId with
      | some _, some clientId => (s, .ok (c, c.credentials, clientId))
      | _, _ => (s, .error ⟨"DHAN_CREDENTIALS_INCOMPLETE", 422⟩)

/-! ## Calls and their await -/

/-- Where a call stands when it reaches its `await` or ends before: it has
returned or raised, or it waits for the broker on the order it holds. -/
inductive Phase
  | done (result : Except Raised TradingOrder)
  | awaiting (order : TradingOrder)

/-- What a call leaves at its end: the order to commit, if any, and what it
returns or raises. -/
abbrev Outcome := Option TradingOrder × Except Raised TradingOrder

/-- Commit the outcome of a call that read `base`. -/
def Store.finish (s : Store) (base : TradingOrder) (outcome : Outcome) :
    Store × Except Raised TradingOrder :=
  match outcome.1 with
  | none => (s, outcome.2)
  | some new => (s.writeOrder base new, outcome.2)

/-! ## Placing -/

/-- The checks of a live placement on the order. -/
def liveChecks (settings : Settings) (now : Time) (d : Database) (userId instrumentId : Uuid)
    (values : OrderValues) (quote : Option NormalizedQuote) : Except TradingError Unit := do
  if values.orderType = .limit ∧ values.limitPrice = none then
    throw ⟨"LIMIT_PRICE_REQUIRED", 422⟩
  let q ← quoteCheck settings now quote
  riskCheck settings d userId instrumentId values.side values.productType values.quantity q.ltp
    .live

/-- Checks that pass went through the risk gate at the price of the quote. -/
theorem liveChecks_ok {settings : Settings} {now : Time} {d : Database}
    {userId instrumentId : Uuid} {values : OrderValues} {quote : Option NormalizedQuote}
    (h : liveChecks settings now d userId instrumentId values quote = .ok ()) :
    ∃ q, quote = some q ∧ riskCheck settings d userId instrumentId values.side values.productType
      values.quantity q.ltp .live = .ok () := by
  simp only [liveChecks, bind, Except.bind] at h
  split at h
  · cases h
  · cases hq : quoteCheck settings now quote with
    | error e => rw [hq] at h; cases h
    | ok q =>
      rw [hq] at h
      exact ⟨q, quoteCheck_ok hq, h⟩

/-- The order row of a live placement. -/
def liveOrder (id userId instrumentId brokerConnectionId : Uuid) (values : OrderValues)
    (now : Time) : TradingOrder where
  id := id
  userId := userId
  instrumentId := instrumentId
  brokerConnectionId := some brokerConnectionId
  clientOrderId := values.clientOrderId
  mode := .live
  side := values.side
  orderType := values.orderType
  productType := values.productType
  validity := values.validity
  quantity := values.quantity
  limitPrice := values.limitPrice
  triggerPrice := values.triggerPrice
  status := .pending
  submittedAt := some now

/-- `OrderManager.place` up to the request: the PENDING order is committed first. -/
def placeBegin (settings : Settings) (now : Time) (s : Store) (userId instrumentId : Uuid)
    (values : OrderValues) (quote : Option NormalizedQuote) : Store × Phase :=
  match settings.tradingMode with
  | .disabled => (s, .done (.error (.trading ⟨"TRADING_DISABLED", 403⟩)))
  | .paper =>
    let (s, result) := paperPlace settings now s userId instrumentId values quote
    (s, .done result)
  | .live =>
    match liveGate settings with
    | .error e => (s, .done (.error (.trading e)))
    | .ok () =>
      match orderOfClient? s.toDatabase userId values.clientOrderId with
      | some existing => (s, .done (replay existing instrumentId values))
      | none =>
        match liveChecks settings now s.toDatabase userId instrumentId values quote with
        | .error e => (s, .done (.error (.trading e)))
        | .ok () =>
          match liveConnection now s userId with
          | (s, .error e) => (s, .done (.error (.trading e)))
          | (s, .ok (connection, _, _)) =>
            let o := liveOrder s.nextUuid userId instrumentId connection.id values now
            match Session.commit ⟨s.toDatabase, s.toDatabase.insertOrder o⟩ with
            | .error e => (s, .done (.error e))
            | .ok s => (s, .awaiting o)

/-- `OrderManager.place` from the broker's answer on. -/
def placeFinish (now : Time) (o : TradingOrder) : AdapterResult → Outcome
  | .ok response =>
    let status := mapDhanStatus response.orderStatus
    let o := { o with
      brokerOrderId := orMissing response.orderId
      status := status
      completedAt := if status ∈ [.rejected, .canceled, .expired] then some now
        else o.completedAt }
    (some o, .ok o)
  | .error e =>
    (some { o with
      status := if e.ambiguous then .unknown else .rejected
      rejectionReason := some e.code
      completedAt := if e.ambiguous then o.completedAt else some now },
    .error (.trading ⟨e.code, 502⟩))
  | .escaped => (none, .error .escaped)

/-- `OrderManager.place`. -/
def place (settings : Settings) (now later : Time) (s : Store) (userId instrumentId : Uuid)
    (values : OrderValues) (quote : Option NormalizedQuote) (subscribed : Bool)
    (outcome : HttpOutcome) : Store × Except Raised TradingOrder :=
  match placeBegin settings now s userId instrumentId values quote with
  | (s, .done result) => (s, result)
  | (s, .awaiting o) => s.finish o (placeFinish later o (dhanPlace subscribed outcome))

/-! ## Canceling -/

/-- `OrderManager.cancel` up to the request: CANCEL_PENDING is committed first. -/
def cancelBegin (settings : Settings) (now : Time) (s : Store) (o : TradingOrder) :
    Store × Phase :=
  if o.status ∉ openOrderStatuses then
    (s, .done (.error (.trading ⟨"ORDER_NOT_CANCELABLE", 409⟩)))
  else if o.mode = .paper then
    let (s, result) := paperCancel now s o
    (s, .done result)
  else
    match liveGate settings with
    | .error e => (s, .done (.error (.trading e)))
    | .ok () =>
      match liveConnection now s o.userId with
      | (s, .error e) => (s, .done (.error (.trading e)))
      | (s, .ok _) =>
        let o' := { o with status := .cancelPending, version := o.version + 1 }
        (s.writeOrder o o', .awaiting o')

/-- `OrderManager.cancel` from the broker's answer on; `prior` is the status the
order had before the request. -/
def cancelFinish (now : Time) (prior : OrderStatus) (o : TradingOrder) : AdapterResult → Outcome
  | .ok response =>
    let status := mapDhanStatus ((orMissing response.orderStatus).or (some "CANCELLED"))
    let o := { o with
      status := status
      completedAt := if status = .canceled then some now else o.completedAt }
    (some o, .ok o)
  | .error e =>
    (some { o with
      status := if e.ambiguous then .unknown else prior
      rejectionReason := some e.code },
    .error (.trading ⟨e.code, 502⟩))
  | .escaped => (none, .error .escaped)

/-- `OrderManager.cancel`. -/
def cancel (settings : Settings) (now later : Time) (s : Store) (o : TradingOrder)
    (outcome : HttpOutcome) : Store × Except Raised TradingOrder :=
  match cancelBegin settings now s o with
  | (s, .done result) => (s, result)
  | (s, .awaiting o') => s.finish o' (cancelFinish later o.status o' (dhanCancel o' outcome))

/-! ## Modifying -/

/-- `OrderManager.modify` up to the request.  Nothing is committed before it:
the order it waits on is the one it was called with. -/
def modifyBegin (settings : Settings) (now : Time) (s : Store) (o : TradingOrder) (quantity : ℤ)
    (limitPrice : ℚ) (quote : Option NormalizedQuote) : Store × Phase :=
  if o.mode = .paper then
    let (s, result) := paperModify settings now s o quantity limitPrice quote
    (s, .done result)
  else
    match liveGate settings with
    | .error e => (s, .done (.error (.trading e)))
    | .ok () =>
      if o.status ∉ openOrderStatuses ∨ o.orderType ≠ .limit then
        (s, .done (.error (.trading ⟨"ORDER_NOT_MODIFIABLE", 409⟩)))
      else if quantity < max 1 o.filledQuantity then
        (s, .done (.error (.trading ⟨"QUANTITY_BELOW_FILLED", 422⟩)))
      else
        match liveConnection now s o.userId with
        | (s, .error e) => (s, .done (.error (.trading e)))
        | (s, .ok _) => (s, .awaiting o)

/-- `OrderManager.modify` from the broker's answer on; where the broker refuses,
quantity and limit price are put back. -/
def modifyFinish (o : TradingOrder) (quantity : ℤ) (limitPrice : ℚ) : AdapterResult → Outcome
  | .ok response =>
    let o := { o with
      quantity := quantity
      limitPrice := some limitPrice
      status := mapDhanStatus response.orderStatus
      version := o.version + 1 }
    (some o, .ok o)
  | .error e =>
    (some { o with
      status := if e.ambiguous then .unknown else o.status
      rejectionReason := some e.code },
    .error (.trading ⟨e.code, 502⟩))
  | .escaped => (none, .error .escaped)

/-- `OrderManager.modify`. -/
def modify (settings : Settings) (now : Time) (s : Store) (o : TradingOrder) (quantity : ℤ)
    (limitPrice : ℚ) (quote : Option NormalizedQuote) (outcome : HttpOutcome) :
    Store × Except Raised TradingOrder :=
  match modifyBegin settings now s o quantity limitPrice quote with
  | (s, .done result) => (s, result)
  | (s, .awaiting o) => s.finish o (modifyFinish o quantity limitPrice (dhanModify o outcome))

end GnkAlgo
