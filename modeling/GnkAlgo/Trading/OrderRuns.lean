import GnkAlgo.Trading.PassSteps

/-!
# Runs of the order manager and the reconciler

`orderStep` runs one call of `OrderManager` or one pass of the reconciler to
completion.  Whatever the broker answers and whatever its books list, every
call keeps the ledger balanced (`balanced_orderStep`).
-/

namespace GnkAlgo

open Transition

/-- A call of the order manager on an order, or a pass over a user's account. -/
inductive OrderEvent
  | place (now later : Time) (userId instrumentId : Uuid) (values : OrderValues)
      (quote : Option NormalizedQuote) (subscribed : Bool) (outcome : HttpOutcome)
  | cancel (now later : Time) (orderId : Uuid) (outcome : HttpOutcome)
  | modify (now : Time) (orderId : Uuid) (quantity : ℤ) (limitPrice : ℚ)
      (quote : Option NormalizedQuote) (outcome : HttpOutcome)
  | reconcile (now : Time) (userId : Uuid) (brokerOrders : List BrokerOrderItem)
      (trades : List TradeItem)

/-- One call or pass, run to completion. -/
def orderStep (settings : Settings) (s : Store) : OrderEvent → Store
  | .place now later userId instrumentId values quote subscribed outcome =>
    (place settings now later s userId instrumentId values quote subscribed outcome).1
  | .cancel now later orderId outcome =>
    match s.order? orderId with
    | none => s
    | some o => (cancel settings now later s o outcome).1
  | .modify now orderId quantity limitPrice quote outcome =>
    match s.order? orderId with
    | none => s
    | some o => (modify settings now s o quantity limitPrice quote outcome).1
  | .reconcile now userId brokerOrders trades => (reconcile now s userId brokerOrders trades).1

/-! ## What a rewrite leaves of an order -/

/-- The same order with the same quantity filled. -/
structure TradingOrder.SameBook (o new : TradingOrder) : Prop where
  id : new.id = o.id
  positionKey : new.positionKey = o.positionKey
  filledQuantity : new.filledQuantity = o.filledQuantity

theorem placeFinish_sameBook {now : Time} {o : TradingOrder} {result : AdapterResult} :
    o.SameBook ((placeFinish now o result).1.getD o) := by
  cases result <;> exact ⟨rfl, rfl, rfl⟩

theorem cancelFinish_sameBook {now : Time} {prior : OrderStatus} {o : TradingOrder}
    {result : AdapterResult} :
    o.SameBook ((cancelFinish now prior o.cancelRequested result).1.getD o.cancelRequested) := by
  cases result <;> exact ⟨rfl, rfl, rfl⟩

theorem modifyFinish_sameBook {o : TradingOrder} {quantity : ℤ} {limitPrice : ℚ}
    {result : AdapterResult} :
    o.SameBook ((modifyFinish o quantity limitPrice result).1.getD o) := by
  cases result <;> exact ⟨rfl, rfl, rfl⟩

theorem attached_sameBook {o : TradingOrder} {item : BrokerOrderItem} :
    o.SameBook (o.attached item) := by
  unfold TradingOrder.attached
  split <;> exact ⟨rfl, rfl, rfl⟩

theorem statusOf_sameBook {now : Time} {o : TradingOrder} {item : BrokerOrderItem} :
    o.SameBook (Pass.statusOf now o item) := by
  unfold Pass.statusOf
  dsimp only
  split <;> exact ⟨rfl, rfl, rfl⟩

namespace Database

variable {d d' : Database} {o new : TradingOrder}

/-- The ledger is a matter of orders, executions and positions. -/
theorem Balanced.congr (h : d.Balanced) (ho : d'.orders = d.orders)
    (he : d'.executions = d.executions) (hp : d'.positions = d.positions) : d'.Balanced := by
  obtain ⟨orders, executions, positions, controls, connections, nextUuid⟩ := d'
  obtain rfl : orders = d.orders := ho
  obtain rfl : executions = d.executions := he
  obtain rfl : positions = d.positions := hp
  exact ⟨h.filled, h.held⟩

theorem Balanced.rewrite (h : d.Balanced) (hids : (d.orders.map TradingOrder.id).Nodup)
    (ho : o ∈ d.orders) (hsame : o.SameBook new) : (d.setOrder new).Balanced :=
  h.setOrder fun y hy hid => by
    rw [List.inj_on_of_nodup_map hids hy ho (hid.trans hsame.id)]
    exact ⟨hsame.positionKey.symm, hsame.filledQuantity.symm⟩

theorem Balanced.insertOrder (h : d.Balanced) (hd : d.Valid) (hid : o.id = d.nextUuid)
    (hfilled : o.filledQuantity = 0) : (d.insertOrder o).Balanced := by
  refine (h.addOrder hd (o := o) ?_ hfilled).congr rfl rfl rfl
  intro hmem
  obtain ⟨y, hy, hyid⟩ := List.mem_map.1 hmem
  exact absurd (hd.orderUuids y hy) (by rw [hyid, hid]; exact lt_irrefl _)

end Database

theorem Store.SameTrading.balanced {s t : Store} (h : s.SameTrading t) (hb : s.Balanced) :
    t.Balanced :=
  hb.congr h.orders h.executions h.positions

theorem Session.balanced_fillPaper {s : Session} {o : TradingOrder} (hb : s.work.Balanced)
    (hids : (s.work.orders.map TradingOrder.id).Nodup) (ho : o ∈ s.work.orders) (ht : s.Tracked)
    (now : Time) (quantity : ℤ) (price : ℚ) : (s.fillPaper now o quantity price).work.Balanced :=
  Session.balanced_bookExecution (s := s.draw) hids ho ht (hb.congr rfl rfl rfl)

/-! ## Steps -/

theorem balanced_paperPlace {settings : Settings} {s : Store} (hb : s.Balanced) (now : Time)
    (userId instrumentId : Uuid) (values : OrderValues) (quote : Option NormalizedQuote) :
    (paperPlace settings now s userId instrumentId values quote).1.Balanced := by
  rcases paperPlace_cases settings now s userId instrumentId values quote with
    hs | ⟨price, t, -, -, hvalid, hsettled, hs⟩
  · rw [hs]; exact hb
  rw [hs]
  have hplaced := hb.insertOrder s.valid
    (o := paperOrder s.nextUuid userId instrumentId values now) rfl rfl
  have hmem : paperOrder s.nextUuid userId instrumentId values now ∈ (s.toDatabase.insertOrder
      (paperOrder s.nextUuid userId instrumentId values now)).orders :=
    List.mem_append_right _ (List.mem_singleton.2 rfl)
  cases hsettled with
  | rests => exact hplaced
  | canceled => exact hplaced.rewrite hvalid.orderIds hmem ⟨rfl, rfl, rfl⟩
  | filled price _ _ =>
    exact Session.balanced_fillPaper (s := ⟨_, _⟩) hplaced hvalid.orderIds hmem
      (Session.tracked_self _) now _ price

/-- **A quote keeps the ledger balanced.** -/
theorem balanced_processQuote {settings : Settings} {s : Store} (hb : s.Balanced) (now : Time)
    (userId : Uuid) (quote : NormalizedQuote) :
    (processQuote settings now s userId quote).1.Balanced := by
  rcases processQuote_cases settings now s userId quote with hs | ⟨fs, t, hrun, hs⟩
  · rw [hs]; exact hb
  rw [hs]
  refine (hrun.invariant (P := fun session => session.work.Balanced ∧ session.Tracked ∧
    (session.work.orders.map TradingOrder.id).Nodup)
    ⟨hb, Session.tracked_self _, s.valid.orderIds⟩ ?_).1
  rintro session o _ ⟨hbalanced, htracked, hids⟩ ⟨ho, -, now, quantity, price, -, -, rfl⟩
  refine ⟨Session.balanced_fillPaper hbalanced hids ho htracked now quantity price,
    Session.bookExecution_tracked (s := session.draw) htracked, ?_⟩
  rw [Session.fillPaper_orders, Rows.map_key_replaceBy]
  exact hids

theorem balanced_paperModify {settings : Settings} {s : Store} {o : TradingOrder}
    (hb : s.Balanced) (ho : o ∈ s.orders) (now : Time) (quantity : ℤ) (limitPrice : ℚ)
    (quote : Option NormalizedQuote) :
    (paperModify settings now s o quantity limitPrice quote).1.Balanced := by
  rcases paperModify_cases settings now s o quantity limitPrice quote with
    hs | ⟨t, -, -, -, hmodified, hs⟩
  · rw [hs]; exact hb
  rw [hs]
  have hrow : o.SameBook (o.modified quantity limitPrice) := ⟨rfl, rfl, rfl⟩
  have hwritten := hb.rewrite s.valid.orderIds ho hrow
  cases hmodified with
  | rests => exact hwritten
  | filled price _ =>
    refine Session.balanced_fillPaper
      (s := ⟨s.toDatabase, s.toDatabase.setOrder (o.modified quantity limitPrice)⟩) hwritten ?_
      (Rows.mem_replaceBy_self ho rfl) (fun _ h => h) now _ price
    rw [Database.map_id_setOrder]
    exact s.valid.orderIds

namespace Pass

/-- A sound pass with a balanced ledger in memory. -/
structure Balanced (stored : Database) (userId : Uuid) (p : Pass) : Prop
    extends p.Sound stored userId where
  balanced : p.session.work.Balanced
  tracked : p.session.Tracked

variable {stored : Database} {userId : Uuid} {p : Pass} {now : Time}

theorem Balanced.setOrder (h : p.Balanced stored userId) (hids : (stored.orders.map
    TradingOrder.id).Nodup) {o new : TradingOrder} (ho : p.order? o.id = some o)
    (hsame : o.SameBook new) : (p.setOrder new).Balanced stored userId :=
  { h.toSound.setOrder new with
    balanced := h.balanced.rewrite (h.ids ▸ hids) (Database.order?_mem ho).1 hsame
    tracked := h.tracked }

theorem Balanced.attach (h : p.Balanced stored userId) (hids : (stored.orders.map
    TradingOrder.id).Nodup) (item : BrokerOrderItem) : (p.attach item).Balanced stored userId := by
  have hsound := h.toSound.attach item
  rcases attach_cases p item with ⟨hp, -⟩ | ⟨o, ho, -, -, -, hp⟩
  · rw [hp]; exact h
  · rcases h.toSound.ofItem?_cases item with ⟨-, hnone⟩ | ⟨o', -, ho', hrow⟩
    · rw [hnone] at ho; cases ho
    · rw [ho'] at ho
      obtain rfl := Option.some_inj.1 ho
      have hset : (p.setOrder (o'.attached item)).Balanced stored userId :=
        h.setOrder hids hrow attached_sameBook
      exact { hsound with
        balanced := by rw [hp]; exact hset.balanced
        tracked := by rw [hp]; exact hset.tracked }

theorem Balanced.importTrade (h : p.Balanced stored userId) (hids : (stored.orders.map
    TradingOrder.id).Nodup) (item : TradeItem) :
    (p.importTrade now item).Balanced stored userId := by
  have hsound := h.toSound.importTrade now item
  rcases importTrade_cases now h.toSound item with
    ⟨-, hp⟩ | ⟨o, -, ho, ⟨-, hp⟩ | ⟨-, -, hp⟩ | ⟨-, -, hp⟩⟩
  · rw [hp]; exact h
  · rw [hp]; exact h
  · rw [hp]; exact h.setOrder hids ho ⟨rfl, rfl, rfl⟩
  · rw [hp] at hsound ⊢
    exact { hsound with
      balanced := Session.balanced_bookExecution (h.ids ▸ hids) (Database.order?_mem ho).1
        h.tracked h.balanced
      tracked := Session.bookExecution_tracked h.tracked }

theorem Balanced.takeStatus (h : p.Balanced stored userId) (hids : (stored.orders.map
    TradingOrder.id).Nodup) (item : BrokerOrderItem) :
    (p.takeStatus now item).Balanced stored userId := by
  rcases takeStatus_cases now h.toSound item with ⟨-, hp⟩ | ⟨o, -, ho, hp⟩
  · rw [hp]; exact h
  · rw [hp]; exact h.setOrder hids ho statusOf_sameBook

end Pass

/-- The rows a pass works on before its status loop, with their ledger. -/
theorem balanced_attachedPass {s : Store} (hb : s.Balanced) (userId : Uuid)
    (brokerOrders : List BrokerOrderItem) :
    (attachedPass s.begin userId brokerOrders).Balanced s.toDatabase userId :=
  List.foldlRecOn brokerOrders Pass.attach
    { Pass.sound_startPass s.begin userId rfl with
      balanced := hb
      tracked := Session.tracked_self _ }
    fun _ hp item _ => hp.attach s.valid.orderIds item

/-- **A pass keeps the ledger balanced.** -/
theorem balanced_reconcile {s : Store} (hb : s.Balanced) (now : Time) (userId : Uuid)
    (brokerOrders : List BrokerOrderItem) (trades : List TradeItem) :
    (reconcile now s userId brokerOrders trades).1.Balanced := by
  have htrades := List.foldlRecOn (motive := fun p => Pass.Balanced s.toDatabase userId p) trades
    (Pass.importTrade now) (balanced_attachedPass hb userId brokerOrders)
    fun _ hp item _ => hp.importTrade s.valid.orderIds item
  have hstatus := List.foldlRecOn (motive := fun p => Pass.Balanced s.toDatabase userId p)
    brokerOrders (Pass.takeStatus now) htrades
    fun _ hp item _ => hp.takeStatus s.valid.orderIds item
  rcases Session.commitOr_fst (reconcileApply now s.begin userId brokerOrders trades) s (.ok ())
    with hs | ⟨hs, -⟩
  · unfold reconcile; rw [hs]; exact hb
  · unfold reconcile; rw [← hs]; exact hstatus.balanced

/-- **Every call keeps the ledger balanced.** -/
theorem balanced_orderStep {settings : Settings} {s : Store} (hb : s.Balanced) (e : OrderEvent) :
    (orderStep settings s e).Balanced := by
  cases e with
  | place now later userId instrumentId values quote subscribed outcome =>
    rw [orderStep]
    rcases place_cases settings now later s userId instrumentId values quote subscribed outcome
      with ⟨-, h⟩ | ⟨-, hsame⟩ | ⟨-, connectionId, h⟩
    · rw [h]; exact balanced_paperPlace hb now userId instrumentId values quote
    · exact hsame.balanced hb
    · rw [h]
      exact hb.insertOrder s.valid placeFinish_id placeFinish_sameBook.filledQuantity
  | cancel now later orderId outcome =>
    rw [orderStep]
    cases ho : s.order? orderId with
    | none => exact hb
    | some o =>
      have hmem := (Database.order?_mem ho).1
      dsimp only
      rcases cancel_cases settings now later hmem outcome with ⟨-, h⟩ | ⟨-, hsame⟩ | ⟨-, h⟩
      · rw [h]
        rcases paperCancel_cases now s o with hs | ⟨-, hs⟩
        · rw [hs]; exact hb
        · rw [hs]; exact hb.rewrite s.valid.orderIds hmem ⟨rfl, rfl, rfl⟩
      · exact hsame.balanced hb
      · rw [h]; exact hb.rewrite s.valid.orderIds hmem cancelFinish_sameBook
  | modify now orderId quantity limitPrice quote outcome =>
    rw [orderStep]
    cases ho : s.order? orderId with
    | none => exact hb
    | some o =>
      have hmem := (Database.order?_mem ho).1
      dsimp only
      rcases modify_cases settings now hmem quantity limitPrice quote outcome with
        ⟨-, h⟩ | ⟨-, -, -, hsame⟩ | ⟨-, -, -, h⟩
      · rw [h]; exact balanced_paperModify hb hmem now quantity limitPrice quote
      · exact hsame.balanced hb
      · rw [h]; exact hb.rewrite s.valid.orderIds hmem modifyFinish_sameBook
  | reconcile now userId brokerOrders trades =>
    exact balanced_reconcile hb now userId brokerOrders trades

/-! ## An account -/

/-- Live mode, confirmed. -/
def liveSettings : Settings where
  __ := (default : Settings)
  tradingMode := .live
  tradingLiveConfirmation := "ENABLE_DHAN_LIVE_ORDERS"
  dhanStaticIpConfirmed := true

/-- A store with one connected account and no orders. -/
def connectedStore : Store where
  connections := [
    { id := 5, userId := 7, broker := .dhan, brokerClientId := some "c",
      credentials := ⟨some "c", some "t"⟩, status := .connected, tokenExpiresAt := none }]
  nextUuid := 10
  valid := by decide

/-- A market order for 10, accepted under the id `Da`. -/
def acceptedOrder : OrderEvent :=
  .place 0 1 7 3 marketValues (some quoteAtHundred) true
    (.response 200 (.object { orderId := some "Da", orderStatus := some "PENDING" }))

end GnkAlgo
