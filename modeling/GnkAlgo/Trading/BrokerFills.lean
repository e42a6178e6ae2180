import GnkAlgo.Trading.PassBatch

/-!
# The fills of the broker

What the broker really did, and what the platform has recorded of it.

* `Broker` — the ids the broker gives to orders and the trades it made;
* `Faithful` — answers and books that report what it did, however late;
* `Broker.Known` — what the rows then say of orders and executions is true;
* `fills_recorded_iff` — a committed pass records the trades that its trade book
  lists exactly when no order has been closed before its trades were seen.
-/

namespace GnkAlgo

open Transition

/-- What the broker did on the accounts: the id it gives to the order that a
user placed under a client id, and the trades it made for a user. -/
structure Broker where
  orderId : Uuid → String → String
  trades : Uuid → List TradeItem
  orderId_ne : ∀ userId clientOrderId, orderId userId clientOrderId ≠ ""
  orderId_inj : ∀ userId c c', orderId userId c = orderId userId c' → c = c'
  tradeIds : ∀ userId, ((trades userId).map TradeItem.exchangeTradeId).Nodup
  tradeId_ne : ∀ userId, ∀ item ∈ trades userId, item.exchangeTradeId ≠ ""
  quantity_pos : ∀ userId, ∀ item ∈ trades userId, 0 < item.tradedQuantity

/-- A trade id is that of one trade. -/
theorem Broker.trade_eq (broker : Broker) {userId : Uuid} {item item' : TradeItem}
    (h : item ∈ broker.trades userId) (h' : item' ∈ broker.trades userId)
    (hid : item.exchangeTradeId = item'.exchangeTradeId) : item = item' :=
  List.inj_on_of_nodup_map (broker.tradeIds userId) h h' hid

/-- The answers and books of a call report what the broker did.  The trade book
may miss any trades; those it lists and those recorded before do not exceed the
quantity of their order.  The statuses are any. -/
def Faithful (broker : Broker) (s : Store) : OrderEvent → Prop
  | .place _ _ userId _ values _ subscribed outcome =>
    ∀ response, dhanPlace subscribed outcome = .ok response →
      ∀ id ∈ orMissing response.orderId, id = broker.orderId userId values.clientOrderId
  | .reconcile _ userId brokerOrders trades =>
    trades.Sublist (broker.trades userId) ∧
    (∀ item ∈ brokerOrders, item.orderId ≠ "" → ∀ o ∈ localOrders s.toDatabase userId,
      o.clientOrderId = item.correlationId →
        item.orderId = broker.orderId userId item.correlationId) ∧
    ∀ o ∈ s.orders, o.mode = .live → o.userId = userId →
      o.filledQuantity + Rows.total (fun item =>
        item.orderId = broker.orderId userId o.clientOrderId ∧
          s.execution? userId (.exchange item.exchangeTradeId) = none)
        TradeItem.tradedQuantity trades ≤ o.quantity
  | _ => True

/-- The quantity that a trade book has of an order and that is not recorded. -/
def Broker.unrecorded (broker : Broker) (d : Database) (userId : Uuid) (clientOrderId : String)
    (trades : List TradeItem) : ℤ :=
  Rows.total (fun item => item.orderId = broker.orderId userId clientOrderId ∧
    d.execution? userId (.exchange item.exchangeTradeId) = none) TradeItem.tradedQuantity trades

/-- The books of a pass list trades of the broker, and name orders by its ids. -/
structure TrueBooks (broker : Broker) (s : Store) (userId : Uuid)
    (brokerOrders : List BrokerOrderItem) (trades : List TradeItem) : Prop where
  listed : trades.Sublist (broker.trades userId)
  named : ∀ item ∈ brokerOrders, item.orderId ≠ "" → ∀ o ∈ localOrders s.toDatabase userId,
    o.clientOrderId = item.correlationId →
      item.orderId = broker.orderId userId item.correlationId

theorem Faithful.trueBooks {broker : Broker} {s : Store} {now : Time} {userId : Uuid}
    {brokerOrders : List BrokerOrderItem} {trades : List TradeItem}
    (hf : Faithful broker s (.reconcile now userId brokerOrders trades)) :
    TrueBooks broker s userId brokerOrders trades :=
  ⟨hf.1, hf.2.1⟩

/-! ## What the rows say of the broker -/

/-- The same order to the broker. -/
structure TradingOrder.SameAtBroker (o new : TradingOrder) : Prop where
  id : new.id = o.id
  userId : new.userId = o.userId
  clientOrderId : new.clientOrderId = o.clientOrderId
  mode : new.mode = o.mode
  side : new.side = o.side
  brokerOrderId : orMissing o.brokerOrderId ≠ none → new.brokerOrderId = o.brokerOrderId

theorem TradingOrder.SameAtBroker.refl (o : TradingOrder) : o.SameAtBroker o :=
  ⟨rfl, rfl, rfl, rfl, rfl, fun _ => rfl⟩

/-- The execution is the trade of the order. -/
structure TradingOrder.Traded (o : TradingOrder) (item : TradeItem) (e : TradeExecution) :
    Prop where
  orderId : e.orderId = o.id
  brokerKey : e.brokerKey = some (o.userId, .exchange item.exchangeTradeId)
  side : e.side = o.side
  quantity : e.quantity = item.tradedQuantity

namespace Broker

/-- What the rows say of broker ids and of imported executions is what the
broker did. -/
structure Known (broker : Broker) (d : Database) : Prop where
  orderIds : ∀ o ∈ d.orders, o.mode = .live → ∀ id ∈ o.brokerOrderId,
    id = broker.orderId o.userId o.clientOrderId
  executions : ∀ e ∈ d.executions, ∀ userId tradeId,
    e.brokerKey = some (userId, .exchange tradeId) →
    ∃ o ∈ d.orders, ∃ item ∈ broker.trades userId, item.exchangeTradeId = tradeId ∧
      o.mode = .live ∧ o.userId = userId ∧ o.brokerOrderId = some item.orderId ∧ o.Traded item e

variable {broker : Broker} {d : Database} {o new : TradingOrder}

theorem Known.congr {d' : Database} (h : broker.Known d) (ho : d'.orders = d.orders)
    (he : d'.executions = d.executions) : broker.Known d' :=
  ⟨by rw [ho]; exact h.orderIds, by rw [ho, he]; exact h.executions⟩

/-- A broker id in a row is never empty. -/
theorem Known.orMissing_eq (h : broker.Known d) (ho : o ∈ d.orders) (hmode : o.mode = .live)
    {id : String} (hid : o.brokerOrderId = some id) : orMissing o.brokerOrderId = some id := by
  have := h.orderIds o ho hmode id hid
  rw [hid, orMissing, Option.filter_some, if_pos]
  rw [decide_eq_true_eq, this]
  exact broker.orderId_ne _ _

/-- LIVE orders of one user with one broker id are one. -/
theorem Known.eq_of_brokerOrderId (h : broker.Known d)
    (hkeys : (d.orders.map TradingOrder.clientKey).Nodup) {o' : TradingOrder}
    (ho : o ∈ d.orders) (ho' : o' ∈ d.orders) (hmode : o.mode = .live) (hmode' : o'.mode = .live)
    (huser : o.userId = o'.userId) {id : String} (hid : o.brokerOrderId = some id)
    (hid' : o'.brokerOrderId = some id) : o = o' := by
  have hclient : o.clientOrderId = o'.clientOrderId := by
    refine broker.orderId_inj o.userId _ _ ?_
    rw [← h.orderIds o ho hmode id hid, h.orderIds o' ho' hmode' id hid', huser]
  exact List.inj_on_of_nodup_map hkeys ho ho' (by
    rw [TradingOrder.clientKey, TradingOrder.clientKey, huser, hclient])

/-- Rewriting an order. -/
theorem Known.setOrder (h : broker.Known d) (hids : (d.orders.map TradingOrder.id).Nodup)
    (ho : o ∈ d.orders) (hsame : o.SameAtBroker new)
    (hid : new.mode = .live → ∀ id ∈ new.brokerOrderId,
      id = broker.orderId new.userId new.clientOrderId) : broker.Known (d.setOrder new) := by
  refine ⟨fun y hy hmode => ?_, fun e he userId tradeId hkey => ?_⟩
  · rcases Rows.mem_replaceBy hy with rfl | ⟨hy, -⟩
    · exact hid hmode
    · exact h.orderIds y hy hmode
  · obtain ⟨y, hy, item, hitem, htrade, hmode, huser, hbroker, htraded⟩ :=
      h.executions e he userId tradeId hkey
    by_cases hyid : y.id = o.id
    · obtain rfl := List.inj_on_of_nodup_map hids hy ho hyid
      have hkeep := hsame.brokerOrderId (by rw [h.orMissing_eq hy hmode hbroker]; simp)
      exact ⟨new, Rows.mem_replaceBy_self hy hsame.id.symm, item, hitem, htrade,
        hsame.mode.trans hmode, hsame.userId.trans huser, hkeep.trans hbroker,
        htraded.orderId.trans hsame.id.symm, by rw [htraded.brokerKey, hsame.userId],
        htraded.side.trans hsame.side.symm, htraded.quantity⟩
    · exact ⟨y, Rows.mem_replaceBy_of_ne hy (by rwa [hsame.id]), item, hitem, htrade, hmode,
        huser, hbroker, htraded⟩

/-- Rewriting an order outside its broker id. -/
theorem Known.rewrite (h : broker.Known d) (hids : (d.orders.map TradingOrder.id).Nodup)
    (ho : o ∈ d.orders) (hsame : o.SameAtBroker new)
    (hid : new.brokerOrderId = o.brokerOrderId) : broker.Known (d.setOrder new) := by
  refine h.setOrder hids ho hsame fun hmode id hmem => ?_
  rw [hid] at hmem
  rw [hsame.userId, hsame.clientOrderId]
  exact h.orderIds o ho (hsame.mode ▸ hmode) id hmem

theorem Known.insertOrder (h : broker.Known d) (hid : new.mode = .live → ∀ id ∈ new.brokerOrderId,
    id = broker.orderId new.userId new.clientOrderId) : broker.Known (d.insertOrder new) := by
  refine ⟨fun y hy hmode => ?_, fun e he userId tradeId hkey => ?_⟩
  · rcases List.mem_append.1 hy with hy | hy
    · exact h.orderIds y hy hmode
    · obtain rfl := List.mem_singleton.1 hy
      exact hid hmode
  · obtain ⟨y, hy, hrest⟩ := h.executions e he userId tradeId hkey
    exact ⟨y, List.mem_append_left _ hy, hrest⟩

/-- Adding an execution: one of the paper engine, or a trade of the order. -/
theorem Known.addExecution (h : broker.Known d) {e : TradeExecution}
    (he : ∀ userId tradeId, e.brokerKey = some (userId, .exchange tradeId) →
      ∃ o ∈ d.orders, ∃ item ∈ broker.trades userId, item.exchangeTradeId = tradeId ∧
        o.mode = .live ∧ o.userId = userId ∧ o.brokerOrderId = some item.orderId ∧
        o.Traded item e) : broker.Known (d.addExecution e) := by
  refine ⟨h.orderIds, fun e' he' userId tradeId hkey => ?_⟩
  rcases List.mem_append.1 he' with he' | he'
  · exact h.executions e' he' userId tradeId hkey
  · obtain rfl := List.mem_singleton.1 he'
    exact he userId tradeId hkey

end Broker

theorem fill_sameAtBroker (o : TradingOrder) (quantity : ℤ) (price : ℚ) (at' : Time) :
    o.SameAtBroker (o.fill quantity price at') := ⟨rfl, rfl, rfl, rfl, rfl, fun _ => rfl⟩

section Booking

variable {broker : Broker} {s : Session} {o : TradingOrder}

/-- Booking keeps what is known of the broker, if what is booked is known. -/
theorem Broker.Known.bookExecution (h : broker.Known s.work)
    (hids : (s.work.orders.map TradingOrder.id).Nodup) (ho : o ∈ s.work.orders) {quantity : ℤ}
    {price : ℚ} {source : ExecutionSource} {id : Option BrokerExecutionId} {at' : Time}
    (hid : ∀ tradeId, id = some (.exchange tradeId) → ∃ item ∈ broker.trades o.userId,
      item.exchangeTradeId = tradeId ∧ o.mode = .live ∧ o.brokerOrderId = some item.orderId ∧
      quantity = item.tradedQuantity) :
    broker.Known (s.bookExecution o quantity price source id at').work := by
  have hadd : broker.Known (s.work.addExecution (o.execution quantity price source id at')) := by
    refine h.addExecution fun userId tradeId hkey => ?_
    obtain ⟨i, hi, hpair⟩ := Option.map_eq_some_iff.1 hkey
    obtain ⟨huser, rfl⟩ := Prod.mk.inj hpair
    obtain ⟨item, hitem, htrade, hmode, hbroker, hquantity⟩ := hid tradeId hi
    have huser : o.userId = userId := huser
    subst huser
    exact ⟨o, ho, item, hitem, htrade, hmode, rfl, hbroker, rfl, by rw [hkey, htrade], rfl,
      hquantity⟩
  have hset := hadd.rewrite (o := o) hids ho (fill_sameAtBroker o quantity price at') rfl
  exact hset.congr Session.bookExecution_orders Session.bookExecution_executions

/-- A paper fill keeps what is known of the broker. -/
theorem Broker.Known.fillPaper (h : broker.Known s.work)
    (hids : (s.work.orders.map TradingOrder.id).Nodup) (ho : o ∈ s.work.orders) (now : Time)
    (quantity : ℤ) (price : ℚ) : broker.Known (s.fillPaper now o quantity price).work :=
  Broker.Known.bookExecution (s := s.draw) (h.congr rfl rfl) hids ho
    fun tradeId htrade => by cases Option.some_inj.1 htrade

end Booking

/-! ## A pass over faithful books -/

theorem TradingOrder.SameAtBroker.trans {o mid new : TradingOrder} (h : o.SameAtBroker mid)
    (h' : mid.SameAtBroker new) : o.SameAtBroker new :=
  ⟨h'.id.trans h.id, h'.userId.trans h.userId, h'.clientOrderId.trans h.clientOrderId,
    h'.mode.trans h.mode, h'.side.trans h.side, fun hmissing => by
      have hmid := h.brokerOrderId hmissing
      rw [← hmid, h'.brokerOrderId (by rwa [hmid])]⟩

theorem statusOf_sameAtBroker (now : Time) (o : TradingOrder) (item : BrokerOrderItem) :
    o.SameAtBroker (Pass.statusOf now o item) ∧
      (Pass.statusOf now o item).brokerOrderId = o.brokerOrderId := by
  unfold Pass.statusOf
  dsimp only
  split <;> exact ⟨⟨rfl, rfl, rfl, rfl, rfl, fun _ => rfl⟩, rfl⟩

namespace Pass

/-- What every state of a pass over faithful books keeps: its rows are true to
the broker, and the dictionaries name the loaded orders by their broker ids and
by their client ids. -/
structure AtBroker (broker : Broker) (stored : Database) (userId : Uuid) (p : Pass) : Prop
    extends p.Sound stored userId where
  known : broker.Known p.session.work
  byBrokerId : ∀ id orderId, (id, orderId) ∈ p.byBroker →
    ∀ row, p.order? orderId = some row → row.brokerOrderId = some id
  byClientId : ∀ id orderId, (id, orderId) ∈ p.byCorrelation →
    ∀ row, p.order? orderId = some row → row.clientOrderId = id
  loaded : ∀ o ∈ localOrders stored userId, ∀ row, p.order? o.id = some row →
    o.SameAtBroker row ∧ ∀ id, orMissing row.brokerOrderId = some id → (id, o.id) ∈ p.byBroker
  others : ∀ o ∈ stored.orders, o ∉ localOrders stored userId → p.order? o.id = some o

variable {broker : Broker} {stored : Database} {userId : Uuid} {p : Pass} {now : Time}

theorem atBroker_startPass {s : Store} (h : broker.Known s.toDatabase) :
    (startPass s.begin userId).AtBroker broker s.toDatabase userId := by
  have hrow : ∀ o ∈ localOrders s.toDatabase userId, ∀ row, (startPass s.begin userId).order? o.id =
      some row → row = o := by
    intro o ho row hrow
    have := s.valid.order?_eq (mem_localOrders.1 ho).1
    exact Option.some_inj.1 (hrow.symm.trans this)
  refine { sound_startPass s.begin userId rfl with
    known := h, byBrokerId := ?_, byClientId := ?_, loaded := ?_, others := ?_ }
  · intro id orderId hentry row horder
    obtain ⟨o, ho, hmap⟩ := List.mem_filterMap.1 (List.mem_reverse.1 hentry)
    obtain ⟨b, hb, heq⟩ := Option.map_eq_some_iff.1 hmap
    obtain ⟨rfl, rfl⟩ := Prod.mk.inj heq
    rw [hrow o ho row horder]
    exact (Option.filter_eq_some_iff.1 hb).1
  · intro id orderId hentry row horder
    obtain ⟨o, ho, heq⟩ := List.mem_map.1 (List.mem_reverse.1 hentry)
    obtain ⟨rfl, rfl⟩ := Prod.mk.inj heq
    rw [hrow o ho row horder]
  · intro o ho row horder
    obtain rfl := hrow o ho row horder
    refine ⟨.refl row, fun id hid => ?_⟩
    exact List.mem_reverse.2 (List.mem_filterMap.2 ⟨row, ho, by
      change (orMissing row.brokerOrderId).map (·, row.id) = _
      rw [hid]; rfl⟩)
  · exact fun o ho _ => s.valid.order?_eq ho

/-- Rewriting the row of a loaded order outside its broker id. -/
theorem AtBroker.rewrite (h : p.AtBroker broker stored userId)
    (hids : (stored.orders.map TradingOrder.id).Nodup) {row new : TradingOrder}
    (hrow : p.order? row.id = some row) (hlocal : ∃ o ∈ localOrders stored userId, o.id = row.id)
    (hsame : row.SameAtBroker new) (hid : new.brokerOrderId = row.brokerOrderId) {q : Pass}
    (hq : q.Sound stored userId) (hknown : broker.Known q.session.work)
    (hrows : ∀ id, q.order? id = if id = row.id then some new else p.order? id)
    (hb : q.byBroker = p.byBroker) (hc : q.byCorrelation = p.byCorrelation) :
    q.AtBroker broker stored userId := by
  have hold : ∀ id r, q.order? id = some r → ∃ r', p.order? id = some r' ∧ r'.SameAtBroker r ∧
      r.brokerOrderId = r'.brokerOrderId := by
    intro id r hr
    rw [hrows] at hr
    split at hr
    · rename_i heq
      obtain rfl := Option.some_inj.1 hr
      exact ⟨row, by rw [heq, hrow], hsame, hid⟩
    · exact ⟨r, hr, .refl r, rfl⟩
  refine { hq with
    known := hknown
    byBrokerId := fun id orderId hentry r hr => ?_
    byClientId := fun id orderId hentry r hr => ?_
    loaded := fun o ho r hr => ?_
    others := fun o ho hnot => ?_ }
  · obtain ⟨r', hr', -, hb'⟩ := hold orderId r hr
    rw [hb', h.byBrokerId id orderId (hb ▸ hentry) r' hr']
  · obtain ⟨r', hr', hsame', -⟩ := hold orderId r hr
    rw [hsame'.clientOrderId, h.byClientId id orderId (hc ▸ hentry) r' hr']
  · obtain ⟨r', hr', hsame', hb'⟩ := hold o.id r hr
    obtain ⟨hsame'', hcomplete⟩ := h.loaded o ho r' hr'
    exact ⟨hsame''.trans hsame', fun id hid' => by rw [hb]; exact hcomplete id (hb' ▸ hid')⟩
  · rw [hrows, if_neg, h.others o ho hnot]
    rintro heq
    obtain ⟨o', ho', hid'⟩ := hlocal
    rw [List.inj_on_of_nodup_map hids ho (List.mem_of_mem_filter ho') (heq.trans hid'.symm)] at hnot
    exact hnot ho'

theorem AtBroker.takeStatus (h : p.AtBroker broker stored userId)
    (hids : (stored.orders.map TradingOrder.id).Nodup) (item : BrokerOrderItem) :
    (p.takeStatus now item).AtBroker broker stored userId := by
  have hsound := h.toSound.takeStatus now item
  rcases takeStatus_cases now h.toSound item with ⟨-, hp⟩ | ⟨o, htarget, ho, hp⟩
  · rw [hp]; exact h
  · obtain ⟨hsame, hid⟩ := statusOf_sameAtBroker now o item
    obtain ⟨hb, hc⟩ := takeStatus_dicts now p item
    refine h.rewrite hids ho (h.toSound.itemTarget_local htarget) hsame hid hsound ?_
      (fun id => ?_) hb hc
    · rw [hp]
      exact h.known.rewrite (h.ids ▸ hids) (Database.order?_mem ho).1 hsame hid
    · rw [hp]
      split
      · rename_i heq; rw [heq]; exact order?_setOrder_self ho hsame.id
      · rename_i hne; exact order?_setOrder_of_ne (by rwa [hsame.id])

theorem AtBroker.importTrade (h : p.AtBroker broker stored userId)
    (hids : (stored.orders.map TradingOrder.id).Nodup) {item : TradeItem}
    (hitem : item ∈ broker.trades userId) :
    (p.importTrade now item).AtBroker broker stored userId := by
  have hsound := h.toSound.importTrade now item
  obtain ⟨hb, hc⟩ := importTrade_dicts now p item
  rcases importTrade_cases now h.toSound item with
    ⟨-, hp⟩ | ⟨row, htarget, hrow, ⟨-, hp⟩ | ⟨-, -, hp⟩ | ⟨-, -, hp⟩⟩
  · rw [hp]; exact h
  · rw [hp]; exact h
  · have hsame : row.SameAtBroker row.refuse := ⟨rfl, rfl, rfl, rfl, rfl, fun _ => rfl⟩
    refine h.rewrite hids hrow (h.toSound.tradeTarget_local htarget) hsame rfl hsound ?_
      (fun id => ?_) hb hc
    · rw [hp]
      exact h.known.rewrite (h.ids ▸ hids) (Database.order?_mem hrow).1 hsame rfl
    · rw [hp]
      split
      · rename_i heq; rw [heq]; exact order?_setOrder_self hrow rfl
      · rename_i hne; exact order?_setOrder_of_ne hne
  · obtain ⟨o, ho, hid⟩ := h.toSound.tradeTarget_local htarget
    obtain ⟨hsame, -⟩ := h.loaded o ho row (hid ▸ hrow)
    obtain ⟨-, huser, hmode, -⟩ := mem_localOrders.1 ho
    have hbroker := h.byBrokerId _ _ (mem_of_lookup htarget) row hrow
    refine h.rewrite hids hrow ⟨o, ho, hid⟩ (fill_sameAtBroker row item.tradedQuantity
      item.tradedPrice (tradeTime now item.exchangeTime)) rfl hsound ?_ (fun id => ?_) hb hc
    · rw [hp]
      refine h.known.bookExecution (h.ids ▸ hids) (Database.order?_mem hrow).1
        fun tradeId htrade => ?_
      obtain rfl := BrokerExecutionId.exchange.inj (Option.some_inj.1 htrade)
      exact ⟨item, by rw [hsame.userId, huser]; exact hitem, rfl, hsame.mode.trans hmode, hbroker,
        rfl⟩
    · rw [hp]
      split
      · rename_i heq; rw [heq]; exact order?_bookTrade_self now hrow
      · rename_i hne; exact order?_bookTrade_of_ne now hne

theorem AtBroker.attach (h : p.AtBroker broker stored userId)
    (hids : (stored.orders.map TradingOrder.id).Nodup) {item : BrokerOrderItem}
    (hitem : item.orderId ≠ "" → ∀ o ∈ localOrders stored userId,
      o.clientOrderId = item.correlationId →
        item.orderId = broker.orderId userId item.correlationId) :
    (p.attach item).AtBroker broker stored userId := by
  have hsound := h.toSound.attach item
  rcases attach_cases p item with ⟨hp, -⟩ | ⟨row, hfound, hne, hmissing, hattached, hp⟩
  · rw [hp]; exact h
  rcases h.toSound.ofItem?_cases item with ⟨-, hnone⟩ | ⟨row', htarget, hrow', hrow⟩
  · rw [hnone] at hfound; cases hfound
  rw [hrow'] at hfound
  obtain rfl := Option.some_inj.1 hfound
  obtain ⟨o, ho, hid⟩ := h.toSound.itemTarget_local htarget
  obtain ⟨hsame, -⟩ := h.loaded o ho row' (hid ▸ hrow)
  obtain ⟨-, huser, hmode, -⟩ := mem_localOrders.1 ho
  -- an order found by its broker id has one, so this one was found by its client id
  have hclient : row'.clientOrderId = item.correlationId := by
    unfold itemTarget at htarget
    rcases Option.or_eq_some_iff.1 htarget with hb | ⟨-, hc⟩
    · have := h.byBrokerId _ _ (mem_of_lookup hb) row' hrow
      rw [this, orMissing, Option.filter_some, if_pos (by simpa using hne)] at hmissing
      cases hmissing
    · exact h.byClientId _ _ (mem_of_lookup hc) row' hrow
  have hbroker : item.orderId = broker.orderId row'.userId row'.clientOrderId := by
    rw [hsame.userId, huser, hclient]
    exact hitem hne o ho (hsame.clientOrderId.symm.trans hclient)
  have hsame' : row'.SameAtBroker (row'.attached item) := by
    rw [hattached]
    exact ⟨rfl, rfl, rfl, rfl, rfl, fun hnot => absurd hmissing hnot⟩
  have hself : (p.setOrder (row'.attached item)).order? row'.id = some (row'.attached item) :=
    order?_setOrder_self hrow hsame'.id
  have hother : ∀ id, id ≠ row'.id →
      (p.setOrder (row'.attached item)).order? id = p.order? id := fun id hne' =>
    order?_setOrder_of_ne (by rwa [hsame'.id])
  have hbrokerId : (row'.attached item).brokerOrderId = some item.orderId := by rw [hattached]
  rw [hp] at hsound ⊢
  refine { hsound with
    known := ?_
    byBrokerId := fun id orderId hentry r hr => ?_
    byClientId := fun id orderId hentry r hr => ?_
    loaded := fun o' ho' r hr => ?_
    others := fun o' ho' hnot => ?_ }
  · refine h.known.setOrder (h.ids ▸ hids) (Database.order?_mem hrow).1 hsame' fun _ id hmem => ?_
    rw [hbrokerId] at hmem
    obtain rfl := Option.some_inj.1 hmem
    rw [hsame'.userId, hsame'.clientOrderId, hbroker]
  · by_cases hid' : orderId = row'.id
    · subst hid'
      obtain rfl := Option.some_inj.1 (hself.symm.trans hr)
      rcases List.mem_cons.1 hentry with heq | hentry
      · rw [hbrokerId, (Prod.mk.inj heq).1]
      · -- no older entry names an order without a broker id
        have hold := h.byBrokerId id _ hentry row' hrow
        have hmem := h.known.orMissing_eq (Database.order?_mem hrow).1 (hsame.mode.trans hmode) hold
        rw [hmissing] at hmem
        cases hmem
    · rcases List.mem_cons.1 hentry with heq | hentry
      · exact absurd (Prod.mk.inj heq).2 hid'
      · exact h.byBrokerId id orderId hentry r ((hother _ hid') ▸ hr)
  · by_cases hid' : orderId = row'.id
    · subst hid'
      obtain rfl := Option.some_inj.1 (hself.symm.trans hr)
      rw [hsame'.clientOrderId]
      exact h.byClientId id _ hentry row' hrow
    · exact h.byClientId id orderId hentry r ((hother _ hid') ▸ hr)
  · by_cases hid' : o'.id = row'.id
    · rw [hid'] at hr
      obtain rfl := Option.some_inj.1 (hself.symm.trans hr)
      refine ⟨(h.loaded o' ho' row' (hid' ▸ hrow)).1.trans hsame', fun id hid'' => ?_⟩
      rw [hbrokerId, orMissing, Option.filter_some, if_pos (by simpa using hne)] at hid''
      rw [hid', ← Option.some_inj.1 hid'']
      exact List.mem_cons_self ..
    · obtain ⟨hsame'', hcomplete⟩ := h.loaded o' ho' r ((hother _ hid') ▸ hr)
      exact ⟨hsame'', fun id hid'' => List.mem_cons_of_mem _ (hcomplete id hid'')⟩
  · have hne' : o'.id ≠ row'.id := by
      intro heq
      rw [List.inj_on_of_nodup_map hids ho' (List.mem_of_mem_filter ho) (heq.trans hid.symm)]
        at hnot
      exact hnot ho
    exact (hother _ hne').trans (h.others o' ho' hnot)

end Pass

section Passes

variable {broker : Broker} {s : Store} {userId : Uuid} {brokerOrders : List BrokerOrderItem}
  {trades : List TradeItem} (now : Time)

theorem atBroker_attachedPass (hknown : broker.Known s.toDatabase)
    (hf : TrueBooks broker s userId brokerOrders trades) :
    (attachedPass s.begin userId brokerOrders).AtBroker broker s.toDatabase userId :=
  List.foldlRecOn (motive := fun p => Pass.AtBroker broker s.toDatabase userId p) brokerOrders
    Pass.attach (Pass.atBroker_startPass hknown)
    fun _ hp item hitem => hp.attach s.valid.orderIds (hf.named item hitem)

theorem atBroker_importedPass (hknown : broker.Known s.toDatabase)
    (hf : TrueBooks broker s userId brokerOrders trades) :
    (importedPass now s userId brokerOrders trades).AtBroker broker s.toDatabase userId :=
  List.foldlRecOn (motive := fun p => Pass.AtBroker broker s.toDatabase userId p) trades
    (Pass.importTrade now) (atBroker_attachedPass hknown hf)
    fun _ hp _ hitem => hp.importTrade s.valid.orderIds (hf.listed.subset hitem)

/-- The state of a pass when its last loop is done. -/
theorem atBroker_endPass (hknown : broker.Known s.toDatabase)
    (hf : TrueBooks broker s userId brokerOrders trades) :
    (brokerOrders.foldl (Pass.takeStatus now)
      (importedPass now s userId brokerOrders trades)).AtBroker broker s.toDatabase userId :=
  List.foldlRecOn (motive := fun p => Pass.AtBroker broker s.toDatabase userId p) brokerOrders
    (Pass.takeStatus now) (atBroker_importedPass now hknown hf)
    fun _ hp item _ => hp.takeStatus s.valid.orderIds item

theorem known_reconcile (hknown : broker.Known s.toDatabase)
    (hf : TrueBooks broker s userId brokerOrders trades) :
    broker.Known (reconcile now s userId brokerOrders trades).1.toDatabase := by
  rw [reconcile]
  rcases Session.commitOr_fst (reconcileApply now s.begin userId brokerOrders trades) s (.ok ())
    with hs | ⟨hs, -⟩
  · rw [hs]; exact hknown
  · rw [← hs]; exact (atBroker_endPass now hknown hf).known

end Passes

/-! ## Calls -/

section Calls

variable {broker : Broker} {settings : Settings} {s : Store}

theorem known_paperPlace (h : broker.Known s.toDatabase) (now : Time) (userId instrumentId : Uuid)
    (values : OrderValues) (quote : Option NormalizedQuote) :
    broker.Known (paperPlace settings now s userId instrumentId values quote).1.toDatabase := by
  rcases paperPlace_cases settings now s userId instrumentId values quote with
    hs | ⟨price, t, -, -, hvalid, hsettled, hs⟩
  · rw [hs]; exact h
  rw [hs]
  have hplaced : broker.Known (s.toDatabase.insertOrder
      (paperOrder s.nextUuid userId instrumentId values now)) :=
    h.insertOrder fun hlive => by cases hlive
  have hmem : paperOrder s.nextUuid userId instrumentId values now ∈ (s.toDatabase.insertOrder
      (paperOrder s.nextUuid userId instrumentId values now)).orders :=
    List.mem_append_right _ (List.mem_singleton.2 rfl)
  cases hsettled with
  | rests => exact hplaced
  | canceled =>
    exact hplaced.rewrite hvalid.orderIds hmem ⟨rfl, rfl, rfl, rfl, rfl, fun _ => rfl⟩ rfl
  | filled price _ _ =>
    exact Broker.Known.fillPaper (s := ⟨_, _⟩) hplaced hvalid.orderIds hmem now _ price

theorem known_paperModify {o : TradingOrder} (h : broker.Known s.toDatabase) (ho : o ∈ s.orders)
    (now : Time) (quantity : ℤ) (limitPrice : ℚ) (quote : Option NormalizedQuote) :
    broker.Known (paperModify settings now s o quantity limitPrice quote).1.toDatabase := by
  rcases paperModify_cases settings now s o quantity limitPrice quote with
    hs | ⟨t, -, -, -, hmodified, hs⟩
  · rw [hs]; exact h
  rw [hs]
  have hwritten : broker.Known (s.toDatabase.setOrder (o.modified quantity limitPrice)) :=
    h.rewrite s.valid.orderIds ho ⟨rfl, rfl, rfl, rfl, rfl, fun _ => rfl⟩ rfl
  cases hmodified with
  | rests => exact hwritten
  | filled price _ =>
    refine Broker.Known.fillPaper
      (s := ⟨s.toDatabase, s.toDatabase.setOrder (o.modified quantity limitPrice)⟩) hwritten ?_
      (Rows.mem_replaceBy_self ho rfl) now _ price
    rw [Database.map_id_setOrder]
    exact s.valid.orderIds

theorem cancelFinish_sameAtBroker {now : Time} {prior : OrderStatus} {o : TradingOrder}
    {result : AdapterResult} :
    o.SameAtBroker ((cancelFinish now prior o.cancelRequested result).1.getD o.cancelRequested) ∧
      ((cancelFinish now prior o.cancelRequested result).1.getD o.cancelRequested).brokerOrderId =
        o.brokerOrderId := by
  cases result <;> exact ⟨⟨rfl, rfl, rfl, rfl, rfl, fun _ => rfl⟩, rfl⟩

theorem modifyFinish_sameAtBroker {o : TradingOrder} {quantity : ℤ} {limitPrice : ℚ}
    {result : AdapterResult} :
    o.SameAtBroker ((modifyFinish o quantity limitPrice result).1.getD o) ∧
      ((modifyFinish o quantity limitPrice result).1.getD o).brokerOrderId = o.brokerOrderId := by
  cases result <;> exact ⟨⟨rfl, rfl, rfl, rfl, rfl, fun _ => rfl⟩, rfl⟩

/-- **Every call** whose answers and books are faithful leaves rows that are true
to the broker. -/
theorem known_orderStep (h : broker.Known s.toDatabase) {e : OrderEvent}
    (hf : Faithful broker s e) : broker.Known (orderStep settings s e).toDatabase := by
  cases e with
  | place now later userId instrumentId values quote subscribed outcome =>
    rw [orderStep]
    rcases place_cases settings now later s userId instrumentId values quote subscribed outcome
      with ⟨-, hs⟩ | ⟨-, hsame⟩ | ⟨-, connectionId, hs⟩
    · rw [hs]; exact known_paperPlace h now userId instrumentId values quote
    · exact h.congr hsame.orders hsame.executions
    · rw [hs]
      refine h.insertOrder fun _ id hid => ?_
      cases hresult : dhanPlace subscribed outcome with
      | ok response =>
        rw [hresult] at hid
        exact hf response hresult id hid
      | error e => rw [hresult] at hid; cases hid
      | escaped => rw [hresult] at hid; cases hid
  | cancel now later orderId outcome =>
    rw [orderStep]
    cases ho : s.order? orderId with
    | none => exact h
    | some o =>
      have hmem := (Database.order?_mem ho).1
      dsimp only
      rcases cancel_cases settings now later hmem outcome with ⟨-, hs⟩ | ⟨-, hsame⟩ | ⟨-, hs⟩
      · rw [hs]
        rcases paperCancel_cases now s o with hs | ⟨-, hs⟩
        · rw [hs]; exact h
        · rw [hs]
          exact h.rewrite s.valid.orderIds hmem ⟨rfl, rfl, rfl, rfl, rfl, fun _ => rfl⟩ rfl
      · exact h.congr hsame.orders hsame.executions
      · rw [hs]
        exact h.rewrite s.valid.orderIds hmem cancelFinish_sameAtBroker.1
          cancelFinish_sameAtBroker.2
  | modify now orderId quantity limitPrice quote outcome =>
    rw [orderStep]
    cases ho : s.order? orderId with
    | none => exact h
    | some o =>
      have hmem := (Database.order?_mem ho).1
      dsimp only
      rcases modify_cases settings now hmem quantity limitPrice quote outcome with
        ⟨-, hs⟩ | ⟨-, -, -, hsame⟩ | ⟨-, -, -, hs⟩
      · rw [hs]; exact known_paperModify h hmem now quantity limitPrice quote
      · exact h.congr hsame.orders hsame.executions
      · rw [hs]
        exact h.rewrite s.valid.orderIds hmem modifyFinish_sameAtBroker.1
          modifyFinish_sameAtBroker.2
  | reconcile now userId brokerOrders trades =>
    exact known_reconcile now h hf.trueBooks

end Calls

/-! ## What a pass records -/

/-- Each listed trade of a LIVE order is exactly one execution, and the filled
quantities and positions are the totals of the executions. -/
structure FillsRecorded (d : Database) (userId : Uuid) (trades : List TradeItem) : Prop where
  recorded : ∀ o ∈ d.orders, o.mode = .live → o.userId = userId →
    ∀ item ∈ trades, o.brokerOrderId = some item.orderId →
    ∃ e, o.Traded item e ∧ d.executions.filter
      (·.brokerKey = some (userId, .exchange item.exchangeTradeId)) = [e]
  balanced : d.Balanced

/-- No LIVE order was closed before the listed trades of it were recorded. -/
def SeenBeforeClosed (d : Database) (userId : Uuid) (trades : List TradeItem) : Prop :=
  ∀ o ∈ d.orders, o.mode = .live → o.userId = userId → o.status ∉ openOrderStatuses →
    ∀ item ∈ trades, o.brokerOrderId = some item.orderId →
      d.execution? userId (.exchange item.exchangeTradeId) ≠ none

/-- No more is filled than the new trades add up to. -/
theorem filledBy_le (stored : Database) (o : TradingOrder) (matching : TradeItem → Bool)
    {trades : List TradeItem} (hpos : ∀ item ∈ trades, 0 < item.tradedQuantity)
    (h : ∀ item ∈ trades, o.IsNewTrade stored item → matching item) :
    filledBy stored o trades ≤
      o.filledQuantity + Rows.total matching TradeItem.tradedQuantity trades := by
  induction trades using List.reverseRecOn with
  | nil => simp [filledBy]
  | append_singleton trades item ih =>
    have hold := ih (fun x hx => hpos x (List.mem_append_left _ hx))
      fun x hx => h x (List.mem_append_left _ hx)
    have hitem := hpos item (by simp)
    rw [filledBy_append_singleton, Rows.total_append, Rows.total_singleton]
    split
    · rename_i hbooked
      rw [if_pos (h item (by simp) hbooked.1)]
      omega
    · split <;> omega

section Recorded

variable {broker : Broker} {s : Store} {userId : Uuid} {brokerOrders : List BrokerOrderItem}
  {trades : List TradeItem} {now : Time}

/-- A trade is booked on the loaded order that has its broker id. -/
theorem Pass.AtBroker.tradeTarget_eq {stored : Database} {p : Pass}
    (h : p.AtBroker broker stored userId) (hv : p.session.work.Valid) {o row : TradingOrder}
    (ho : o ∈ localOrders stored userId) (hrow : p.order? o.id = some row) {item : TradeItem}
    (hid : row.brokerOrderId = some item.orderId) : p.tradeTarget item = some o.id := by
  obtain ⟨hsame, hcomplete⟩ := h.loaded o ho row hrow
  obtain ⟨-, huser, hmode, -⟩ := Pass.mem_localOrders.1 ho
  have hmem := (Database.order?_mem hrow).1
  have hmodeRow := hsame.mode.trans hmode
  have hentry := hcomplete _ (h.known.orMissing_eq hmem hmodeRow hid)
  unfold Pass.tradeTarget
  cases hlookup : p.byBroker.lookup item.orderId with
  | none => exact absurd hentry (fun hmem => by
      have := List.lookup_eq_none_iff.1 hlookup _ hmem
      simp at this)
  | some orderId =>
    -- the entry that is found names a row with the same broker id
    have hfound := Pass.mem_of_lookup hlookup
    obtain ⟨o', ho', rfl⟩ := h.byBroker _ hfound
    obtain ⟨row', hrow'⟩ := Option.isSome_iff_exists.1 (h.toSound.isSome_of_byBroker hlookup)
    obtain ⟨-, huser', hmode', -⟩ := Pass.mem_localOrders.1 ho'
    obtain ⟨hsame', -⟩ := h.loaded o' ho' row' hrow'
    have heq := h.known.eq_of_brokerOrderId hv.clientKeys hmem (Database.order?_mem hrow').1
      hmodeRow (hsame'.mode.trans hmode') (by rw [hsame.userId, hsame'.userId, huser, huser']) hid
      (h.byBrokerId _ _ hfound row' hrow')
    rw [← hsame.id, heq, hsame'.id]

/-- Every stored order is still the same to the broker. -/
theorem Pass.AtBroker.exists_row {stored : Database} {p : Pass}
    (h : p.AtBroker broker stored userId) {o : TradingOrder} (ho : o ∈ stored.orders) :
    ∃ row, p.order? o.id = some row ∧ o.SameAtBroker row := by
  by_cases hlocal : o ∈ localOrders stored userId
  · obtain ⟨row, hrow⟩ := Option.isSome_iff_exists.1 (h.toSound.isSome_of_local ⟨o, hlocal, rfl⟩)
    exact ⟨row, hrow, (h.loaded o hlocal row hrow).1⟩
  · exact ⟨o, h.others o ho hlocal, .refl o⟩

/-- **A listed trade of a loaded order** that is not recorded is booked: the
order has room for it. -/
theorem books_of_listed (hknown : broker.Known s.toDatabase)
    (hf : TrueBooks broker s userId brokerOrders trades) {before after : List TradeItem}
    {item : TradeItem} (htrades : trades = before ++ item :: after) {o : TradingOrder}
    (ho : o ∈ localOrders s.toDatabase userId)
    (hroom : o.filledQuantity + broker.unrecorded s.toDatabase userId o.clientOrderId trades ≤
      o.quantity)
    (htarget : (attachedPass s.begin userId brokerOrders).tradeTarget item = some o.id)
    (hnew : s.execution? userId (.exchange item.exchangeTradeId) = none) :
    Books s userId brokerOrders before item o := by
  obtain ⟨hmem, huser, hmode, -⟩ := Pass.mem_localOrders.1 ho
  have hbroker : ∀ x ∈ trades, x ∈ broker.trades userId := fun x hx => hf.listed.subset hx
  have hitem : item ∈ trades := by rw [htrades]; simp
  refine ⟨ho, htarget, ⟨broker.tradeId_ne _ _ (hbroker item hitem), by rwa [huser]⟩,
    broker.quantity_pos _ _ (hbroker item hitem), ?_⟩
  have hp := atBroker_attachedPass hknown hf
  have hrowId : ∀ x : TradeItem, (attachedPass s.begin userId brokerOrders).tradeTarget x =
      some o.id → x.orderId = broker.orderId userId o.clientOrderId := by
    intro x hx
    obtain ⟨row, hrow⟩ := Option.isSome_iff_exists.1 (hp.toSound.isSome_of_local ⟨o, ho, rfl⟩)
    obtain ⟨hsame, -⟩ := hp.loaded o ho row hrow
    have := hp.known.orderIds row (Database.order?_mem hrow).1 (hsame.mode.trans hmode) _
      (hp.byBrokerId _ _ (Pass.mem_of_lookup hx) row hrow)
    rw [this, hsame.userId, hsame.clientOrderId, huser]
  let matching : TradeItem → Bool := fun x => x.orderId = broker.orderId userId o.clientOrderId ∧
    s.execution? userId (.exchange x.exchangeTradeId) = none
  have hsum : o.filledQuantity + Rows.total matching TradeItem.tradedQuantity trades ≤ o.quantity :=
    hroom
  have hmatch : matching item := decide_eq_true ⟨hrowId item htarget, hnew⟩
  have hnonneg : ∀ x ∈ trades, 0 ≤ x.tradedQuantity := fun x hx =>
    (broker.quantity_pos _ _ (hbroker x hx)).le
  have hsub : before.Sublist trades := htrades ▸ List.sublist_append_left ..
  have hsub' : ((attachedPass s.begin userId brokerOrders).tradesFor before o.id).Sublist before :=
    List.filter_sublist
  have hle := filledBy_le s.toDatabase o matching
    (fun x hx => broker.quantity_pos _ _ (hbroker x (hsub.subset (hsub'.subset hx))))
    fun x hx hx' => by
      rw [decide_eq_true_eq]
      have hx'' := (List.mem_filter.1 hx).2
      rw [decide_eq_true_eq] at hx''
      exact ⟨hrowId x hx'', huser ▸ hx'.2⟩
  have hbefore := Rows.total_le_of_sublist (p := matching) hsub'
    fun x hx => hnonneg x (hsub.subset hx)
  have hafter : 0 ≤ Rows.total matching TradeItem.tradedQuantity after :=
    Rows.total_nonneg fun x hx => hnonneg x (by rw [htrades]; simp [hx])
  rw [htrades, Rows.total_append, Rows.total_cons, if_pos hmatch] at hsum
  omega

/-- **A committed pass** records the trades it lists exactly when no order was
closed before its trades were seen. -/
theorem fillsRecorded_reconcile_iff (hknown : broker.Known s.toDatabase) (hb : s.Balanced)
    (hf : Faithful broker s (.reconcile now userId brokerOrders trades))
    (hok : (reconcile now s userId brokerOrders trades).2 = .ok ()) :
    FillsRecorded (reconcile now s userId brokerOrders trades).1.toDatabase userId trades ↔
      SeenBeforeClosed s.toDatabase userId trades := by
  have hbook := reconcile_commits_iff.1 hok
  have hbalanced := balanced_reconcile hb now userId brokerOrders trades
  have hp := atBroker_endPass now hknown hf.trueBooks
  have hattached := atBroker_attachedPass hknown hf.trueBooks
  obtain ⟨hexec, -⟩ := foldl_takeStatus_rows now brokerOrders
    (importedPass now s userId brokerOrders trades)
  have hdicts : (brokerOrders.foldl (Pass.takeStatus now)
      (importedPass now s userId brokerOrders trades)).byBroker =
      (attachedPass s.begin userId brokerOrders).byBroker := by
    refine (List.foldlRecOn (motive := fun q : Pass => q.byBroker =
      (importedPass now s userId brokerOrders trades).byBroker) brokerOrders _ rfl
      fun q hq item _ => (Pass.takeStatus_dicts now q item).1.trans hq).trans ?_
    exact (Pass.foldl_importTrade_dicts now trades _).1
  -- the committed rows are those of the last loop
  have hwork := reconcile_toDatabase hok
  have hvalid := (reconcile now s userId brokerOrders trades).1.valid
  generalize (reconcile now s userId brokerOrders trades).1.toDatabase = d at *
  generalize brokerOrders.foldl (Pass.takeStatus now)
    (importedPass now s userId brokerOrders trades) = p at *
  subst hwork
  have hgrow : ∀ l₁ l₂, trades = l₁ ++ l₂ → ∀ e ∈
      (importedPass now s userId brokerOrders l₁).session.work.executions,
      e ∈ p.session.work.executions := by
    rintro l₁ l₂ rfl e he
    obtain ⟨es, -, hes, -⟩ := importedPass_append now s userId brokerOrders l₁ l₂
    rw [hexec, hes]
    exact List.mem_append_left _ he
  constructor
  · intro h o ho hmode huser hclosed item hitem hid hnone
    have hnot : o ∉ localOrders s.toDatabase userId := fun hlocal =>
      hclosed (Pass.mem_localOrders.1 hlocal).2.2.2
    obtain ⟨hmem, -⟩ := Database.order?_mem (hp.others o ho hnot)
    obtain ⟨e, htraded, hfilter⟩ := h.recorded o hmem hmode huser item hitem hid
    have hmemExec : e ∈ p.session.work.executions := by
      have : e ∈ [e] := List.mem_singleton.2 rfl
      rw [← hfilter] at this
      exact List.mem_of_mem_filter this
    -- the execution is due to the trade, which was booked on a loaded order
    have hkept := kept_importedPass now trades hbook
    rcases hkept.owed.ids item.exchangeTradeId (by
      rw [Ne, Database.execution?_eq_none, not_not, ← hexec]
      exact List.mem_filterMap.2 ⟨e, hmemExec, huser ▸ htraded.brokerKey⟩) with
      hsome | ⟨l₁, a, l₂, o', htrades, hbooks, heq⟩
    · exact hsome hnone
    · obtain rfl := broker.trade_eq (hf.1.subset (by rw [htrades]; simp)) (hf.1.subset hitem) heq
      have hlocal := hbooks.loaded
      obtain ⟨-, huser', hmode', -⟩ := Pass.mem_localOrders.1 hlocal
      obtain ⟨row, hrow⟩ := Option.isSome_iff_exists.1
        (hp.toSound.isSome_of_local ⟨o', hlocal, rfl⟩)
      obtain ⟨hsame, -⟩ := hp.loaded o' hlocal row hrow
      have hrowId := hp.byBrokerId _ _ (hdicts ▸ Pass.mem_of_lookup hbooks.named) row hrow
      have heq := hp.known.eq_of_brokerOrderId hvalid.clientKeys hmem (Database.order?_mem hrow).1
        hmode (hsame.mode.trans hmode') (by rw [huser, hsame.userId, huser']) hid hrowId
      obtain rfl := s.valid.eq_of_id ho (List.mem_of_mem_filter hlocal) (by rw [heq, hsame.id])
      exact hnot hlocal
  · intro h
    refine ⟨fun o' ho' hmode huser item hitem hid => ?_, hbalanced⟩
    -- the order as it was stored
    have hidMem : o'.id ∈ s.orders.map TradingOrder.id := by
      rw [← hp.ids]; exact List.mem_map_of_mem ho'
    obtain ⟨o, ho, hoid⟩ := List.mem_map.1 hidMem
    have hrow : p.order? o.id = some o' := hoid ▸ hvalid.order?_eq ho'
    obtain ⟨row, hrow', hsame⟩ := hp.exists_row ho
    obtain rfl := Option.some_inj.1 (hrow.symm.trans hrow')
    have hfrom : ∀ e ∈ p.session.work.executions, o'.Traded item e → ∃ e, o'.Traded item e ∧
        p.session.work.executions.filter
          (·.brokerKey = some (userId, .exchange item.exchangeTradeId)) = [e] :=
      fun e he htraded => ⟨e, htraded, Rows.filter_eq_singleton hvalid.brokerKeys he
        (huser ▸ htraded.brokerKey)⟩
    cases hrecorded : s.execution? userId (.exchange item.exchangeTradeId) with
    | none =>
      have hlocal : o ∈ localOrders s.toDatabase userId := by
        by_contra hnot
        obtain rfl := Option.some_inj.1 (hrow.symm.trans (hp.others o ho hnot))
        refine h o' ho hmode huser (fun hopen => hnot ?_) item hitem hid hrecorded
        exact Pass.mem_localOrders.2 ⟨ho, huser, hmode, hopen⟩
      have htarget := hp.tradeTarget_eq hvalid hlocal hrow hid
      rw [Pass.tradeTarget, hdicts] at htarget
      obtain ⟨l₁, l₂, htrades⟩ := List.append_of_mem hitem
      obtain ⟨e, hkey, ⟨horder, hside, hquantity⟩, hadded, -⟩ :=
        (books_of_listed hknown hf.trueBooks htrades hlocal
          (hf.2.2 o ho (hsame.mode.symm.trans hmode) (hsame.userId.symm.trans huser)) htarget
          hrecorded).importedPass now
      refine hfrom e (hgrow (l₁ ++ [item]) l₂ (by rw [htrades]; simp) e (by rw [hadded]; simp))
        ⟨horder.trans hsame.id.symm, by rw [hkey, huser], hside.trans hsame.side.symm, hquantity⟩
    | some e =>
      obtain ⟨he, hkey⟩ := Database.execution?_mem hrecorded
      obtain ⟨y, hy, item', hitem', htrade, hymode, hyuser, hybroker, htraded⟩ :=
        hknown.executions e he _ _ hkey
      obtain rfl := broker.trade_eq hitem' (hf.1.subset hitem) htrade
      obtain ⟨y', hyrow, hysame⟩ := hp.exists_row hy
      have hyid := (hysame.brokerOrderId (by
        rw [hknown.orMissing_eq hy hymode hybroker]; simp)).trans hybroker
      have heq := hp.known.eq_of_brokerOrderId hvalid.clientKeys ho' (Database.order?_mem hyrow).1
        hmode (hysame.mode.trans hymode) (by rw [huser, hysame.userId, hyuser]) hid hyid
      subst heq
      have hstart : (importedPass now s userId brokerOrders []).session.work.executions =
          s.executions := (attachedPass_frame s userId brokerOrders).1
      exact hfrom e (hgrow [] trades rfl e (by rw [hstart]; exact he))
        ⟨htraded.orderId.trans hysame.id.symm, by rw [hkey, huser],
          htraded.side.trans hysame.side.symm, htraded.quantity⟩

end Recorded

/-- **Runs.**  In every run of calls and passes whose answers and books report
what the broker did, each committed pass records the trades it lists exactly
when no order has been closed before its trades were seen. -/
theorem fills_recorded_iff {broker : Broker} {settings : Settings} {s t : Store}
    {events : List OrderEvent} (horders : s.orders = []) (hpositions : s.positions = [])
    (hrun : Run (Guarded (Faithful broker) (Steps (orderStep settings))) s events t) {now : Time}
    {userId : Uuid} {brokerOrders : List BrokerOrderItem} {trades : List TradeItem}
    (hf : Faithful broker t (.reconcile now userId brokerOrders trades))
    (hok : (reconcile now t userId brokerOrders trades).2 = .ok ()) :
    FillsRecorded (reconcile now t userId brokerOrders trades).1.toDatabase userId trades ↔
      SeenBeforeClosed t.toDatabase userId trades := by
  have hexecutions : s.executions = [] := by
    rw [List.eq_nil_iff_forall_not_mem]
    intro e he
    have := s.valid.executionOrders e he
    rw [horders] at this
    cases this
  have hknown : broker.Known s.toDatabase :=
    ⟨by rw [horders]; simp, by rw [hexecutions]; simp⟩
  have hbalanced : s.Balanced := by
    refine ⟨by rw [horders]; simp, fun key => ?_⟩
    rw [Database.positionTotal, Database.executedNet, hpositions, hexecutions]
    rfl
  obtain ⟨hknown, hbalanced⟩ := hrun.invariant
    (P := fun s : Store => broker.Known s.toDatabase ∧ s.Balanced) ⟨hknown, hbalanced⟩ (by
      rintro s e _ ⟨hk, hb⟩ ⟨hf, rfl⟩
      exact ⟨known_orderStep hk hf, balanced_orderStep hb e⟩)
  exact fillsRecorded_reconcile_iff hknown hbalanced hf hok

/-- The trade of 4 that the broker makes of the order `a` of user 7. -/
def partTrade : TradeItem :=
  { orderId := "Da", exchangeTradeId := "x", tradedQuantity := 4, tradedPrice := 100 }

/-- A broker that puts a letter before the client id. -/
def lateBroker : Broker where
  orderId _ clientOrderId := "D" ++ clientOrderId
  trades userId := if userId = 7 then [partTrade] else []
  orderId_ne _ clientOrderId h := by
    have := congrArg String.length h
    simp at this
  orderId_inj _ _ _ h := by simpa using h
  tradeIds userId := by split <;> simp
  tradeId_ne userId item h := by
    split at h
    · rw [List.mem_singleton.1 h]; decide
    · cases h
  quantity_pos userId item h := by
    split at h
    · rw [List.mem_singleton.1 h]; decide
    · cases h

/-- Its cancellation, confirmed. -/
def canceledOrder : OrderEvent :=
  .cancel 2 3 10 (.response 200 (.object { orderStatus := some "CANCELLED" }))

theorem faithful_acceptedOrder (s : Store) : Faithful lateBroker s acceptedOrder := by
  intro response hresponse id hid
  obtain rfl : { orderId := some "Da", orderStatus := some "PENDING" } = response :=
    AdapterResult.ok.inj hresponse
  have hid : some "Da" = some id := hid
  exact (Option.some_inj.1 hid).symm

theorem fills_recorded_iff_open :
    FillsRecorded (reconcile 4 (orderStep liveSettings connectedStore acceptedOrder) 7 []
      [partTrade]).1.toDatabase 7 [partTrade] :=
  (fills_recorded_iff (s := connectedStore) rfl rfl
    (.single ⟨faithful_acceptedOrder _, rfl⟩)
    ⟨List.Sublist.refl _, by simp, by decide +kernel⟩ (by decide +kernel)).2 (by
      unfold SeenBeforeClosed
      decide +kernel)

/-- **A fill is lost**: the cancellation is confirmed, and then the trade book
lists what was traded before it. -/
theorem fills_lost :
    ¬ ∀ (broker : Broker) (settings : Settings) (s t : Store) (events : List OrderEvent),
      s.orders = [] → s.positions = [] →
      Run (Guarded (Faithful broker) (Steps (orderStep settings))) s events t →
      ∀ (now : Time) (userId : Uuid) (brokerOrders : List BrokerOrderItem)
        (trades : List TradeItem), Faithful broker t (.reconcile now userId brokerOrders trades) →
        (reconcile now t userId brokerOrders trades).2 = .ok () →
        FillsRecorded (reconcile now t userId brokerOrders trades).1.toDatabase userId trades := by
  intro h
  let t := orderStep liveSettings (orderStep liveSettings connectedStore acceptedOrder)
    canceledOrder
  have hrecorded := h lateBroker liveSettings connectedStore t [acceptedOrder, canceledOrder] rfl
    rfl (.cons ⟨faithful_acceptedOrder _, rfl⟩ (.single ⟨trivial, rfl⟩)) 4 7 [] [partTrade]
    ⟨List.Sublist.refl _, by simp, by decide +kernel⟩ (by decide +kernel)
  have hrow : (reconcile 4 t 7 [] [partTrade]).1.orders.map
      (fun o => (o.mode, o.userId, o.brokerOrderId)) = [(.live, 7, some "Da")] := by
    decide +kernel
  have hexecutions : (reconcile 4 t 7 [] [partTrade]).1.executions = [] := by decide +kernel
  have hmem := List.mem_singleton.2 (rfl : (Mode.live, (7 : Uuid), some "Da") = _)
  rw [← hrow] at hmem
  obtain ⟨o, ho, hvalues⟩ := List.mem_map.1 hmem
  obtain ⟨hmode, hvalues⟩ := Prod.mk.inj hvalues
  obtain ⟨huser, hbroker⟩ := Prod.mk.inj hvalues
  obtain ⟨e, -, hfilter⟩ := hrecorded.recorded o ho hmode huser partTrade
    (List.mem_singleton.2 rfl) hbroker
  rw [hexecutions] at hfilter
  cases hfilter

end GnkAlgo
