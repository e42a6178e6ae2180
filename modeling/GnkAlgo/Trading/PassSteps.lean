import GnkAlgo.Trading.LiveSteps
import GnkAlgo.Trading.Reconcile

/-!
# What a reconciliation pass does

The loops of `_apply`, entry by entry and order by order.

* `Pass.Sound` — what every state of a pass keeps: the stored rows, the row
  identities, and that the dictionaries name loaded orders only;
* `Pass.importTrade_cases` — a trade is skipped, refused or booked;
* `reconcileApply_order?` — the pass acts on each loaded order by the entries
  of the books that name it, and on no other order.
-/

namespace GnkAlgo

/-! ## Reading and rewriting order rows -/

theorem Database.order?_setOrder_of_ne (d : Database) {o : TradingOrder} {id : Uuid}
    (h : id ≠ o.id) : (d.setOrder o).order? id = d.order? id :=
  Rows.find?_replaceBy_of_ne h

theorem Database.order?_setOrder_self {d : Database} {o o' : TradingOrder}
    (h : d.order? o.id = some o') : (d.setOrder o).order? o.id = some o := by
  obtain ⟨hmem, hid⟩ := Database.order?_mem h
  exact Rows.find?_replaceBy_self ⟨o', hmem, hid⟩

theorem Database.map_id_setOrder (d : Database) (o : TradingOrder) :
    (d.setOrder o).orders.map TradingOrder.id = d.orders.map TradingOrder.id :=
  Rows.map_key_replaceBy

/-- A row is found under every identity there is. -/
theorem Database.order?_isSome {d : Database} {id : Uuid} :
    (d.order? id).isSome ↔ id ∈ d.orders.map TradingOrder.id := by
  rw [Database.order?, List.find?_isSome]
  simp [eq_comm]

namespace TradingOrder

/-- What a refused execution writes to the order. -/
def refuse (o : TradingOrder) : TradingOrder :=
  { o with
    status := .unknown
    rejectionReason := some "RECONCILIATION_INVALID_EXECUTION_QUANTITY" }

/-- What the first loop writes to an order without a broker id. -/
def attached (o : TradingOrder) (item : BrokerOrderItem) : TradingOrder :=
  if item.orderId ≠ "" ∧ orMissing o.brokerOrderId = none then
    { o with brokerOrderId := some item.orderId }
  else o

/-- The trade is one that `apply_execution` has not recorded. -/
def IsNewTrade (stored : Database) (o : TradingOrder) (item : TradeItem) : Prop :=
  item.exchangeTradeId ≠ "" ∧ stored.execution? o.userId (.exchange item.exchangeTradeId) = none

/-- The quantity of the trade fits the order. -/
def Fits (o : TradingOrder) (item : TradeItem) : Prop :=
  0 < item.tradedQuantity ∧ o.filledQuantity + item.tradedQuantity ≤ o.quantity

instance (stored : Database) (o : TradingOrder) (item : TradeItem) :
    Decidable (IsNewTrade stored o item) := inferInstanceAs (Decidable (_ ∧ _))

instance (o : TradingOrder) (item : TradeItem) : Decidable (Fits o item) :=
  inferInstanceAs (Decidable (_ ∧ _))

/-- What the second loop writes to the order of a trade. -/
def imported (now : Time) (stored : Database) (o : TradingOrder) (item : TradeItem) :
    TradingOrder :=
  if ¬ IsNewTrade stored o item then o
  else if Fits o item then
    o.fill item.tradedQuantity item.tradedPrice (tradeTime now item.exchangeTime)
  else o.refuse

end TradingOrder

/-- The filled quantity of an order once the new trades that fit are booked in
turn. -/
def filledBy (stored : Database) (o : TradingOrder) (trades : List TradeItem) : ℤ :=
  trades.foldl (fun filled item =>
    if o.IsNewTrade stored item ∧ 0 < item.tradedQuantity ∧
        filled + item.tradedQuantity ≤ o.quantity
    then filled + item.tradedQuantity else filled) o.filledQuantity

theorem filledBy_append_singleton (stored : Database) (o : TradingOrder) (trades : List TradeItem)
    (item : TradeItem) : filledBy stored o (trades ++ [item]) =
      if o.IsNewTrade stored item ∧ 0 < item.tradedQuantity ∧
        filledBy stored o trades + item.tradedQuantity ≤ o.quantity
      then filledBy stored o trades + item.tradedQuantity else filledBy stored o trades := by
  rw [filledBy, List.foldl_append]; rfl

/-- The same order, filled to a quantity. -/
structure TradingOrder.FilledTo (o new : TradingOrder) (filled : ℤ) : Prop where
  id : new.id = o.id
  positionKey : new.positionKey = o.positionKey
  side : new.side = o.side
  quantity : new.quantity = o.quantity
  filledQuantity : new.filledQuantity = filled

namespace TradingOrder.FilledTo

variable {o new : TradingOrder} {filled : ℤ} {stored : Database} {item : TradeItem}

theorem userId (h : o.FilledTo new filled) : new.userId = o.userId :=
  congrArg PositionKey.userId h.positionKey

theorem isNewTrade_iff (h : o.FilledTo new filled) :
    new.IsNewTrade stored item ↔ o.IsNewTrade stored item := by
  rw [TradingOrder.IsNewTrade, h.userId]; rfl

theorem fits_iff (h : o.FilledTo new filled) :
    new.Fits item ↔ 0 < item.tradedQuantity ∧ filled + item.tradedQuantity ≤ o.quantity := by
  rw [TradingOrder.Fits, h.filledQuantity, h.quantity]

end TradingOrder.FilledTo

/-- The trades of an order fill it as `filledBy` says. -/
theorem foldl_imported_filledTo (now : Time) (stored : Database) (o : TradingOrder)
    (trades : List TradeItem) :
    o.FilledTo (trades.foldl (TradingOrder.imported now stored) o)
      (filledBy stored o trades) := by
  induction trades using List.reverseRecOn with
  | nil => exact ⟨rfl, rfl, rfl, rfl, rfl⟩
  | append_singleton trades item ih =>
    rw [List.foldl_append, List.foldl_cons, List.foldl_nil, filledBy_append_singleton]
    generalize trades.foldl (TradingOrder.imported now stored) o = mid at ih ⊢
    unfold TradingOrder.imported
    by_cases hnew : mid.IsNewTrade stored item
    · by_cases hfit : mid.Fits item
      · rw [if_neg (not_not.2 hnew), if_pos hfit,
          if_pos ⟨ih.isNewTrade_iff.1 hnew, ih.fits_iff.1 hfit⟩]
        exact ⟨ih.id, ih.positionKey, ih.side, ih.quantity, by rw [← ih.filledQuantity]; rfl⟩
      · rw [if_neg (not_not.2 hnew), if_neg hfit, if_neg fun h => hfit (ih.fits_iff.2 h.2)]
        exact ⟨ih.id, ih.positionKey, ih.side, ih.quantity, ih.filledQuantity⟩
    · rw [if_pos hnew, if_neg fun h => hnew (ih.isNewTrade_iff.2 h.1)]
      exact ih

/-- The session after a trade is booked. -/
def Session.bookTrade (now : Time) (s : Session) (o : TradingOrder) (item : TradeItem) : Session :=
  s.bookExecution o item.tradedQuantity item.tradedPrice .dhanReconciliation
    (some (.exchange item.exchangeTradeId)) (tradeTime now item.exchangeTime)

/-! ## The state of a pass -/

namespace Pass

/-- The order a trade is booked on. -/
def tradeTarget (p : Pass) (item : TradeItem) : Option Uuid := p.byBroker.lookup item.orderId

/-- The order an entry of the order book is about. -/
def itemTarget (p : Pass) (item : BrokerOrderItem) : Option Uuid :=
  (p.byBroker.lookup item.orderId).or (p.byCorrelation.lookup item.correlationId)

/-- What every state of a pass over the stored rows of a user keeps. -/
structure Sound (stored : Database) (userId : Uuid) (p : Pass) : Prop where
  stored_eq : p.session.stored = stored
  ids : p.session.work.orders.map TradingOrder.id = stored.orders.map TradingOrder.id
  byBroker : ∀ entry ∈ p.byBroker, ∃ o ∈ localOrders stored userId, o.id = entry.2
  byCorrelation : ∀ entry ∈ p.byCorrelation, ∃ o ∈ localOrders stored userId, o.id = entry.2

theorem mem_of_lookup {β : Type*} {l : List (String × β)} {k : String} {v : β}
    (h : l.lookup k = some v) : (k, v) ∈ l := by
  obtain ⟨l₁, l₂, rfl, -⟩ := List.lookup_eq_some_iff.1 h
  simp

variable {stored : Database} {userId : Uuid} {p : Pass} (now : Time)

theorem mem_localOrders {d : Database} {o : TradingOrder} : o ∈ localOrders d userId ↔
    o ∈ d.orders ∧ o.userId = userId ∧ o.mode = .live ∧ o.status ∈ openOrderStatuses := by
  rw [localOrders, List.mem_filter, decide_eq_true_eq]

theorem Sound.isSome_of_local (h : p.Sound stored userId) {id : Uuid}
    (hid : ∃ o ∈ localOrders stored userId, o.id = id) : (p.order? id).isSome := by
  obtain ⟨o, ho, rfl⟩ := hid
  rw [Pass.order?, Database.order?_isSome, h.ids]
  exact List.mem_map_of_mem (List.mem_of_mem_filter ho)

theorem Sound.isSome_of_byBroker (h : p.Sound stored userId) {k : String} {id : Uuid}
    (hid : p.byBroker.lookup k = some id) : (p.order? id).isSome :=
  h.isSome_of_local (h.byBroker _ (mem_of_lookup hid))

/-- No entry names an order that was not loaded. -/
theorem Sound.itemTarget_local (h : p.Sound stored userId) {item : BrokerOrderItem} {id : Uuid}
    (ht : p.itemTarget item = some id) : ∃ o ∈ localOrders stored userId, o.id = id := by
  unfold itemTarget at ht
  rcases Option.or_eq_some_iff.1 ht with hb | ⟨-, hc⟩
  · exact h.byBroker _ (mem_of_lookup hb)
  · exact h.byCorrelation _ (mem_of_lookup hc)

theorem Sound.tradeTarget_local (h : p.Sound stored userId) {item : TradeItem} {id : Uuid}
    (ht : p.tradeTarget item = some id) : ∃ o ∈ localOrders stored userId, o.id = id :=
  h.byBroker _ (mem_of_lookup ht)

theorem Sound.ofItem?_eq (h : p.Sound stored userId) (item : BrokerOrderItem) :
    p.ofItem? item = (p.itemTarget item).bind p.order? := by
  unfold ofItem? ofBroker? itemTarget
  cases hb : p.byBroker.lookup item.orderId with
  | none => rfl
  | some id =>
    obtain ⟨o, ho⟩ := Option.isSome_iff_exists.1 (h.isSome_of_byBroker hb)
    simp [ho]

/-- An entry of the order book either names no loaded order or finds its row. -/
theorem Sound.ofItem?_cases (h : p.Sound stored userId) (item : BrokerOrderItem) :
    (p.itemTarget item = none ∧ p.ofItem? item = none) ∨
    ∃ o, p.itemTarget item = some o.id ∧ p.ofItem? item = some o ∧ p.order? o.id = some o := by
  rw [h.ofItem?_eq]
  cases ht : p.itemTarget item with
  | none => exact Or.inl ⟨rfl, rfl⟩
  | some id =>
    have hsome : (p.order? id).isSome := h.isSome_of_local (h.itemTarget_local ht)
    obtain ⟨o, ho⟩ := Option.isSome_iff_exists.1 hsome
    obtain ⟨-, rfl⟩ := Database.order?_mem ho
    exact Or.inr ⟨o, rfl, ho, ho⟩

/-- A trade either names no loaded order or finds its row. -/
theorem Sound.ofBroker?_cases (h : p.Sound stored userId) (item : TradeItem) :
    (p.tradeTarget item = none ∧ p.ofBroker? item.orderId = none) ∨
    ∃ o, p.tradeTarget item = some o.id ∧ p.ofBroker? item.orderId = some o ∧
      p.order? o.id = some o := by
  unfold tradeTarget ofBroker?
  cases hb : p.byBroker.lookup item.orderId with
  | none => exact Or.inl ⟨rfl, rfl⟩
  | some id =>
    obtain ⟨o, ho⟩ := Option.isSome_iff_exists.1 (h.isSome_of_byBroker hb)
    obtain ⟨-, rfl⟩ := Database.order?_mem ho
    exact Or.inr ⟨o, rfl, ho, ho⟩

/-! ## One entry -/

/-- Rewriting an order keeps the state of a pass sound. -/
theorem Sound.setOrder (h : p.Sound stored userId) (o : TradingOrder) :
    (p.setOrder o).Sound stored userId :=
  ⟨h.stored_eq, (Database.map_id_setOrder _ _).trans h.ids, h.byBroker, h.byCorrelation⟩

theorem attach_cases (p : Pass) (item : BrokerOrderItem) :
    (p.attach item = p ∧ ∀ o, p.ofItem? item = some o → o.attached item = o) ∨
    ∃ o, p.ofItem? item = some o ∧ item.orderId ≠ "" ∧ orMissing o.brokerOrderId = none ∧
      o.attached item = { o with brokerOrderId := some item.orderId } ∧
      p.attach item = { p.setOrder (o.attached item) with
        byBroker := (item.orderId, o.id) :: p.byBroker } := by
  unfold attach
  cases ho : p.ofItem? item with
  | none => exact Or.inl ⟨rfl, fun o h => by cases h⟩
  | some o =>
    dsimp only
    by_cases hc : item.orderId ≠ "" ∧ orMissing o.brokerOrderId = none
    · have hattached : o.attached item = { o with brokerOrderId := some item.orderId } := if_pos hc
      rw [if_pos hc, ← hattached]
      exact Or.inr ⟨o, rfl, hc.1, hc.2, hattached, rfl⟩
    · rw [if_neg hc]
      exact Or.inl ⟨rfl, fun o' h => by cases h; exact if_neg hc⟩

theorem Sound.attach (h : p.Sound stored userId) (item : BrokerOrderItem) :
    (p.attach item).Sound stored userId := by
  rcases attach_cases p item with ⟨hp, -⟩ | ⟨o, ho, -, -, -, hp⟩
  · rw [hp]; exact h
  · rw [hp]
    have hset := h.setOrder (o.attached item)
    refine ⟨hset.stored_eq, hset.ids, fun entry hentry => ?_, h.byCorrelation⟩
    rcases List.mem_cons.1 hentry with rfl | hentry
    · -- the entry added is for a row that was found through one of the dictionaries
      rcases h.ofItem?_cases item with ⟨-, hnone⟩ | ⟨o', ht, ho', -⟩
      · rw [hnone] at ho; cases ho
      · rw [ho'] at ho
        obtain rfl := Option.some_inj.1 ho
        exact h.itemTarget_local ht
    · exact h.byBroker entry hentry

theorem isNewTrade_iff_recorded? {o : TradingOrder} {item : TradeItem}
    (hid : item.exchangeTradeId ≠ "") :
    o.IsNewTrade p.session.stored item ↔
      p.session.recorded? o (some (.exchange item.exchangeTradeId)) = none := by
  have htruthy : BrokerExecutionId.truthy (.exchange item.exchangeTradeId) = true := by
    simpa [BrokerExecutionId.truthy] using hid
  rw [Session.recorded?, Option.filter_some, if_pos htruthy]
  exact and_iff_right hid

/-- What a trade does to the order it is found for. -/
theorem importTrade_found {item : TradeItem} {o : TradingOrder}
    (ho : p.ofBroker? item.orderId = some o) :
    (¬ o.IsNewTrade p.session.stored item ∧ p.importTrade now item = p) ∨
    (o.IsNewTrade p.session.stored item ∧ ¬ o.Fits item ∧
      p.importTrade now item = p.setOrder o.refuse) ∨
    (o.IsNewTrade p.session.stored item ∧ o.Fits item ∧
      p.importTrade now item = { p with session := p.session.bookTrade now o item }) := by
  unfold importTrade
  rw [ho]
  dsimp only
  by_cases hid : item.exchangeTradeId = ""
  · rw [if_pos hid]
    exact Or.inl ⟨fun hnew => hnew.1 hid, rfl⟩
  rw [if_neg hid, isNewTrade_iff_recorded? hid]
  rcases applyExecution_cases now p.session o item.tradedQuantity item.tradedPrice
      .dhanReconciliation (some (.exchange item.exchangeTradeId))
      (some (tradeTime now item.exchangeTime)) with ⟨⟨e, he⟩, hx⟩ | ⟨hn, hbad, hx⟩ | ⟨hn, hq, hfit, hx⟩
  · rw [hx]
    exact Or.inl ⟨by rw [he]; simp, rfl⟩
  · rw [hx]
    refine Or.inr (Or.inl ⟨hn, fun hf => ?_, rfl⟩)
    unfold TradingOrder.Fits at hf
    omega
  · rw [hx]
    exact Or.inr (Or.inr ⟨hn, ⟨hq, hfit⟩, rfl⟩)

/-- **What a trade does**: it names no loaded order, is skipped, is refused, or
is booked. -/
theorem importTrade_cases (h : p.Sound stored userId) (item : TradeItem) :
    (p.tradeTarget item = none ∧ p.importTrade now item = p) ∨
    ∃ o, p.tradeTarget item = some o.id ∧ p.order? o.id = some o ∧
      ((¬ o.IsNewTrade stored item ∧ p.importTrade now item = p) ∨
      (o.IsNewTrade stored item ∧ ¬ o.Fits item ∧ p.importTrade now item = p.setOrder o.refuse) ∨
      (o.IsNewTrade stored item ∧ o.Fits item ∧ p.importTrade now item =
        { p with session := p.session.bookTrade now o item })) := by
  rcases h.ofBroker?_cases item with ⟨ht, hnone⟩ | ⟨o, ht, ho, hrow⟩
  · refine Or.inl ⟨ht, ?_⟩
    rw [importTrade, hnone]
  · have hfound := importTrade_found now ho
    rw [h.stored_eq] at hfound
    exact Or.inr ⟨o, ht, hrow, hfound⟩

theorem Sound.importTrade (h : p.Sound stored userId) (item : TradeItem) :
    (p.importTrade now item).Sound stored userId := by
  rcases importTrade_cases now h item with
    ⟨-, hp⟩ | ⟨o, -, -, ⟨-, hp⟩ | ⟨-, -, hp⟩ | ⟨-, -, hp⟩⟩
  · rw [hp]; exact h
  · rw [hp]; exact h
  · rw [hp]; exact h.setOrder _
  · rw [hp]
    refine ⟨by simpa [Session.bookTrade] using h.stored_eq, ?_, h.byBroker, h.byCorrelation⟩
    rw [Session.bookTrade, Session.bookExecution_orders, Rows.map_key_replaceBy]
    exact h.ids

theorem takeStatus_cases (h : p.Sound stored userId) (item : BrokerOrderItem) :
    (p.itemTarget item = none ∧ p.takeStatus now item = p) ∨
    ∃ o, p.itemTarget item = some o.id ∧ p.order? o.id = some o ∧
      p.takeStatus now item = p.setOrder (statusOf now o item) := by
  unfold takeStatus
  rcases h.ofItem?_cases item with ⟨ht, hnone⟩ | ⟨o, ht, ho, hrow⟩
  · rw [hnone]; exact Or.inl ⟨ht, rfl⟩
  · rw [ho]; exact Or.inr ⟨o, ht, hrow, rfl⟩

theorem Sound.takeStatus (h : p.Sound stored userId) (item : BrokerOrderItem) :
    (p.takeStatus now item).Sound stored userId := by
  rcases takeStatus_cases now h item with ⟨-, hp⟩ | ⟨o, -, -, hp⟩
  · rw [hp]; exact h
  · rw [hp]; exact h.setOrder _

/-! ## The loops -/

theorem Sound.foldl_attach (h : p.Sound stored userId) (items : List BrokerOrderItem) :
    (items.foldl Pass.attach p).Sound stored userId :=
  List.foldlRecOn items Pass.attach h fun _ hp item _ => hp.attach item

theorem Sound.foldl_importTrade (h : p.Sound stored userId) (trades : List TradeItem) :
    (trades.foldl (Pass.importTrade now) p).Sound stored userId :=
  List.foldlRecOn trades (Pass.importTrade now) h fun _ hp item _ => hp.importTrade now item

theorem Sound.foldl_takeStatus (h : p.Sound stored userId) (items : List BrokerOrderItem) :
    (items.foldl (Pass.takeStatus now) p).Sound stored userId :=
  List.foldlRecOn items (Pass.takeStatus now) h fun _ hp item _ => hp.takeStatus now item

theorem sound_startPass (s : Session) (userId : Uuid) (h : s.work = s.stored) :
    (startPass s userId).Sound s.stored userId := by
  refine ⟨rfl, by rw [startPass, h], fun entry hentry => ?_, fun entry hentry => ?_⟩
  · obtain ⟨o, ho, hmap⟩ := List.mem_filterMap.1 (List.mem_reverse.1 hentry)
    obtain ⟨b, -, rfl⟩ := Option.map_eq_some_iff.1 hmap
    exact ⟨o, ho, rfl⟩
  · obtain ⟨o, ho, rfl⟩ := List.mem_map.1 (List.mem_reverse.1 hentry)
    exact ⟨o, ho, rfl⟩

/-- The dictionaries are filled before the trades are looked at. -/
theorem importTrade_dicts (p : Pass) (item : TradeItem) :
    (p.importTrade now item).byBroker = p.byBroker ∧
      (p.importTrade now item).byCorrelation = p.byCorrelation := by
  unfold importTrade
  split
  · exact ⟨rfl, rfl⟩
  split
  · exact ⟨rfl, rfl⟩
  split <;> exact ⟨rfl, rfl⟩

theorem takeStatus_dicts (p : Pass) (item : BrokerOrderItem) :
    (p.takeStatus now item).byBroker = p.byBroker ∧
      (p.takeStatus now item).byCorrelation = p.byCorrelation := by
  unfold takeStatus
  split <;> exact ⟨rfl, rfl⟩

theorem foldl_importTrade_dicts (trades : List TradeItem) (p : Pass) :
    (trades.foldl (Pass.importTrade now) p).byBroker = p.byBroker ∧
      (trades.foldl (Pass.importTrade now) p).byCorrelation = p.byCorrelation :=
  List.foldlRecOn (motive := fun q => q.byBroker = p.byBroker ∧ q.byCorrelation = p.byCorrelation)
    trades (Pass.importTrade now) ⟨rfl, rfl⟩ fun q hq item _ =>
      ⟨(importTrade_dicts now q item).1.trans hq.1, (importTrade_dicts now q item).2.trans hq.2⟩

theorem order?_setOrder_self {o x : TradingOrder} (ho : p.order? o.id = some o)
    (hid : x.id = o.id) : (p.setOrder x).order? o.id = some x := by
  rw [← hid] at ho ⊢
  exact Database.order?_setOrder_self ho

theorem order?_setOrder_of_ne {o : TradingOrder} {id : Uuid} (h : id ≠ o.id) :
    (p.setOrder o).order? id = p.order? id :=
  Database.order?_setOrder_of_ne _ h

theorem order?_bookTrade_self {o : TradingOrder} {item : TradeItem}
    (ho : p.order? o.id = some o) :
    ({ p with session := p.session.bookTrade now o item } : Pass).order? o.id =
      some (o.fill item.tradedQuantity item.tradedPrice (tradeTime now item.exchangeTime)) := by
  obtain ⟨hmem, -⟩ := Database.order?_mem ho
  rw [Pass.order?, Database.order?, Session.bookTrade, Session.bookExecution_orders]
  exact Rows.find?_replaceBy_self
    (x := o.fill item.tradedQuantity item.tradedPrice (tradeTime now item.exchangeTime))
    ⟨o, hmem, rfl⟩

theorem order?_bookTrade_of_ne {o : TradingOrder} {item : TradeItem} {id : Uuid} (h : id ≠ o.id) :
    ({ p with session := p.session.bookTrade now o item } : Pass).order? id = p.order? id := by
  rw [Pass.order?, Database.order?, Session.bookTrade, Session.bookExecution_orders]
  exact Rows.find?_replaceBy_of_ne h

/-- A trade acts on the order it names as `imported` and on no other. -/
theorem order?_importTrade (h : p.Sound stored userId) (item : TradeItem) (id : Uuid) :
    (p.importTrade now item).order? id =
      if p.tradeTarget item = some id then (p.order? id).map (·.imported now stored item)
      else p.order? id := by
  rcases importTrade_cases now h item with
    ⟨ht, hp⟩ | ⟨o, ht, ho, hcases⟩
  · rw [hp, ht, if_neg (by simp)]
  by_cases hid : id = o.id
  · subst hid
    rw [if_pos ht, ho]
    rcases hcases with ⟨hnew, hp⟩ | ⟨hnew, hfit, hp⟩ | ⟨hnew, hfit, hp⟩
    · rw [hp, ho, Option.map_some, TradingOrder.imported, if_pos hnew]
    · rw [hp, order?_setOrder_self (x := o.refuse) ho rfl, Option.map_some, TradingOrder.imported,
        if_neg (not_not.2 hnew), if_neg hfit]
    · rw [hp, order?_bookTrade_self now ho, Option.map_some, TradingOrder.imported,
        if_neg (not_not.2 hnew), if_pos hfit]
  · rw [if_neg fun heq => hid (Option.some_inj.1 (heq.symm.trans ht))]
    rcases hcases with ⟨-, hp⟩ | ⟨-, -, hp⟩ | ⟨-, -, hp⟩
    · rw [hp]
    · rw [hp]; exact order?_setOrder_of_ne hid
    · rw [hp]; exact order?_bookTrade_of_ne now hid

/-- The trades that name an order. -/
def tradesFor (p : Pass) (trades : List TradeItem) (id : Uuid) : List TradeItem :=
  trades.filter fun item => p.tradeTarget item = some id

/-- The entries of the order book that name an order. -/
def itemsFor (p : Pass) (items : List BrokerOrderItem) (id : Uuid) : List BrokerOrderItem :=
  items.filter fun item => p.itemTarget item = some id

theorem tradesFor_congr {p q : Pass} (h : q.byBroker = p.byBroker) (trades : List TradeItem)
    (id : Uuid) : q.tradesFor trades id = p.tradesFor trades id := by
  unfold tradesFor tradeTarget
  rw [h]

theorem itemsFor_congr {p q : Pass} (hb : q.byBroker = p.byBroker)
    (hc : q.byCorrelation = p.byCorrelation) (items : List BrokerOrderItem) (id : Uuid) :
    q.itemsFor items id = p.itemsFor items id := by
  unfold itemsFor itemTarget
  rw [hb, hc]

/-- **The second loop, order by order.** -/
theorem order?_foldl_importTrade (trades : List TradeItem) (id : Uuid) : ∀ {p : Pass},
    p.Sound stored userId →
    (trades.foldl (Pass.importTrade now) p).order? id =
      (p.order? id).map fun o =>
        (p.tradesFor trades id).foldl (TradingOrder.imported now stored) o := by
  induction trades with
  | nil => intro p _; simp [tradesFor]
  | cons item rest ih =>
    intro p h
    have htargets := tradesFor_congr (importTrade_dicts now p item).1 rest id
    rw [List.foldl_cons, ih (h.importTrade now item), htargets, order?_importTrade now h item id]
    by_cases ht : p.tradeTarget item = some id
    · rw [if_pos ht, tradesFor, tradesFor, List.filter_cons_of_pos (by simpa using ht)]
      cases p.order? id <;> rfl
    · rw [if_neg ht, tradesFor, tradesFor, List.filter_cons_of_neg (by simpa using ht)]

theorem order?_takeStatus (h : p.Sound stored userId) (item : BrokerOrderItem) (id : Uuid) :
    (p.takeStatus now item).order? id =
      if p.itemTarget item = some id then (p.order? id).map (statusOf now · item)
      else p.order? id := by
  rcases takeStatus_cases now h item with ⟨ht, hp⟩ | ⟨o, ht, ho, hp⟩
  · rw [hp, ht, if_neg (by simp)]
  have hsame : (statusOf now o item).id = o.id := by unfold statusOf; dsimp only; split <;> rfl
  by_cases hid : id = o.id
  · subst hid
    rw [if_pos ht, ho, hp, order?_setOrder_self ho hsame]
    rfl
  · rw [if_neg fun heq => hid (Option.some_inj.1 (heq.symm.trans ht)), hp]
    exact order?_setOrder_of_ne (by rwa [hsame])

/-- **The third loop, order by order.** -/
theorem order?_foldl_takeStatus (items : List BrokerOrderItem) (id : Uuid) : ∀ {p : Pass},
    p.Sound stored userId →
    (items.foldl (Pass.takeStatus now) p).order? id =
      (p.order? id).map fun o => (p.itemsFor items id).foldl (statusOf now) o := by
  induction items with
  | nil => intro p _; simp [itemsFor]
  | cons item rest ih =>
    intro p h
    have htargets := itemsFor_congr (takeStatus_dicts now p item).1
      (takeStatus_dicts now p item).2 rest id
    rw [List.foldl_cons, ih (h.takeStatus now item), htargets, order?_takeStatus now h item id]
    by_cases ht : p.itemTarget item = some id
    · rw [if_pos ht, itemsFor, itemsFor, List.filter_cons_of_pos (by simpa using ht)]
      cases p.order? id <;> rfl
    · rw [if_neg ht, itemsFor, itemsFor, List.filter_cons_of_neg (by simpa using ht)]

/-- The first loop changes broker ids only. -/
theorem order?_foldl_attach (h : p.Sound stored userId) (items : List BrokerOrderItem) (id : Uuid)
    {o : TradingOrder} (ho : p.order? id = some o) :
    ∃ b, (items.foldl Pass.attach p).order? id = some { o with brokerOrderId := b } ∧
      (orMissing o.brokerOrderId ≠ none → b = o.brokerOrderId) := by
  refine (List.foldlRecOn (motive := fun q => q.Sound stored userId ∧ ∃ b, q.order? id =
    some { o with brokerOrderId := b } ∧ (orMissing o.brokerOrderId ≠ none → b = o.brokerOrderId))
    items Pass.attach ⟨h, o.brokerOrderId, ho, fun _ => rfl⟩ ?_).2
  rintro q ⟨hq, b, hb, hkeep⟩ item -
  refine ⟨hq.attach item, ?_⟩
  rcases attach_cases q item with ⟨hp, -⟩ | ⟨o', ho', hne, hmissing, hattached, hp⟩
  · rw [hp]; exact ⟨b, hb, hkeep⟩
  · have hrow : q.order? o'.id = some o' := by
      rcases hq.ofItem?_cases item with ⟨-, hnone⟩ | ⟨o'', -, ho'', hrow⟩
      · rw [hnone] at ho'; cases ho'
      · rw [ho''] at ho'; obtain rfl := Option.some_inj.1 ho'; exact hrow
    rw [hp]
    by_cases hid : id = o'.id
    · subst hid
      rw [hrow] at hb
      obtain rfl := Option.some_inj.1 hb
      refine ⟨some item.orderId, ?_, fun hold => ?_⟩
      · rw [hattached]
        exact order?_setOrder_self hrow rfl
      · rw [hkeep hold] at hmissing
        exact absurd hmissing hold
    · have hsame : (o'.attached item).id = o'.id := by rw [hattached]
      exact ⟨b, by rw [← hb]; exact order?_setOrder_of_ne (by rwa [hsame]), hkeep⟩

end Pass

/-! ## The pass as a whole -/

/-- The state of a pass when its first loop is done: from then on the
dictionaries do not change. -/
def attachedPass (s : Session) (userId : Uuid) (brokerOrders : List BrokerOrderItem) : Pass :=
  brokerOrders.foldl Pass.attach (startPass s userId)

theorem sound_attachedPass (s : Store) (userId : Uuid) (brokerOrders : List BrokerOrderItem) :
    (attachedPass s.begin userId brokerOrders).Sound s.toDatabase userId :=
  (Pass.sound_startPass s.begin userId rfl).foldl_attach brokerOrders

/-- **The pass, order by order**: the row of an order after the pass is its row
with a broker id attached, the trades that name it imported and the statuses
that name it taken over, in this order. -/
theorem reconcileApply_order? (now : Time) (s : Store) (userId : Uuid)
    (brokerOrders : List BrokerOrderItem) (trades : List TradeItem) (id : Uuid) :
    (reconcileApply now s.begin userId brokerOrders trades).work.order? id =
      ((attachedPass s.begin userId brokerOrders).order? id).map fun o =>
        ((attachedPass s.begin userId brokerOrders).itemsFor brokerOrders id).foldl
          (Pass.statusOf now)
          (((attachedPass s.begin userId brokerOrders).tradesFor trades id).foldl
            (TradingOrder.imported now s.toDatabase) o) := by
  have h := sound_attachedPass s userId brokerOrders
  obtain ⟨hb, hc⟩ := Pass.foldl_importTrade_dicts now trades
    (attachedPass s.begin userId brokerOrders)
  have hstatus := Pass.order?_foldl_takeStatus now brokerOrders id
    (h.foldl_importTrade now trades)
  rw [Pass.order?_foldl_importTrade now trades id h, Pass.itemsFor_congr hb hc, Option.map_map]
    at hstatus
  exact hstatus

/-- The pass has nothing for an order it does not load. -/
theorem attachedPass_nothing {s : Store} {userId : Uuid} {o : TradingOrder} (ho : o ∈ s.orders)
    (hlocal : o ∉ localOrders s.toDatabase userId) (brokerOrders : List BrokerOrderItem)
    (trades : List TradeItem) :
    (attachedPass s.begin userId brokerOrders).tradesFor trades o.id = [] ∧
      (attachedPass s.begin userId brokerOrders).itemsFor brokerOrders o.id = [] := by
  have hsound := sound_attachedPass s userId brokerOrders
  have hnot : ∀ id, (∃ o ∈ localOrders s.toDatabase userId, o.id = id) → id ≠ o.id := by
    rintro id ⟨o', ho', rfl⟩ heq
    exact hlocal (s.valid.eq_of_id (List.mem_of_mem_filter ho') ho heq ▸ ho')
  constructor
  · exact List.filter_eq_nil_iff.2 fun item _ ht =>
      hnot _ (hsound.tradeTarget_local (of_decide_eq_true ht)) rfl
  · exact List.filter_eq_nil_iff.2 fun item _ ht =>
      hnot _ (hsound.itemTarget_local (of_decide_eq_true ht)) rfl

end GnkAlgo
