import GnkAlgo.Trading.BrokerFills
import GnkAlgo.Trading.Divergence

/-!
# Modifications of which the result is not known

Where the request of a modification times out, `modify` puts quantity and limit
price back and marks the order UNKNOWN.  The broker has applied the change or it has
not; a reconciliation pass reads neither quantity nor price from its books.

* `Standing`, `standingAfter` — what the order stands for, here and at the broker;
* `OrderBooks`, `CompletePass` — passes over complete books, as far as they concern
  the order;
* `Follows`, `follows_reconcile` — what such passes keep of the order;
* `Follows.reconciled_iff`, `Follows.recordedTrades_iff` — when it is in step with the
  broker, and when a pass has all its trades recorded;
* `modification_reconciled_iff` — passes bring the order in step with the broker exactly
  when the broker has not applied a change, and the last pass can be committed or has
  nothing left to record of the order.
-/

namespace GnkAlgo

open Transition

/-! ## What an order stands for -/

/-- The quantity and the limit price of an order. -/
structure Standing where
  quantity : ℤ
  limitPrice : Option ℚ
  deriving DecidableEq, Repr

def TradingOrder.standing (o : TradingOrder) : Standing := ⟨o.quantity, o.limitPrice⟩

/-- What an order stands for at the broker, which has applied a modification or has
not. -/
def standingAfter (o : TradingOrder) (applied : Bool) (quantity : ℤ) (limitPrice : ℚ) : Standing :=
  if applied then ⟨quantity, some limitPrice⟩ else o.standing

/-- A status that is open, or fills that add up. -/
def TradingOrder.OpenOrFull (o : TradingOrder) : Prop :=
  o.status ∈ openOrderStatuses ∨ o.filledQuantity = o.quantity

section Row

variable {now : Time} {stored : Database} {o : TradingOrder}

theorem imported_standing {item : TradeItem} :
    (o.imported now stored item).standing = o.standing := by
  unfold TradingOrder.imported
  split
  · rfl
  split <;> rfl

/-- A trade closes an order only by filling it. -/
theorem TradingOrder.OpenOrFull.imported (h : o.OpenOrFull) (item : TradeItem) :
    (o.imported now stored item).OpenOrFull := by
  unfold TradingOrder.imported
  split
  · exact h
  split
  · by_cases hfull : o.filledQuantity + item.tradedQuantity = o.quantity
    · exact Or.inr hfull
    · refine Or.inl ?_
      rw [TradingOrder.fill, if_neg hfull]
      show OrderStatus.partiallyFilled ∈ openOrderStatuses
      decide
  · refine Or.inl ?_
    show OrderStatus.unknown ∈ openOrderStatuses
    decide

/-- **The row of an order after a pass** stands for what it stood for, and is closed
by its fills or by an entry with a final status. -/
theorem exists_row_reconcileApply (now : Time) {s : Store} (userId : Uuid)
    (brokerOrders : List BrokerOrderItem) (trades : List TradeItem) {row : TradingOrder}
    (hrow : row ∈ s.orders) : ∃ new,
      (reconcileApply now s.begin userId brokerOrders trades).work.order? row.id = some new ∧
      new.standing = row.standing ∧
      (row.OpenOrFull → new.OpenOrFull ∨ ∃ item ∈ namedItems s userId brokerOrders row,
        mapDhanStatus item.orderStatus ∈ terminalStatuses) := by
  obtain ⟨b, -, hnew⟩ := exists_importedRow now userId brokerOrders trades hrow
  refine ⟨_, hnew, ?_, fun hopen => ?_⟩
  · rw [foldl_statusOf_eq]
    exact List.foldlRecOn (motive := fun x : TradingOrder => x.standing = row.standing) _ _ rfl
      fun x hx item _ => imported_standing.trans hx
  have hmid : ((namedTrades s userId brokerOrders trades row).foldl
      (TradingOrder.imported now s.toDatabase) { row with brokerOrderId := b }).OpenOrFull :=
    List.foldlRecOn (motive := TradingOrder.OpenOrFull) _ _ hopen fun x hx item _ =>
      hx.imported item
  generalize (namedTrades s userId brokerOrders trades row).foldl
    (TradingOrder.imported now s.toDatabase) { row with brokerOrderId := b } = mid at hmid
  rw [foldl_statusOf_eq, Writes.lastWrite_some]
  cases hlast : (namedItems s userId brokerOrders row).getLast? with
  | none => exact Or.inl hmid
  | some item =>
    by_cases hterminal : mapDhanStatus item.orderStatus ∈ terminalStatuses
    · exact Or.inr ⟨item, List.mem_of_getLast? hlast, hterminal⟩
    · refine Or.inl (Or.inl ?_)
      change entryStatus mid.fallsShort item ∈ openOrderStatuses
      unfold entryStatus
      split
      · decide
      · exact not_not.1 fun h => hterminal (mem_terminalStatuses.2 h)

end Row

/-! ## Complete books -/

/-- The trades that the broker makes of an order. -/
def Broker.tradesOf (broker : Broker) (o : TradingOrder) : List TradeItem :=
  (broker.trades o.userId).filter fun item =>
    item.orderId = broker.orderId o.userId o.clientOrderId

theorem Broker.mem_tradesOf {broker : Broker} {o : TradingOrder} {item : TradeItem} :
    item ∈ broker.tradesOf o ↔ item ∈ broker.trades o.userId ∧
      item.orderId = broker.orderId o.userId o.clientOrderId := by
  rw [Broker.tradesOf, List.mem_filter, decide_eq_true_eq]

/-- The trades of an order are recorded. -/
def RecordedTrades (broker : Broker) (o : TradingOrder) (d : Database) : Prop :=
  ∀ item ∈ broker.tradesOf o, d.execution? o.userId (.exchange item.exchangeTradeId) ≠ none

/-- The books of a pass, as far as they concern an order that the broker has at a
quantity: what is filled and what they list besides is within it, and an entry of
the order has a final status only when they list all its trades. -/
structure OrderBooks (broker : Broker) (o : TradingOrder) (quantity : ℤ) (d : Database)
    (brokerOrders : List BrokerOrderItem) (trades : List TradeItem) : Prop where
  within : ∀ row, d.order? o.id = some row →
    row.filledQuantity + broker.unrecorded d o.userId o.clientOrderId trades ≤ quantity
  final : ∀ item ∈ brokerOrders, item.orderId = broker.orderId o.userId o.clientOrderId ∨
    item.correlationId = o.clientOrderId → mapDhanStatus item.orderStatus ∈ terminalStatuses →
    ∀ trade ∈ broker.tradesOf o, trade ∈ trades

/-- A reconciliation pass over complete books. -/
def CompletePass (broker : Broker) (o : TradingOrder) (quantity : ℤ) (s : Store) :
    OrderEvent → Prop
  | .reconcile _ userId brokerOrders trades => TrueBooks broker s userId brokerOrders trades ∧
    (userId = o.userId → OrderBooks broker o quantity s.toDatabase brokerOrders trades)
  | _ => False

/-- The order is in step with the broker: it stands for the same, and has every fill. -/
def Reconciled (broker : Broker) (o : TradingOrder) (standing : Standing) (d : Database) : Prop :=
  ∃ row, d.order? o.id = some row ∧ row.standing = standing ∧
    ∀ item ∈ broker.tradesOf o, ∃ e ∈ d.executions, row.Traded item e

/-! ## One pass -/

section Pass

variable {broker : Broker} {s : Store} {o row : TradingOrder} {userId : Uuid}
  {brokerOrders : List BrokerOrderItem} {trades : List TradeItem} {now : Time}

/-- What is recorded stays recorded. -/
theorem execution?_reconcile (now : Time) (userId : Uuid) (brokerOrders : List BrokerOrderItem)
    (trades : List TradeItem) {owner : Uuid} {id : BrokerExecutionId}
    (h : s.execution? owner id ≠ none) :
    (reconcile now s userId brokerOrders trades).1.execution? owner id ≠ none := by
  rcases Session.commitOr_fst (reconcileApply now s.begin userId brokerOrders trades) s (.ok ())
    with hs | ⟨-, hok⟩
  · rw [reconcile, hs]
    exact h
  · obtain ⟨es, -, hes, -⟩ := importedPass_append now s userId brokerOrders [] trades
    have hstart : (importedPass now s userId brokerOrders []).session.work.executions =
        s.executions := (attachedPass_frame s userId brokerOrders).1
    rw [Ne, Database.execution?_eq_none, not_not] at h ⊢
    rw [reconcile_toDatabase hok, (foldl_takeStatus_rows now brokerOrders _).1,
      show importedPass now s userId brokerOrders trades = _ from rfl, ← List.nil_append trades,
        hes,
      hstart, List.filterMap_append]
    exact List.mem_append_left _ h

/-- An entry of the order book that names a loaded order is an entry of it. -/
theorem Pass.AtBroker.entry_of_named {stored : Database} {p : Pass}
    (h : p.AtBroker broker stored userId) {item : BrokerOrderItem}
    (hlocal : row ∈ localOrders stored userId) (hnamed : p.itemTarget item = some row.id) :
    item.orderId = broker.orderId row.userId row.clientOrderId ∨
      item.correlationId = row.clientOrderId := by
  obtain ⟨r, hr⟩ := Option.isSome_iff_exists.1 (h.toSound.isSome_of_local ⟨row, hlocal, rfl⟩)
  obtain ⟨hsame, -⟩ := h.loaded row hlocal r hr
  obtain ⟨-, -, hmode, -⟩ := Pass.mem_localOrders.1 hlocal
  unfold Pass.itemTarget at hnamed
  rcases Option.or_eq_some_iff.1 hnamed with hbroker | ⟨-, hclient⟩
  · have hid := h.byBrokerId _ _ (Pass.mem_of_lookup hbroker) r hr
    have hat := h.known.orderIds r (Database.order?_mem hr).1 (hsame.mode.trans hmode) _ hid
    exact Or.inl (by rw [hat, hsame.userId, hsame.clientOrderId])
  · have hid := h.byClientId _ _ (Pass.mem_of_lookup hclient) r hr
    exact Or.inr (hid.symm.trans hsame.clientOrderId)

/-- **A trade of a loaded order** that has room for what the books list is recorded
by a pass that commits. -/
theorem recorded_of_listed (hknown : broker.Known s.toDatabase)
    (hbooks : TrueBooks broker s userId brokerOrders trades)
    (hlocal : row ∈ localOrders s.toDatabase userId)
    (hid : row.brokerOrderId = some (broker.orderId row.userId row.clientOrderId))
    (hroom : row.filledQuantity + broker.unrecorded s.toDatabase userId row.clientOrderId trades ≤
      row.quantity)
    (hok : (reconcile now s userId brokerOrders trades).2 = .ok ()) {item : TradeItem}
    (hitem : item ∈ trades) (hof : item.orderId = broker.orderId row.userId row.clientOrderId) :
    (reconcile now s userId brokerOrders trades).1.execution? userId
      (.exchange item.exchangeTradeId) ≠ none := by
  by_cases hnew : s.execution? userId (.exchange item.exchangeTradeId) = none
  · have hp := atBroker_attachedPass hknown hbooks
    obtain ⟨r, hr⟩ := Option.isSome_iff_exists.1 (hp.toSound.isSome_of_local ⟨row, hlocal, rfl⟩)
    obtain ⟨hsame, -⟩ := hp.loaded row hlocal r hr
    obtain ⟨hmem, -, hmode, -⟩ := Pass.mem_localOrders.1 hlocal
    have hrid : r.brokerOrderId = some item.orderId := by
      rw [hsame.brokerOrderId (by rw [hknown.orMissing_eq hmem hmode hid]; simp), hid, hof]
    have htarget := hp.tradeTarget_eq (attachedPass_frame s userId brokerOrders).2.2 hlocal hr hrid
    obtain ⟨before, after, htrades⟩ := List.append_of_mem hitem
    exact (execution?_reconcile_iff hok _).2 (Or.inr ⟨before, item, after, row, htrades,
      books_of_listed hknown hbooks htrades hlocal hroom htarget hnew, rfl⟩)
  · exact execution?_reconcile now userId brokerOrders trades hnew

/-- Where an order is full, the books list nothing of it that is not recorded. -/
theorem recorded_of_full (hbooks : TrueBooks broker s userId brokerOrders trades)
    {clientOrderId : String}
    (hfull : broker.unrecorded s.toDatabase userId clientOrderId trades ≤ 0)
    {item : TradeItem} (hitem : item ∈ trades)
    (hof : item.orderId = broker.orderId userId clientOrderId) :
    s.execution? userId (.exchange item.exchangeTradeId) ≠ none := by
  intro hnew
  have hpos : ∀ x ∈ trades, 0 < x.tradedQuantity := fun x hx =>
    broker.quantity_pos userId x (hbooks.listed.subset hx)
  obtain ⟨before, after, rfl⟩ := List.append_of_mem hitem
  have hbefore : 0 ≤ broker.unrecorded s.toDatabase userId clientOrderId before :=
    Rows.total_nonneg fun x hx => (hpos x (by simp [hx])).le
  have hafter : 0 ≤ broker.unrecorded s.toDatabase userId clientOrderId after :=
    Rows.total_nonneg fun x hx => (hpos x (by simp [hx])).le
  have hmatch : decide (item.orderId = broker.orderId userId clientOrderId ∧
      s.execution? userId (.exchange item.exchangeTradeId) = none) = true :=
    decide_eq_true ⟨hof, hnew⟩
  rw [Broker.unrecorded, Rows.total_append, Rows.total_cons, if_pos hmatch] at hfull
  rw [Broker.unrecorded] at hbefore hafter
  have := hpos item (by simp)
  omega

/-- A recorded trade of an order is an execution of it. -/
theorem Broker.Known.exists_traded (h : broker.Known s.toDatabase) (hrow : row ∈ s.orders)
    (hmode : row.mode = .live) {item : TradeItem} (hitem : item ∈ broker.trades row.userId)
    (hid : row.brokerOrderId = some item.orderId)
    (hrecorded : s.execution? row.userId (.exchange item.exchangeTradeId) ≠ none) :
    ∃ e ∈ s.executions, row.Traded item e := by
  obtain ⟨e, he⟩ := Option.ne_none_iff_exists'.1 hrecorded
  obtain ⟨hmem, hkey⟩ := Database.execution?_mem he
  obtain ⟨y, hy, item', hitem', htrade, hymode, hyuser, hyid, htraded⟩ :=
    h.executions e hmem _ _ hkey
  obtain rfl := broker.trade_eq hitem' hitem htrade
  obtain rfl := h.eq_of_brokerOrderId s.valid.clientKeys hrow hy hmode hymode hyuser.symm hid hyid
  exact ⟨e, hmem, htraded⟩

end Pass

/-! ## Runs of passes -/

/-- What passes over complete books keep of an order that the broker has at a
quantity. -/
structure Follows (broker : Broker) (o : TradingOrder) (quantity : ℤ) (s : Store) : Prop where
  known : broker.Known s.toDatabase
  row : ∃ row, s.order? o.id = some row ∧ o.SameAtBroker row ∧ row.standing = o.standing ∧
    (quantity = o.quantity → row.OpenOrFull ∨ RecordedTrades broker o s.toDatabase)

section Runs

variable {broker : Broker} {settings : Settings} {s : Store} {o : TradingOrder} {userId : Uuid}
  {brokerOrders : List BrokerOrderItem} {trades : List TradeItem} {now : Time} {quantity : ℤ}

/-- The row has the broker id of the order it is. -/
theorem TradingOrder.SameAtBroker.brokerOrderId_eq {row : TradingOrder} (hsame : o.SameAtBroker row)
    (hid : o.brokerOrderId = some (broker.orderId o.userId o.clientOrderId)) :
    row.brokerOrderId = some (broker.orderId o.userId o.clientOrderId) := by
  have hmissing : orMissing o.brokerOrderId ≠ none := by
    rw [hid, orMissing, Option.filter_some, if_pos]
    · simp
    · exact decide_eq_true (broker.orderId_ne _ _)
  rw [hsame.brokerOrderId hmissing, hid]

/-- All trades of an order that a committed pass lists are recorded, if it has loaded
the order. -/
theorem recordedTrades_of_loaded {row : TradingOrder} (hknown : broker.Known s.toDatabase)
    (hbooks : TrueBooks broker s o.userId brokerOrders trades)
    (hroom : row.filledQuantity + broker.unrecorded s.toDatabase o.userId o.clientOrderId trades ≤
      row.quantity)
    (hid : o.brokerOrderId = some (broker.orderId o.userId o.clientOrderId))
    (hsame : o.SameAtBroker row) (hlocal : row ∈ localOrders s.toDatabase o.userId)
    (hall : ∀ item ∈ broker.tradesOf o, item ∈ trades)
    (hok : (reconcile now s o.userId brokerOrders trades).2 = .ok ()) :
    RecordedTrades broker o (reconcile now s o.userId brokerOrders trades).1.toDatabase := by
  have hrow : row.brokerOrderId = some (broker.orderId row.userId row.clientOrderId) := by
    rw [hsame.brokerOrderId_eq hid, hsame.userId, hsame.clientOrderId]
  intro item hitem
  refine recorded_of_listed hknown hbooks hlocal hrow ?_ hok (hall item hitem) ?_
  · rwa [hsame.clientOrderId]
  · rw [hsame.userId, hsame.clientOrderId]
    exact (Broker.mem_tradesOf.1 hitem).2

/-- **One pass** over complete books. -/
theorem follows_reconcile (h : Follows broker o quantity s)
    (hid : o.brokerOrderId = some (broker.orderId o.userId o.clientOrderId))
    (hpass : CompletePass broker o quantity s (.reconcile now userId brokerOrders trades)) :
    Follows broker o quantity (reconcile now s userId brokerOrders trades).1 := by
  obtain ⟨hbooks, horder⟩ := hpass
  refine ⟨known_reconcile now h.known hbooks, ?_⟩
  obtain ⟨row, hrow, hsame, hstanding, hkept⟩ := h.row
  rcases Session.commitOr_fst (reconcileApply now s.begin userId brokerOrders trades) s (.ok ())
    with hs | ⟨hs, hok⟩
  · rw [reconcile, hs]
    exact ⟨row, hrow, hsame, hstanding, hkept⟩
  obtain ⟨hmem, hrowId⟩ := Database.order?_mem hrow
  obtain ⟨new, hnew, hnewStanding, hclosed⟩ :=
    exists_row_reconcileApply now userId brokerOrders trades hmem
  obtain ⟨new', hnew', hsame'⟩ := (atBroker_endPass now h.known hbooks).exists_row hmem
  obtain rfl : new = new' := Option.some_inj.1 (hnew.symm.trans hnew')
  refine ⟨new, ?_, hsame.trans hsame', hnewStanding.trans hstanding, fun hquantity => ?_⟩
  · rw [reconcile, ← hs, ← hrowId]
    exact hnew
  rcases hkept hquantity with hopen | hrecorded
  · refine (hclosed hopen).imp_right ?_
    rintro ⟨item, hmemNamed, hterminal⟩
    -- an entry of the order has a final status, so that the books list all its trades
    obtain ⟨hitem, hnamed⟩ := List.mem_filter.1 hmemNamed
    rw [decide_eq_true_eq] at hnamed
    have hp := atBroker_attachedPass h.known hbooks
    have hlocal : row ∈ localOrders s.toDatabase userId := by
      obtain ⟨x, hx, hxid⟩ := hp.toSound.itemTarget_local hnamed
      rwa [← s.valid.eq_of_id (List.mem_of_mem_filter hx) hmem hxid]
    have huser : userId = o.userId := (Pass.mem_localOrders.1 hlocal).2.1.symm.trans hsame.userId
    subst huser
    have hentry := hp.entry_of_named hlocal hnamed
    rw [hsame.userId, hsame.clientOrderId] at hentry
    refine recordedTrades_of_loaded h.known hbooks ?_ hid hsame hlocal
      ((horder rfl).final item hitem hentry hterminal) hok
    have hrowQuantity : row.quantity = o.quantity := congrArg Standing.quantity hstanding
    rw [hrowQuantity, ← hquantity]
    exact (horder rfl).within row hrow
  · exact Or.inr fun item hitem =>
      execution?_reconcile now userId brokerOrders trades (hrecorded item hitem)

/-- **Runs** of passes over complete books. -/
theorem follows_run {t : Store} {passes : List OrderEvent} (h : Follows broker o quantity s)
    (hid : o.brokerOrderId = some (broker.orderId o.userId o.clientOrderId))
    (hrun : Run (Guarded (CompletePass broker o quantity) (Steps (orderStep settings))) s passes
      t) : Follows broker o quantity t := by
  refine hrun.invariant (P := Follows broker o quantity) h ?_
  rintro s e _ hs ⟨hpass, rfl⟩
  cases e with
  | place => exact hpass.elim
  | cancel => exact hpass.elim
  | modify => exact hpass.elim
  | reconcile => exact follows_reconcile hs hid hpass

/-- After a pass whose books list all trades of the order, these are recorded. -/
theorem Follows.recordedTrades (h : Follows broker o quantity s) (hlive : o.mode = .live)
    (hid : o.brokerOrderId = some (broker.orderId o.userId o.clientOrderId))
    (hquantity : quantity = o.quantity)
    (hpass : CompletePass broker o quantity s (.reconcile now o.userId brokerOrders trades))
    (hall : ∀ item ∈ broker.tradesOf o, item ∈ trades)
    (hok : (reconcile now s o.userId brokerOrders trades).2 = .ok ()) :
    RecordedTrades broker o (reconcile now s o.userId brokerOrders trades).1.toDatabase := by
  obtain ⟨hbooks, horder⟩ := hpass
  obtain ⟨row, hrow, hsame, hstanding, hkept⟩ := h.row
  have hrowQuantity : row.quantity = o.quantity := congrArg Standing.quantity hstanding
  have hroom := (horder rfl).within row hrow
  rw [hquantity, ← hrowQuantity] at hroom
  rcases hkept hquantity with (hopen | hfull) | hrecorded
  · refine recordedTrades_of_loaded h.known hbooks hroom hid hsame ?_ hall hok
    exact Pass.mem_localOrders.2
      ⟨(Database.order?_mem hrow).1, hsame.userId, hsame.mode.trans hlive, hopen⟩
  · have hrest : broker.unrecorded s.toDatabase o.userId o.clientOrderId trades ≤ 0 := by
      rw [hfull] at hroom
      omega
    exact fun item hitem => execution?_reconcile now o.userId brokerOrders trades
      (recorded_of_full hbooks hrest (hall item hitem) (Broker.mem_tradesOf.1 hitem).2)
  · exact fun item hitem =>
      execution?_reconcile now o.userId brokerOrders trades (hrecorded item hitem)

/-- **When a pass has all trades of the order recorded**: it can be committed, or they
were recorded before. -/
theorem Follows.recordedTrades_iff (h : Follows broker o quantity s) (hlive : o.mode = .live)
    (hid : o.brokerOrderId = some (broker.orderId o.userId o.clientOrderId))
    (hquantity : quantity = o.quantity)
    (hpass : CompletePass broker o quantity s (.reconcile now o.userId brokerOrders trades))
    (hall : ∀ item ∈ broker.tradesOf o, item ∈ trades) :
    RecordedTrades broker o (reconcile now s o.userId brokerOrders trades).1.toDatabase ↔
      PassBookable s o.userId brokerOrders trades ∨ RecordedTrades broker o s.toDatabase := by
  constructor
  · intro hrecorded
    by_cases hok : (reconcile now s o.userId brokerOrders trades).2 = .ok ()
    · exact Or.inl (reconcile_commits_iff.1 hok)
    · rcases Session.commitOr_fst (reconcileApply now s.begin o.userId brokerOrders trades) s
        (.ok ()) with hs | ⟨-, hcommitted⟩
      · rw [reconcile, hs] at hrecorded
        exact Or.inr hrecorded
      · exact absurd hcommitted hok
  · rintro (hbookable | hrecorded)
    · exact h.recordedTrades hlive hid hquantity hpass hall (reconcile_commits_iff.2 hbookable)
    · exact fun item hitem =>
        execution?_reconcile now o.userId brokerOrders trades (hrecorded item hitem)

/-- **When the order is in step with the broker**: the broker has it as it was before the
modification, and its trades are recorded. -/
theorem Follows.reconciled_iff (h : Follows broker o quantity s) (hlive : o.mode = .live)
    (hid : o.brokerOrderId = some (broker.orderId o.userId o.clientOrderId))
    {standing : Standing} : Reconciled broker o standing s.toDatabase ↔
      standing = o.standing ∧ RecordedTrades broker o s.toDatabase := by
  obtain ⟨row, hrow, hsame, hstanding, -⟩ := h.row
  constructor
  · rintro ⟨row', hrow', hstanding', htraded⟩
    obtain rfl := Option.some_inj.1 (hrow.symm.trans hrow')
    refine ⟨hstanding'.symm.trans hstanding, fun item hitem => ?_⟩
    obtain ⟨e, he, htrade⟩ := htraded item hitem
    rw [Ne, Database.execution?_eq_none, not_not, ← hsame.userId]
    exact List.mem_filterMap.2 ⟨e, he, htrade.brokerKey⟩
  · rintro ⟨hequal, hrecorded⟩
    refine ⟨row, hrow, hstanding.trans hequal.symm, fun item hitem => ?_⟩
    obtain ⟨hmade, hof⟩ := Broker.mem_tradesOf.1 hitem
    refine h.known.exists_traded (Database.order?_mem hrow).1 (hsame.mode.trans hlive) ?_ ?_ ?_
    · rwa [hsame.userId]
    · rw [hsame.brokerOrderId_eq hid, hof]
    · rw [hsame.userId]
      exact hrecorded item hitem

end Runs

/-! ## The modification -/

/-- An order whose modification ends without a result has a broker id. -/
theorem brokerOrderId_of_ambiguous {broker : Broker} {s : Store} {o : TradingOrder}
    {outcome : HttpOutcome} {code : String} (hknown : broker.Known s.toDatabase) (ho : o ∈ s.orders)
    (hlive : o.mode = .live) (h : dhanModify o outcome = .error ⟨code, true⟩) :
    o.brokerOrderId = some (broker.orderId o.userId o.clientOrderId) := by
  unfold dhanModify at h
  cases hid : orMissing o.brokerOrderId with
  | none =>
    rw [hid] at h
    cases h
  | some id =>
    have hbroker := (Option.filter_eq_some_iff.1 hid).1
    rw [hbroker, hknown.orderIds o ho hlive id hbroker]

/-- The order after a modification without a result: UNKNOWN, and what it was. -/
theorem follows_modify {broker : Broker} {settings : Settings} {s : Store} {o : TradingOrder}
    {outcome : HttpOutcome} {code : String} (hknown : broker.Known s.toDatabase) (ho : o ∈ s.orders)
    (hlive : o.mode = .live) {now : Time} {quantity : ℤ} {limitPrice : ℚ}
    (quote : Option NormalizedQuote) (hguards : ModifyGuards settings now s o quantity)
    (h : dhanModify o outcome = .error ⟨code, true⟩) (brokerQuantity : ℤ) :
    Follows broker o brokerQuantity
      (modify settings now s o quantity limitPrice quote outcome).1 := by
  rcases modify_cases settings now ho quantity limitPrice quote outcome with
    ⟨hpaper, -⟩ | ⟨-, hnot, -⟩ | ⟨-, -, -, hs⟩
  · exact absurd (hpaper.symm.trans hlive) (by decide)
  · exact absurd hguards hnot
  rw [h] at hs
  have hself := s.valid.order?_eq ho
  refine ⟨?_, (modifyFinish o quantity limitPrice (.error ⟨code, true⟩)).1.getD o, ?_,
    ⟨rfl, rfl, rfl, rfl, rfl, fun _ => rfl⟩, rfl, fun _ => Or.inl (Or.inl ?_)⟩
  · rw [hs]
    exact hknown.rewrite s.valid.orderIds ho ⟨rfl, rfl, rfl, rfl, rfl, fun _ => rfl⟩ rfl
  · rw [hs]
    exact Database.order?_setOrder_self
      (o := (modifyFinish o quantity limitPrice (.error ⟨code, true⟩)).1.getD o) hself
  · show OrderStatus.unknown ∈ openOrderStatuses
    decide

/-- **Ambiguous modifications.**  After a modification whose request ends without a
result, and passes over complete books, the last of which lists all trades of the order,
the order is in step with the broker exactly when the broker has not applied the
modification or it was none, and the trades that the last pass books do not collide or
those of the order were recorded before it. -/
theorem modification_reconciled_iff {broker : Broker} {settings : Settings} {s t : Store}
    {o : TradingOrder} {now later : Time} {quantity : ℤ} {limitPrice : ℚ}
    {quote : Option NormalizedQuote} {outcome : HttpOutcome} {code : String} {applied : Bool}
    {passes : List OrderEvent} {brokerOrders : List BrokerOrderItem} {trades : List TradeItem}
    (hknown : broker.Known s.toDatabase) (ho : o ∈ s.orders) (hlive : o.mode = .live)
    (hguards : ModifyGuards settings now s o quantity)
    (hambiguous : dhanModify o outcome = .error ⟨code, true⟩)
    (hrun : Run (Guarded (CompletePass broker o (standingAfter o applied quantity
      limitPrice).quantity) (Steps (orderStep settings)))
      (modify settings now s o quantity limitPrice quote outcome).1 passes t)
    (hlast : CompletePass broker o (standingAfter o applied quantity limitPrice).quantity t
      (.reconcile later o.userId brokerOrders trades))
    (hall : ∀ item ∈ broker.tradesOf o, item ∈ trades) :
    Reconciled broker o (standingAfter o applied quantity limitPrice)
        (reconcile later t o.userId brokerOrders trades).1.toDatabase ↔
      (applied = true → quantity = o.quantity ∧ some limitPrice = o.limitPrice) ∧
      (PassBookable t o.userId brokerOrders trades ∨ RecordedTrades broker o t.toDatabase) := by
  have hid := brokerOrderId_of_ambiguous hknown ho hlive hambiguous
  have hfollows := follows_run (follows_modify hknown ho hlive quote hguards hambiguous _) hid hrun
  have hiff : standingAfter o applied quantity limitPrice = o.standing ↔
      (applied = true → quantity = o.quantity ∧ some limitPrice = o.limitPrice) := by
    cases applied
    · exact iff_of_true rfl fun h => absurd h Bool.false_ne_true
    · exact ⟨fun h _ => Standing.mk.inj h, fun h => congrArg₂ Standing.mk (h rfl).1 (h rfl).2⟩
  rw [(follows_reconcile hfollows hid hlast).reconciled_iff hlive hid, ← hiff]
  exact and_congr_right fun hequal =>
    hfollows.recordedTrades_iff hlive hid (congrArg Standing.quantity hequal) hlast hall

/-! ### A request that times out -/

/-- A limit order for 10 at 100, accepted under the id `Da`. -/
def limitPlaced : OrderEvent :=
  .place 0 1 7 3 tenAtHundred (some quoteAtHundred) true
    (.response 200 (.object { orderId := some "Da", orderStatus := some "PENDING" }))

/-- The row of the order. -/
def limitOrder : TradingOrder where
  id := 10
  userId := 7
  instrumentId := 3
  brokerConnectionId := some 5
  clientOrderId := "a"
  brokerOrderId := some "Da"
  mode := .live
  side := .buy
  orderType := .limit
  productType := .intraday
  validity := .day
  quantity := 10
  limitPrice := some 100
  status := .open
  version := 1
  submittedAt := some 0

def limitStore : Store := orderStep liveSettings connectedStore limitPlaced

/-- The store after the request to make it 20 at 101 has timed out. -/
def timedOut : Store := (modify liveSettings 3 limitStore limitOrder 20 101 none (.network true)).1

/-- A broker that trades 12 of the order. -/
def overBroker : Broker where
  __ := lateBroker
  trades userId := if userId = 7 then [overTrade] else []
  tradeIds userId := by split <;> simp
  tradeId_ne userId item h := by
    split at h
    · rw [List.mem_singleton.1 h]; decide
    · cases h
  quantity_pos userId item h := by
    split at h
    · rw [List.mem_singleton.1 h]; decide
    · cases h

theorem limitStore_orders : limitStore.orders = [limitOrder] := by decide +kernel

theorem mem_limitStore : limitOrder ∈ limitStore.orders := by
  rw [limitStore_orders]
  exact List.mem_singleton_self _

theorem known_limitStore {broker : Broker} (h : broker.orderId 7 "a" = "Da") :
    broker.Known limitStore.toDatabase := by
  have hexecutions : limitStore.executions = [] := by decide +kernel
  constructor
  · intro o ho _ id hid
    rw [limitStore_orders, List.mem_singleton] at ho
    subst ho
    exact (Option.some_inj.1 hid).symm.trans h.symm
  · rw [hexecutions]
    exact fun e he => absurd he List.not_mem_nil

theorem guards_limitOrder : ModifyGuards liveSettings 3 limitStore limitOrder 20 := by
  refine ⟨by decide, rfl, by decide, by decide +kernel, ?_⟩
  have hok : (liveConnection 3 limitStore limitOrder.userId).2.isOk = true := by decide +kernel
  cases hconn : (liveConnection 3 limitStore limitOrder.userId).2 with
  | ok r => exact ⟨r, rfl⟩
  | error e =>
    rw [hconn] at hok
    cases hok

/-- The books of a broker at which the order is open. -/
theorem completePass_timedOut {broker : Broker} {items : List TradeItem} {quantity : ℤ}
    (htrades : broker.trades 7 = items)
    (hroom : broker.unrecorded timedOut.toDatabase 7 "a" items ≤ quantity) :
    CompletePass broker limitOrder quantity timedOut (.reconcile 6 7 [openItem] items) := by
  have hfilled : (timedOut.order? 10).map TradingOrder.filledQuantity = some 0 := by
    decide +kernel
  have hclients : ∀ o ∈ localOrders timedOut.toDatabase 7, o.clientOrderId ≠ "" := by
    decide +kernel
  refine ⟨⟨htrades ▸ List.Sublist.refl _, ?_⟩, fun _ => ⟨fun row hrow => ?_, ?_⟩⟩
  · intro entry hentry _ o ho hclient
    rw [List.mem_singleton.1 hentry] at hclient
    exact absurd hclient (hclients o ho)
  · have hzero : row.filledQuantity = 0 := by
      change timedOut.order? 10 = some row at hrow
      rw [hrow] at hfilled
      exact Option.some_inj.1 hfilled
    rw [hzero, zero_add]
    exact hroom
  · intro entry hentry _ hfinal
    rw [List.mem_singleton.1 hentry] at hfinal
    exact absurd hfinal (by decide +kernel)

/-- The order is filled in two parts. -/
def twoParts : List TradeItem := [
  { orderId := "Da", exchangeTradeId := "t1", tradedQuantity := 4, tradedPrice := 100 },
  { orderId := "Da", exchangeTradeId := "t2", tradedQuantity := 6, tradedPrice := 100 }]

def partsBroker : Broker where
  __ := lateBroker
  trades userId := if userId = 7 then twoParts else []
  tradeIds userId := by split <;> simp [twoParts]
  tradeId_ne userId item h := by
    split at h
    · revert item; decide
    · cases h
  quantity_pos userId item h := by
    split at h
    · revert item; decide
    · cases h

/-- A trade is recorded; two at once collide, for want of a position row. -/
theorem modification_reconciled_iff_timedOut :
    Reconciled lateBroker limitOrder (standingAfter limitOrder false 20 101)
      (reconcile 6 timedOut 7 [openItem] [partTrade]).1.toDatabase ∧
    ¬ Reconciled partsBroker limitOrder (standingAfter limitOrder false 20 101)
      (reconcile 6 timedOut 7 [openItem] twoParts).1.toDatabase := by
  have hanswer : dhanModify limitOrder (.network true) =
      .error ⟨"DHAN_ORDER_RESULT_UNKNOWN", true⟩ := by decide +kernel
  constructor
  · refine (modification_reconciled_iff (known_limitStore rfl) mem_limitStore rfl guards_limitOrder
      hanswer .nil (completePass_timedOut rfl (by decide +kernel)) (by decide +kernel)).2
      ⟨fun h => absurd h Bool.false_ne_true, Or.inl ?_⟩
    exact reconcile_commits_iff.1 (by decide +kernel : (reconcile 6 timedOut 7 _ _).2 = _)
  · intro h
    rcases ((modification_reconciled_iff (known_limitStore rfl) mem_limitStore rfl guards_limitOrder
      hanswer .nil (completePass_timedOut rfl (by decide +kernel)) (by decide +kernel)).1 h).2 with
      hbookable | hrecorded
    · have hok : (reconcile 6 timedOut 7 [openItem] twoParts).2 = .ok () :=
        reconcile_commits_iff.2 hbookable
      exact absurd hok (by decide +kernel)
    · exact hrecorded
        { orderId := "Da", exchangeTradeId := "t1", tradedQuantity := 4, tradedPrice := 100 }
        (by decide +kernel) (by decide +kernel)

/-- **A modification is lost**: the broker has applied it, and the trade of 12 does
not fit the order for 10 that the platform still has. -/
theorem modification_lost :
    ¬ ∀ (broker : Broker) (settings : Settings) (s t : Store) (o : TradingOrder)
      (now later : Time) (quantity : ℤ) (limitPrice : ℚ) (quote : Option NormalizedQuote)
      (outcome : HttpOutcome) (code : String) (applied : Bool) (passes : List OrderEvent)
      (brokerOrders : List BrokerOrderItem) (trades : List TradeItem),
      broker.Known s.toDatabase → o ∈ s.orders → o.mode = .live →
      ModifyGuards settings now s o quantity → dhanModify o outcome = .error ⟨code, true⟩ →
      Run (Guarded (CompletePass broker o (standingAfter o applied quantity limitPrice).quantity)
        (Steps (orderStep settings)))
        (modify settings now s o quantity limitPrice quote outcome).1 passes t →
      CompletePass broker o (standingAfter o applied quantity limitPrice).quantity t
        (.reconcile later o.userId brokerOrders trades) →
      (∀ item ∈ broker.tradesOf o, item ∈ trades) →
      Reconciled broker o (standingAfter o applied quantity limitPrice)
        (reconcile later t o.userId brokerOrders trades).1.toDatabase := by
  intro h
  obtain ⟨row, hrow, hstanding, -⟩ := h overBroker liveSettings limitStore timedOut limitOrder 3 6
    20 101 none (.network true) "DHAN_ORDER_RESULT_UNKNOWN" true [] [openItem] [overTrade]
    (known_limitStore rfl) mem_limitStore rfl guards_limitOrder (by decide +kernel) .nil
    (completePass_timedOut rfl (by decide +kernel)) (by decide +kernel)
  have hkept : ((reconcile 6 timedOut 7 [openItem] [overTrade]).1.order? 10).map
      TradingOrder.standing = some ⟨10, some 100⟩ := by decide +kernel
  change (reconcile 6 timedOut 7 [openItem] [overTrade]).1.order? 10 = some row at hrow
  rw [hrow] at hkept
  exact absurd (hstanding.symm.trans (Option.some_inj.1 hkept)) (by decide +kernel)

end GnkAlgo
