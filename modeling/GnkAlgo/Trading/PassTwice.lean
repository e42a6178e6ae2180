import GnkAlgo.Trading.PassRows

/-!
# A pass over the same books again

`_apply` a second time with the same books meets the orders that the first pass has
left open, and executions that it has recorded.

* `Closes`, `closes_iff` — the orders that the second pass does not load;
* `LeavesNoStray`, `namedItems_again` — books in which the others are named again by
  the entries and trades that named them;
* `not_books_again` — the second pass books nothing;
* `pass_idempotent_iff` — it changes nothing exactly when no order hides a refused
  trade behind a later fill.
-/

namespace GnkAlgo

open Writes

/-! ## Orders that a pass closes -/

/-- The trade is the last new one of an order, after the trades of `before`. -/
def TradingOrder.LastNew (stored : Database) (o : TradingOrder) (trades before : List TradeItem)
    (item : TradeItem) : Prop :=
  o.IsNewTrade stored item ∧
    ∃ after, trades = before ++ item :: after ∧ ∀ x ∈ after, ¬ o.IsNewTrade stored x

/-- The last that the books have to say of an order closes it: the last entry that
names it has a final status, and where that is FILLED the fills add up; or, where no
entry names it, the last of its new trades fills it. -/
def Closes (s : Store) (userId : Uuid) (brokerOrders : List BrokerOrderItem)
    (trades : List TradeItem) (o : TradingOrder) : Prop :=
  match (namedItems s userId brokerOrders o).getLast? with
  | some item => mapDhanStatus item.orderStatus ∈ terminalStatuses ∧
      (mapDhanStatus item.orderStatus = .filled →
        filledInPass s userId brokerOrders trades o = o.quantity)
  | none => ∃ before item, o.LastNew s.toDatabase
        (namedTrades s userId brokerOrders trades o) before item ∧ 0 < item.tradedQuantity ∧
      filledBy s.toDatabase o before + item.tradedQuantity = o.quantity

section Closing

variable {now : Time} {s : Store} {userId : Uuid} {brokerOrders : List BrokerOrderItem}
  {trades : List TradeItem} {o : TradingOrder}

theorem importedRow_filledTo (now : Time) (userId : Uuid) (brokerOrders : List BrokerOrderItem)
    (trades : List TradeItem) (ho : o ∈ s.orders) :
    o.FilledTo (importedRow now s userId brokerOrders trades o)
      (filledInPass s userId brokerOrders trades o) := by
  obtain ⟨-, b, hb⟩ := attachedPass_order? userId brokerOrders ho
  rw [importedRow, hb]
  have hto := foldl_imported_filledTo now s.toDatabase { o with brokerOrderId := b }
    (namedTrades s userId brokerOrders trades o)
  exact ⟨hto.id, hto.positionKey, hto.side, hto.quantity, hto.filledQuantity⟩

/-- **The trades of an order**: none is new, or the last new one decides. -/
theorem importedRow_status (now : Time) (userId : Uuid) (brokerOrders : List BrokerOrderItem)
    (trades : List TradeItem) (ho : o ∈ s.orders) :
    ((∀ x ∈ namedTrades s userId brokerOrders trades o, ¬ o.IsNewTrade s.toDatabase x) ∧
      (importedRow now s userId brokerOrders trades o).status = o.status) ∨
    ∃ before item, o.LastNew s.toDatabase (namedTrades s userId brokerOrders trades o) before item ∧
      (importedRow now s userId brokerOrders trades o).status =
        if o.Misfits s.toDatabase before item then .unknown
        else if filledBy s.toDatabase o before + item.tradedQuantity = o.quantity then .filled
        else .partiallyFilled := by
  obtain ⟨-, b, hb⟩ := attachedPass_order? userId brokerOrders ho
  rw [importedRow, hb]
  by_cases hnew : ∃ x ∈ namedTrades s userId brokerOrders trades o, o.IsNewTrade s.toDatabase x
  · obtain ⟨before, item, after, htrades, hitem, hafter⟩ := exists_split_last hnew
    refine Or.inr ⟨before, item, ⟨hitem, after, htrades, hafter⟩, ?_⟩
    rw [htrades]
    exact status_foldl_imported_split now s.toDatabase (o := { o with brokerOrderId := b })
      hitem hafter
  · have hold : ∀ x ∈ namedTrades s userId brokerOrders trades o,
        ¬ o.IsNewTrade s.toDatabase x := fun x hx hx' => hnew ⟨x, hx, hx'⟩
    refine Or.inl ⟨hold, ?_⟩
    rw [foldl_imported_of_old now s.toDatabase { o with brokerOrderId := b } hold]

theorem endRow_status (now : Time) (s : Store) (userId : Uuid)
    (brokerOrders : List BrokerOrderItem) (trades : List TradeItem) (o : TradingOrder) :
    (endRow now s userId brokerOrders trades o).status =
      ((namedItems s userId brokerOrders o).getLast?.map
        (entryStatus (importedRow now s userId brokerOrders trades o).fallsShort)).getD
        (importedRow now s userId brokerOrders trades o).status := by
  rw [endRow, foldl_statusOf_eq, ← lastWrite_some]
  rfl

theorem TradingOrder.LastNew.unique {stored : Database} {l before before' : List TradeItem}
    {item item' : TradeItem} (h : o.LastNew stored l before item)
    (h' : o.LastNew stored l before' item') : before = before' ∧ item = item' := by
  obtain ⟨hnew, after, hl, hafter⟩ := h
  obtain ⟨hnew', after', hl', hafter'⟩ := h'
  exact split_last_unique (hl.symm.trans hl') hnew hnew' hafter hafter'

/-- **What is closed**: an order that the pass has loaded has a final status in the end. -/
theorem closes_iff (now : Time) (ho : o ∈ localOrders s.toDatabase userId) :
    (endRow now s userId brokerOrders trades o).status ∉ openOrderStatuses ↔
      Closes s userId brokerOrders trades o := by
  obtain ⟨hmem, -, -, hopen⟩ := Pass.mem_localOrders.1 ho
  have hto := importedRow_filledTo now userId brokerOrders trades hmem
  rw [endRow_status]
  unfold Closes
  cases hlast : (namedItems s userId brokerOrders o).getLast? with
  | some item =>
    have hshort : (importedRow now s userId brokerOrders trades o).fallsShort = true ↔
        filledInPass s userId brokerOrders trades o ≠ o.quantity := by
      rw [TradingOrder.fallsShort, decide_eq_true_eq, hto.filledQuantity, hto.quantity]
    change entryStatus _ item ∉ openOrderStatuses ↔ _
    rw [← mem_terminalStatuses, entryStatus]
    by_cases hfilled : mapDhanStatus item.orderStatus = .filled ∧
        (importedRow now s userId brokerOrders trades o).fallsShort = true
    · rw [if_pos hfilled]
      exact iff_of_false (by decide) fun h => hshort.1 hfilled.2 (h.2 hfilled.1)
    · rw [if_neg hfilled]
      exact (and_iff_left fun h => not_not.1 fun hne => hfilled ⟨h, hshort.2 hne⟩).symm
  | none =>
    change (importedRow now s userId brokerOrders trades o).status ∉ openOrderStatuses ↔ _
    rcases importedRow_status now userId brokerOrders trades hmem with
      ⟨hold, hstatus⟩ | ⟨before, item, hnew, hstatus⟩
    · rw [hstatus]
      refine iff_of_false (not_not.2 hopen) ?_
      rintro ⟨before, item, ⟨hitem, after, htrades, -⟩, -⟩
      exact hold item (by rw [htrades]; simp) hitem
    · rw [hstatus]
      constructor
      · intro hclosed
        by_cases hmisfits : o.Misfits s.toDatabase before item
        · rw [if_pos hmisfits] at hclosed
          exact absurd (by decide) hclosed
        · by_cases hfull : filledBy s.toDatabase o before + item.tradedQuantity = o.quantity
          · have hfits := not_not.1 fun h => hmisfits ⟨hnew.1, h⟩
            exact ⟨before, item, hnew, hfits.1, hfull⟩
          · rw [if_neg hmisfits, if_neg hfull] at hclosed
            exact absurd (by decide) hclosed
      · rintro ⟨before', item', hnew', hpos, hfull⟩
        obtain ⟨rfl, rfl⟩ := hnew.unique hnew'
        rw [if_neg fun h => h.2 ⟨hpos, hfull.le⟩, if_pos hfull]
        decide

end Closing

/-! ## What the second pass writes -/

/-- The pass books a trade with this id. -/
def BooksId (s : Store) (userId : Uuid) (brokerOrders : List BrokerOrderItem)
    (trades : List TradeItem) (tradeId : String) : Prop :=
  ∃ before item after o, trades = before ++ item :: after ∧
    Books s userId brokerOrders before item o ∧ item.exchangeTradeId = tradeId

/-- A new trade of an order is not booked, nor is another under its id. -/
def LeavesRefused (s : Store) (userId : Uuid) (brokerOrders : List BrokerOrderItem)
    (trades : List TradeItem) (o : TradingOrder) : Prop :=
  ∃ item ∈ namedTrades s userId brokerOrders trades o, o.IsNewTrade s.toDatabase item ∧
    ¬ BooksId s userId brokerOrders trades item.exchangeTradeId

/-- A refused trade that the pass leaves no mark of: no entry names the order, and
the last of its new trades fits again, without filling it. -/
structure MaskedRefusal (s : Store) (userId : Uuid) (brokerOrders : List BrokerOrderItem)
    (trades : List TradeItem) (o : TradingOrder) : Prop where
  unlisted : namedItems s userId brokerOrders o = []
  refused : LeavesRefused s userId brokerOrders trades o
  filled : ∃ before item, o.LastNew s.toDatabase (namedTrades s userId brokerOrders trades o)
      before item ∧ 0 < item.tradedQuantity ∧
    filledBy s.toDatabase o before + item.tradedQuantity < o.quantity

/-- Trades fill an order further or not at all. -/
theorem filledBy_le_append (stored : Database) (o : TradingOrder) (trades rest : List TradeItem) :
    filledBy stored o trades ≤ filledBy stored o (trades ++ rest) := by
  induction rest using List.reverseRecOn with
  | nil => rw [List.append_nil]
  | append_singleton rest item ih =>
    rw [← List.append_assoc, filledBy_append_singleton]
    split <;> omega

/-- Where no new trade fits, the trades of an order write one refusal or nothing. -/
theorem foldl_imported_of_misfits (now : Time) (stored : Database) {o : TradingOrder}
    {trades : List TradeItem} (h : ∀ x ∈ trades, o.IsNewTrade stored x → ¬ o.Fits x) :
    trades.foldl (TradingOrder.imported now stored) o =
      if ∃ x ∈ trades, o.IsNewTrade stored x then o.refuse else o := by
  induction trades using List.reverseRecOn with
  | nil => rw [if_neg (by simp)]; rfl
  | append_singleton trades item ih =>
    have ih := ih fun x hx => h x (List.mem_append_left _ hx)
    rw [foldl_imported_append_singleton, ih]
    by_cases hitem : o.IsNewTrade stored item
    · have hmisfits := h item (by simp) hitem
      rw [if_pos (⟨item, by simp, hitem⟩ : ∃ x ∈ trades ++ [item], o.IsNewTrade stored x)]
      split
      · rw [TradingOrder.imported, if_neg (not_not.2 (show o.refuse.IsNewTrade stored item from
          hitem)), if_neg (show ¬ o.refuse.Fits item from hmisfits)]
        rfl
      · rw [TradingOrder.imported, if_neg (not_not.2 hitem), if_neg hmisfits]
    · have hiff : (∃ x ∈ trades ++ [item], o.IsNewTrade stored x) ↔
          ∃ x ∈ trades, o.IsNewTrade stored x := by
        constructor
        · rintro ⟨x, hx, hnew⟩
          rcases List.mem_append.1 hx with hx | hx
          · exact ⟨x, hx, hnew⟩
          · rw [List.mem_singleton.1 hx] at hnew
            exact absurd hnew hitem
        · rintro ⟨x, hx, hnew⟩
          exact ⟨x, List.mem_append_left _ hx, hnew⟩
      simp only [hiff]
      split
      · exact if_pos (show ¬ o.refuse.IsNewTrade stored item from hitem)
      · exact if_pos hitem

/-- A refusal stays as the reason, whatever is booked after it. -/
theorem reason_foldl_imported (now : Time) (stored : Database) {o : TradingOrder}
    {before after : List TradeItem} {item : TradeItem} (h : o.Misfits stored before item) :
    ((before ++ item :: after).foldl (TradingOrder.imported now stored) o).rejectionReason =
      o.refuse.rejectionReason := by
  have hto := foldl_imported_filledTo now stored o before
  rw [List.foldl_append, List.foldl_cons]
  generalize before.foldl (TradingOrder.imported now stored) o = mid at hto ⊢
  refine List.foldlRecOn (motive := fun x : TradingOrder =>
    x.rejectionReason = o.refuse.rejectionReason) after _ ?_ fun x hx y _ => ?_
  · rw [TradingOrder.imported, if_neg (not_not.2 (hto.isNewTrade_iff.2 h.1)),
      if_neg fun hfits => h.2 (hto.fits_iff.1 hfits)]
    rfl
  · unfold TradingOrder.imported
    split
    · exact hx
    split
    · exact hx
    · rfl

/-- Without a trade that is booked, no row is added or changed beside the orders. -/
theorem importedPass_of_not_books (now : Time) {s : Store} {userId : Uuid}
    {brokerOrders : List BrokerOrderItem} {trades : List TradeItem}
    (h : ∀ before item after o, trades = before ++ item :: after →
      ¬ Books s userId brokerOrders before item o) :
    (importedPass now s userId brokerOrders trades).session.work.executions = s.executions ∧
      (importedPass now s userId brokerOrders trades).session.work.positions = s.positions := by
  induction trades using List.reverseRecOn with
  | nil =>
    obtain ⟨hexecutions, hpositions, -⟩ := attachedPass_frame s userId brokerOrders
    exact ⟨hexecutions, hpositions⟩
  | append_singleton trades item ih =>
    have ih := ih fun before x after o htrades =>
      h before x (after ++ [item]) o (by rw [htrades]; simp)
    rcases names_cases now s userId brokerOrders trades item with ⟨-, hnone⟩ | ⟨o, row, hnames⟩
    · rw [importedPass_append_singleton, Pass.importTrade, hnone]
      exact ih
    · rcases hnames.importTrade_cases with ⟨-, hp⟩ | ⟨-, -, hp⟩ | ⟨hnew, hfits, -⟩
      · rw [hp]
        exact ih
      · rw [hp]
        exact ih
      · exact absurd (hnames.books_iff.2 ⟨hnew, hfits⟩) (h trades item [] o rfl)

/-- **A pass that books nothing** commits, and keeps executions and positions. -/
theorem reconcile_of_not_books (now : Time) {s : Store} {userId : Uuid}
    {brokerOrders : List BrokerOrderItem} {trades : List TradeItem}
    (h : ∀ before item after o, trades = before ++ item :: after →
      ¬ Books s userId brokerOrders before item o) :
    (reconcile now s userId brokerOrders trades).2 = .ok () ∧
      (reconcile now s userId brokerOrders trades).1.executions = s.executions ∧
      (reconcile now s userId brokerOrders trades).1.positions = s.positions := by
  have hok : (reconcile now s userId brokerOrders trades).2 = .ok () :=
    reconcile_commits_iff.2 fun l₁ a l₂ b l₃ o o' htrades ha =>
      absurd ha (h l₁ a (l₂ ++ b :: l₃) o htrades)
  obtain ⟨hexecutions, hpositions⟩ := importedPass_of_not_books now h
  obtain ⟨hes, hps⟩ := foldl_takeStatus_rows now brokerOrders
    (importedPass now s userId brokerOrders trades)
  rw [reconcile_toDatabase hok]
  exact ⟨hok, hes.trans hexecutions, hps.trans hpositions⟩

/-- **The entries once more**: what they write does not depend on the status and the
reason between the loops, where these are written again. -/
theorem foldl_statusOf_again (now later : Time) (o : TradingOrder) (items : List BrokerOrderItem)
    {status : OrderStatus} {reason : Option String}
    (hstatus : lastWrite (fun item => some (entryStatus o.fallsShort item)) status items =
      (items.foldl (Pass.statusOf now) o).status)
    (hreason : lastWrite (fun item => (entryReason o.fallsShort item).map some) reason items =
      (items.foldl (Pass.statusOf now) o).rejectionReason) :
    items.foldl (Pass.statusOf later)
      { items.foldl (Pass.statusOf now) o with status := status, rejectionReason := reason } =
      items.foldl (Pass.statusOf now) o := by
  rw [foldl_statusOf_eq] at hstatus hreason ⊢
  rw [foldl_statusOf_eq]
  change TradingOrder.marked _ (lastWrite (fun item => some (entryStatus o.fallsShort item)) status
    items) (lastWrite (fun item => (entryReason o.fallsShort item).map some) reason items) _ = _
  rw [hstatus, hreason]
  change TradingOrder.marked _ _ _ (if ∃ item ∈ items, entryStatus o.fallsShort item ∈
    terminalStatuses then some ((if ∃ item ∈ items, entryStatus o.fallsShort item ∈
      terminalStatuses then some (o.completedAt.getD now) else o.completedAt).getD later) else
    (if ∃ item ∈ items, entryStatus o.fallsShort item ∈ terminalStatuses then
      some (o.completedAt.getD now) else o.completedAt)) = _
  by_cases hterminal : ∃ item ∈ items, entryStatus o.fallsShort item ∈ terminalStatuses
  · simp only [if_pos hterminal]
    rfl
  · simp only [if_neg hterminal]
    rfl

/-! ## The second pass -/

/-- No entry or trade of an order that the pass closes names, once that is closed,
an order that stays open. -/
structure LeavesNoStray (s : Store) (userId : Uuid) (brokerOrders : List BrokerOrderItem)
    (trades : List TradeItem) : Prop where
  items : ∀ x ∈ localOrders s.toDatabase userId, Closes s userId brokerOrders trades x →
    ∀ item ∈ namedItems s userId brokerOrders x, ∀ y ∈ localOrders s.toDatabase userId,
      ¬ Closes s userId brokerOrders trades y →
      item.correlationId ≠ y.clientOrderId ∧ orMissing y.brokerOrderId ≠ some item.orderId
  trades : ∀ x ∈ localOrders s.toDatabase userId, Closes s userId brokerOrders trades x →
    ∀ item ∈ namedTrades s userId brokerOrders trades x, ∀ y ∈ localOrders s.toDatabase userId,
      ¬ Closes s userId brokerOrders trades y → orMissing y.brokerOrderId ≠ some item.orderId

section Again

variable {now : Time} {s t : Store} {userId : Uuid} {brokerOrders : List BrokerOrderItem}
  {trades : List TradeItem} {o y : TradingOrder} {b : String}

theorem orders_again (ht : reconcile now s userId brokerOrders trades = (t, .ok ())) :
    t.orders = s.orders.map (endRow now s userId brokerOrders trades) := by
  rw [← reconcile_orders (congrArg Prod.snd ht), ht]

/-- **The orders that the second pass loads**: those that the first has loaded and
not closed. -/
theorem localOrders_again (ht : reconcile now s userId brokerOrders trades = (t, .ok ()))
    {row : TradingOrder} : row ∈ localOrders t.toDatabase userId ↔
      ∃ o ∈ localOrders s.toDatabase userId, ¬ Closes s userId brokerOrders trades o ∧
        endRow now s userId brokerOrders trades o = row := by
  have hlocal := localOrders_reconcile (congrArg Prod.snd ht)
  rw [ht] at hlocal
  rw [hlocal, List.mem_map]
  constructor
  · rintro ⟨o, ho, hrow⟩
    obtain ⟨ho, hopen⟩ := List.mem_filter.1 ho
    rw [decide_eq_true_eq] at hopen
    exact ⟨o, ho, fun hcloses => (closes_iff now ho).2 hcloses hopen, hrow⟩
  · rintro ⟨o, ho, hcloses, hrow⟩
    have hopen := not_not.1 fun h => hcloses ((closes_iff now ho).1 h)
    exact ⟨o, List.mem_filter.2 ⟨ho, decide_eq_true hopen⟩, hrow⟩

/-- The row of an order that is loaded again, and its broker id. -/
theorem brokerOf_again (ht : reconcile now s userId brokerOrders trades = (t, .ok ()))
    (ho : o ∈ s.orders) :
    (startPass t.begin userId).brokerOf (endRow now s userId brokerOrders trades o) =
      (attachedPass s.begin userId brokerOrders).brokerOf o := by
  have hmem : endRow now s userId brokerOrders trades o ∈ t.orders := by
    rw [orders_again ht]
    exact List.mem_map_of_mem ho
  rw [Pass.brokerOf_startPass userId hmem,
    (endRow_sameColumns now s userId brokerOrders trades o).brokerOrderId, Pass.brokerOf,
    (attachedPass_order? userId brokerOrders ho).1]
  rfl

theorem endRow_id (now : Time) (s : Store) (userId : Uuid) (brokerOrders : List BrokerOrderItem)
    (trades : List TradeItem) (o : TradingOrder) :
    (endRow now s userId brokerOrders trades o).id = o.id := by
  rw [(endRow_sameColumns now s userId brokerOrders trades o).id, attachedRow]
  cases hrow : (attachedPass s.begin userId brokerOrders).order? o.id with
  | none => rfl
  | some row => exact (Database.order?_mem hrow).2

/-- **The second dictionary** is that of the orders that stay. -/
theorem lookup_again (ht : reconcile now s userId brokerOrders trades = (t, .ok ())) (b : String) :
    (startPass t.begin userId).byBroker.lookup b =
      (Index.of (attachedPass s.begin userId brokerOrders).brokerOf TradingOrder.id
        ((localOrders s.toDatabase userId).filter fun o =>
          (endRow now s userId brokerOrders trades o).status ∈ openOrderStatuses)).lookup b := by
  have hlocal := localOrders_reconcile (congrArg Prod.snd ht)
  rw [ht] at hlocal
  have hid : TradingOrder.id ∘ endRow now s userId brokerOrders trades = TradingOrder.id :=
    funext fun o => endRow_id now s userId brokerOrders trades o
  rw [(Pass.indexed_startPass t userId).byBroker, hlocal, Index.of_map, hid]
  refine Index.lookup_of_congr fun o ho => ?_
  have hmem := List.mem_of_mem_filter (List.mem_of_mem_filter ho)
  rw [Function.comp_apply, brokerOf_again ht hmem]

/-- An order that stays and is found under an id is found under it again. -/
theorem lookup_again_of_stays (ht : reconcile now s userId brokerOrders trades = (t, .ok ()))
    (hy : y ∈ localOrders s.toDatabase userId) (hstays : ¬ Closes s userId brokerOrders trades y)
    (h : (attachedPass s.begin userId brokerOrders).byBroker.lookup b = some y.id) :
    (startPass t.begin userId).byBroker.lookup b = some y.id := by
  rw [(Pass.indexed_attachedPass s userId brokerOrders).1.byBroker] at h
  rw [lookup_again ht]
  refine Index.lookup_of_filter _ (fun x hx x' hx' hid => ?_) hy ?_ h
  · exact s.valid.eq_of_id (List.mem_of_mem_filter hx) (List.mem_of_mem_filter hx') hid
  · exact decide_eq_true (not_not.1 fun h => hstays ((closes_iff now hy).1 h))

/-- **An id that is not astray** is that of an order in both passes. -/
theorem lookup_again_iff (ht : reconcile now s userId brokerOrders trades = (t, .ok ()))
    (hy : y ∈ localOrders s.toDatabase userId) (hstays : ¬ Closes s userId brokerOrders trades y)
    (hstray : ∀ x ∈ localOrders s.toDatabase userId,
      (attachedPass s.begin userId brokerOrders).byBroker.lookup b = some x.id →
      Closes s userId brokerOrders trades x → orMissing y.brokerOrderId ≠ some b) :
    (startPass t.begin userId).byBroker.lookup b = some y.id ↔
      (attachedPass s.begin userId brokerOrders).byBroker.lookup b = some y.id := by
  have hindexed := (Pass.indexed_attachedPass s userId brokerOrders).1
  refine ⟨fun h => ?_, lookup_again_of_stays ht hy hstays⟩
  have hbroker : (attachedPass s.begin userId brokerOrders).brokerOf y = some b := by
    rw [lookup_again ht] at h
    obtain ⟨y', hy', hkey, hid⟩ := Index.exists_of_lookup h
    have hlocal := List.mem_of_mem_filter hy'
    rwa [s.valid.eq_of_id (List.mem_of_mem_filter hlocal) (List.mem_of_mem_filter hy) hid] at hkey
  cases hlookup : (attachedPass s.begin userId brokerOrders).byBroker.lookup b with
  | none => exact absurd hbroker (hindexed.not_brokerOf hlookup hy)
  | some i =>
    obtain ⟨x, hx, -, rfl⟩ := hindexed.exists_of_byBroker hlookup
    by_cases hcloses : Closes s userId brokerOrders trades x
    · have hown := hindexed.attached y hy b hbroker
      rw [hlookup] at hown
      exact hown.resolve_right (hstray x hx hlookup hcloses)
    · rw [← h, lookup_again_of_stays ht hx hcloses hlookup]

/-- An order that stays has its client id in the second pass too. -/
theorem endRow_clientOrderId (now : Time) (userId : Uuid) (brokerOrders : List BrokerOrderItem)
    (trades : List TradeItem) (ho : o ∈ s.orders) :
    (endRow now s userId brokerOrders trades o).clientOrderId = o.clientOrderId := by
  obtain ⟨-, b, hb⟩ := attachedPass_order? userId brokerOrders ho
  rw [(endRow_sameColumns now s userId brokerOrders trades o).clientOrderId, hb]

/-- Where nobody is found under an id, nobody is found again. -/
theorem lookup_again_none (ht : reconcile now s userId brokerOrders trades = (t, .ok ()))
    (h : (attachedPass s.begin userId brokerOrders).byBroker.lookup b = none) :
    (startPass t.begin userId).byBroker.lookup b = none := by
  rw [lookup_again ht, Index.lookup_of_eq_none]
  intro o ho
  exact (Pass.indexed_attachedPass s userId brokerOrders).1.not_brokerOf h
    (List.mem_of_mem_filter ho)

/-- **The second first loop** attaches nothing. -/
theorem attachedPass_again (ht : reconcile now s userId brokerOrders trades = (t, .ok ()))
    (hstray : LeavesNoStray s userId brokerOrders trades) :
    attachedPass t.begin userId brokerOrders = startPass t.begin userId := by
  obtain ⟨hindexed, hsettled⟩ := Pass.indexed_attachedPass s userId brokerOrders
  have hindexed' := Pass.indexed_startPass t userId
  refine List.foldlRecOn (motive := fun p => p = startPass t.begin userId) brokerOrders
    Pass.attach rfl ?_
  rintro p rfl item hitem
  rcases hindexed'.attach_cases item with ⟨hp, -⟩ | ⟨row, ha⟩
  · exact hp
  -- the order that gets an id has the client id of the entry
  obtain ⟨o, ho, hstays, rfl⟩ := (localOrders_again ht).1 ha.loaded
  have hmem := List.mem_of_mem_filter ho
  have hclient : o.clientOrderId = item.correlationId := by
    obtain ⟨row, hrow, hclient, hid⟩ := hindexed'.exists_of_byCorrelation ha.named
    rw [← hclient, t.valid.eq_of_id (List.mem_of_mem_filter hrow)
      (List.mem_of_mem_filter ha.loaded) hid, endRow_clientOrderId now userId _ _ hmem]
  cases hlookup : (attachedPass s.begin userId brokerOrders).byBroker.lookup item.orderId with
  | none =>
    refine absurd (ha.before _ rfl) ?_
    rw [brokerOf_again ht hmem]
    exact hsettled item hitem ha.orderId hlookup o ho hclient
  | some i =>
    obtain ⟨x, hx, -, rfl⟩ := hindexed.exists_of_byBroker hlookup
    by_cases hcloses : Closes s userId brokerOrders trades x
    · have hnamed : item ∈ namedItems s userId brokerOrders x := by
        refine List.mem_filter.2 ⟨hitem, decide_eq_true ?_⟩
        rw [Pass.itemTarget, hlookup]
        rfl
      exact absurd hclient.symm (hstray.items x hx hcloses item hnamed o ho hstays).1
    · have hfound := lookup_again_of_stays ht hx hcloses hlookup
      rw [ha.fresh] at hfound
      cases hfound

/-- **The trades of an order that stays** name it again. -/
theorem namedTrades_again (ht : reconcile now s userId brokerOrders trades = (t, .ok ()))
    (hstray : LeavesNoStray s userId brokerOrders trades)
    (hy : y ∈ localOrders s.toDatabase userId) (hstays : ¬ Closes s userId brokerOrders trades y)
    {l : List TradeItem} (hl : l ⊆ trades) :
    namedTrades t userId brokerOrders l (endRow now s userId brokerOrders trades y) =
      namedTrades s userId brokerOrders l y := by
  rw [namedTrades, attachedPass_again ht hstray, endRow_id]
  refine List.filter_congr fun item hitem => decide_eq_decide.2 ?_
  refine lookup_again_iff ht hy hstays fun x hx hlookup hcloses => ?_
  exact hstray.trades x hx hcloses item (List.mem_filter.2 ⟨hl hitem, decide_eq_true hlookup⟩) y
    hy hstays

/-- **The entries of an order that stays** name it again. -/
theorem namedItems_again (ht : reconcile now s userId brokerOrders trades = (t, .ok ()))
    (hstray : LeavesNoStray s userId brokerOrders trades)
    (hy : y ∈ localOrders s.toDatabase userId) (hstays : ¬ Closes s userId brokerOrders trades y) :
    namedItems t userId brokerOrders (endRow now s userId brokerOrders trades y) =
      namedItems s userId brokerOrders y := by
  have hindexed := (Pass.indexed_attachedPass s userId brokerOrders).1
  have hindexed' := Pass.indexed_startPass t userId
  have hmem := List.mem_of_mem_filter hy
  have hagain : endRow now s userId brokerOrders trades y ∈ localOrders t.toDatabase userId :=
    (localOrders_again ht).2 ⟨y, hy, hstays, rfl⟩
  rw [namedItems, attachedPass_again ht hstray, endRow_id]
  refine List.filter_congr fun item hitem => decide_eq_decide.2 ?_
  have hstrayItem : ∀ x ∈ localOrders s.toDatabase userId,
      (attachedPass s.begin userId brokerOrders).byBroker.lookup item.orderId = some x.id →
      Closes s userId brokerOrders trades x →
      item.correlationId ≠ y.clientOrderId ∧ orMissing y.brokerOrderId ≠ some item.orderId := by
    intro x hx hlookup hcloses
    refine hstray.items x hx hcloses item (List.mem_filter.2 ⟨hitem, decide_eq_true ?_⟩) y hy hstays
    rw [Pass.itemTarget, hlookup]
    rfl
  have hiff := lookup_again_iff ht hy hstays fun x hx hlookup hcloses =>
    (hstrayItem x hx hlookup hcloses).2
  unfold Pass.itemTarget
  rw [Option.or_eq_some_iff, Option.or_eq_some_iff, hiff]
  refine or_congr_right ⟨?_, ?_⟩
  · rintro ⟨hnone, hclient⟩
    obtain ⟨row, hrow, hcorrelation, hid⟩ := hindexed'.exists_of_byCorrelation hclient
    have hclient' : y.clientOrderId = item.correlationId := by
      rw [← hcorrelation, t.valid.eq_of_id (List.mem_of_mem_filter hrow)
        (List.mem_of_mem_filter hagain) (hid.trans (endRow_id ..).symm),
        endRow_clientOrderId now userId _ _ hmem]
    refine ⟨?_, hclient' ▸ hindexed.lookup_byCorrelation s.valid hy⟩
    cases hlookup : (attachedPass s.begin userId brokerOrders).byBroker.lookup item.orderId with
    | none => rfl
    | some i =>
      obtain ⟨x, hx, -, rfl⟩ := hindexed.exists_of_byBroker hlookup
      by_cases hcloses : Closes s userId brokerOrders trades x
      · exact absurd hclient'.symm (hstrayItem x hx hlookup hcloses).1
      · rw [lookup_again_of_stays ht hx hcloses hlookup] at hnone
        cases hnone
  · rintro ⟨hnone, hclient⟩
    obtain ⟨y', hy', hcorrelation, hid⟩ := hindexed.exists_of_byCorrelation hclient
    obtain rfl := s.valid.eq_of_id (List.mem_of_mem_filter hy') hmem hid
    refine ⟨lookup_again_none ht hnone, ?_⟩
    have hlookup := hindexed'.lookup_byCorrelation t.valid hagain
    rw [endRow_clientOrderId now userId _ _ hmem, endRow_id] at hlookup
    rw [← hcorrelation]
    exact hlookup

/-- A trade is new to the second pass where it was to the first, which has not booked
it. -/
theorem isNewTrade_again (ht : reconcile now s userId brokerOrders trades = (t, .ok ()))
    (hy : y ∈ localOrders s.toDatabase userId) {item : TradeItem} :
    (endRow now s userId brokerOrders trades y).IsNewTrade t.toDatabase item ↔
      y.IsNewTrade s.toDatabase item ∧
        ¬ BooksId s userId brokerOrders trades item.exchangeTradeId := by
  obtain ⟨hmem, huser, -⟩ := Pass.mem_localOrders.1 hy
  have hto := importedRow_filledTo now userId brokerOrders trades hmem
  have hiff := execution?_reconcile_iff (congrArg Prod.snd ht) item.exchangeTradeId
  rw [ht] at hiff
  have huser' : (endRow now s userId brokerOrders trades y).userId = userId := by
    rw [endRow, foldl_statusOf_eq]
    exact hto.userId.trans huser
  rw [TradingOrder.IsNewTrade, TradingOrder.IsNewTrade, huser', huser, and_assoc]
  refine and_congr_right fun _ => ?_
  rw [← not_iff_not, not_and_not_right]
  refine hiff.trans ⟨?_, fun h => ?_⟩
  · rintro (hold | hbooks) hnone
    · exact absurd hnone hold
    · exact hbooks
  · by_cases hnone : s.execution? userId (.exchange item.exchangeTradeId) = none
    · exact Or.inr (h hnone)
    · exact Or.inl hnone

/-- A new trade that the pass has not booked, was refused. -/
theorem misfits_of_not_booksId (hy : y ∈ localOrders s.toDatabase userId) {item : TradeItem}
    (hitem : item ∈ namedTrades s userId brokerOrders trades y)
    (hnew : y.IsNewTrade s.toDatabase item)
    (hnot : ¬ BooksId s userId brokerOrders trades item.exchangeTradeId) :
    ∃ before after, namedTrades s userId brokerOrders trades y = before ++ item :: after ∧
      y.Misfits s.toDatabase before item := by
  obtain ⟨hmem, hnamed⟩ := List.mem_filter.1 hitem
  obtain ⟨l₁, l₂, htrades⟩ := List.append_of_mem hmem
  refine ⟨namedTrades s userId brokerOrders l₁ y, namedTrades s userId brokerOrders l₂ y, ?_,
    hnew, fun hfits => ?_⟩
  · rw [htrades, namedTrades, Pass.tradesFor, List.filter_append,
      List.filter_cons_of_pos (by exact hnamed)]
    rfl
  · exact hnot ⟨l₁, item, l₂, y, htrades, ⟨hy, of_decide_eq_true hnamed, hnew, hfits⟩, rfl⟩

theorem endRow_filledTo (now : Time) (userId : Uuid) (brokerOrders : List BrokerOrderItem)
    (trades : List TradeItem) (ho : o ∈ s.orders) :
    o.FilledTo (endRow now s userId brokerOrders trades o)
      (filledInPass s userId brokerOrders trades o) := by
  have hto := importedRow_filledTo now userId brokerOrders trades ho
  rw [endRow, foldl_statusOf_eq]
  exact ⟨hto.id, hto.positionKey, hto.side, hto.quantity, hto.filledQuantity⟩

/-- **What was refused is refused again**: an order is filled no less than before. -/
theorem not_fits_again (now : Time) (hy : y ∈ localOrders s.toDatabase userId) {item : TradeItem}
    (hitem : item ∈ namedTrades s userId brokerOrders trades y)
    (hnew : y.IsNewTrade s.toDatabase item)
    (hnot : ¬ BooksId s userId brokerOrders trades item.exchangeTradeId) :
    ¬ (endRow now s userId brokerOrders trades y).Fits item := by
  obtain ⟨before, after, htrades, -, hmisfits⟩ := misfits_of_not_booksId hy hitem hnew hnot
  have hle := filledBy_le_append s.toDatabase y before (item :: after)
  rw [← htrades] at hle
  rw [(endRow_filledTo now userId brokerOrders trades (List.mem_of_mem_filter hy)).fits_iff]
  unfold filledInPass
  omega

/-- **The second pass books nothing.** -/
theorem not_books_again (ht : reconcile now s userId brokerOrders trades = (t, .ok ()))
    (hstray : LeavesNoStray s userId brokerOrders trades) {before after : List TradeItem}
    {item : TradeItem} {row : TradingOrder} (htrades : trades = before ++ item :: after) :
    ¬ Books t userId brokerOrders before item row := by
  intro h
  obtain ⟨y, hy, hstays, rfl⟩ := (localOrders_again ht).1 h.loaded
  have hitem : item ∈ namedTrades s userId brokerOrders trades y := by
    rw [← namedTrades_again ht hstray hy hstays (List.Subset.refl _)]
    exact List.mem_filter.2 ⟨by rw [htrades]; simp, decide_eq_true h.named⟩
  obtain ⟨hnew, hnot⟩ := (isNewTrade_again ht hy).1 h.isNew
  refine not_fits_again now hy hitem hnew hnot ⟨h.fits.1, le_trans ?_ h.fits.2⟩
  have hle := filledBy_le_append t.toDatabase (endRow now s userId brokerOrders trades y) []
    ((attachedPass t.begin userId brokerOrders).tradesFor before
      (endRow now s userId brokerOrders trades y).id)
  exact Int.add_le_add_right hle _

/-- The row of an order that stays, when its trades are imported again. -/
theorem importedRow_again (later : Time)
    (ht : reconcile now s userId brokerOrders trades = (t, .ok ()))
    (hstray : LeavesNoStray s userId brokerOrders trades)
    (hy : y ∈ localOrders s.toDatabase userId) (hstays : ¬ Closes s userId brokerOrders trades y) :
    (LeavesRefused s userId brokerOrders trades y →
      importedRow later t userId brokerOrders trades (endRow now s userId brokerOrders trades y) =
        (endRow now s userId brokerOrders trades y).refuse) ∧
    (¬ LeavesRefused s userId brokerOrders trades y →
      importedRow later t userId brokerOrders trades (endRow now s userId brokerOrders trades y) =
        endRow now s userId brokerOrders trades y) := by
  have hmem : endRow now s userId brokerOrders trades y ∈ t.orders :=
    List.mem_of_mem_filter ((localOrders_again ht).2 ⟨y, hy, hstays, rfl⟩)
  have hrow : attachedRow t userId brokerOrders (endRow now s userId brokerOrders trades y) =
      endRow now s userId brokerOrders trades y := by
    have hself : (startPass t.begin userId).order?
        (endRow now s userId brokerOrders trades y).id = some _ := t.valid.order?_eq hmem
    rw [attachedRow, attachedPass_again ht hstray, hself]
    rfl
  rw [importedRow, hrow, namedTrades_again ht hstray hy hstays (List.Subset.refl _),
    foldl_imported_of_misfits later t.toDatabase fun x hx hnew => ?_]
  · have hiff : (∃ x ∈ namedTrades s userId brokerOrders trades y,
        (endRow now s userId brokerOrders trades y).IsNewTrade t.toDatabase x) ↔
        LeavesRefused s userId brokerOrders trades y :=
      exists_congr fun x => and_congr_right fun _ => isNewTrade_again ht hy
    exact ⟨fun h => if_pos (hiff.2 h), fun h => if_neg fun h' => h (hiff.1 h')⟩
  · obtain ⟨hnew, hnot⟩ := (isNewTrade_again ht hy).1 hnew
    exact not_fits_again now hy hx hnew hnot

/-- A refusal is masked, where the pass writes no status after the last trade. -/
theorem maskedRefusal_iff (now : Time) (hy : y ∈ localOrders s.toDatabase userId)
    (hstays : ¬ Closes s userId brokerOrders trades y)
    (hunlisted : namedItems s userId brokerOrders y = [])
    (hrefused : LeavesRefused s userId brokerOrders trades y) :
    MaskedRefusal s userId brokerOrders trades y ↔
      (importedRow now s userId brokerOrders trades y).status ≠ .unknown := by
  rcases importedRow_status now userId brokerOrders trades (List.mem_of_mem_filter hy) with
    ⟨hold, -⟩ | ⟨before, item, hlast, hstatus⟩
  · obtain ⟨x, hx, hnew, -⟩ := hrefused
    exact absurd hnew (hold x hx)
  rw [hstatus]
  constructor
  · rintro ⟨-, -, before', item', hlast', hpos, hlt⟩
    obtain ⟨rfl, rfl⟩ := hlast.unique hlast'
    rw [if_neg fun h => h.2 ⟨hpos, hlt.le⟩]
    split <;> decide
  · intro hne
    by_cases hmisfits : y.Misfits s.toDatabase before item
    · exact absurd (if_pos hmisfits) hne
    have hfits := not_not.1 fun h => hmisfits ⟨hlast.1, h⟩
    refine ⟨hunlisted, hrefused, before, item, hlast, hfits.1, lt_of_le_of_ne hfits.2 ?_⟩
    intro hfull
    refine hstays ?_
    unfold Closes
    rw [hunlisted]
    exact ⟨before, item, hlast, hfits.1, hfull⟩

/-- **An order that stays** is left alone by the second pass exactly when no refused
trade of it is masked. -/
theorem endRow_again_iff (later : Time)
    (ht : reconcile now s userId brokerOrders trades = (t, .ok ()))
    (hstray : LeavesNoStray s userId brokerOrders trades)
    (hy : y ∈ localOrders s.toDatabase userId) (hstays : ¬ Closes s userId brokerOrders trades y) :
    endRow later t userId brokerOrders trades (endRow now s userId brokerOrders trades y) =
        endRow now s userId brokerOrders trades y ↔
      ¬ MaskedRefusal s userId brokerOrders trades y := by
  obtain ⟨hrefuse, hkeep⟩ := importedRow_again later ht hstray hy hstays
  rw [endRow, namedItems_again ht hstray hy hstays]
  by_cases hrefused : LeavesRefused s userId brokerOrders trades y
  · rw [hrefuse hrefused]
    -- the trade is refused in both passes
    have hreason : (importedRow now s userId brokerOrders trades y).rejectionReason =
        y.refuse.rejectionReason := by
      obtain ⟨x, hx, hnew, hnot⟩ := hrefused
      obtain ⟨before, after, htrades, hmisfits⟩ := misfits_of_not_booksId hy hx hnew hnot
      obtain ⟨-, b, hb⟩ := attachedPass_order? userId brokerOrders (List.mem_of_mem_filter hy)
      rw [importedRow, hb, htrades]
      exact reason_foldl_imported now s.toDatabase (o := { y with brokerOrderId := b }) hmisfits
    by_cases hunlisted : namedItems s userId brokerOrders y = []
    · rw [maskedRefusal_iff now hy hstays hunlisted hrefused, not_not, endRow, hunlisted]
      change (importedRow now s userId brokerOrders trades y).refuse = _ ↔ _
      generalize importedRow now s userId brokerOrders trades y = mid at hreason
      refine ⟨fun h => (congrArg TradingOrder.status h).symm, fun h => ?_⟩
      have hsame : { mid with
          status := OrderStatus.unknown
          rejectionReason := y.refuse.rejectionReason } = mid := by
        rw [← h, ← hreason]
      exact hsame
    · refine iff_of_true ?_ fun h => hunlisted h.unlisted
      refine foldl_statusOf_again now later _ _ ?_ ?_
      · rw [foldl_statusOf_eq]
        refine lastWrite_congr _ _ (fun h => hunlisted ?_) _
        rw [List.filterMap_eq_map'] at h
        exact List.map_eq_nil_iff.1 h
      · rw [foldl_statusOf_eq]
        change lastWrite _ y.refuse.rejectionReason _ = lastWrite _ _ _
        rw [hreason]
  · rw [hkeep hrefused]
    refine iff_of_true ?_ fun h => hrefused h.refused
    refine foldl_statusOf_again now later _ _ ?_ ?_
    · rw [foldl_statusOf_eq]
      exact lastWrite_lastWrite _ _ _
    · rw [foldl_statusOf_eq]
      exact lastWrite_lastWrite _ _ _

/-- An order with a masked refusal is not closed. -/
theorem MaskedRefusal.not_closes (h : MaskedRefusal s userId brokerOrders trades y) :
    ¬ Closes s userId brokerOrders trades y := by
  obtain ⟨hunlisted, -, before, item, hlast, -, hlt⟩ := h
  unfold Closes
  rw [hunlisted]
  rintro ⟨before', item', hlast', -, hfull⟩
  obtain ⟨rfl, rfl⟩ := hlast.unique hlast'
  omega

end Again

/-! ## Idempotence -/

/-- A second pass over the same books changes no order, execution or position. -/
def PassIdempotent (now later : Time) (s : Store) (userId : Uuid)
    (brokerOrders : List BrokerOrderItem) (trades : List TradeItem) : Prop :=
  let once := (reconcile now s userId brokerOrders trades).1
  let twice := (reconcile later once userId brokerOrders trades).1
  twice.orders = once.orders ∧ twice.executions = once.executions ∧
    twice.positions = once.positions

/-- **A pass that commits**, and then once more. -/
theorem passIdempotent_of_commits {now : Time} (later : Time) {s t : Store} {userId : Uuid}
    {brokerOrders : List BrokerOrderItem} {trades : List TradeItem}
    (ht : reconcile now s userId brokerOrders trades = (t, .ok ()))
    (hstray : LeavesNoStray s userId brokerOrders trades) :
    PassIdempotent now later s userId brokerOrders trades ↔
      ∀ o ∈ localOrders s.toDatabase userId, ¬ MaskedRefusal s userId brokerOrders trades o := by
  have hnot : ∀ before item after row, trades = before ++ item :: after →
      ¬ Books t userId brokerOrders before item row :=
    fun _ _ _ _ htrades => not_books_again ht hstray htrades
  obtain ⟨hok, hexecutions, hpositions⟩ := reconcile_of_not_books later hnot
  unfold PassIdempotent
  rw [ht]
  dsimp only
  rw [reconcile_orders hok, hexecutions, hpositions, orders_again ht, List.map_map]
  constructor
  · rintro ⟨horders, -⟩ o ho hmasked
    have hsame := List.map_inj_left.1 horders o (List.mem_of_mem_filter ho)
    exact (endRow_again_iff later ht hstray ho hmasked.not_closes).1 hsame hmasked
  · intro h
    refine ⟨List.map_inj_left.2 fun o ho => ?_, rfl, rfl⟩
    by_cases hstays : ∃ x ∈ localOrders s.toDatabase userId,
        ¬ Closes s userId brokerOrders trades x ∧
        endRow now s userId brokerOrders trades x = endRow now s userId brokerOrders trades o
    · obtain ⟨x, hx, hcloses, hsame⟩ := hstays
      rw [Function.comp_apply, ← hsame]
      exact (endRow_again_iff later ht hstray hx hcloses).2 (h x hx)
    · refine endRow_of_not_local later trades ?_ fun hlocal => ?_
      · rw [orders_again ht]
        exact List.mem_map_of_mem ho
      · exact hstays ((localOrders_again ht).1 hlocal)

/-- **Idempotence.**  Where the orders that a pass closes leave no entry or trade
behind that then names another order, a second pass over the same books changes
nothing exactly when no order hides a refused trade behind a later fill. -/
theorem pass_idempotent_iff (now later : Time) {s : Store} {userId : Uuid}
    {brokerOrders : List BrokerOrderItem} {trades : List TradeItem}
    (hstray : PassBookable s userId brokerOrders trades →
      LeavesNoStray s userId brokerOrders trades) :
    PassIdempotent now later s userId brokerOrders trades ↔
      (PassBookable s userId brokerOrders trades → ∀ o ∈ localOrders s.toDatabase userId,
        ¬ MaskedRefusal s userId brokerOrders trades o) := by
  by_cases hbook : PassBookable s userId brokerOrders trades
  · have hok : (reconcile now s userId brokerOrders trades).2 = .ok () :=
      reconcile_commits_iff.2 hbook
    rw [passIdempotent_of_commits later (Prod.ext rfl hok) (hstray hbook)]
    exact (imp_iff_right hbook).symm
  · refine iff_of_true ?_ fun h => absurd h hbook
    have hsame : ∀ now, (reconcile now s userId brokerOrders trades).1 = s := by
      intro now
      rcases Session.commitOr_fst (reconcileApply now s.begin userId brokerOrders trades) s
        (.ok ()) with hs | ⟨-, hok⟩
      · exact hs
      · exact absurd (reconcile_commits_iff.1 hok) hbook
    unfold PassIdempotent
    rw [hsame now]
    dsimp only
    rw [hsame later]
    exact ⟨rfl, rfl, rfl⟩

/-- With one loaded order, nothing can go astray. -/
theorem LeavesNoStray.of_single {s : Store} {userId : Uuid} {brokerOrders : List BrokerOrderItem}
    {trades : List TradeItem} (h : ∀ x ∈ localOrders s.toDatabase userId,
      ∀ y ∈ localOrders s.toDatabase userId, x = y) :
    LeavesNoStray s userId brokerOrders trades := by
  constructor
  · intro x hx hcloses _ _ y hy hstays
    exact absurd (h x hx y hy ▸ hcloses) hstays
  · intro x hx hcloses _ _ y hy hstays
    exact absurd (h x hx y hy ▸ hcloses) hstays

/-- The entry of an order that is still open. -/
def pendingEntry : BrokerOrderItem := { orderId := "1", orderStatus := some "PENDING" }

theorem pass_idempotent_iff_pending :
    PassIdempotent 0 1 openLiveOrder 7 [pendingEntry] twoTrades := by
  have hlisted : ∀ o ∈ localOrders openLiveOrder.toDatabase 7,
      namedItems openLiveOrder 7 [pendingEntry] o ≠ [] := by decide
  exact (pass_idempotent_iff 0 1 fun _ => .of_single (by decide)).2
    fun _ o ho hmasked => hlisted o ho hmasked.unlisted

/-- A trade of 12 and one of 4, of an order for 10. -/
def refusedFirst : List TradeItem := [
  { orderId := "1", exchangeTradeId := "x", tradedQuantity := 12, tradedPrice := 100 },
  { orderId := "1", exchangeTradeId := "y", tradedQuantity := 4, tradedPrice := 99 }]

/-- **A second pass writes**: the first leaves the order PARTIALLY_FILLED after the
trade that fits, the second UNKNOWN after the one that does not. -/
theorem pass_not_idempotent : ¬ PassIdempotent 0 1 openLiveOrder 7 [] refusedFirst := by
  rintro ⟨horders, -⟩
  have honce : (reconcile 0 openLiveOrder 7 [] refusedFirst).1.orders.map TradingOrder.status =
      [.partiallyFilled] := by decide +kernel
  have htwice : (reconcile 1 (reconcile 0 openLiveOrder 7 [] refusedFirst).1 7 []
      refusedFirst).1.orders.map TradingOrder.status = [.unknown] := by decide +kernel
  rw [horders, honce] at htwice
  exact absurd htwice (by decide)

end GnkAlgo
