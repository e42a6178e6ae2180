import GnkAlgo.Lib.LastWrite
import GnkAlgo.Trading.PassBatch

/-!
# Orders at odds with the books

`_apply` marks an order UNKNOWN where a trade of it cannot be booked and where the
order book has it traded before its fills add up.  The loops write the status one
after the other, and so do the entries and trades within a loop.

* `entryStatus`, `foldl_statusOf_eq` — what the entries that name an order write to it;
* `foldl_imported_split` — what its trades write, by the last one that is new;
* `Diverges`, `divergence_kept_iff` — an order at odds with the books ends the pass
  UNKNOWN exactly when the last of these writes says so.
-/

namespace GnkAlgo

open Writes

/-! ## What entries write -/

/-- The status an entry stands for, for an order whose fills fall short or do not. -/
def entryStatus (short : Bool) (item : BrokerOrderItem) : OrderStatus :=
  if mapDhanStatus item.orderStatus = .filled ∧ short then .unknown
  else mapDhanStatus item.orderStatus

/-- The rejection reason an entry writes, if any. -/
def entryReason (short : Bool) (item : BrokerOrderItem) : Option String :=
  if mapDhanStatus item.orderStatus = .filled ∧ short then some "TRADE_BOOK_INCOMPLETE"
  else if mapDhanStatus item.orderStatus = .rejected then
    ((orMissing item.omsErrorDescription).or (orMissing item.orderStatusDescription)).map
      fun text => (text.take 120).toString
  else none

/-- The fills of an order do not add up to its quantity. -/
def TradingOrder.fallsShort (o : TradingOrder) : Bool := o.filledQuantity ≠ o.quantity

theorem entryStatus_eq_unknown {short : Bool} {item : BrokerOrderItem} :
    entryStatus short item = .unknown ↔ mapDhanStatus item.orderStatus = .unknown ∨
      mapDhanStatus item.orderStatus = .filled ∧ short = true := by
  unfold entryStatus
  split
  · rename_i h
    exact ⟨fun _ => Or.inr h, fun _ => rfl⟩
  · rename_i h
    exact ⟨Or.inl, fun h' => h'.resolve_right h⟩

/-- **One entry**: the status, a reason, and the moment of completion. -/
theorem statusOf_eq (now : Time) (o : TradingOrder) (item : BrokerOrderItem) :
    Pass.statusOf now o item = { o with
      status := entryStatus o.fallsShort item
      rejectionReason := (entryReason o.fallsShort item).or o.rejectionReason
      completedAt := if entryStatus o.fallsShort item ∈ terminalStatuses
        then some (o.completedAt.getD now) else o.completedAt } := by
  have hshort : o.fallsShort = true ↔ o.filledQuantity ≠ o.quantity := decide_eq_true_iff
  unfold Pass.statusOf entryStatus entryReason
  dsimp only
  by_cases h : mapDhanStatus item.orderStatus = .filled ∧ o.filledQuantity ≠ o.quantity
  · have h' := and_congr_right_iff.2 (fun _ => hshort.symm) |>.1 h
    rw [if_pos h, if_pos h', if_pos h', if_neg (by decide)]
    rfl
  · have h' := fun hshort' => h ((and_congr_right_iff.2 fun _ => hshort).1 hshort')
    rw [if_neg h, if_neg h', if_neg h']
    congr 1
    cases hstatus : mapDhanStatus item.orderStatus <;>
      cases (orMissing item.omsErrorDescription).or (orMissing item.orderStatusDescription) <;>
      rfl

/-- An order with other values in the columns that entries write. -/
def TradingOrder.marked (o : TradingOrder) (status : OrderStatus)
    (rejectionReason : Option String) (completedAt : Option Time) : TradingOrder :=
  { o with status, rejectionReason, completedAt }

theorem statusOf_marked (now : Time) (o : TradingOrder) (status : OrderStatus)
    (reason : Option String) (completedAt : Option Time) (item : BrokerOrderItem) :
    Pass.statusOf now (o.marked status reason completedAt) item =
      o.marked (entryStatus o.fallsShort item) ((entryReason o.fallsShort item).or reason)
        (if entryStatus o.fallsShort item ∈ terminalStatuses then some (completedAt.getD now)
          else completedAt) :=
  statusOf_eq now (o.marked status reason completedAt) item

/-- **The entries of an order**: the last status, the last reason, and the first
moment of completion. -/
theorem foldl_statusOf_eq (now : Time) (o : TradingOrder) (items : List BrokerOrderItem) :
    items.foldl (Pass.statusOf now) o = o.marked
      (lastWrite (fun item => some (entryStatus o.fallsShort item)) o.status items)
      (lastWrite (fun item => (entryReason o.fallsShort item).map some) o.rejectionReason items)
      (if ∃ item ∈ items, entryStatus o.fallsShort item ∈ terminalStatuses
        then some (o.completedAt.getD now) else o.completedAt) := by
  induction items using List.reverseRecOn with
  | nil => rw [if_neg (by simp)]; rfl
  | append_singleton items item ih =>
    rw [List.foldl_append, List.foldl_cons, List.foldl_nil, ih, statusOf_marked,
      lastWrite_append_singleton, lastWrite_append_singleton]
    congr 1
    · cases entryReason o.fallsShort item <;> rfl
    · by_cases hitem : entryStatus o.fallsShort item ∈ terminalStatuses
      · have hsome : ∃ x ∈ items ++ [item], entryStatus o.fallsShort x ∈ terminalStatuses :=
          ⟨item, by simp, hitem⟩
        rw [if_pos hitem, if_pos hsome]
        by_cases hold : ∃ x ∈ items, entryStatus o.fallsShort x ∈ terminalStatuses
        · rw [if_pos hold]
          rfl
        · rw [if_neg hold]
      · have hiff : (∃ x ∈ items ++ [item], entryStatus o.fallsShort x ∈ terminalStatuses) ↔
            ∃ x ∈ items, entryStatus o.fallsShort x ∈ terminalStatuses := by
          constructor
          · rintro ⟨x, hx, hterminal⟩
            rcases List.mem_append.1 hx with hx | hx
            · exact ⟨x, hx, hterminal⟩
            · obtain rfl := List.mem_singleton.1 hx
              exact absurd hterminal hitem
          · rintro ⟨x, hx, hterminal⟩
            exact ⟨x, List.mem_append_left _ hx, hterminal⟩
        rw [if_neg hitem]
        simp only [hiff]

/-! ## What trades write -/

section Trades

variable (now : Time) (stored : Database) (o : TradingOrder)

/-- The trade is new, and the trades before it leave no room for it. -/
def TradingOrder.Misfits (before : List TradeItem) (item : TradeItem) : Prop :=
  o.IsNewTrade stored item ∧ ¬ (0 < item.tradedQuantity ∧
    filledBy stored o before + item.tradedQuantity ≤ o.quantity)

instance (before : List TradeItem) (item : TradeItem) :
    Decidable (o.Misfits stored before item) := inferInstanceAs (Decidable (_ ∧ _))

/-- What a trade writes after others. -/
theorem foldl_imported_append_singleton (trades : List TradeItem) (item : TradeItem) :
    (trades ++ [item]).foldl (TradingOrder.imported now stored) o =
      (trades.foldl (TradingOrder.imported now stored) o).imported now stored item := by
  rw [List.foldl_append]
  rfl

/-- Trades that are recorded already write nothing. -/
theorem foldl_imported_of_old {trades : List TradeItem}
    (h : ∀ item ∈ trades, ¬ o.IsNewTrade stored item) :
    trades.foldl (TradingOrder.imported now stored) o = o := by
  induction trades with
  | nil => rfl
  | cons item rest ih =>
    have hitem : o.imported now stored item = o := if_pos (h item List.mem_cons_self)
    rw [List.foldl_cons, hitem]
    exact ih fun x hx => h x (List.mem_cons_of_mem _ hx)

/-- **The trades of an order**: what the last new one writes stays. -/
theorem foldl_imported_split {before after : List TradeItem} {item : TradeItem}
    (hafter : ∀ x ∈ after, ¬ o.IsNewTrade stored x) :
    (before ++ item :: after).foldl (TradingOrder.imported now stored) o =
      (before.foldl (TradingOrder.imported now stored) o).imported now stored item := by
  have hto := foldl_imported_filledTo now stored o (before ++ [item])
  rw [foldl_imported_append_singleton] at hto
  rw [List.foldl_append, List.foldl_cons]
  exact foldl_imported_of_old now stored _ fun x hx hnew => hafter x hx (hto.isNewTrade_iff.1 hnew)

variable {o} in
/-- The status that the last new trade leaves. -/
theorem status_foldl_imported_split {before after : List TradeItem} {item : TradeItem}
    (hnew : o.IsNewTrade stored item) (hafter : ∀ x ∈ after, ¬ o.IsNewTrade stored x) :
    ((before ++ item :: after).foldl (TradingOrder.imported now stored) o).status =
      if o.Misfits stored before item then .unknown
      else if filledBy stored o before + item.tradedQuantity = o.quantity then .filled
      else .partiallyFilled := by
  have hto := foldl_imported_filledTo now stored o before
  rw [foldl_imported_split now stored o hafter]
  generalize before.foldl (TradingOrder.imported now stored) o = mid at hto ⊢
  rw [TradingOrder.imported, if_neg (not_not.2 (hto.isNewTrade_iff.2 hnew))]
  by_cases hfits : mid.Fits item
  · rw [if_pos hfits, if_neg fun h : o.Misfits stored before item => h.2 (hto.fits_iff.1 hfits)]
    change (if mid.filledQuantity + item.tradedQuantity = mid.quantity then _ else _) = _
    rw [hto.filledQuantity, hto.quantity]
  · rw [if_neg hfits, if_pos ⟨hnew, fun h => hfits (hto.fits_iff.2 h)⟩]
    rfl

end Trades

/-! ## The row at the end of a pass -/

section Rows

variable {now : Time} {s : Store} {userId : Uuid} {brokerOrders : List BrokerOrderItem}
  {trades : List TradeItem} {o : TradingOrder}

/-- The trades of the trade book that name an order. -/
def namedTrades (s : Store) (userId : Uuid) (brokerOrders : List BrokerOrderItem)
    (trades : List TradeItem) (o : TradingOrder) : List TradeItem :=
  (attachedPass s.begin userId brokerOrders).tradesFor trades o.id

/-- The entries of the order book that name an order. -/
def namedItems (s : Store) (userId : Uuid) (brokerOrders : List BrokerOrderItem)
    (o : TradingOrder) : List BrokerOrderItem :=
  (attachedPass s.begin userId brokerOrders).itemsFor brokerOrders o.id

/-- The filled quantity of an order when the pass has imported its trades. -/
def filledInPass (s : Store) (userId : Uuid) (brokerOrders : List BrokerOrderItem)
    (trades : List TradeItem) (o : TradingOrder) : ℤ :=
  filledBy s.toDatabase o (namedTrades s userId brokerOrders trades o)

/-- The row of a stored order when its trades are imported. -/
theorem exists_importedRow (now : Time) (userId : Uuid) (brokerOrders : List BrokerOrderItem)
    (trades : List TradeItem) (ho : o ∈ s.orders) : ∃ b,
    (importedPass now s userId brokerOrders trades).order? o.id =
      some ((namedTrades s userId brokerOrders trades o).foldl
        (TradingOrder.imported now s.toDatabase) { o with brokerOrderId := b }) ∧
    (reconcileApply now s.begin userId brokerOrders trades).work.order? o.id =
      some ((namedItems s userId brokerOrders o).foldl (Pass.statusOf now)
        ((namedTrades s userId brokerOrders trades o).foldl
          (TradingOrder.imported now s.toDatabase) { o with brokerOrderId := b })) := by
  obtain ⟨b, hb, -⟩ := Pass.order?_foldl_attach (Pass.sound_startPass s.begin userId rfl)
    brokerOrders o.id (s.valid.order?_eq ho)
  have himported := Pass.order?_foldl_importTrade now trades o.id
    (sound_attachedPass s userId brokerOrders)
  have hrow := reconcileApply_order? now s userId brokerOrders trades o.id
  rw [attachedPass, hb] at himported hrow
  exact ⟨b, himported, hrow⟩

end Rows

/-! ## Divergence -/

section Divergence

/-- `apply_execution` refuses the trade, which names the order, when its turn comes. -/
def RefusedInPass (now : Time) (s : Store) (userId : Uuid) (brokerOrders : List BrokerOrderItem)
    (before : List TradeItem) (item : TradeItem) (o : TradingOrder) : Prop :=
  item.exchangeTradeId ≠ "" ∧
  ∃ row, (importedPass now s userId brokerOrders before).ofBroker? item.orderId = some row ∧
    row.id = o.id ∧ ∃ e, applyExecution now (importedPass now s userId brokerOrders before).session
      row item.tradedQuantity item.tradedPrice .dhanReconciliation
      (some (.exchange item.exchangeTradeId)) (some (tradeTime now item.exchangeTime)) = .error e

/-- A pass finds an order at odds with the books: a trade of it is refused, or the
order book has it traded while its imported fills do not add up. -/
inductive Diverges (now : Time) (s : Store) (userId : Uuid) (brokerOrders : List BrokerOrderItem)
    (trades : List TradeItem) (o : TradingOrder) : Prop
  | refused {before item after} (htrades : trades = before ++ item :: after)
    (hrefused : RefusedInPass now s userId brokerOrders before item o)
  | incomplete {item row} (hitem : item ∈ brokerOrders)
    (named : (attachedPass s.begin userId brokerOrders).itemTarget item = some o.id)
    (traded : mapDhanStatus item.orderStatus = .filled)
    (found : (importedPass now s userId brokerOrders trades).order? o.id = some row)
    (short : row.filledQuantity ≠ row.quantity)

/-- Every order that diverges ends the pass UNKNOWN, as one that the next pass
loads. -/
def KeepsDivergence (now : Time) (s : Store) (userId : Uuid) (brokerOrders : List BrokerOrderItem)
    (trades : List TradeItem) : Prop :=
  ∀ o ∈ localOrders s.toDatabase userId, Diverges now s userId brokerOrders trades o →
    ∃ row, (reconcileApply now s.begin userId brokerOrders trades).work.order? o.id = some row ∧
      row.status = .unknown ∧
      row ∈ localOrders (reconcileApply now s.begin userId brokerOrders trades).work userId

/-- The last that the books have to say of an order is that it is at odds with them:
the last entry that names it has an unknown status, or has it traded while its fills
fall short; or, where no entry names it, the last of its new trades does not fit. -/
def EndsAtOdds (s : Store) (userId : Uuid) (brokerOrders : List BrokerOrderItem)
    (trades : List TradeItem) (o : TradingOrder) : Prop :=
  match (namedItems s userId brokerOrders o).getLast? with
  | some item => mapDhanStatus item.orderStatus = .unknown ∨
    mapDhanStatus item.orderStatus = .filled ∧
      filledInPass s userId brokerOrders trades o ≠ o.quantity
  | none => ∃ before item after, namedTrades s userId brokerOrders trades o =
      before ++ item :: after ∧ o.Misfits s.toDatabase before item ∧
      ∀ x ∈ after, ¬ o.IsNewTrade s.toDatabase x

variable {now : Time} {s : Store} {userId : Uuid} {brokerOrders : List BrokerOrderItem}
  {trades : List TradeItem} {o : TradingOrder}

/-- A trade of an order is refused where it does not fit. -/
theorem refusedInPass_iff {before : List TradeItem} {item : TradeItem}
    (ho : o ∈ localOrders s.toDatabase userId) :
    RefusedInPass now s userId brokerOrders before item o ↔
      (attachedPass s.begin userId brokerOrders).tradeTarget item = some o.id ∧
        o.Misfits s.toDatabase (namedTrades s userId brokerOrders before o) item := by
  rcases names_cases now s userId brokerOrders before item with
    ⟨hnamed, hnone⟩ | ⟨o', row, hnames⟩
  · refine iff_of_false ?_ ?_
    · rintro ⟨-, row, hfound, -⟩
      rw [hnone] at hfound
      cases hfound
    · rintro ⟨hnamed', -⟩
      rw [hnamed] at hnamed'
      cases hnamed'
  have hstored := (sound_importedPass now s userId brokerOrders before).stored_eq
  have hcases := applyExecution_cases now (importedPass now s userId brokerOrders before).session
    row item.tradedQuantity item.tradedPrice .dhanReconciliation
    (some (.exchange item.exchangeTradeId)) (some (tradeTime now item.exchangeTime))
  constructor
  · rintro ⟨hid, row', hfound, hrow, e, he⟩
    rw [hnames.found] at hfound
    obtain rfl := Option.some_inj.1 hfound
    obtain rfl := s.valid.eq_of_id (List.mem_of_mem_filter hnames.loaded)
      (List.mem_of_mem_filter ho) (hnames.filledTo.id.symm.trans hrow)
    rcases hcases with ⟨-, hx⟩ | ⟨hnew, hbad, -⟩ | ⟨-, -, -, hx⟩
    · rw [hx] at he
      cases he
    · rw [← Pass.isNewTrade_iff_recorded? hid, hstored, hnames.filledTo.isNewTrade_iff] at hnew
      rw [hnames.filledTo.filledQuantity, hnames.filledTo.quantity] at hbad
      refine ⟨hnames.named, hnew, fun hfits => ?_⟩
      unfold namedTrades at hfits
      omega
    · rw [hx] at he
      cases he
  · rintro ⟨hnamed, hnew, hmisfits⟩
    have hid := hnamed.symm.trans hnames.named
    obtain rfl := s.valid.eq_of_id (List.mem_of_mem_filter ho)
      (List.mem_of_mem_filter hnames.loaded) (Option.some_inj.1 hid)
    refine ⟨hnew.1, row, hnames.found, hnames.filledTo.id, ?_⟩
    rw [← Pass.isNewTrade_iff_recorded? hnew.1, hstored] at hcases
    rcases hcases with ⟨⟨e, he⟩, -⟩ | ⟨-, -, hx⟩ | ⟨-, hq, hfits, -⟩
    · have hfound := (Pass.isNewTrade_iff_recorded? (p := importedPass now s userId brokerOrders
        before) hnew.1).1 (hstored ▸ hnames.filledTo.isNewTrade_iff.2 hnew)
      rw [hfound] at he
      cases he
    · exact ⟨_, hx⟩
    · rw [hnames.filledTo.filledQuantity, hnames.filledTo.quantity] at hfits
      exact absurd ⟨hq, hfits⟩ hmisfits

/-- A pass that refuses a trade of an order meets a trade that is new to it. -/
theorem exists_new_of_refused {before after : List TradeItem} {item : TradeItem}
    (ho : o ∈ localOrders s.toDatabase userId)
    (h : RefusedInPass now s userId brokerOrders before item o) :
    ∃ x ∈ namedTrades s userId brokerOrders (before ++ item :: after) o,
      o.IsNewTrade s.toDatabase x := by
  obtain ⟨hnamed, hmisfits⟩ := (refusedInPass_iff ho).1 h
  refine ⟨item, List.mem_filter.2 ⟨by simp, ?_⟩, hmisfits.1⟩
  rw [decide_eq_true_eq]
  exact hnamed

/-- **An order at odds with the books** ends the pass UNKNOWN exactly when that is
the last the books have to say of it. -/
theorem exists_row_of_diverges (ho : o ∈ localOrders s.toDatabase userId)
    (h : Diverges now s userId brokerOrders trades o) :
    ∃ row, (reconcileApply now s.begin userId brokerOrders trades).work.order? o.id = some row ∧
      row.positionKey = o.positionKey ∧
      (row.status = .unknown ↔ EndsAtOdds s userId brokerOrders trades o) := by
  obtain ⟨b, himported, hrow⟩ := exists_importedRow now userId brokerOrders trades
    (List.mem_of_mem_filter ho)
  have hto := foldl_imported_filledTo now s.toDatabase { o with brokerOrderId := b }
    (namedTrades s userId brokerOrders trades o)
  have hstatus : ∀ before item after, namedTrades s userId brokerOrders trades o =
      before ++ item :: after → o.IsNewTrade s.toDatabase item →
      (∀ x ∈ after, ¬ o.IsNewTrade s.toDatabase x) →
      (((namedTrades s userId brokerOrders trades o).foldl
        (TradingOrder.imported now s.toDatabase) { o with brokerOrderId := b }).status = .unknown ↔
        o.Misfits s.toDatabase before item) := by
    intro before item after htrades hnew hafter
    rw [htrades, status_foldl_imported_split now s.toDatabase (o := { o with brokerOrderId := b })
      hnew hafter]
    by_cases hmisfits : o.Misfits s.toDatabase before item
    · exact ⟨fun _ => hmisfits, fun _ => if_pos hmisfits⟩
    · refine ⟨fun heq => ?_, fun h => absurd h hmisfits⟩
      rw [if_neg (show ¬ TradingOrder.Misfits s.toDatabase { o with brokerOrderId := b } before
        item from hmisfits)] at heq
      split at heq <;> cases heq
  generalize hmid : (namedTrades s userId brokerOrders trades o).foldl
    (TradingOrder.imported now s.toDatabase) { o with brokerOrderId := b } = mid at *
  have hshort : mid.fallsShort = true ↔
      filledInPass s userId brokerOrders trades o ≠ o.quantity := by
    rw [TradingOrder.fallsShort, decide_eq_true_eq, hto.filledQuantity, hto.quantity]
    rfl
  refine ⟨_, hrow, ?_, ?_⟩
  · rw [foldl_statusOf_eq]
    exact hto.positionKey
  rw [foldl_statusOf_eq]
  change lastWrite _ mid.status _ = _ ↔ _
  rw [lastWrite_some]
  unfold EndsAtOdds
  cases hlast : (namedItems s userId brokerOrders o).getLast? with
  | some item =>
    change entryStatus mid.fallsShort item = .unknown ↔ _
    rw [entryStatus_eq_unknown, hshort]
  | none =>
    change mid.status = .unknown ↔ _
    constructor
    · intro hunknown
      have hnone : namedItems s userId brokerOrders o = [] := List.getLast?_eq_none_iff.1 hlast
      cases h with
      | refused htrades hrefused =>
        obtain ⟨before, item, after, hsplit, hnew, hafter⟩ := exists_split_last
          (htrades ▸ exists_new_of_refused ho hrefused)
        exact ⟨before, item, after, hsplit, (hstatus _ _ _ hsplit hnew hafter).1 hunknown, hafter⟩
      | @incomplete item row hitem hnamed traded found short =>
        have hmem : item ∈ namedItems s userId brokerOrders o :=
          List.mem_filter.2 ⟨hitem, decide_eq_true hnamed⟩
        rw [hnone] at hmem
        cases hmem
    · rintro ⟨before, item, after, hsplit, hmisfits, hafter⟩
      exact (hstatus _ _ _ hsplit hmisfits.1 hafter).2 hmisfits

/-- **Divergence.**  A pass leaves every order that diverges UNKNOWN, and open for
the next pass, exactly when the last that the books have to say of each of them is
that it is at odds with them. -/
theorem divergence_kept_iff (now : Time) (s : Store) (userId : Uuid)
    (brokerOrders : List BrokerOrderItem) (trades : List TradeItem) :
    KeepsDivergence now s userId brokerOrders trades ↔
      ∀ o ∈ localOrders s.toDatabase userId, Diverges now s userId brokerOrders trades o →
        EndsAtOdds s userId brokerOrders trades o := by
  refine forall₃_congr fun o ho hdiverges => ?_
  obtain ⟨row, hrow, hkey, hunknown⟩ := exists_row_of_diverges ho hdiverges
  obtain ⟨-, huser, hmode, -⟩ := Pass.mem_localOrders.1 ho
  constructor
  · rintro ⟨row', hrow', hstatus, -⟩
    obtain rfl := Option.some_inj.1 (hrow.symm.trans hrow')
    exact hunknown.1 hstatus
  · intro hodds
    have hstatus := hunknown.2 hodds
    refine ⟨row, hrow, hstatus, Pass.mem_localOrders.2 ⟨(Database.order?_mem hrow).1, ?_, ?_, ?_⟩⟩
    · exact (congrArg PositionKey.userId hkey).trans huser
    · exact (congrArg PositionKey.mode hkey).trans hmode
    · rw [hstatus]
      decide

/-- A trade of 12. -/
def overTrade : TradeItem :=
  { orderId := "Da", exchangeTradeId := "y", tradedQuantity := 12, tradedPrice := 100 }

/-- The entry of an order that is still open. -/
def openItem : BrokerOrderItem := { orderId := "Da", orderStatus := some "PENDING" }

/-- **A divergence is masked**: a trade of 12 of an order for 10 is refused, and the
entry of the order takes its UNKNOWN away again. -/
theorem divergence_masked : ¬ KeepsDivergence 4
    (orderStep liveSettings connectedStore acceptedOrder) 7 [openItem] [overTrade] := by
  intro h
  have hstatus : (reconcileApply 4 (orderStep liveSettings connectedStore acceptedOrder).begin 7
      [openItem] [overTrade]).work.orders.map TradingOrder.status = [.open] := by decide +kernel
  have hlocal : (localOrders (orderStep liveSettings connectedStore acceptedOrder).toDatabase
      7).map TradingOrder.id = [10] := by decide +kernel
  have hrefused : ∀ o ∈ localOrders (orderStep liveSettings connectedStore acceptedOrder).toDatabase
      7, (attachedPass (orderStep liveSettings connectedStore acceptedOrder).begin 7
        [openItem]).tradeTarget overTrade = some o.id ∧
      o.Misfits (orderStep liveSettings connectedStore acceptedOrder).toDatabase
        (namedTrades (orderStep liveSettings connectedStore acceptedOrder) 7 [openItem] [] o)
        overTrade := by decide +kernel
  obtain ⟨o, ho, -⟩ := List.mem_map.1 (hlocal ▸ List.mem_singleton_self (10 : Uuid))
  have htrades : [overTrade] = [] ++ overTrade :: [] := rfl
  obtain ⟨row, hrow, hunknown, -⟩ :=
    h o ho (.refused htrades ((refusedInPass_iff ho).2 (hrefused o ho)))
  have hmem := List.mem_map_of_mem (f := TradingOrder.status) (Database.order?_mem hrow).1
  rw [hstatus, hunknown] at hmem
  exact absurd hmem (by decide)

end Divergence

end GnkAlgo
