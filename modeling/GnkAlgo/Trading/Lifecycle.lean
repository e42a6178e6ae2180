import GnkAlgo.Trading.OrderRuns

/-!
# The lifecycle of LIVE orders

Status, fill and completion of a LIVE order agree where it is FILLED exactly
when all of it is filled, and completed exactly when its status is terminal.

* `TradingOrder.Agreed` — the agreement, of one order;
* `LifecycleOk` — the answers and books under which a call keeps it;
* `agreed_run` — it holds along every run of such calls.
-/

namespace GnkAlgo

open Transition

/-! ## Agreement -/

/-- Status, fill and completion of an order agree. -/
structure TradingOrder.Agreed (o : TradingOrder) : Prop where
  filled : o.status = .filled ↔ o.filledQuantity = o.quantity
  completed : o.completedAt.isSome ↔ o.status ∈ terminalStatuses

/-- An order with an open status agrees where it is neither filled nor completed. -/
structure TradingOrder.Unfinished (o : TradingOrder) : Prop where
  status : o.status ∈ openOrderStatuses
  filled : o.filledQuantity ≠ o.quantity
  completed : o.completedAt = none

theorem TradingOrder.Unfinished.agreed {o : TradingOrder} (h : o.Unfinished) : o.Agreed := by
  refine ⟨⟨fun hs => ?_, fun hf => absurd hf h.filled⟩, ⟨fun hc => ?_, fun ht => ?_⟩⟩
  · have := h.status
    rw [hs] at this
    exact absurd this (by decide)
  · rw [h.completed] at hc; cases hc
  · exact absurd h.status (mem_terminalStatuses.1 ht)

theorem TradingOrder.Agreed.unfinished {o : TradingOrder} (h : o.Agreed)
    (hs : o.status ∈ openOrderStatuses) : o.Unfinished := by
  refine ⟨hs, fun hf => ?_, ?_⟩
  · rw [h.filled.2 hf] at hs
    exact absurd hs (by decide)
  · by_contra hc
    exact mem_terminalStatuses.1 (h.completed.1 (Option.isSome_iff_ne_none.2 hc)) hs

/-- Every LIVE order agrees. -/
def Database.Agreed (d : Database) : Prop := ∀ o ∈ d.orders, o.mode = .live → o.Agreed

namespace Database

variable {d : Database} {o : TradingOrder}

theorem Agreed.setOrder (h : d.Agreed) (ho : o.mode = .live → o.Agreed) :
    (d.setOrder o).Agreed := by
  intro y hy
  rcases Rows.mem_replaceBy hy with rfl | ⟨hy, -⟩
  · exact ho
  · exact h y hy

theorem Agreed.insertOrder (h : d.Agreed) (ho : o.mode = .live → o.Agreed) :
    (d.insertOrder o).Agreed := by
  intro y hy
  rcases List.mem_append.1 hy with hy | hy
  · exact h y hy
  · rw [List.mem_singleton.1 hy]; exact ho

end Database

/-! ## Answers of the broker -/

/-- The terminal statuses that say nothing about fills. -/
def closedStatuses : List OrderStatus := [.canceled, .rejected, .expired]

/-- A placement leaves a new order in agreement unless the answer says that it
is traded: the fills come with the trade book only. -/
theorem placeFinish_agreed_iff {now : Time} {o : TradingOrder} {result : AdapterResult}
    (ho : o.Unfinished) : ((placeFinish now o result).1.getD o).Agreed ↔
      ∀ response, result = .ok response → mapDhanStatus response.orderStatus ≠ .filled := by
  constructor
  · rintro h response rfl hs
    exact ho.filled (h.filled.1 hs)
  intro h
  cases result with
  | escaped => exact ho.agreed
  | error e =>
    cases hambiguous : e.ambiguous with
    | true =>
      refine TradingOrder.Unfinished.agreed ⟨?_, ho.filled, ?_⟩
      · simp [placeFinish, hambiguous, openOrderStatuses]
      · simp [placeFinish, hambiguous, ho.completed]
    | false =>
      refine ⟨⟨fun hs => ?_, fun hf => absurd hf ho.filled⟩, ?_⟩
      · simp [placeFinish, hambiguous] at hs
      · simp [placeFinish, hambiguous, terminalStatuses]
  | ok response =>
    have hne := h response rfl
    refine ⟨⟨fun hs => absurd hs hne, fun hf => absurd hf ho.filled⟩, ?_⟩
    simp only [placeFinish, Option.getD_some, ho.completed, terminalStatuses]
    cases hstatus : mapDhanStatus response.orderStatus <;> simp_all

/-- A cancellation leaves an unfinished order in agreement unless the answer
says that it is traded, rejected or expired: only a canceled one is completed. -/
theorem cancelFinish_agreed_iff {now : Time} {o : TradingOrder} {result : AdapterResult}
    (ho : o.Unfinished) :
    ((cancelFinish now o.status o.cancelRequested result).1.getD o.cancelRequested).Agreed ↔
      ∀ response, result = .ok response →
        mapDhanStatus ((orMissing response.orderStatus).or (some "CANCELLED")) ∉
          [OrderStatus.filled, .rejected, .expired] := by
  constructor
  · rintro h response rfl hs
    have hcompleted := h.completed
    simp only [cancelFinish, TradingOrder.cancelRequested, Option.getD_some, ho.completed,
      terminalStatuses] at hcompleted
    revert hs hcompleted
    cases mapDhanStatus ((orMissing response.orderStatus).or (some "CANCELLED")) <;> simp
  intro h
  cases result with
  | escaped =>
    refine TradingOrder.Unfinished.agreed ⟨?_, ho.filled, ho.completed⟩
    change OrderStatus.cancelPending ∈ openOrderStatuses
    decide
  | error e =>
    refine TradingOrder.Unfinished.agreed ⟨?_, ho.filled, ho.completed⟩
    change (if e.ambiguous then OrderStatus.unknown else o.status) ∈ openOrderStatuses
    split
    · decide
    · exact ho.status
  | ok response =>
    have hne := h response rfl
    refine ⟨⟨fun hs => absurd (List.mem_cons.2 (Or.inl hs)) hne,
      fun hf => absurd hf ho.filled⟩, ?_⟩
    simp only [cancelFinish, TradingOrder.cancelRequested, Option.getD_some, ho.completed,
      terminalStatuses]
    cases hstatus : mapDhanStatus ((orMissing response.orderStatus).or (some "CANCELLED")) <;>
      simp_all

/-- A modification leaves an unfinished order in agreement unless it is accepted
with a terminal status or for the very quantity that is filled. -/
theorem modifyFinish_agreed_iff {o : TradingOrder} {quantity : ℤ} {limitPrice : ℚ}
    {result : AdapterResult} (ho : o.Unfinished) :
    ((modifyFinish o quantity limitPrice result).1.getD o).Agreed ↔
      ∀ response, result = .ok response →
        mapDhanStatus response.orderStatus ∉ terminalStatuses ∧ o.filledQuantity ≠ quantity := by
  constructor
  · rintro h response rfl
    have hstatus : mapDhanStatus response.orderStatus ∉ terminalStatuses := fun hs => by
      have := h.completed.2 hs
      rw [show ((modifyFinish o quantity limitPrice (.ok response)).1.getD o).completedAt = none
        from ho.completed] at this
      cases this
    refine ⟨hstatus, fun hq => hstatus ?_⟩
    have hfilled : mapDhanStatus response.orderStatus = .filled := h.filled.2 hq
    rw [hfilled]
    decide
  intro h
  cases result with
  | escaped => exact ho.agreed
  | error e =>
    refine TradingOrder.Unfinished.agreed ⟨?_, ho.filled, ho.completed⟩
    change (if e.ambiguous then OrderStatus.unknown else o.status) ∈ openOrderStatuses
    split
    · decide
    · exact ho.status
  | ok response =>
    obtain ⟨hstatus, hquantity⟩ := h response rfl
    refine TradingOrder.Unfinished.agreed ⟨?_, hquantity, ho.completed⟩
    exact not_not.1 fun hopen => hstatus (mem_terminalStatuses.2 hopen)

/-! ## Books of the broker -/

/-- Every new trade is listed while the order is incomplete. -/
def InTime (stored : Database) (o : TradingOrder) (trades : List TradeItem) : Prop :=
  ∀ before item after, trades = before ++ item :: after → o.IsNewTrade stored item →
    filledBy stored o before ≠ o.quantity

/-- The trades and the order book entries of an order tell one story: where the
trades complete it the last entry says so, and where there is no entry no new
trade comes after the one that completes it; where they do not, no entry after
one that is canceled, rejected or expired takes that back. -/
structure PassAgrees (stored : Database) (o : TradingOrder) (trades : List TradeItem)
    (items : List BrokerOrderItem) : Prop where
  unlisted : items = [] → InTime stored o trades
  complete : ∀ last ∈ items.getLast?, filledBy stored o trades = o.quantity →
    mapDhanStatus last.orderStatus = .filled
  incomplete : ∀ last ∈ items.getLast?, filledBy stored o trades ≠ o.quantity →
    (∃ item ∈ items, mapDhanStatus item.orderStatus ∈ closedStatuses) →
    mapDhanStatus last.orderStatus ∈ closedStatuses

/-- A complete order stays complete. -/
theorem filledBy_append_of_complete {stored : Database} {o : TradingOrder}
    {trades : List TradeItem} (h : filledBy stored o trades = o.quantity) (rest : List TradeItem) :
    filledBy stored o (trades ++ rest) = o.quantity := by
  induction rest using List.reverseRecOn with
  | nil => rwa [List.append_nil]
  | append_singleton rest item ih =>
    rw [← List.append_assoc, filledBy_append_singleton, ih, if_neg]
    rintro ⟨-, hpos, hle⟩
    omega

theorem inTime_append_singleton {stored : Database} {o : TradingOrder} {trades : List TradeItem}
    {item : TradeItem} : InTime stored o (trades ++ [item]) ↔ InTime stored o trades ∧
      (o.IsNewTrade stored item → filledBy stored o trades ≠ o.quantity) := by
  constructor
  · refine fun h => ⟨fun before item' after heq hnew => ?_, fun hnew => h trades item [] rfl hnew⟩
    exact h before item' (after ++ [item]) (by rw [heq]; simp) hnew
  · rintro ⟨h, hlast⟩ before item' after heq hnew
    rcases after.eq_nil_or_concat' with rfl | ⟨after, item'', rfl⟩
    · obtain ⟨rfl, hitem⟩ := List.append_inj' heq rfl
      obtain rfl := List.singleton_inj.1 hitem
      exact hlast hnew
    · rw [← List.cons_append, ← List.append_assoc] at heq
      exact h before item' after (List.append_inj' heq rfl).1 hnew

/-- An order that is not complete has had all its trades in time. -/
theorem inTime_of_incomplete {stored : Database} {o : TradingOrder} {trades : List TradeItem}
    (h : filledBy stored o trades ≠ o.quantity) : InTime stored o trades := by
  rintro before item after rfl _ hbefore
  exact h (filledBy_append_of_complete hbefore _)

/-- What the trades of a pass leave of an unfinished order `o`. -/
structure Tallied (stored : Database) (o : TradingOrder) (trades : List TradeItem)
    (new : TradingOrder) : Prop where
  incomplete : filledBy stored o trades ≠ o.quantity → new.Unfinished
  complete : filledBy stored o trades = o.quantity → new.completedAt.isSome
  traded : filledBy stored o trades = o.quantity →
    (new.status = .filled ↔ InTime stored o trades)

theorem tallied_imported (now : Time) (stored : Database) {o : TradingOrder} (ho : o.Unfinished)
    (trades : List TradeItem) :
    Tallied stored o trades (trades.foldl (TradingOrder.imported now stored) o) := by
  induction trades using List.reverseRecOn with
  | nil => exact ⟨fun _ => ho, fun h => absurd h ho.filled, fun h => absurd h ho.filled⟩
  | append_singleton trades item ih =>
    have hto := foldl_imported_filledTo now stored o trades
    have hsum := filledBy_append_singleton stored o trades item
    rw [List.foldl_append, List.foldl_cons, List.foldl_nil]
    generalize trades.foldl (TradingOrder.imported now stored) o = mid at ih hto hsum ⊢
    unfold TradingOrder.imported
    by_cases hnew : mid.IsNewTrade stored item
    · rw [if_neg (not_not.2 hnew)]
      by_cases hfit : mid.Fits item
      · -- booked: the trades before left the order incomplete
        rw [if_pos hfit]
        rw [if_pos ⟨hto.isNewTrade_iff.1 hnew, hto.fits_iff.1 hfit⟩] at hsum
        have hprev : filledBy stored o trades ≠ o.quantity := by
          have := hto.fits_iff.1 hfit
          omega
        have hfull : mid.filledQuantity + item.tradedQuantity = mid.quantity ↔
            filledBy stored o (trades ++ [item]) = o.quantity := by
          rw [hsum, hto.filledQuantity, hto.quantity]
        refine ⟨fun hne => ⟨?_, ?_, ?_⟩, fun heq => ?_, fun heq => ?_⟩
        · simp [TradingOrder.fill, hfull, hne, openOrderStatuses]
        · exact fun h => hne (hfull.1 h)
        · simp [TradingOrder.fill, hfull, hne, (ih.incomplete hprev).completed]
        · simp [TradingOrder.fill, hfull, heq]
        · rw [TradingOrder.fill_status_eq_filled, hfull]
          exact iff_of_true heq
            (inTime_append_singleton.2 ⟨inTime_of_incomplete hprev, fun _ => hprev⟩)
      · -- refused: where the order is complete, the trade came too late
        rw [if_neg hfit]
        rw [if_neg fun h => hfit (hto.fits_iff.2 h.2)] at hsum
        refine ⟨fun hne => ?_, fun heq => ih.complete (hsum ▸ heq), fun heq => ?_⟩
        · have := ih.incomplete (hsum ▸ hne)
          exact ⟨by simp [TradingOrder.refuse, openOrderStatuses], this.filled, this.completed⟩
        · exact iff_of_false (by simp [TradingOrder.refuse]) fun h =>
            (inTime_append_singleton.1 h).2 (hto.isNewTrade_iff.1 hnew) (hsum ▸ heq)
    · rw [if_pos hnew]
      rw [if_neg fun h => hnew (hto.isNewTrade_iff.2 h.1)] at hsum
      refine ⟨fun hne => ih.incomplete (hsum ▸ hne), fun heq => ih.complete (hsum ▸ heq),
        fun heq => ?_⟩
      rw [ih.traded (hsum ▸ heq), inTime_append_singleton]
      exact (and_iff_left fun h => absurd (hto.isNewTrade_iff.2 h) hnew).symm

/-- The entry completes the order in the third loop. -/
def Completes (o : TradingOrder) (item : BrokerOrderItem) : Prop :=
  mapDhanStatus item.orderStatus ∈ closedStatuses ∨
    mapDhanStatus item.orderStatus = .filled ∧ o.filledQuantity = o.quantity

/-- The third loop: the quantities stay, and the order is completed by an entry
or was before. -/
theorem foldl_statusOf (now : Time) (o : TradingOrder) (items : List BrokerOrderItem) :
    (items.foldl (Pass.statusOf now) o).filledQuantity = o.filledQuantity ∧
    (items.foldl (Pass.statusOf now) o).quantity = o.quantity ∧
    ((items.foldl (Pass.statusOf now) o).completedAt.isSome ↔
      o.completedAt.isSome ∨ ∃ item ∈ items, Completes o item) := by
  induction items using List.reverseRecOn with
  | nil => simp
  | append_singleton items item ih =>
    rw [List.foldl_append, List.foldl_cons, List.foldl_nil]
    generalize items.foldl (Pass.statusOf now) o = mid at ih ⊢
    obtain ⟨hfilled, hquantity, hcompleted⟩ := ih
    have hexists : (∃ item' ∈ items ++ [item], Completes o item') ↔
        (∃ item' ∈ items, Completes o item') ∨ Completes o item := by
      simp [or_and_right, exists_or]
    rw [hexists, ← or_assoc, ← hcompleted]
    unfold Pass.statusOf Completes
    dsimp only
    rw [hfilled, hquantity]
    by_cases hcase : mapDhanStatus item.orderStatus = .filled ∧ o.filledQuantity ≠ o.quantity
    · rw [if_pos hcase]
      simp [hcase.1, hcase.2, closedStatuses]
    · rw [if_neg hcase]
      refine ⟨rfl, rfl, ?_⟩
      cases hs : mapDhanStatus item.orderStatus <;>
        simp_all [terminalStatuses, closedStatuses]

/-- **The rows of a pass.**  An unfinished order is left in agreement exactly
when its trades and its entries tell one story. -/
theorem agreed_pass_iff (now : Time) {stored : Database} {o : TradingOrder} (ho : o.Unfinished)
    {trades : List TradeItem} {items : List BrokerOrderItem} :
    (items.foldl (Pass.statusOf now)
      (trades.foldl (TradingOrder.imported now stored) o)).Agreed ↔
    PassAgrees stored o trades items := by
  have htally := tallied_imported now stored ho trades
  have hto := foldl_imported_filledTo now stored o trades
  generalize trades.foldl (TradingOrder.imported now stored) o = mid at htally hto ⊢
  have hfull : mid.filledQuantity = mid.quantity ↔ filledBy stored o trades = o.quantity := by
    rw [hto.filledQuantity, hto.quantity]
  rcases items.eq_nil_or_concat' with rfl | ⟨init, last, rfl⟩
  · -- no entry: the status is the one the trades left
    rw [List.foldl_nil]
    refine Iff.trans ?_ (⟨fun h => ⟨fun _ => h, by simp, by simp⟩, fun h => h.unlisted rfl⟩ :
      InTime stored o trades ↔ _)
    by_cases heq : filledBy stored o trades = o.quantity
    · rw [← htally.traded heq]
      refine ⟨fun h => h.filled.2 (hfull.2 heq), fun hs => ⟨iff_of_true hs (hfull.2 heq),
        iff_of_true (htally.complete heq) ?_⟩⟩
      rw [hs]; decide
    · exact iff_of_true (htally.incomplete heq).agreed (inTime_of_incomplete heq)
  · -- the status is that of the last entry
    obtain ⟨hfilled, hquantity, hcompleted⟩ := foldl_statusOf now mid (init ++ [last])
    have hstatus : ((init ++ [last]).foldl (Pass.statusOf now) mid).status =
        if mapDhanStatus last.orderStatus = .filled ∧ mid.filledQuantity ≠ mid.quantity
        then .unknown else mapDhanStatus last.orderStatus := by
      obtain ⟨hfilled', hquantity', -⟩ := foldl_statusOf now mid init
      rw [List.foldl_append, List.foldl_cons, List.foldl_nil, Pass.statusOf, hfilled', hquantity']
      dsimp only
      split <;> rfl
    have hlast : last ∈ (init ++ [last]).getLast? := by simp
    generalize (init ++ [last]).foldl (Pass.statusOf now) mid = new at *
    by_cases heq : filledBy stored o trades = o.quantity
    · rw [if_neg fun hc => hc.2 (hfull.2 heq)] at hstatus
      have hwhole : new.filledQuantity = new.quantity := by
        rw [hfilled, hquantity]; exact hfull.2 heq
      constructor
      · intro h
        refine ⟨by simp, fun item hitem _ => ?_, fun item _ hne => absurd heq hne⟩
        obtain rfl := Option.some_inj.1 (hlast.symm.trans hitem)
        rw [← hstatus]; exact h.filled.2 hwhole
      · intro h
        have hs := h.complete last hlast heq
        rw [hs] at hstatus
        exact ⟨iff_of_true hstatus hwhole,
          iff_of_true (hcompleted.2 (Or.inl (htally.complete heq))) (by rw [hstatus]; decide)⟩
    · have hmid := htally.incomplete heq
      have hclosed : (∃ item ∈ init ++ [last], Completes mid item) ↔
          ∃ item ∈ init ++ [last], mapDhanStatus item.orderStatus ∈ closedStatuses := by
        simp [Completes, hmid.filled]
      rw [hmid.completed, hclosed, or_iff_right (by simp)] at hcompleted
      have hterminal : new.status ∈ terminalStatuses ↔
          mapDhanStatus last.orderStatus ∈ closedStatuses := by
        rw [hstatus]
        cases hs : mapDhanStatus last.orderStatus <;>
          simp [closedStatuses, terminalStatuses, hmid.filled]
      constructor
      · intro h
        refine ⟨by simp, fun item _ heq' => absurd heq' heq, fun item hitem _ hany => ?_⟩
        obtain rfl := Option.some_inj.1 (hlast.symm.trans hitem)
        exact hterminal.1 (h.completed.1 (hcompleted.2 hany))
      · intro h
        refine ⟨iff_of_false (fun hs => ?_) (by rw [hfilled, hquantity]; exact hmid.filled),
          hcompleted.trans ⟨fun hany => hterminal.2 (h.incomplete last hlast heq hany),
            fun ht => ⟨last, by simp, hterminal.1 ht⟩⟩⟩
        rw [hstatus] at hs
        split at hs
        · cases hs
        · rename_i hne; exact hne ⟨hs, hmid.filled⟩

/-! ## Calls -/

/-- The answers and books under which a call keeps the orders in agreement. -/
def LifecycleOk (settings : Settings) (s : Store) : OrderEvent → Prop
  | .place now _ userId instrumentId values quote subscribed outcome =>
    PlaceGuards settings now s userId instrumentId values quote →
      ∀ response, dhanPlace subscribed outcome = .ok response →
        mapDhanStatus response.orderStatus ≠ .filled
  | .cancel now _ orderId outcome =>
    ∀ o ∈ s.order? orderId, CancelGuards settings now s o →
      ∀ response, dhanCancel o outcome = .ok response →
        mapDhanStatus ((orMissing response.orderStatus).or (some "CANCELLED")) ∉
          [OrderStatus.filled, .rejected, .expired]
  | .modify now orderId quantity _ _ outcome =>
    ∀ o ∈ s.order? orderId, o.mode = .live → ModifyGuards settings now s o quantity →
      ∀ response, dhanModify o outcome = .ok response →
        mapDhanStatus response.orderStatus ∉ terminalStatuses ∧ o.filledQuantity ≠ quantity
  | .reconcile _ userId brokerOrders trades =>
    ∀ o ∈ localOrders s.toDatabase userId,
      PassAgrees s.toDatabase o
        ((attachedPass s.begin userId brokerOrders).tradesFor trades o.id)
        ((attachedPass s.begin userId brokerOrders).itemsFor brokerOrders o.id)

/-- A pass is not rolled back; a call of the manager never is. -/
def Commits (s : Store) : OrderEvent → Prop
  | .reconcile now userId brokerOrders trades =>
    (reconcileApply now s.begin userId brokerOrders trades).work.Valid
  | _ => True

namespace Database

variable {d : Database} {o new : TradingOrder}

/-- Rewriting a LIVE order keeps the agreement exactly when the new row agrees. -/
theorem Agreed.setOrder_iff (h : d.Agreed) (ho : o ∈ d.orders) (hid : new.id = o.id)
    (hlive : new.mode = .live) : (d.setOrder new).Agreed ↔ new.Agreed :=
  ⟨fun hd => hd new (Rows.mem_replaceBy_self ho hid.symm) hlive, fun hnew => h.setOrder fun _ => hnew⟩

theorem Agreed.insertOrder_iff (h : d.Agreed) (hlive : new.mode = .live) :
    (d.insertOrder new).Agreed ↔ new.Agreed :=
  ⟨fun hd => hd new (List.mem_append_right _ (List.mem_singleton.2 rfl)) hlive,
    fun hnew => h.insertOrder fun _ => hnew⟩

theorem Agreed.congr {d' : Database} (h : d.Agreed) (ho : d'.orders = d.orders) : d'.Agreed := by
  intro y hy
  rw [ho] at hy
  exact h y hy

/-- A row that is not LIVE is no matter of the agreement. -/
theorem Agreed.setPaper (h : d.Agreed) (hpaper : new.mode = .paper) : (d.setOrder new).Agreed :=
  h.setOrder fun hlive => absurd (hpaper.symm.trans hlive) (by decide)

theorem Agreed.insertPaper (h : d.Agreed) (hpaper : new.mode = .paper) :
    (d.insertOrder new).Agreed :=
  h.insertOrder fun hlive => absurd (hpaper.symm.trans hlive) (by decide)

end Database

theorem Session.agreed_fillPaper {s : Session} {o : TradingOrder} (h : s.work.Agreed)
    (hpaper : o.mode = .paper) (now : Time) (quantity : ℤ) (price : ℚ) :
    (s.fillPaper now o quantity price).work.Agreed :=
  (h.setPaper (show (o.fill quantity price now).mode = .paper from hpaper)).congr
    (Session.fillPaper_orders s now o quantity price)

theorem agreed_paperPlace {settings : Settings} {s : Store} (h : s.Agreed) (now : Time)
    (userId instrumentId : Uuid) (values : OrderValues) (quote : Option NormalizedQuote) :
    (paperPlace settings now s userId instrumentId values quote).1.Agreed := by
  rcases paperPlace_cases settings now s userId instrumentId values quote with
    hs | ⟨price, t, -, -, -, hsettled, hs⟩
  · rw [hs]; exact h
  rw [hs]
  have hplaced : (s.toDatabase.insertOrder
      (paperOrder s.nextUuid userId instrumentId values now)).Agreed := h.insertPaper rfl
  cases hsettled with
  | rests => exact hplaced
  | canceled => exact hplaced.setPaper rfl
  | filled price _ _ => exact Session.agreed_fillPaper (s := ⟨_, _⟩) hplaced rfl now _ price

theorem agreed_paperModify {settings : Settings} {s : Store} {o : TradingOrder} (h : s.Agreed)
    (now : Time) (quantity : ℤ) (limitPrice : ℚ) (quote : Option NormalizedQuote) :
    (paperModify settings now s o quantity limitPrice quote).1.Agreed := by
  rcases paperModify_cases settings now s o quantity limitPrice quote with
    hs | ⟨t, hrest, -, -, hmodified, hs⟩
  · rw [hs]; exact h
  rw [hs]
  have hwritten : (s.toDatabase.setOrder (o.modified quantity limitPrice)).Agreed :=
    h.setPaper hrest.1
  cases hmodified with
  | rests => exact hwritten
  | filled price _ =>
    exact Session.agreed_fillPaper (s := ⟨_, s.toDatabase.setOrder _⟩)
      (o := o.modified quantity limitPrice) hwritten hrest.1 now _ price

theorem placeFinish_mode {now : Time} {o : TradingOrder} {result : AdapterResult} :
    ((placeFinish now o result).1.getD o).mode = o.mode := by
  cases result <;> rfl

theorem cancelFinish_mode {now : Time} {prior : OrderStatus} {o : TradingOrder}
    {result : AdapterResult} : ((cancelFinish now prior o result).1.getD o).mode = o.mode := by
  cases result <;> rfl

theorem modifyFinish_mode {o : TradingOrder} {quantity : ℤ} {limitPrice : ℚ}
    {result : AdapterResult} :
    ((modifyFinish o quantity limitPrice result).1.getD o).mode = o.mode := by
  cases result <;> rfl

theorem imported_mode {now : Time} {stored : Database} {o : TradingOrder} {item : TradeItem} :
    (o.imported now stored item).mode = o.mode := by
  unfold TradingOrder.imported
  split
  · rfl
  split <;> rfl

theorem statusOf_mode {now : Time} {o : TradingOrder} {item : BrokerOrderItem} :
    (Pass.statusOf now o item).mode = o.mode := by
  unfold Pass.statusOf
  dsimp only
  split <;> rfl

/-- The row of an order after a pass, and its mode. -/
theorem pass_row (now : Time) {s : Store} (userId : Uuid) (brokerOrders : List BrokerOrderItem)
    (trades : List TradeItem) {o : TradingOrder} (ho : o ∈ s.orders) :
    let p := attachedPass s.begin userId brokerOrders
    ∃ b, (reconcileApply now s.begin userId brokerOrders trades).work.order? o.id =
        some ((p.itemsFor brokerOrders o.id).foldl (Pass.statusOf now)
          ((p.tradesFor trades o.id).foldl (TradingOrder.imported now s.toDatabase)
            { o with brokerOrderId := b })) ∧
      ((p.itemsFor brokerOrders o.id).foldl (Pass.statusOf now)
        ((p.tradesFor trades o.id).foldl (TradingOrder.imported now s.toDatabase)
          { o with brokerOrderId := b })).mode = o.mode := by
  obtain ⟨b, hb, -⟩ := Pass.order?_foldl_attach (Pass.sound_startPass s.begin userId rfl)
    brokerOrders o.id (s.valid.order?_eq ho)
  refine ⟨b, ?_, ?_⟩
  · rw [reconcileApply_order?, attachedPass, hb]; rfl
  · refine List.foldlRecOn (motive := fun x : TradingOrder => x.mode = o.mode) _ _ ?_
      fun x hx item _ => statusOf_mode.trans hx
    exact List.foldlRecOn (motive := fun x : TradingOrder => x.mode = o.mode) _ _ rfl
      fun x hx item _ => imported_mode.trans hx

/-- **A pass** leaves the orders in agreement exactly when, for each order it
loads, trades and entries tell one story. -/
theorem agreed_reconcileApply_iff (settings : Settings) (now : Time) {s : Store} (h : s.Agreed)
    (userId : Uuid) (brokerOrders : List BrokerOrderItem) (trades : List TradeItem)
    (hv : (reconcileApply now s.begin userId brokerOrders trades).work.Valid) :
    (reconcileApply now s.begin userId brokerOrders trades).work.Agreed ↔
      LifecycleOk settings s (.reconcile now userId brokerOrders trades) := by
  have hsound := sound_attachedPass s userId brokerOrders
  constructor
  · intro hagreed o ho
    obtain ⟨hmem, hlocal⟩ := List.mem_filter.1 ho
    have hlocal : o.userId = userId ∧ o.mode = .live ∧ o.status ∈ openOrderStatuses := by
      simpa using hlocal
    obtain ⟨b, hrow, hmode⟩ := pass_row now userId brokerOrders trades hmem
    have hopen := (h o hmem hlocal.2.1).unfinished hlocal.2.2
    have hpass := (agreed_pass_iff now (o := { o with brokerOrderId := b })
      ⟨hopen.status, hopen.filled, hopen.completed⟩).1
      (hagreed _ (Database.order?_mem hrow).1 (hmode.trans hlocal.2.1))
    exact ⟨hpass.unlisted, hpass.complete, hpass.incomplete⟩
  · intro hok y hy hlive
    -- the row it was before the pass
    have hsome : (s.toDatabase.order? y.id).isSome := by
      rw [Database.order?_isSome]
      have hids := ((hsound.foldl_importTrade now trades).foldl_takeStatus now
        brokerOrders).ids
      rw [← hids]
      exact List.mem_map_of_mem hy
    obtain ⟨o, ho⟩ := Option.isSome_iff_exists.1 hsome
    obtain ⟨hmem, hid⟩ := Database.order?_mem ho
    obtain ⟨b, hrow, hmode⟩ := pass_row now userId brokerOrders trades hmem
    have hyrow := hv.order?_eq hy
    rw [← hid, hrow] at hyrow
    obtain rfl := Option.some_inj.1 hyrow
    have hold := h o hmem (hmode.symm.trans hlive)
    by_cases hlocal : o ∈ localOrders s.toDatabase userId
    · have hopen : o.userId = userId ∧ o.mode = .live ∧ o.status ∈ openOrderStatuses := by
        simpa using (List.mem_filter.1 hlocal).2
      have hunfinished := hold.unfinished hopen.2.2
      obtain ⟨hunlisted, hcomplete, hincomplete⟩ := hok o hlocal
      exact (agreed_pass_iff now (o := { o with brokerOrderId := b })
        ⟨hunfinished.status, hunfinished.filled, hunfinished.completed⟩).2
        ⟨hunlisted, hcomplete, hincomplete⟩
    · obtain ⟨htrades, hitems⟩ := attachedPass_nothing hmem hlocal brokerOrders trades
      rw [htrades, hitems]
      exact ⟨hold.filled, hold.completed⟩

/-- **One call** that commits leaves the orders in agreement exactly when the
broker's answer or books are in order. -/
theorem agreed_orderStep_iff {settings : Settings} {s : Store} (h : s.Agreed) (e : OrderEvent)
    (hcommits : Commits s e) : (orderStep settings s e).Agreed ↔ LifecycleOk settings s e := by
  cases e with
  | place now later userId instrumentId values quote subscribed outcome =>
    rw [orderStep]
    rcases place_cases settings now later s userId instrumentId values quote subscribed outcome
      with ⟨hmode, hs⟩ | ⟨hguards, hsame⟩ | ⟨hguards, connectionId, hs⟩
    · rw [hs]
      exact iff_of_true (agreed_paperPlace h now userId instrumentId values quote)
        fun hg => absurd (hmode.symm.trans hg.mode) (by decide)
    · exact iff_of_true (h.congr hsame.orders) fun hg => absurd hg hguards
    · rw [hs, h.insertOrder_iff placeFinish_mode, placeFinish_agreed_iff]
      · exact ⟨fun hok _ => hok, fun hok => hok hguards⟩
      · refine ⟨List.mem_cons_self .., fun hq => ?_, rfl⟩
        have := values.one_le_quantity
        change (0 : ℤ) = values.quantity at hq
        omega
  | cancel now later orderId outcome =>
    rw [orderStep, LifecycleOk]
    cases ho : s.order? orderId with
    | none => exact iff_of_true h (by simp)
    | some o =>
      have hmem := (Database.order?_mem ho).1
      simp only [Option.mem_def, Option.some.injEq, forall_eq']
      rcases cancel_cases settings now later hmem outcome with
        ⟨hmode, hs⟩ | ⟨hguards, hsame⟩ | ⟨hguards, hs⟩
      · rw [hs]
        refine iff_of_true ?_ fun hg => absurd (hmode.symm.trans hg.mode) (by decide)
        rcases paperCancel_cases now s o with hs | ⟨-, hs⟩
        · rw [hs]; exact h
        · rw [hs]; exact h.setPaper hmode
      · exact iff_of_true (h.congr hsame.orders) fun hg => absurd hg hguards
      · have hopen := (h o hmem hguards.mode).unfinished hguards.isOpen
        have hid : ((cancelFinish later o.status o.cancelRequested
            (dhanCancel o.cancelRequested outcome)).1.getD o.cancelRequested).id = o.id :=
          cancelFinish_id
        rw [hs, h.setOrder_iff hmem hid (cancelFinish_mode.trans hguards.mode),
          cancelFinish_agreed_iff hopen]
        exact ⟨fun hok _ => hok, fun hok => hok hguards⟩
  | modify now orderId quantity limitPrice quote outcome =>
    rw [orderStep, LifecycleOk]
    cases ho : s.order? orderId with
    | none => exact iff_of_true h (by simp)
    | some o =>
      have hmem := (Database.order?_mem ho).1
      simp only [Option.mem_def, Option.some.injEq, forall_eq']
      rcases modify_cases settings now hmem quantity limitPrice quote outcome with
        ⟨hmode, hs⟩ | ⟨-, hguards, -, hsame⟩ | ⟨hmode, hguards, -, hs⟩
      · rw [hs]
        exact iff_of_true (agreed_paperModify h now quantity limitPrice quote)
          fun hlive => absurd (hmode.symm.trans hlive) (by decide)
      · exact iff_of_true (h.congr hsame.orders) fun _ hg => absurd hg hguards
      · have hopen := (h o hmem hmode).unfinished hguards.isOpen
        rw [hs, h.setOrder_iff hmem modifyFinish_id (modifyFinish_mode.trans hmode),
          modifyFinish_agreed_iff hopen]
        exact ⟨fun hok _ _ => hok, fun hok => hok hmode hguards⟩
  | reconcile now userId brokerOrders trades =>
    rw [orderStep, reconcile, Session.commitOr_of_valid hcommits]
    exact agreed_reconcileApply_iff settings now h userId brokerOrders trades hcommits

/-- A pass that does not commit leaves everything as it was. -/
theorem orderStep_of_not_commits {settings : Settings} {s : Store} {e : OrderEvent}
    (h : ¬ Commits s e) : orderStep settings s e = s := by
  cases e with
  | place | cancel | modify => exact absurd trivial h
  | reconcile now userId brokerOrders trades =>
    rw [orderStep, reconcile, Session.commitOr_of_not_valid h]

/-- **Runs.**  Along every run all of whose answers and books are in order the
LIVE orders agree in every state; and from there the next call that commits
leaves them so exactly when its answer or its books are in order too. -/
theorem agreed_run {settings : Settings} {s t : Store} {events : List OrderEvent} (h : s.Agreed)
    (hrun : Run (Guarded (LifecycleOk settings) (Steps (orderStep settings))) s events t) :
    t.Agreed ∧
    ∀ e, Commits t e → ((orderStep settings t e).Agreed ↔ LifecycleOk settings t e) := by
  have hagreed : t.Agreed := by
    refine hrun.invariant (P := fun s => s.Agreed) h ?_
    rintro s e _ hs ⟨hok, rfl⟩
    by_cases hcommits : Commits s e
    · exact (agreed_orderStep_iff hs e hcommits).2 hok
    · rw [orderStep_of_not_commits hcommits]; exact hs
  exact ⟨hagreed, fun e hcommits => agreed_orderStep_iff hagreed e hcommits⟩

/-- A market order for 10, placed and answered with a status. -/
def placedWith (status : String) : OrderEvent :=
  .place 0 1 7 3 marketValues (some quoteAtHundred) true
    (.response 200 (.object { orderId := some "1", orderStatus := some status }))

/-- A book with one entry is in order where the entry names every open order and says
FILLED of those that the trades complete. -/
theorem lifecycleOk_of_entry {settings : Settings} {s : Store} {now : Time} {userId : Uuid}
    {item : BrokerOrderItem} {trades : List TradeItem}
    (h : ∀ o ∈ localOrders s.toDatabase userId,
      (attachedPass s.begin userId [item]).itemsFor [item] o.id = [item] ∧
      (filledBy s.toDatabase o ((attachedPass s.begin userId [item]).tradesFor trades o.id) =
        o.quantity → mapDhanStatus item.orderStatus = .filled)) :
    LifecycleOk settings s (.reconcile now userId [item] trades) := by
  intro o ho
  obtain ⟨hitems, hfilled⟩ := h o ho
  rw [hitems]
  exact ⟨fun hnil => absurd hnil (List.cons_ne_nil _ _), by simpa using hfilled, by simp⟩

/-- The entry of that order in the order book, and a trade of it at 100. -/
def bookEntry (status : String) : BrokerOrderItem := { orderId := "1", orderStatus := some status }

def bookTrade (tradeId : String) (quantity : ℤ) : TradeItem :=
  { orderId := "1", exchangeTradeId := tradeId, tradedQuantity := quantity, tradedPrice := 100 }

/-- The order is filled in two parts, with a pass after each. -/
def filledInParts : List OrderEvent := [
  placedWith "TRANSIT",
  .reconcile 2 7 [bookEntry "PART_TRADED"] [bookTrade "t" 4],
  .reconcile 3 7 [bookEntry "TRADED"] [bookTrade "t" 4, bookTrade "u" 6]]

theorem filledInParts_guarded :
    Run (Guarded (LifecycleOk liveSettings) (Steps (orderStep liveSettings))) connectedStore
      filledInParts (filledInParts.foldl (orderStep liveSettings) connectedStore) :=
  .cons ⟨fun _ response hr => by cases hr; decide +kernel, rfl⟩ <|
    .cons ⟨lifecycleOk_of_entry (by decide +kernel), rfl⟩ <|
    .single ⟨lifecycleOk_of_entry (by decide +kernel), rfl⟩

theorem agreed_run_filledInParts :
    (filledInParts.foldl (orderStep liveSettings) connectedStore).Agreed ∧
    (filledInParts.foldl (orderStep liveSettings) connectedStore).orders.map
      (fun o => (o.status, o.filledQuantity, o.completedAt)) = [(.filled, 10, some 3)] :=
  ⟨(agreed_run (s := connectedStore) (fun o ho => by cases ho) filledInParts_guarded).1,
    by decide +kernel⟩

/-- **A placement that is answered TRADED** leaves an order FILLED of which
nothing is filled and which is not completed. -/
theorem traded_not_agreed :
    ¬ ∀ (settings : Settings) (s : Store) (events : List OrderEvent), s.orders = [] →
      (events.foldl (orderStep settings) s).Agreed := by
  intro h
  have hrow : ((orderStep liveSettings connectedStore (placedWith "TRADED")).orders.map
      fun o => (o.mode, o.status, o.filledQuantity, o.quantity)) =
      [(.live, .filled, 0, 10)] := by
    decide +kernel
  have hmem := List.mem_singleton.2 (rfl : (Mode.live, OrderStatus.filled, (0 : ℤ), (10 : ℤ)) = _)
  rw [← hrow] at hmem
  obtain ⟨o, ho, hvalues⟩ := List.mem_map.1 hmem
  obtain ⟨hmode, hvalues⟩ := Prod.mk.inj hvalues
  obtain ⟨hstatus, hvalues⟩ := Prod.mk.inj hvalues
  obtain ⟨hfilled, hquantity⟩ := Prod.mk.inj hvalues
  have := (h liveSettings connectedStore [placedWith "TRADED"] rfl o ho hmode).filled.1 hstatus
  rw [hfilled, hquantity] at this
  exact absurd this (by decide)

end GnkAlgo
