import GnkAlgo.Trading.Engine
import GnkAlgo.Trading.Ledger

/-!
# Conservation of the ledger and of cash

A position row is the average-cost holding of the executions under its key
(`TradingPosition.book` is `Holding.trade`), so the rules of `Holding` apply to
it.  `ledger_conserved` collects what a run of committed `apply_execution` calls
keeps for every order and every position, with the mark of the positions
endpoint in `backend/app/routers/trading.py`.
-/

namespace GnkAlgo

/-! ## Positions as holdings -/

/-- The accounting part of a position row. -/
def TradingPosition.holding (p : TradingPosition) : Holding ℚ :=
  ⟨p.quantity, p.averagePrice, p.realizedPnl⟩

/-- `mark` of the positions endpoint. -/
def TradingPosition.mark (p : TradingPosition) : ℚ := p.lastPrice.getD p.averagePrice

/-- `unrealized` of the positions endpoint. -/
def TradingPosition.unrealizedPnl (p : TradingPosition) : ℚ :=
  p.quantity * (p.mark - p.averagePrice)

/-- The trades booked under a key, each a signed quantity and a price. -/
def Database.tradesOf (d : Database) (key : PositionKey) : List (ℚ × ℚ) :=
  (d.executions.filter fun e => d.keyOf e = some key).map fun e => ((e.signedQuantity : ℚ), e.price)

/-- The sum of quantity times price over the executions of an order. -/
def Database.executedCost (d : Database) (id : Uuid) : ℚ :=
  Rows.total (fun e => e.orderId = id) (fun e => e.quantity * e.price) d.executions

/-- **Booking a fill is a trade of the holding.** -/
theorem TradingPosition.holding_book (p : TradingPosition) (side : OrderSide) (quantity : ℤ)
    (price : ℚ) :
    (p.book side quantity price).holding = p.holding.trade (side.signed quantity) price := by
  have hopen : (p.quantity = 0 ∨ 0 < p.quantity * side.signed quantity) ↔
      (p.holding.quantity = 0 ∨ 0 < p.holding.quantity * (side.signed quantity : ℚ)) := by
    dsimp only [TradingPosition.holding]
    norm_cast
  by_cases h : p.quantity = 0 ∨ 0 < p.quantity * side.signed quantity
  · rw [Holding.trade_of_open price (hopen.1 h), TradingPosition.book_of_open price h]
    simp [TradingPosition.holding]
  · rw [Holding.trade_of_close price (mt hopen.2 h), TradingPosition.book_of_close price h]
    dsimp only [TradingPosition.holding]
    ext
    · push_cast; rfl
    · exact if_congr (by norm_cast) rfl (if_congr (by norm_cast) rfl rfl)
    · simp

@[simp] theorem TradingPosition.holding_flat (key : PositionKey) :
    (TradingPosition.flat key).holding = Holding.flat := by
  simp [TradingPosition.flat, TradingPosition.holding, Holding.flat]

/-! ## The ledger of a run of committed calls -/

/-- What a run of committed calls keeps. -/
structure Database.Ledger (d : Database) : Prop extends d.Balanced where
  within : ∀ o ∈ d.orders, o.filledQuantity ≤ o.quantity
  cost : ∀ o ∈ d.orders, o.averageFillPrice.getD 0 * o.filledQuantity = d.executedCost o.id
  status : ∀ o ∈ d.orders, o.status = .filled ↔ o.filledQuantity = o.quantity
  positive : ∀ e ∈ d.executions, 0 < e.quantity
  holding : ∀ key, ∀ p ∈ d.position? key, p.holding = Holding.ofTrades (d.tradesOf key)
  unheld : ∀ key, d.position? key = none → d.tradesOf key = []

/-- Orders that have been created and nothing else: none of them is filled. -/
structure Database.NewOrders (d : Database) : Prop where
  one_le : ∀ o ∈ d.orders, 1 ≤ o.quantity
  unfilled : ∀ o ∈ d.orders, o.filledQuantity = 0
  isOpen : ∀ o ∈ d.orders, o.status ∈ openOrderStatuses
  executions : d.executions = []
  positions : d.positions = []

theorem Database.NewOrders.ledger {d : Database} (h : d.NewOrders) : d.Ledger where
  filled o ho := by simp [h.unfilled o ho, Database.executedQuantity, h.executions]
  held key := by
    simp [Database.positionTotal, Database.executedNet, h.executions, h.positions]
  within o ho := by have := h.one_le o ho; have := h.unfilled o ho; omega
  cost o ho := by simp [h.unfilled o ho, Database.executedCost, h.executions]
  status o ho := by
    have h1 := h.one_le o ho
    have h2 := h.unfilled o ho
    constructor
    · intro hs
      have := h.isOpen o ho
      rw [hs] at this
      exact absurd this (by decide)
    · intro hq; omega
  positive e he := by rw [h.executions] at he; exact absurd he List.not_mem_nil
  holding key p hp := by simp [Database.position?, h.positions] at hp
  unheld key _ := by simp [Database.tradesOf, h.executions]

section BookExecution

variable {s : Session} {o : TradingOrder} {quantity : ℤ} {price : ℚ} {source : ExecutionSource}
  {id : Option BrokerExecutionId} {at' : Time}

theorem executedCost_bookExecution (n : Uuid) :
    (s.bookExecution o quantity price source id at').work.executedCost n =
      s.work.executedCost n + if o.id = n then quantity * price else 0 := by
  rw [Database.executedCost, Session.bookExecution_executions, Rows.total_append,
    Rows.total_singleton]
  change _ + (if decide (o.id = n) = true then (quantity * price : ℚ) else 0) = _
  simp only [decide_eq_true_eq]
  rfl

theorem tradesOf_bookExecution (hv : s.work.Valid) (ho : o ∈ s.work.orders) (key : PositionKey) :
    (s.bookExecution o quantity price source id at').work.tradesOf key =
      s.work.tradesOf key ++
        if o.positionKey = key then [((o.side.signed quantity : ℚ), price)] else [] := by
  have hkey : s.work.keyOf (o.execution quantity price source id at') = some o.positionKey := by
    rw [Database.keyOf, TradingOrder.execution_orderId, hv.order?_eq ho]
    rfl
  simp only [Database.tradesOf, Session.bookExecution_executions,
    Session.keyOf_bookExecution hv.orderIds ho, List.filter_append, List.map_append]
  congr 1
  by_cases h : o.positionKey = key
  · rw [if_pos h, List.filter_cons_of_pos (by simp [hkey, h])]
    rfl
  · rw [if_neg h, List.filter_cons_of_neg (by simp [hkey, h])]
    rfl

/-- The cost of a filled order grows by the price of the fill. -/
theorem TradingOrder.fill_cost {o : TradingOrder} (hne : o.filledQuantity + quantity ≠ 0) :
    (o.fill quantity price at').averageFillPrice.getD 0 *
        (o.fill quantity price at').filledQuantity =
      o.averageFillPrice.getD 0 * o.filledQuantity + quantity * price := by
  have hne' : ((o.filledQuantity + quantity : ℤ) : ℚ) ≠ 0 := by exact_mod_cast hne
  dsimp only [TradingOrder.fill, Option.getD_some]
  rw [div_mul_cancel₀ _ hne']
  ring

/-- **One booking keeps the ledger.** -/
theorem Database.Ledger.bookExecution (h : s.work.Ledger) (hv : s.work.Valid)
    (hpos : s.stored.positions = s.work.positions) (ho : o ∈ s.work.orders) (hq : 0 < quantity)
    (hfit : o.filledQuantity + quantity ≤ o.quantity) :
    (s.bookExecution o quantity price source id at').work.Ledger := by
  have hsame : ∀ key, s.stored.position? key = s.work.position? key := fun key => by
    rw [Database.position?, hpos]; rfl
  have ht : s.Tracked := fun key hk => by rwa [← hsame]
  have hbal : (s.bookExecution o quantity price source id at').work.Balanced :=
    Session.balanced_bookExecution hv.orderIds ho ht h.toBalanced
  have hfilled : 0 ≤ o.filledQuantity := by
    rw [h.filled o ho]
    exact Rows.total_nonneg fun e he => (h.positive e he).le
  refine ⟨hbal, ?_, ?_, ?_, ?_, ?_, ?_⟩
  · intro y hy
    rw [Session.bookExecution_orders] at hy
    rcases Rows.mem_replaceBy hy with rfl | ⟨hy, -⟩
    · exact hfit
    · exact h.within y hy
  · intro y hy
    rw [Session.bookExecution_orders] at hy
    rw [executedCost_bookExecution]
    rcases Rows.mem_replaceBy hy with rfl | ⟨hy, hne⟩
    · rw [TradingOrder.fill_cost (by omega), h.cost o ho, TradingOrder.fill_id, if_pos rfl]
    · rw [h.cost y hy, if_neg fun heq => hne heq.symm, add_zero]
  · intro y hy
    rw [Session.bookExecution_orders] at hy
    rcases Rows.mem_replaceBy hy with rfl | ⟨hy, -⟩
    · exact TradingOrder.fill_status_eq_filled o quantity price at'
    · exact h.status y hy
  · intro e he
    rw [Session.bookExecution_executions] at he
    rcases List.mem_append.1 he with he | he
    · exact h.positive e he
    · rw [List.mem_singleton.1 he]; exact hq
  · intro key p hp
    rw [tradesOf_bookExecution hv ho]
    by_cases hk : o.positionKey = key
    · subst hk
      rw [Session.position?_bookExecution_self hpos] at hp
      obtain rfl := Option.some_inj.1 hp
      rw [if_pos rfl, Holding.ofTrades_append_singleton, TradingPosition.holding_book]
      cases hrow : s.work.position? o.positionKey with
      | some q => rw [Option.getD_some, h.holding _ q hrow]
      | none => rw [Option.getD_none, TradingPosition.holding_flat, h.unheld _ hrow]; rfl
    · rw [Session.position?_bookExecution_of_ne (Ne.symm hk)] at hp
      rw [if_neg hk, List.append_nil]
      exact h.holding key p hp
  · intro key hnone
    rw [tradesOf_bookExecution hv ho]
    by_cases hk : o.positionKey = key
    · subst hk
      rw [Session.position?_bookExecution_self hpos] at hnone
      cases hnone
    · rw [Session.position?_bookExecution_of_ne (Ne.symm hk)] at hnone
      rw [if_neg hk, List.append_nil]
      exact h.unheld key hnone

end BookExecution

/-- Drawing an id does not touch the ledger. -/
theorem Database.Ledger.drawn {d : Database} (h : d.Ledger) (id : Option BrokerExecutionId) :
    (d.drawn id).Ledger := by
  unfold Database.drawn
  split
  · exact ⟨⟨h.filled, h.held⟩, h.within, h.cost, h.status, h.positive, h.holding, h.unheld⟩
  · exact h

/-- **One committed call keeps the ledger.** -/
theorem ledger_applyCommitted {s : Store} (h : s.Ledger) (c : ExecutionCall) :
    (applyCommitted s c).Ledger := by
  rcases applyCommitted_cases s c with hs | ⟨o, ho, -, hq, hfit, hs⟩
  · rw [hs]; exact h
  · rw [hs]
    exact (h.drawn c.brokerExecutionId).bookExecution (Database.drawn_valid s.valid _) (by simp)
      (by simpa using ho) hq hfit

/-- A run of committed calls keeps the ledger. -/
theorem ledger_foldl {s : Store} (h : s.Ledger) (calls : List ExecutionCall) :
    (calls.foldl applyCommitted s).Ledger :=
  (Transition.run_foldl applyCommitted s calls).invariant (P := fun s => s.Ledger) h
    fun _ c _ hs hstep => hstep ▸ ledger_applyCommitted hs c

/-! ## What the ledger says of cash -/

/-- The sum of signed quantity times price over the executions under a key. -/
def Database.executedCash (d : Database) (key : PositionKey) : ℚ :=
  Rows.total (fun e => d.keyOf e = some key) (fun e => e.signedQuantity * e.price) d.executions

/-- The gain of the executions under a key against a mark. -/
def Database.gainAgainst (d : Database) (key : PositionKey) (mark : ℚ) : ℚ :=
  Rows.total (fun e => d.keyOf e = some key) (fun e => e.signedQuantity * (mark - e.price))
    d.executions

theorem Database.sum_tradesOf (d : Database) (key : PositionKey) (f : ℚ × ℚ → ℚ) :
    ((d.tradesOf key).map f).sum =
      Rows.total (fun e => d.keyOf e = some key) (fun e => f (e.signedQuantity, e.price))
        d.executions := by
  rw [Database.tradesOf, List.map_map, Rows.total]
  rfl

/-- **Conservation of the ledger and of cash.**  After any run of committed
`apply_execution` calls on new orders every order and every position is what
its executions say, and a position marked at the price of the positions
endpoint has gained what its executions have. -/
theorem ledger_conserved {s s' : Store} (h : s.NewOrders) (calls : List ExecutionCall)
    (hs : calls.foldl applyCommitted s = s') :
    (∀ o ∈ s'.orders,
      o.filledQuantity = s'.executedQuantity o.id ∧ o.filledQuantity ≤ o.quantity ∧
      o.averageFillPrice.getD 0 * o.filledQuantity = s'.executedCost o.id ∧
      (o.status = .filled ↔ o.filledQuantity = o.quantity)) ∧
    (∀ key, s'.heldQuantity key = s'.executedNet key) ∧
    ∀ p ∈ s'.positions,
      ((∀ e ∈ s'.executions, s'.keyOf e = some p.positionKey → 0 < e.price) →
        (p.averagePrice = 0 ↔ p.quantity = 0)) ∧
      (p.quantity ≠ 0 →
        ∃ lo ∈ Holding.openPrices (s'.tradesOf p.positionKey),
        ∃ hi ∈ Holding.openPrices (s'.tradesOf p.positionKey),
          lo ≤ p.averagePrice ∧ p.averagePrice ≤ hi) ∧
      p.realizedPnl - p.quantity * p.averagePrice = -s'.executedCash p.positionKey ∧
      p.realizedPnl + p.unrealizedPnl = s'.gainAgainst p.positionKey p.mark := by
  have hledger : s'.Ledger := hs ▸ ledger_foldl h.ledger calls
  refine ⟨fun o ho => ⟨hledger.filled o ho, hledger.within o ho, hledger.cost o ho,
    hledger.status o ho⟩, fun key => ?_, fun p hp => ?_⟩
  · rw [s'.valid.heldQuantity_eq, hledger.held]
  · have hholding := hledger.holding _ p (s'.valid.position?_eq hp)
    have hquantity : (p.quantity : ℚ) = (Holding.ofTrades (s'.tradesOf p.positionKey)).quantity :=
      congrArg Holding.quantity hholding
    have haverage : p.averagePrice = (Holding.ofTrades (s'.tradesOf p.positionKey)).average :=
      congrArg Holding.average hholding
    have hrealized : p.realizedPnl = (Holding.ofTrades (s'.tradesOf p.positionKey)).realized :=
      congrArg Holding.realized hholding
    refine ⟨fun hprice => ?_, fun hne => ?_, ?_, ?_⟩
    · have hpos : ∀ t ∈ s'.tradesOf p.positionKey, 0 < t.2 := by
        intro t ht
        obtain ⟨e, he, rfl⟩ := List.mem_map.1 ht
        obtain ⟨he, hkey⟩ := List.mem_filter.1 he
        exact hprice e he (by simpa using hkey)
      rw [haverage, Holding.average_eq_zero_iff hpos, ← hquantity, Int.cast_eq_zero]
    · rw [haverage]
      refine Holding.average_mem_openPrices _ ?_
      rw [← hquantity]
      exact_mod_cast hne
    · have hbalance := Holding.balance_ofTrades (s'.tradesOf p.positionKey)
      rw [Holding.balance, ← hquantity, ← haverage, ← hrealized, Database.sum_tradesOf] at hbalance
      exact hbalance
    · have hmark := Holding.realized_add_mark (s'.tradesOf p.positionKey) p.mark
      rw [← hquantity, ← haverage, ← hrealized, Database.sum_tradesOf] at hmark
      exact hmark

/-- Two new orders of one user: to buy 10 and to sell 15. -/
def flipStore : Store where
  orders :=
    [paperOrder 0 7 3 { tenAtHundred with clientOrderId := "long" } 0,
    paperOrder 1 7 3
      { clientOrderId := "short", side := .sell, orderType := .limit, quantity := 15,
        limitPrice := some 110 } 0]
  nextUuid := 2
  valid := by decide

/-- Both are filled, so the long position is turned into a short one. -/
def flipCalls : List ExecutionCall :=
  [⟨0, 10, 100, .paper, some (.paper 2), none, 5⟩, ⟨1, 15, 110, .paper, some (.paper 3), none, 6⟩]

theorem ledger_conserved_flip :
    ∃ p ∈ (flipCalls.foldl applyCommitted flipStore).positions,
      p.realizedPnl - p.quantity * p.averagePrice =
        -(flipCalls.foldl applyCommitted flipStore).executedCash p.positionKey := by
  obtain ⟨p, hp⟩ : ∃ p, p ∈ (flipCalls.foldl applyCommitted flipStore).positions :=
    List.exists_mem_of_ne_nil _ (by decide +kernel)
  exact ⟨p, hp, ((ledger_conserved (s := flipStore)
    ⟨by decide, by decide, by decide, rfl, rfl⟩ flipCalls rfl).2.2 p hp).2.2.1⟩

/-- The run fills both orders and leaves the user short by 5 at 110. -/
example : (flipCalls.foldl applyCommitted flipStore).positions.map
    (fun p => (p.quantity, p.averagePrice, p.realizedPnl)) = [(-5, 110, 100)] := by
  decide +kernel

end GnkAlgo
