import GnkAlgo.Trading.PaperSteps

/-!
# The position limit over runs of the paper engine

The gate compares the quantity held with the limit when an order is placed.
What already rests is not counted, so the position can pass the limit
(`position_limit_exceeded`).  What does hold is a bound that allows for the
other open orders: with `exposure` the signed holding together with the
quantity still resting on one side,

* every placement keeps `exposure` below `Settings.positionBound`, because the
  open-order limit bounds what rests;
* a fill moves quantity from what rests to what is held, and a cancel only
  takes from what rests.

`position_bounded` is the bound for one key over every run of placements, cancels
and quotes, whatever else the store holds.
-/

namespace GnkAlgo

open Transition

/-! ## What rests -/

/-- The quantity an open order can still add to a position on a side. -/
def TradingOrder.restingUnder (o : TradingOrder) (key : PositionKey) (side : OrderSide) : ℤ :=
  if o.positionKey = key ∧ o.side = side ∧ o.status ∈ openOrderStatuses then
    o.quantity - o.filledQuantity
  else 0

/-- The quantity that rests under a key on a side. -/
def Database.restingQuantity (d : Database) (key : PositionKey) (side : OrderSide) : ℤ :=
  (d.orders.map (·.restingUnder key side)).sum

/-- The signed holding with what rests on the same side. -/
def Database.exposure (d : Database) (key : PositionKey) (side : OrderSide) : ℤ :=
  side.signed (d.positionTotal key) + d.restingQuantity key side

/-- The position limit with one order of the largest size for every other open
order. -/
def Settings.positionBound (settings : Settings) : ℤ :=
  settings.tradingMaxAbsolutePosition +
    (settings.tradingMaxOpenOrders - 1) * settings.tradingMaxOrderQuantity

/-- No open order of a key exceeds the order limit, and no exposure the bound. -/
structure Database.WithinLimit (settings : Settings) (key : PositionKey) (d : Database) : Prop where
  remaining : ∀ o ∈ d.orders, o.positionKey = key → o.status ∈ openOrderStatuses →
    0 ≤ o.quantity - o.filledQuantity ∧
      o.quantity - o.filledQuantity ≤ settings.tradingMaxOrderQuantity
  exposure : ∀ side, d.exposure key side ≤ settings.positionBound

variable {settings : Settings} {d : Database} {o o' : TradingOrder} {key : PositionKey}
  {side : OrderSide}

theorem OrderSide.signed_add (side : OrderSide) (a b : ℤ) :
    side.signed (a + b) = side.signed a + side.signed b := by
  cases side with
  | buy => rfl
  | sell => exact neg_add a b

@[simp] theorem OrderSide.signed_signed (side : OrderSide) (a : ℤ) :
    side.signed (side.signed a) = a := by
  cases side <;> simp [OrderSide.signed]

theorem OrderSide.signed_of_ne {side side' : OrderSide} (h : side' ≠ side) (a : ℤ) :
    side.signed (side'.signed a) = -a := by
  cases side <;> cases side' <;> simp_all [OrderSide.signed]

theorem OrderSide.signed_le_abs (side : OrderSide) (a : ℤ) : side.signed a ≤ |a| := by
  cases side
  · exact le_abs_self a
  · exact neg_le_abs a

theorem TradingOrder.restingUnder_of_open (hk : o.positionKey = key ∧ o.side = side)
    (hopen : o.status ∈ openOrderStatuses) :
    o.restingUnder key side = o.quantity - o.filledQuantity :=
  if_pos ⟨hk.1, hk.2, hopen⟩

theorem TradingOrder.restingUnder_of_closed (h : o.status ∉ openOrderStatuses) :
    o.restingUnder key side = 0 :=
  if_neg fun hr => h hr.2.2

theorem TradingOrder.restingUnder_of_ne (h : ¬ (o.positionKey = key ∧ o.side = side)) :
    o.restingUnder key side = 0 :=
  if_neg fun hr => h ⟨hr.1, hr.2.1⟩

theorem Database.WithinLimit.restingUnder_nonneg (h : d.WithinLimit settings key)
    (ho : o ∈ d.orders) : 0 ≤ o.restingUnder key side := by
  unfold TradingOrder.restingUnder
  split
  · rename_i hr
    exact (h.remaining o ho hr.1 hr.2.2).1
  · exact le_refl 0

theorem Database.WithinLimit.restingQuantity_nonneg (h : d.WithinLimit settings key)
    (side : OrderSide) : 0 ≤ d.restingQuantity key side :=
  List.sum_nonneg fun _ hx => by
    obtain ⟨o, ho, rfl⟩ := List.mem_map.1 hx
    exact h.restingUnder_nonneg ho

/-- What rests is bounded by the number of open orders of the user. -/
theorem Database.WithinLimit.restingQuantity_le (h : d.WithinLimit settings key)
    (side : OrderSide) : d.restingQuantity key side ≤
      openOrderCount d key.userId * settings.tradingMaxOrderQuantity := by
  refine Rows.sum_le_countP_mul fun o ho => ?_
  unfold TradingOrder.restingUnder
  by_cases hr : o.positionKey = key ∧ o.side = side ∧ o.status ∈ openOrderStatuses
  · have huser : o.userId = key.userId := by rw [← hr.1]; rfl
    rw [if_pos hr, if_pos (by simp [huser, hr.2.2])]
    exact (h.remaining o ho hr.1 hr.2.2).2
  · rw [if_neg hr]
    have := settings.one_le_tradingMaxOrderQuantity
    split <;> omega

theorem restingQuantity_setOrder (key : PositionKey) (side : OrderSide)
    (hids : (d.orders.map TradingOrder.id).Nodup) (ho : o ∈ d.orders) (hid : o'.id = o.id) :
    (d.setOrder o').restingQuantity key side =
      d.restingQuantity key side - o.restingUnder key side + o'.restingUnder key side :=
  Rows.sum_replaceBy hids ho hid.symm

/-! ## Steps -/

/-- Rewriting a row so that less of it rests keeps the bound. -/
theorem Database.WithinLimit.setOrder (h : d.WithinLimit settings key)
    (hids : (d.orders.map TradingOrder.id).Nodup) (ho : o ∈ d.orders) (hid : o'.id = o.id)
    (hclosed : o'.status ∉ openOrderStatuses) : (d.setOrder o').WithinLimit settings key := by
  refine ⟨fun y hy hykey hopen => ?_, fun side => ?_⟩
  · rcases Rows.mem_replaceBy hy with rfl | ⟨hy, -⟩
    · exact absurd hopen hclosed
    · exact h.remaining y hy hykey hopen
  · have hzero : o'.restingUnder key side = 0 := if_neg fun hr => hclosed hr.2.2
    have hnonneg : 0 ≤ o.restingUnder key side := h.restingUnder_nonneg ho
    have hexposure := h.exposure side
    rw [Database.exposure] at hexposure ⊢
    rw [restingQuantity_setOrder key side hids ho hid, hzero]
    change side.signed (d.positionTotal key) + _ ≤ _
    omega

/-- What rests of an order after a fill. -/
theorem TradingOrder.restingUnder_fill {quantity : ℤ} {price : ℚ} {now : Time}
    (hrest : o.status ∈ openOrderStatuses) :
    (o.fill quantity price now).restingUnder key side =
      o.restingUnder key side - if o.positionKey = key ∧ o.side = side then quantity else 0 := by
  have hsame : (o.fill quantity price now).positionKey = o.positionKey ∧
      (o.fill quantity price now).side = o.side := ⟨rfl, rfl⟩
  by_cases hk : o.positionKey = key ∧ o.side = side
  · rw [if_pos hk, TradingOrder.restingUnder_of_open hk hrest]
    by_cases hfull : o.filledQuantity + quantity = o.quantity
    · have hstatus := (TradingOrder.fill_status_eq_filled o quantity price now).2 hfull
      rw [TradingOrder.restingUnder_of_closed (by rw [hstatus]; decide)]
      omega
    · have hstatus : (o.fill quantity price now).status = .partiallyFilled := if_neg hfull
      rw [TradingOrder.restingUnder_of_open (by rwa [hsame.1, hsame.2])
        (by rw [hstatus]; decide)]
      simp only [TradingOrder.fill_quantity, TradingOrder.fill_filledQuantity]
      omega
  · rw [if_neg hk, TradingOrder.restingUnder_of_ne hk,
      TradingOrder.restingUnder_of_ne (by rwa [hsame.1, hsame.2]), sub_zero]

/-- A fill moves the position of its order's key. -/
theorem Session.positionTotal_fillPaper {s : Session} (ht : s.Tracked) (o : TradingOrder)
    (now : Time) (quantity : ℤ) (price : ℚ) (key : PositionKey) :
    (s.fillPaper now o quantity price).work.positionTotal key =
      s.work.positionTotal key + if o.positionKey = key then o.side.signed quantity else 0 :=
  Session.positionTotal_bookExecution (s := s.draw) ht key

/-- What it fills rests no longer. -/
theorem Session.restingQuantity_fillPaper {s : Session}
    (hids : (s.work.orders.map TradingOrder.id).Nodup) (ho : o ∈ s.work.orders)
    (hopen : o.status ∈ openOrderStatuses) (now : Time) (quantity : ℤ) (price : ℚ)
    (key : PositionKey) (side : OrderSide) :
    (s.fillPaper now o quantity price).work.restingQuantity key side =
      s.work.restingQuantity key side -
        if o.positionKey = key ∧ o.side = side then quantity else 0 := by
  have hsum := restingQuantity_setOrder key side hids ho
    (show (o.fill quantity price now).id = o.id from rfl)
  rw [TradingOrder.restingUnder_fill hopen] at hsum
  rw [Database.restingQuantity, Session.fillPaper_orders]
  exact hsum.trans (by omega)

theorem restingQuantity_insertOrder (d : Database) (o : TradingOrder) (key : PositionKey)
    (side : OrderSide) : (d.insertOrder o).restingQuantity key side =
      d.restingQuantity key side + o.restingUnder key side := by
  simp [Database.restingQuantity, Database.insertOrder, Database.addOrder]

/-- **A fill keeps the bound**: it moves quantity from what rests to what is held. -/
theorem Database.WithinLimit.fill {s t : Session} (h : s.work.WithinLimit settings key)
    (hids : (s.work.orders.map TradingOrder.id).Nodup) (ht : s.Tracked) (hfill : s.Fill o t) :
    t.work.WithinLimit settings key := by
  obtain ⟨ho, hrest, now, quantity, price, hq, hfit, rfl⟩ := hfill
  refine ⟨fun y hy hykey hopen => ?_, fun side => ?_⟩
  · rw [Session.fillPaper_orders] at hy
    rcases Rows.mem_replaceBy hy with rfl | ⟨hy, -⟩
    · have := h.remaining o ho hykey hrest.2
      simp only [TradingOrder.fill_quantity, TradingOrder.fill_filledQuantity]
      omega
    · exact h.remaining y hy hykey hopen
  · have hexposure := h.exposure side
    have hposition := Session.positionTotal_fillPaper ht o now quantity price key
    have hresting := Session.restingQuantity_fillPaper hids ho hrest.2 now quantity price key side
    rw [Database.exposure] at hexposure ⊢
    rw [hposition, hresting, OrderSide.signed_add]
    by_cases hk : o.positionKey = key
    · by_cases hs : o.side = side
      · rw [if_pos hk, if_pos ⟨hk, hs⟩, hs, OrderSide.signed_signed]
        omega
      · rw [if_pos hk, if_neg fun hr => hs hr.2, OrderSide.signed_of_ne hs]
        omega
    · rw [if_neg hk, if_neg fun hr => hk hr.1]
      have : side.signed 0 = 0 := by cases side <;> rfl
      omega

/-- What a fill needs of the session it happens in. -/
theorem Session.Fill.frame {s t : Session} (hfill : s.Fill o t)
    (hids : (s.work.orders.map TradingOrder.id).Nodup) (ht : s.Tracked) :
    (t.work.orders.map TradingOrder.id).Nodup ∧ t.Tracked := by
  obtain ⟨-, -, now, quantity, price, -, -, rfl⟩ := hfill
  refine ⟨?_, Session.bookExecution_tracked (s := s.draw) ht⟩
  rw [Session.fillPaper_orders, Rows.map_key_replaceBy]
  exact hids

/-- An order the gate let through keeps the bound while it rests. -/
theorem Database.WithinLimit.insertOrder (h : d.WithinLimit settings key) (hd : d.Valid)
    {userId instrumentId : Uuid} {values : OrderValues} {price : ℚ} (now : Time)
    (hgate : riskCheck settings d userId instrumentId values.side values.productType
      values.quantity price .paper = .ok ()) :
    (d.insertOrder (paperOrder d.nextUuid userId instrumentId values now)).WithinLimit settings
      key := by
  obtain ⟨-, hquantity, -, hcount, hposition⟩ := riskCheck_eq_ok.1 hgate
  have hone := values.one_le_quantity
  refine ⟨fun y hy hykey hopen => ?_, fun side => ?_⟩
  · rcases List.mem_append.1 hy with hy | hy
    · exact h.remaining y hy hykey hopen
    · rw [List.mem_singleton.1 hy]
      simp only [paperOrder]
      omega
  · have hexposure := h.exposure side
    have hresting := restingQuantity_insertOrder d
      (paperOrder d.nextUuid userId instrumentId values now) key side
    rw [Database.exposure] at hexposure ⊢
    rw [hresting]
    change side.signed (d.positionTotal key) + _ ≤ _
    by_cases hk : (⟨userId, instrumentId, .paper, values.productType⟩ : PositionKey) = key ∧
        values.side = side
    · obtain ⟨rfl, rfl⟩ := hk
      have hnew : (paperOrder d.nextUuid userId instrumentId values now).restingUnder
          ⟨userId, instrumentId, .paper, values.productType⟩ values.side = values.quantity := by
        refine (TradingOrder.restingUnder_of_open ⟨rfl, rfl⟩ ?_).trans (sub_zero _)
        change OrderStatus.open ∈ openOrderStatuses
        decide
      have hrest := h.restingQuantity_le values.side
      -- the gate bounds the holding, the open-order limit what rests beside it
      have hheld : values.side.signed (d.positionTotal
          ⟨userId, instrumentId, .paper, values.productType⟩) + values.quantity ≤
            settings.tradingMaxAbsolutePosition := by
        rw [← OrderSide.signed_signed values.side values.quantity, ← OrderSide.signed_add,
          ← hd.heldQuantity_eq]
        exact (OrderSide.signed_le_abs _ _).trans hposition
      have hothers : (openOrderCount d userId : ℤ) * settings.tradingMaxOrderQuantity ≤
          (settings.tradingMaxOpenOrders - 1) * settings.tradingMaxOrderQuantity := by
        have := settings.one_le_tradingMaxOrderQuantity
        exact mul_le_mul_of_nonneg_right (by omega) (by omega)
      rw [hnew]
      unfold Settings.positionBound
      dsimp only at hrest
      omega
    · have hnew : (paperOrder d.nextUuid userId instrumentId values now).restingUnder key side =
          0 := TradingOrder.restingUnder_of_ne hk
      rw [hnew]
      omega

/-! ## Runs -/

/-- A request to the paper engine, or a quote. -/
inductive PaperEvent
  | place (now : Time) (userId instrumentId : Uuid) (values : OrderValues)
      (quote : Option NormalizedQuote)
  | cancel (now : Time) (orderId : Uuid)
  | processQuote (now : Time) (userId : Uuid) (quote : NormalizedQuote)

/-- One call, committed or rolled back. -/
def paperStep (settings : Settings) (s : Store) : PaperEvent → Store
  | .place now userId instrumentId values quote =>
    (paperPlace settings now s userId instrumentId values quote).1
  | .cancel now orderId =>
    match s.order? orderId with
    | none => s
    | some o => (paperCancel now s o).1
  | .processQuote now userId quote => (processQuote settings now s userId quote).1

/-- **One call keeps the bound.** -/
theorem withinLimit_paperStep {s : Store} (h : s.WithinLimit settings key) (e : PaperEvent) :
    (paperStep settings s e).WithinLimit settings key := by
  cases e with
  | place now userId instrumentId values quote =>
    rcases paperPlace_cases settings now s userId instrumentId values quote with
      hs | ⟨price, t, -, hgate, hvalid, hsettled, hs⟩
    · rw [paperStep, hs]; exact h
    · rw [paperStep, hs]
      have hplaced := h.insertOrder s.valid now hgate
      have hmem : paperOrder s.nextUuid userId instrumentId values now ∈ (s.toDatabase.insertOrder
          (paperOrder s.nextUuid userId instrumentId values now)).orders :=
        List.mem_append_right _ (List.mem_singleton.2 rfl)
      cases hsettled with
      | rests => exact hplaced
      | canceled =>
        exact hplaced.setOrder hvalid.orderIds hmem rfl
          (show OrderStatus.canceled ∉ openOrderStatuses by decide)
      | filled price hq hfit =>
        refine hplaced.fill (s := ⟨_, _⟩) hvalid.orderIds (Session.tracked_self _)
          ⟨hmem, ⟨rfl, ?_⟩, now, _, price, hq, hfit, rfl⟩
        change OrderStatus.open ∈ openOrderStatuses
        decide
  | cancel now orderId =>
    rw [paperStep]
    cases ho : s.order? orderId with
    | none => exact h
    | some o =>
      dsimp only
      rcases paperCancel_cases now s o with hs | ⟨-, hs⟩
      · rw [hs]; exact h
      · rw [hs]
        exact h.setOrder s.valid.orderIds (Database.order?_mem ho).1 rfl
          (show OrderStatus.canceled ∉ openOrderStatuses by decide)
  | processQuote now userId quote =>
    rcases processQuote_cases settings now s userId quote with hs | ⟨fs, t, hrun, hs⟩
    · rw [paperStep, hs]; exact h
    · rw [paperStep, hs]
      exact hrun.invariant_of
        (I := fun s => (s.work.orders.map TradingOrder.id).Nodup ∧ s.Tracked)
        (P := fun s => s.work.WithinLimit settings key) ⟨s.valid.orderIds, Session.tracked_self _⟩
        (fun _ _ _ hI hfill => hfill.frame hI.1 hI.2) h
        (fun _ _ _ hI hP hfill => hP.fill hI.1 hI.2 hfill)

/-- Under a key with no position and no open order the bound holds. -/
theorem Database.WithinLimit.of_flat {s : Store} (hheld : s.heldQuantity key = 0)
    (hrests : ∀ o ∈ s.orders, o.positionKey = key → o.status ∉ openOrderStatuses) :
    s.WithinLimit settings key := by
  refine ⟨fun o ho hkey hopen => absurd hopen (hrests o ho hkey), fun side => ?_⟩
  have hresting : s.restingQuantity key side = 0 := by
    refine List.sum_eq_zero fun x hx => ?_
    obtain ⟨o, ho, rfl⟩ := List.mem_map.1 hx
    exact if_neg fun hr => hrests o ho hr.1 hr.2.2
  have hzero : side.signed 0 = 0 := by cases side <;> rfl
  have h1 := settings.one_le_tradingMaxAbsolutePosition
  have h2 := settings.one_le_tradingMaxOpenOrders
  have h3 := settings.one_le_tradingMaxOrderQuantity
  have h4 : 0 ≤ ((settings.tradingMaxOpenOrders : ℤ) - 1) * settings.tradingMaxOrderQuantity :=
    mul_nonneg (by omega) (by omega)
  rw [s.valid.heldQuantity_eq] at hheld
  rw [Database.exposure, hresting, hheld, hzero, Settings.positionBound]
  omega

theorem Database.WithinLimit.abs_heldQuantity_le {s : Store} (h : s.WithinLimit settings key) :
    |s.heldQuantity key| ≤ settings.positionBound := by
  rw [s.valid.heldQuantity_eq]
  refine abs_le.2 ⟨?_, ?_⟩
  · have hexposure := h.exposure .sell
    have hrest := h.restingQuantity_nonneg .sell
    simp only [Database.exposure, OrderSide.signed] at hexposure
    omega
  · have hexposure := h.exposure .buy
    have hrest := h.restingQuantity_nonneg .buy
    simp only [Database.exposure, OrderSide.signed] at hexposure
    omega

/-- **The position over a run.**  A position that starts at zero, with no open order
under its key, stays within the limit and one largest order for every other open
order; and an order is accepted only while the position with its own quantity is
within the limit itself. -/
theorem position_bounded {s t : Store} {events : List PaperEvent} {key : PositionKey}
    (hheld : s.heldQuantity key = 0)
    (hrests : ∀ o ∈ s.orders, o.positionKey = key → o.status ∉ openOrderStatuses)
    (hrun : Run (Steps (paperStep settings)) s events t) :
    |t.heldQuantity key| ≤ settings.tradingMaxAbsolutePosition +
      (settings.tradingMaxOpenOrders - 1) * settings.tradingMaxOrderQuantity ∧
    ∀ now userId instrumentId values quote,
      paperStep settings t (.place now userId instrumentId values quote) ≠ t →
      |t.heldQuantity ⟨userId, instrumentId, .paper, values.productType⟩ +
        values.side.signed values.quantity| ≤ settings.tradingMaxAbsolutePosition := by
  have hbound : t.WithinLimit settings key :=
    hrun.invariant (P := fun s => s.WithinLimit settings key) (.of_flat hheld hrests)
      fun _ e _ hs hstep => hstep ▸ withinLimit_paperStep hs e
  refine ⟨hbound.abs_heldQuantity_le, ?_⟩
  intro now userId instrumentId values quote hne
  rcases paperPlace_cases settings now t userId instrumentId values quote with
    hs | ⟨price, _, -, hgate, -⟩
  · exact absurd hs hne
  · exact (riskCheck_eq_ok.1 hgate).2.2.2.2

/-- A position limit of 5. -/
def tightLimit : Settings where
  __ := (default : Settings)
  tradingMode := .paper
  tradingMaxAbsolutePosition := 5
  one_le_tradingMaxAbsolutePosition := by norm_num

/-- Two orders to buy 5 that rest at different limits, and a quote for each. -/
def twoRestingBuys : List PaperEvent :=
  [.place 0 7 3
    { clientOrderId := "near", side := .buy, orderType := .limit, quantity := 5,
      limitPrice := some 100 } none,
  .place 1 7 3
    { clientOrderId := "far", side := .buy, orderType := .limit, quantity := 5,
      limitPrice := some 90 } none,
  .processQuote 2 7 (crossingQuote 2),
  .processQuote 3 7 { instrumentId := 3, receivedAt := 3, ltp := 85 }]

/-- User 8 holds 4 and has an order that rests; user 7 has bought 5 and sold them. -/
def tradedBefore : Store :=
  [PaperEvent.place 0 8 3
      { clientOrderId := "held", side := .buy, orderType := .market, quantity := 4 }
      (some (crossingQuote 0)),
    .place 0 8 3
      { clientOrderId := "rests", side := .buy, orderType := .limit, quantity := 1,
        limitPrice := some 80 } none,
    .place 0 7 3
      { clientOrderId := "in", side := .buy, orderType := .market, quantity := 5 }
      (some (crossingQuote 0)),
    .place 0 7 3
      { clientOrderId := "out", side := .sell, orderType := .market, quantity := 5 }
      (some (crossingQuote 0))].foldl (paperStep tightLimit) Store.empty

theorem position_bounded_twoRestingBuys :
    (twoRestingBuys.foldl (paperStep tightLimit) tradedBefore).heldQuantity
      ⟨7, 3, .paper, .intraday⟩ = 10 ∧
    |(twoRestingBuys.foldl (paperStep tightLimit) tradedBefore).heldQuantity
      ⟨7, 3, .paper, .intraday⟩| ≤ 5 + (20 - 1) * 1000 :=
  ⟨by decide +kernel, (position_bounded (s := tradedBefore) (by decide +kernel)
    (by decide +kernel) (run_foldl (paperStep tightLimit) tradedBefore twoRestingBuys)).1⟩

/-- Both orders pass the gate while nothing is held, and both are filled. -/
theorem position_limit_exceeded :
    ¬ ∀ (settings : Settings) (events : List PaperEvent) (key : PositionKey),
      key.mode = .paper → |(events.foldl (paperStep settings) Store.empty).heldQuantity key| ≤
        settings.tradingMaxAbsolutePosition := by
  intro h
  have hheld : (twoRestingBuys.foldl (paperStep tightLimit) Store.empty).heldQuantity
      ⟨7, 3, .paper, .intraday⟩ = 10 := by decide +kernel
  have := h tightLimit twoRestingBuys ⟨7, 3, .paper, .intraday⟩ rfl
  rw [hheld] at this
  exact absurd this (by decide)

end GnkAlgo
