import GnkAlgo.Trading.PaperSteps

/-!
# A quote's fills as one transaction

`process_quote` books all fills of a quote in one session and commits once.
Compared with booking each fill in a transaction of its own
(`quoteCalls` and `applyCommitted`) there are two differences: an order that
cannot be filled takes the whole quote down, and a position row that is still
pending is not found again, so a second fill under a key without a stored row
adds a second row.

`quoteAgrees_iff` says exactly when the two agree.
-/

namespace GnkAlgo

/-! ## One fill, two sessions -/

theorem Session.bookPosition_congr {s t : Session} {o : TradingOrder} (hwork : s.work = t.work)
    (hpos : (s.stored.position? o.positionKey).isSome = (t.stored.position? o.positionKey).isSome)
    (quantity : ℤ) (price : ℚ) :
    (s.bookPosition o quantity price).work = (t.bookPosition o quantity price).work := by
  unfold Session.bookPosition
  cases h : s.stored.position? o.positionKey <;> cases h' : t.stored.position? o.positionKey <;>
    rw [h, h'] at hpos <;> simp_all

/-- What a fill writes depends on the stored rows only through whether they
have a row of the order's key. -/
theorem Session.bookExecution_congr {s t : Session} {o : TradingOrder} (hwork : s.work = t.work)
    (hpos : (s.stored.position? o.positionKey).isSome = (t.stored.position? o.positionKey).isSome)
    (quantity : ℤ) (price : ℚ) (source : ExecutionSource) (id : Option BrokerExecutionId)
    (at' : Time) :
    (s.bookExecution o quantity price source id at').work =
      (t.bookExecution o quantity price source id at').work := by
  rw [Session.bookExecution, Session.bookExecution, hwork]
  let work := (t.work.addExecution (o.execution quantity price source id at')).setOrder
    (o.fill quantity price at')
  exact Session.bookPosition_congr (s := ⟨s.stored, work⟩) (t := ⟨t.stored, work⟩) rfl hpos
    quantity price

/-- Which position keys a fill adds. -/
theorem Session.bookExecution_positionKeys (s : Session) (o : TradingOrder) (quantity : ℤ)
    (price : ℚ) (source : ExecutionSource) (id : Option BrokerExecutionId) (at' : Time) :
    ((s.bookExecution o quantity price source id at').work.positions.map
        TradingPosition.positionKey) =
      s.work.positions.map TradingPosition.positionKey ++
        if s.stored.position? o.positionKey = none then [o.positionKey] else [] := by
  unfold Session.bookExecution Session.bookPosition
  cases h : s.stored.position? o.positionKey with
  | some p =>
    dsimp only [Database.updatePosition]
    rw [Rows.map_updateFirst fun x _ => by simp, if_neg (by simp), List.append_nil]
    rfl
  | none =>
    dsimp only [Database.addPosition]
    rw [List.map_append, if_pos rfl]
    simp [Database.addExecution]

/-- **One fill in a transaction of its own**, where nothing refuses it. -/
theorem applyCommitted_booked {s : Store} {c : ExecutionCall} {o : TradingOrder} (ho : o ∈ s.orders)
    (hid : o.id = c.orderId) (hq : 0 < c.quantity) (hfit : o.filledQuantity + c.quantity ≤ o.quantity)
    (hnew : ∀ i, c.brokerExecutionId = some i → s.execution? o.userId i = none) :
    (applyCommitted s c).toDatabase =
      (Session.bookExecution ⟨s.toDatabase, s.toDatabase.drawn c.brokerExecutionId⟩ o c.quantity
        c.price c.source c.brokerExecutionId (c.executedAt.getD c.now)).work := by
  have hrow : s.order? c.orderId = some o := hid ▸ s.valid.order?_eq ho
  have hnone : Session.recorded? ⟨s.toDatabase, s.toDatabase.drawn c.brokerExecutionId⟩ o
      c.brokerExecutionId = none := by
    refine Option.bind_eq_none_iff.2 fun i hi => ?_
    exact hnew i (Option.filter_eq_some_iff.1 hi).1
  have hvalid : (Session.bookExecution ⟨s.toDatabase, s.toDatabase.drawn c.brokerExecutionId⟩ o
      c.quantity c.price c.source c.brokerExecutionId (c.executedAt.getD c.now)).work.Valid :=
    Session.valid_bookExecution (Database.drawn_valid s.valid _) (by simpa using ho)
    (fun h => by rw [← h]; simp [Database.position?])
    (fun i hi => by rw [← hnew i hi]; simp [Database.execution?])
    (fun n hn => Database.drawn_paper hn)
  simp only [applyCommitted, hrow]
  rcases applyExecution_cases c.now ⟨s.toDatabase, s.toDatabase.drawn c.brokerExecutionId⟩ o
      c.quantity c.price c.source c.brokerExecutionId c.executedAt with
    ⟨⟨e, he⟩, -⟩ | ⟨-, hbad, -⟩ | ⟨-, -, -, h⟩
  · rw [hnone] at he; cases he
  · omega
  · simp only [h, Session.commitOr_of_valid hvalid]

/-! ## The fills of a quote -/

/-- The resting orders that a quote crosses. -/
def crossedOrders (d : Database) (userId : Uuid) (quote : NormalizedQuote) : List TradingOrder :=
  (restingOrders d userId quote.instrumentId).filter (isCrossing · quote)

/-- The fills of a quote as calls of their own, with the ids drawn in turn. -/
def quoteCalls (settings : Settings) (now : Time) (quote : NormalizedQuote) :
    Uuid → List TradingOrder → List ExecutionCall
  | _, [] => []
  | uuid, o :: rest =>
    ⟨o.id, o.quantity - o.filledQuantity, fillPrice o quote settings.paperSlippageBps, .paper,
      some (.paper uuid), none, now⟩ :: quoteCalls settings now quote (uuid + 1) rest

variable {settings : Settings} {now : Time} {quote : NormalizedQuote}

/-- The loop does nothing for an order the quote does not cross. -/
theorem fillCrossed_filter (s : Session) (orders : List TradingOrder) :
    fillCrossed settings now quote s orders =
      fillCrossed settings now quote s (orders.filter (isCrossing · quote)) := by
  induction orders generalizing s with
  | nil => rfl
  | cons o rest ih =>
    by_cases hcross : isCrossing o quote
    · rw [List.filter_cons, if_pos hcross, fillCrossed, fillCrossed, if_pos hcross, if_pos hcross]
      cases paperFill settings now s o (o.quantity - o.filledQuantity) quote with
      | error e => rfl
      | ok r => exact congrArg (Except.map _) (ih r.1)
    · rw [List.filter_cons, if_neg hcross, fillCrossed, if_neg hcross, ih]

/-- The loop over crossed orders that can all be filled: it returns what booking
the fills one by one does, as long as no second fill falls under a key without
a stored row. -/
theorem fillCrossed_eq_stepwise (settings : Settings) (now : Time) (quote : NormalizedQuote)
    (orders : List TradingOrder) : ∀ {s : Session} {t : Store},
    s.work = t.toDatabase → s.stored.Valid → s.stored.nextUuid ≤ s.work.nextUuid → s.Tracked →
    (orders.map TradingOrder.id).Nodup →
    (∀ o ∈ orders, o ∈ s.work.orders ∧ isCrossing o quote ∧ o.filledQuantity < o.quantity ∧
      (s.stored.position? o.positionKey = none → s.work.position? o.positionKey = none)) →
    orders.Pairwise (fun o o' => o.positionKey = o'.positionKey →
      (s.stored.position? o.positionKey).isSome) →
    ∃ r, fillCrossed settings now quote s orders = .ok (r, orders.length) ∧
      r.work = ((quoteCalls settings now quote t.nextUuid orders).foldl applyCommitted
        t).toDatabase := by
  induction orders with
  | nil =>
    intro s t hwork _ _ _ _ _ _
    exact ⟨s, rfl, hwork⟩
  | cons o rest ih =>
    intro s t hwork hv hn htracked hnd hmem hpair
    rw [List.map_cons, List.nodup_cons] at hnd
    rw [List.pairwise_cons] at hpair
    obtain ⟨ho, hcross, hfilled, hpos⟩ := hmem o (List.mem_cons_self ..)
    rw [fillCrossed, if_pos hcross]
    rcases paperFill_cases settings now hv hn o (o.quantity - o.filledQuantity) quote with
      ⟨hbad, -⟩ | ⟨hq, hfit, hfill⟩
    · omega
    rw [hfill]
    dsimp only
    -- the same fill in a transaction of its own
    have hsome : (s.stored.position? o.positionKey).isSome =
        (t.position? o.positionKey).isSome := by
      rw [← hwork]
      cases h : s.stored.position? o.positionKey with
      | none => rw [hpos h]
      | some p => exact (htracked o.positionKey (by rw [h]; rfl)).symm
    have hstep : (s.fillPaper now o (o.quantity - o.filledQuantity)
        (fillPrice o quote settings.paperSlippageBps)).work =
        (applyCommitted t ⟨o.id, o.quantity - o.filledQuantity,
          fillPrice o quote settings.paperSlippageBps, .paper, some (.paper t.nextUuid), none,
          now⟩).toDatabase := by
      rw [applyCommitted_booked (o := o) (hwork ▸ ho) rfl hq hfit fun i hi => by
        obtain rfl := Option.some_inj.1 hi
        exact t.valid.execution?_paper o.userId le_rfl]
      have hdrawn : s.draw.work = t.toDatabase.drawn (some (.paper t.nextUuid)) := by
        rw [Session.draw, hwork]
        simp [Database.drawn]
      rw [Session.fillPaper, hwork]
      exact Session.bookExecution_congr hdrawn hsome _ _ _ _ _
    have hrest : ∀ o' ∈ rest, o' ∈ (s.fillPaper now o (o.quantity - o.filledQuantity)
          (fillPrice o quote settings.paperSlippageBps)).work.orders ∧
        isCrossing o' quote ∧ o'.filledQuantity < o'.quantity ∧
        ((s.fillPaper now o (o.quantity - o.filledQuantity)
            (fillPrice o quote settings.paperSlippageBps)).stored.position? o'.positionKey = none →
          (s.fillPaper now o (o.quantity - o.filledQuantity)
            (fillPrice o quote settings.paperSlippageBps)).work.position? o'.positionKey =
              none) := by
      intro o' ho'
      obtain ⟨hmem', hcross', hfilled', hpos'⟩ := hmem o' (List.mem_cons_of_mem _ ho')
      have hne : o'.id ≠ o.id := fun heq => hnd.1 (List.mem_map.2 ⟨o', ho', heq⟩)
      refine ⟨by rw [Session.fillPaper_orders]; exact Rows.mem_replaceBy_of_ne hmem' hne, hcross',
        hfilled', fun hnone => ?_⟩
      rw [Session.fillPaper_stored] at hnone
      have hkey : o'.positionKey ≠ o.positionKey := fun heq => by
        have := hpair.1 o' ho' heq.symm
        rw [← heq, hnone] at this
        cases this
      exact (Session.position?_bookExecution_of_ne (s := s.draw) hkey).trans (hpos' hnone)
    obtain ⟨r, hloop, hr⟩ := ih hstep (by simpa using hv) (by simpa using Nat.le_succ_of_le hn)
      (Session.bookExecution_tracked (s := s.draw) htracked) hnd.2 hrest (by simpa using hpair.2)
    have hnext : (applyCommitted t ⟨o.id, o.quantity - o.filledQuantity,
        fillPrice o quote settings.paperSlippageBps, .paper, some (.paper t.nextUuid), none,
        now⟩).nextUuid = t.nextUuid + 1 := by
      rw [← hstep, Session.fillPaper_nextUuid, hwork]
    refine ⟨r, by rw [hloop]; rfl, ?_⟩
    rw [hr, quoteCalls, List.foldl_cons, hnext]

/-- What a loop over crossed orders that returns has done: every order could be
filled, and every fill without a stored row added one. -/
theorem fillCrossed_ok {orders : List TradingOrder} : ∀ {s r : Session} {filled : ℕ},
    s.stored.Valid → s.stored.nextUuid ≤ s.work.nextUuid → (∀ o ∈ orders, isCrossing o quote) →
    fillCrossed settings now quote s orders = .ok (r, filled) →
    (∀ o ∈ orders, o.filledQuantity < o.quantity) ∧ filled = orders.length ∧
    r.work.positions.map TradingPosition.positionKey =
      s.work.positions.map TradingPosition.positionKey ++
        (orders.filter fun o => s.stored.position? o.positionKey = none).map
          TradingOrder.positionKey := by
  induction orders with
  | nil =>
    intro s r filled _ _ _ h
    cases h
    exact ⟨by simp, rfl, by simp⟩
  | cons o rest ih =>
    intro s r filled hv hn hcross h
    rw [fillCrossed, if_pos (hcross o (List.mem_cons_self ..))] at h
    rcases paperFill_cases settings now hv hn o (o.quantity - o.filledQuantity) quote with
      ⟨-, hfill⟩ | ⟨hq, -, hfill⟩
    · rw [hfill] at h; cases h
    rw [hfill] at h
    dsimp only at h
    cases hloop : fillCrossed settings now quote (s.fillPaper now o (o.quantity - o.filledQuantity)
        (fillPrice o quote settings.paperSlippageBps)) rest with
    | error e => rw [hloop] at h; cases h
    | ok result =>
      obtain ⟨r', n⟩ := result
      rw [hloop] at h
      cases h
      obtain ⟨hfilled, hlength, hkeys⟩ := ih (by simpa using hv)
        (by simpa using Nat.le_succ_of_le hn)
        (fun o' ho' => hcross o' (List.mem_cons_of_mem _ ho')) hloop
      refine ⟨fun o' ho' => ?_, by rw [hlength]; rfl, ?_⟩
      · rcases List.mem_cons.1 ho' with rfl | ho'
        · omega
        · exact hfilled o' ho'
      · have hstep := Session.bookExecution_positionKeys s.draw o (o.quantity - o.filledQuantity)
          (fillPrice o quote settings.paperSlippageBps) .paper (some (.paper s.work.nextUuid)) now
        rw [hkeys, Session.fillPaper_stored, Session.fillPaper, hstep, List.filter_cons]
        by_cases hnone : s.stored.position? o.positionKey = none
        · simp [hnone, Session.draw]
        · simp [hnone, Session.draw]

/-! ## When the quote agrees with its fills one by one -/

/-- `process_quote` returns, and the store it commits has the orders, executions
and positions that its fills give in transactions of their own. -/
def QuoteAgrees (settings : Settings) (now : Time) (s : Store) (userId : Uuid)
    (quote : NormalizedQuote) : Prop :=
  let batch := processQuote settings now s userId quote
  let stepwise := (quoteCalls settings now quote s.nextUuid
    (crossedOrders s.toDatabase userId quote)).foldl applyCommitted s
  (∃ filled, batch.2 = .ok filled) ∧ batch.1.orders = stepwise.orders ∧
    batch.1.executions = stepwise.executions ∧ batch.1.positions = stepwise.positions

/-- Every crossed order can be filled, and two that fall under one position key
find its row stored. -/
def QuoteSeparable (s : Store) (userId : Uuid) (quote : NormalizedQuote) : Prop :=
  (∀ o ∈ crossedOrders s.toDatabase userId quote, o.filledQuantity < o.quantity) ∧
  (crossedOrders s.toDatabase userId quote).Pairwise fun o o' =>
    o.positionKey = o'.positionKey → (s.position? o.positionKey).isSome

theorem crossedOrders_mem {d : Database} {userId : Uuid} {o : TradingOrder}
    (h : o ∈ crossedOrders d userId quote) : o ∈ d.orders ∧ isCrossing o quote := by
  obtain ⟨hrest, hcross⟩ := List.mem_filter.1 h
  exact ⟨(restingOrders_resting hrest).1, hcross⟩

/-- **One transaction is as good as one for each fill exactly when the fills are
separable.** -/
theorem quoteAgrees_iff (s : Store) (userId : Uuid) :
    QuoteAgrees settings now s userId quote ↔ QuoteSeparable s userId quote := by
  have hfilter : fillCrossed settings now quote s.begin
      (restingOrders s.toDatabase userId quote.instrumentId) =
      fillCrossed settings now quote s.begin (crossedOrders s.toDatabase userId quote) :=
    fillCrossed_filter s.begin (restingOrders s.toDatabase userId quote.instrumentId)
  constructor
  · rintro ⟨⟨filled, hok⟩, -⟩
    unfold processQuote at hok
    rw [hfilter] at hok
    cases hloop : fillCrossed settings now quote s.begin
        (crossedOrders s.toDatabase userId quote) with
    | error e => rw [hloop] at hok; cases hok
    | ok result =>
      obtain ⟨r, n⟩ := result
      obtain ⟨hfilled, hlength, hkeys⟩ := fillCrossed_ok (s := s.begin) s.valid le_rfl
        (fun o ho => (crossedOrders_mem ho).2) hloop
      refine ⟨hfilled, ?_⟩
      rw [hloop] at hok
      dsimp only at hok
      by_cases hn : 0 < n
      · rw [if_pos hn] at hok
        by_cases hvalid : r.work.Valid
        · have hnodup := hvalid.positionKeys
          rw [hkeys] at hnodup
          have hpair := List.pairwise_filter.1 (List.pairwise_map.1 hnodup.of_append_right)
          refine hpair.imp fun {o o'} hne heq => ?_
          by_contra hnone
          rw [Option.not_isSome_iff_eq_none] at hnone
          exact hne (decide_eq_true hnone) (decide_eq_true (heq ▸ hnone)) heq
        · rw [Session.commitOr_of_not_valid hvalid] at hok
          cases hok
      · have hnil : crossedOrders s.toDatabase userId quote = [] :=
          List.length_eq_zero_iff.1 (by omega)
        rw [hnil]
        exact List.Pairwise.nil
  · rintro ⟨hfilled, hpair⟩
    obtain ⟨r, hloop, hr⟩ := fillCrossed_eq_stepwise settings now quote
      (crossedOrders s.toDatabase userId quote) (s := s.begin) (t := s) rfl s.valid le_rfl
      (Session.tracked_self _) ((restingOrders_nodup s.valid _ _).sublist (List.filter_sublist.map _))
      (fun o ho => ⟨(crossedOrders_mem ho).1, (crossedOrders_mem ho).2, hfilled o ho, fun h => h⟩)
      hpair
    unfold QuoteAgrees processQuote
    rw [hfilter, hloop]
    dsimp only
    by_cases hn : 0 < (crossedOrders s.toDatabase userId quote).length
    · rw [if_pos hn, Session.commitOr_of_valid (hr ▸ Store.valid _)]
      exact ⟨⟨_, rfl⟩, congrArg Database.orders hr, congrArg Database.executions hr,
        congrArg Database.positions hr⟩
    · have hnil : crossedOrders s.toDatabase userId quote = [] :=
        List.length_eq_zero_iff.1 (by omega)
      rw [if_neg hn, hnil]
      exact ⟨⟨_, rfl⟩, rfl, rfl, rfl⟩

end GnkAlgo
