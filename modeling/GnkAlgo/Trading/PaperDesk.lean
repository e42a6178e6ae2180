import GnkAlgo.Trading.OrderRuns
import GnkAlgo.Trading.RiskGate
import GnkAlgo.Trading.PaperStates

/-!
# Paper requests next to the market worker

An API request reads its order without a lock and writes it back when it
commits; `process_quote` of the market worker selects its orders `FOR UPDATE`,
fills them and commits, and until then nobody else can write them.

Positions are read `FOR UPDATE` by everyone, so that the row a transaction books
on is the one that is there at its commit.

* `paperDeskStep` — one step of one of the transactions;
* `Undisturbed` — the commits of a request that find what the request had read;
* `paper_ledger_iff` — the ledger is right in every committed state of a run
  exactly when all its commits are of that kind.
-/

namespace GnkAlgo

open Transition

/-! ## Transactions -/

/-- `process_quote` between its query and its commit, with the rows it has locked. -/
structure QuoteFill where
  quote : NormalizedQuote
  orders : List TradingOrder

/-- What is committed, the orders that requests hold, and the open transactions
of the market worker. -/
structure PaperDesk where
  store : Store
  requests : List TradingOrder
  fills : List QuoteFill

/-- A transaction of the market worker has the row. -/
def PaperDesk.Locked (desk : PaperDesk) (id : Uuid) : Prop :=
  ∃ f ∈ desk.fills, ∃ o ∈ f.orders, o.id = id

instance (desk : PaperDesk) (id : Uuid) : Decidable (desk.Locked id) := by
  unfold PaperDesk.Locked
  infer_instance

inductive PaperDeskEvent
  | place (now : Time) (userId instrumentId : Uuid) (values : OrderValues)
      (quote : Option NormalizedQuote)
  | load (orderId : Uuid)
  | cancel (now : Time) (index : ℕ)
  | modify (now : Time) (index : ℕ) (quantity : ℤ) (limitPrice : ℚ)
      (quote : Option NormalizedQuote)
  | select (userId : Uuid) (quote : NormalizedQuote)
  | fill (now : Time) (index : ℕ)
  | dropRequest (index : ℕ)
  | dropFill (index : ℕ)

/-- `PaperTradingEngine.cancel` on the order a request holds. -/
def heldCancel (now : Time) (s : Store) (o : TradingOrder) : Store :=
  match paperCancelOrder now o with
  | .error _ => s
  | .ok o' => s.writeOrder o o'

/-- `PaperTradingEngine.modify` on the order a request holds: the session has
that order in the place of the row, and writes back what it changed. -/
def heldModify (settings : Settings) (now : Time) (s : Store) (o : TradingOrder) (quantity : ℤ)
    (limitPrice : ℚ) (quote : Option NormalizedQuote) : Store :=
  match paperModifySession settings now ⟨s.toDatabase, s.toDatabase.setOrder o⟩ o quantity
    limitPrice quote with
  | .error _ => s
  | .ok (session, o') => (Session.commitOr ⟨s.toDatabase,
      { session.work with orders := (s.toDatabase.writeOrder o o').orders }⟩ s (.ok o')).1

/-- `process_quote` from its query on. -/
def fillSelected (settings : Settings) (now : Time) (s : Store) (f : QuoteFill) : Store :=
  match fillCrossed settings now f.quote s.begin f.orders with
  | .error _ => s
  | .ok (session, filled) => if 0 < filled then (session.commitOr s (.ok filled)).1 else s

/-- One step.  A statement that needs a row somebody has locked waits, and so
does nothing yet; a transaction may end without a commit at any time. -/
def paperDeskStep (settings : Settings) (desk : PaperDesk) : PaperDeskEvent → PaperDesk
  | .place now userId instrumentId values quote =>
    { desk with store := (paperPlace settings now desk.store userId instrumentId values quote).1 }
  | .load orderId =>
    match desk.store.order? orderId with
    | some o => if o.mode = .paper then { desk with requests := desk.requests ++ [o] } else desk
    | none => desk
  | .cancel now index =>
    match desk.requests[index]? with
    | some o =>
      if desk.Locked o.id then desk
      else { desk with
        store := heldCancel now desk.store o
        requests := desk.requests.eraseIdx index }
    | none => desk
  | .modify now index quantity limitPrice quote =>
    match desk.requests[index]? with
    | some o =>
      if desk.Locked o.id then desk
      else { desk with
        store := heldModify settings now desk.store o quantity limitPrice quote
        requests := desk.requests.eraseIdx index }
    | none => desk
  | .select userId quote =>
    if ∃ o ∈ restingOrders desk.store.toDatabase userId quote.instrumentId, desk.Locked o.id then
      desk
    else { desk with fills := desk.fills ++
      [⟨quote, restingOrders desk.store.toDatabase userId quote.instrumentId⟩] }
  | .fill now index =>
    match desk.fills[index]? with
    | some f => { desk with
        store := fillSelected settings now desk.store f
        fills := desk.fills.eraseIdx index }
    | none => desk
  | .dropRequest index => { desk with requests := desk.requests.eraseIdx index }
  | .dropFill index => { desk with fills := desk.fills.eraseIdx index }

/-! ## Transactions that nobody interrupts -/

variable {s : Store} {o : TradingOrder}

theorem heldCancel_eq (ho : o ∈ s.orders) (now : Time) :
    heldCancel now s o = (paperCancel now s o).1 := by
  unfold heldCancel paperCancel
  cases hcancel : paperCancelOrder now o with
  | error e => rfl
  | ok o' =>
    obtain rfl : o.canceledAt now = o' := by
      unfold paperCancelOrder at hcancel
      split at hcancel
      · cases hcancel
      · cases hcancel; rfl
    have hvalid : (s.toDatabase.setOrder (o.canceledAt now)).Valid :=
      s.valid.setOrder ho rfl rfl
    dsimp only
    rw [Session.commitOr_of_valid hvalid]
    apply Store.ext'
    exact s.valid.writeOrder_eq ho (by
      simp [TradingOrder.Rewrites, TradingOrder.writeBack, TradingOrder.canceledAt])

theorem fillSelected_eq (settings : Settings) (now : Time) (s : Store) (userId : Uuid)
    (quote : NormalizedQuote) :
    fillSelected settings now s ⟨quote, restingOrders s.toDatabase userId quote.instrumentId⟩ =
      (processQuote settings now s userId quote).1 := by
  unfold fillSelected processQuote
  dsimp only
  cases fillCrossed settings now quote s.begin
      (restingOrders s.toDatabase userId quote.instrumentId) with
  | error e => rfl
  | ok r =>
    obtain ⟨session, filled⟩ := r
    dsimp only
    split <;> rfl

/-- The session of a modification holds the new order in the place of the row. -/
theorem paperModifySession_orders {settings : Settings} {now : Time} {session session' : Session}
    {o' : TradingOrder} {quantity : ℤ} {limitPrice : ℚ} {quote : Option NormalizedQuote}
    (hv : session.stored.Valid) (hn : session.stored.nextUuid ≤ session.work.nextUuid)
    (h : paperModifySession settings now session o quantity limitPrice quote =
      .ok (session', o')) :
    session'.work.orders = Rows.replaceBy TradingOrder.id o' session.work.orders ∧
      o.Rewrites o' := by
  unfold paperModifySession at h
  split at h
  · cases h
  split at h
  · cases h
  cases quote with
  | none =>
    cases h
    exact ⟨rfl, by simp [TradingOrder.Rewrites, TradingOrder.writeBack, TradingOrder.modified]⟩
  | some q =>
    dsimp only at h
    split at h
    · rcases paperFill_cases settings now
          (s := { session with work := session.work.setOrder (o.modified quantity limitPrice) }) hv
          hn (o.modified quantity limitPrice) (quantity - o.filledQuantity) q with
        ⟨-, hfill⟩ | ⟨-, -, hfill⟩
      · cases hfill.symm.trans h
      · cases hfill.symm.trans h
        refine ⟨?_, ?_⟩
        · rw [Session.fillPaper_orders]
          exact Rows.replaceBy_replaceBy rfl
        · simp [TradingOrder.Rewrites, TradingOrder.writeBack, TradingOrder.modified,
            TradingOrder.fill]
    · cases h
      exact ⟨rfl, by simp [TradingOrder.Rewrites, TradingOrder.writeBack, TradingOrder.modified]⟩

theorem heldModify_eq (settings : Settings) (ho : o ∈ s.orders) (now : Time) (quantity : ℤ)
    (limitPrice : ℚ) (quote : Option NormalizedQuote) :
    heldModify settings now s o quantity limitPrice quote =
      (paperModify settings now s o quantity limitPrice quote).1 := by
  have hself : s.toDatabase.setOrder o = s.toDatabase := by
    unfold Database.setOrder
    rw [Rows.replaceBy_self s.valid.orderIds ho]
  unfold heldModify paperModify
  rw [hself]
  change (match paperModifySession settings now s.begin o quantity limitPrice quote with
    | .error _ => s
    | .ok (session, o') => (Session.commitOr ⟨s.toDatabase,
        { session.work with orders := (s.toDatabase.writeOrder o o').orders }⟩ s (.ok o')).1) = _
  cases h : paperModifySession settings now s.begin o quantity limitPrice quote with
  | error e => rfl
  | ok r =>
    obtain ⟨session, o'⟩ := r
    obtain ⟨horders, hrewrites⟩ := paperModifySession_orders s.valid le_rfl h
    dsimp only
    have hsame : ({ session.work with orders := (s.toDatabase.writeOrder o o').orders } : Database) =
        session.work := by
      rw [s.valid.writeOrder_eq ho hrewrites]
      exact congrArg (fun orders => ({ session.work with orders := orders } : Database)) horders.symm
    rw [hsame]
    rfl

/-! ## What a request writes -/

/-- The columns no operation writes agree: `o` was read from the row `row` is now. -/
structure TradingOrder.CopyOf (o row : TradingOrder) : Prop where
  id : row.id = o.id
  positionKey : row.positionKey = o.positionKey
  side : row.side = o.side

/-- What `modify` asks of a PAPER order. -/
def TradingOrder.MayModify (o : TradingOrder) (quantity : ℤ) : Prop :=
  o.Resting ∧ o.orderType = .limit ∧ max 1 o.filledQuantity ≤ quantity

theorem Database.writeOrder_of_some {d : Database} {base new row : TradingOrder}
    (h : d.order? base.id = some row) :
    d.writeOrder base new = d.setOrder (base.writeBack new row) := by
  rw [Database.writeOrder, h]

theorem heldCancel_of_not (h : ¬ o.Resting) (now : Time) : heldCancel now s o = s := by
  unfold heldCancel paperCancelOrder
  rw [if_pos]
  by_cases hmode : o.mode = .paper
  · exact Or.inr fun hopen => h ⟨hmode, hopen⟩
  · exact Or.inl hmode

theorem heldCancel_of_resting (h : o.Resting) (now : Time) :
    heldCancel now s o = s.writeOrder o (o.canceledAt now) := by
  unfold heldCancel paperCancelOrder
  rw [if_neg]
  simp [h.1, h.2]

theorem paperModifySession_of_not (settings : Settings) (now : Time) (session : Session)
    {quantity : ℤ} (h : ¬ o.MayModify quantity) (limitPrice : ℚ) (quote : Option NormalizedQuote) :
    ∃ e, paperModifySession settings now session o quantity limitPrice quote = .error e := by
  unfold paperModifySession
  split
  · exact ⟨_, rfl⟩
  rename_i hguard
  split
  · exact ⟨_, rfl⟩
  rename_i hquantity
  obtain ⟨hmode, hguard⟩ := not_or.1 hguard
  obtain ⟨hopen, htype⟩ := not_or.1 hguard
  exact absurd ⟨⟨not_not.1 hmode, not_not.1 hopen⟩, not_not.1 htype, not_lt.1 hquantity⟩ h

theorem heldModify_of_not (settings : Settings) (now : Time) {quantity : ℤ}
    (h : ¬ o.MayModify quantity) (limitPrice : ℚ) (quote : Option NormalizedQuote) :
    heldModify settings now s o quantity limitPrice quote = s := by
  unfold heldModify
  obtain ⟨e, herror⟩ := paperModifySession_of_not settings now
    ⟨s.toDatabase, s.toDatabase.setOrder o⟩ h limitPrice quote
  rw [herror]

/-- A modification that may be made, up to the quote. -/
theorem paperModifySession_of_may {settings : Settings} {now : Time} {session : Session}
    {quantity : ℤ} (h : o.MayModify quantity) (limitPrice : ℚ) (quote : Option NormalizedQuote) :
    paperModifySession settings now session o quantity limitPrice quote =
      let o' := o.modified quantity limitPrice
      let s' := { session with work := session.work.setOrder o' }
      match quote with
      | some q =>
        if isCrossing o' q then paperFill settings now s' o' (quantity - o.filledQuantity) q
        else .ok (s', o')
      | none => .ok (s', o') := by
  unfold paperModifySession
  exact (if_neg (by simp [h.1.1, h.1.2, h.2.1])).trans (if_neg (not_lt.2 h.2.2))

theorem Database.writeOrder_frame (d : Database) (base new : TradingOrder) :
    { d with orders := (d.writeOrder base new).orders } = d.writeOrder base new := by
  unfold Database.writeOrder
  split <;> rfl

/-- A modification that fills nothing writes the row alone. -/
theorem heldModify_rests (settings : Settings) (now : Time) {quantity : ℤ}
    (h : o.MayModify quantity) {limitPrice : ℚ} {quote : Option NormalizedQuote}
    (hcross : ∀ q ∈ quote, ¬ isCrossing (o.modified quantity limitPrice) q) :
    heldModify settings now s o quantity limitPrice quote =
      s.writeOrder o (o.modified quantity limitPrice) := by
  have hsession : paperModifySession settings now ⟨s.toDatabase, s.toDatabase.setOrder o⟩ o quantity
      limitPrice quote = .ok (⟨s.toDatabase, (s.toDatabase.setOrder o).setOrder
        (o.modified quantity limitPrice)⟩, o.modified quantity limitPrice) := by
    rw [paperModifySession_of_may h]
    cases quote with
    | none => rfl
    | some q => exact if_neg (hcross q rfl)
  unfold heldModify
  rw [hsession]
  dsimp only
  have hframe := s.toDatabase.writeOrder_frame o (o.modified quantity limitPrice)
  rw [show ({ ((s.toDatabase.setOrder o).setOrder (o.modified quantity limitPrice)) with
      orders := (s.toDatabase.writeOrder o (o.modified quantity limitPrice)).orders } : Database) =
    s.toDatabase.writeOrder o (o.modified quantity limitPrice) from hframe]
  rw [Session.commitOr_of_valid (s.valid.writeOrder o _)]
  rfl

/-- Booking looks at the key and the side of an order, not at its row. -/
theorem Session.fillPaper_copy (d work : Database) (now : Time) (quantity : ℤ) (price : ℚ)
    {o row : TradingOrder} (hcopy : o.CopyOf row) (orders : List TradingOrder)
    (he : work.executions = d.executions) (hp : work.positions = d.positions)
    (hc : work.controls = d.controls) (hb : work.connections = d.connections)
    (hn : work.nextUuid = d.nextUuid) :
    { (Session.fillPaper ⟨d, work⟩ now o quantity price).work with orders := orders } =
      { (Session.fillPaper ⟨d, d⟩ now row quantity price).work with orders := orders } := by
  have hexec : o.execution quantity price .paper (some (.paper d.nextUuid)) now =
      row.execution quantity price .paper (some (.paper d.nextUuid)) now := by
    have hkey := hcopy.positionKey
    simp only [TradingOrder.positionKey, PositionKey.mk.injEq] at hkey
    simp [TradingOrder.execution, hcopy.id, hcopy.side, hkey.1, hkey.2.1, hkey.2.2.1]
  unfold Session.fillPaper Session.draw Session.bookExecution Session.bookPosition
  simp only [Database.addExecution, Database.setOrder, hcopy.positionKey, hn, hexec]
  cases d.position? o.positionKey with
  | none => simp [Database.addPosition, he, hp, hc, hb, hcopy.side]
  | some p => simp [Database.updatePosition, he, hp, hc, hb, hcopy.side]

/-- What a modification that fills the held order leaves: the fill is booked on
the row that is there, and the row takes the columns of the held order. -/
theorem heldModify_filled (settings : Settings) (now : Time) {quantity : ℤ}
    (h : o.MayModify quantity) (hfilled : o.filledQuantity = 0) {limitPrice : ℚ}
    {q : NormalizedQuote} (hcross : isCrossing (o.modified quantity limitPrice) q)
    {row : TradingOrder} (hrow : row ∈ s.orders) (hcopy : o.CopyOf row) :
    let price := fillPrice (o.modified quantity limitPrice) q settings.paperSlippageBps
    (heldModify settings now s o quantity limitPrice (some q)).toDatabase =
      (s.begin.fillPaper now row quantity price).work.setOrder
        (o.writeBack ((o.modified quantity limitPrice).fill quantity price now) row) := by
  intro price
  have hle := h.2.2
  have hleft : quantity - o.filledQuantity = quantity := by omega
  have hsession : paperModifySession settings now ⟨s.toDatabase, s.toDatabase.setOrder o⟩ o quantity
      limitPrice (some q) = .ok (Session.fillPaper ⟨s.toDatabase, (s.toDatabase.setOrder o).setOrder
        (o.modified quantity limitPrice)⟩ now (o.modified quantity limitPrice) quantity price,
        (o.modified quantity limitPrice).fill quantity price now) := by
    rw [paperModifySession_of_may h]
    dsimp only
    rw [if_pos hcross, hleft]
    rcases paperFill_cases settings now (s := ⟨s.toDatabase, (s.toDatabase.setOrder o).setOrder
        (o.modified quantity limitPrice)⟩) s.valid le_rfl (o.modified quantity limitPrice) quantity q
      with ⟨hbad, -⟩ | ⟨-, -, hfill⟩
    · simp only [TradingOrder.modified] at hbad
      omega
    · exact hfill
  generalize hnew : (o.modified quantity limitPrice).fill quantity price now = new at hsession ⊢
  have hwritten : (s.toDatabase.writeOrder o new).orders =
      Rows.replaceBy TradingOrder.id (o.writeBack new row) s.orders := by
    rw [Database.writeOrder_of_some (hcopy.id ▸ s.valid.order?_eq hrow)]
    rfl
  have hfinal : (s.begin.fillPaper now row quantity price).work.setOrder (o.writeBack new row) =
      { (s.begin.fillPaper now row quantity price).work with
        orders := Rows.replaceBy TradingOrder.id (o.writeBack new row) s.orders } := by
    rw [Database.setOrder, Session.fillPaper_orders,
      Rows.replaceBy_replaceBy (show (row.fill quantity price now).id = (o.writeBack new row).id
        from rfl)]
    rfl
  have hsame := Session.fillPaper_copy s.toDatabase ((s.toDatabase.setOrder o).setOrder
    (o.modified quantity limitPrice)) now quantity price
    (show (o.modified quantity limitPrice).CopyOf row from ⟨hcopy.id, hcopy.positionKey, hcopy.side⟩)
    (Rows.replaceBy TradingOrder.id (o.writeBack new row) s.orders) rfl rfl rfl rfl rfl
  have hfill : (s.begin.fillPaper now row quantity price).work.Valid :=
    Session.valid_fillPaper s.valid hrow (fun hnone => hnone) now quantity price
  have hvalid : ((s.begin.fillPaper now row quantity price).work.setOrder
      (o.writeBack new row)).Valid := by
    have hmem : row.fill quantity price now ∈
        (s.begin.fillPaper now row quantity price).work.orders := by
      rw [Session.fillPaper_orders]
      exact Rows.mem_replaceBy_self hrow rfl
    exact hfill.setOrder hmem rfl rfl
  unfold heldModify
  rw [hsession]
  dsimp only
  rw [hwritten, hsame]
  rw [hfinal] at hvalid ⊢
  exact congrArg (fun r : Store × Except Raised TradingOrder => r.1.toDatabase)
    (Session.commitOr_of_valid hvalid s (.ok new))

/-! ## The ledger -/

/-- What the ledger of the PAPER orders is to say. -/
structure Database.PaperLedger (d : Database) : Prop where
  filled : ∀ o ∈ d.orders, o.mode = .paper → o.filledQuantity = d.executedQuantity o.id
  fits : ∀ o ∈ d.orders, o.mode = .paper → o.filledQuantity ≤ o.quantity
  canceled : ∀ o ∈ d.orders, o.mode = .paper → o.status = .canceled → d.executionsOf o.id = []
  held : ∀ key, key.mode = .paper → d.heldQuantity key = d.executedNet key

/-- An order that has its quantity or less, and nothing while it is open or
canceled. -/
structure TradingOrder.PaperBook (o : TradingOrder) : Prop where
  fits : o.filledQuantity ≤ o.quantity
  unfilled : o.status ∈ openOrderStatuses ∨ o.status = .canceled → o.filledQuantity = 0

/-- The books of the paper engine. -/
structure Database.PaperBooks (d : Database) : Prop where
  balanced : d.Balanced
  positive : ∀ e ∈ d.executions, 0 < e.quantity
  orders : ∀ o ∈ d.orders, o.mode = .paper → o.PaperBook

variable {d d' : Database} {new row : TradingOrder}

theorem Database.executedQuantity_pos (hpositive : ∀ e ∈ d.executions, 0 < e.quantity) {id : Uuid}
    (h : d.executionsOf id ≠ []) : 0 < d.executedQuantity id := by
  apply List.sum_pos
  · intro q hq
    obtain ⟨e, he, rfl⟩ := List.mem_map.1 hq
    exact hpositive e (List.mem_filter.1 he).1
  · simpa [Database.executionsOf] using h

theorem Database.executedQuantity_of_nil {id : Uuid} (h : d.executionsOf id = []) :
    d.executedQuantity id = 0 := by
  unfold Database.executedQuantity Rows.total
  unfold Database.executionsOf at h
  rw [h]
  rfl

theorem Database.PaperBooks.ledger (h : d.PaperBooks) (hd : d.Valid) : d.PaperLedger := by
  refine ⟨fun o ho _ => h.balanced.filled o ho, fun o ho hmode => (h.orders o ho hmode).fits, ?_, ?_⟩
  · intro o ho hmode hstatus
    by_contra hne
    have hpos := Database.executedQuantity_pos h.positive hne
    rw [← h.balanced.filled o ho, (h.orders o ho hmode).unfilled (Or.inr hstatus)] at hpos
    exact lt_irrefl _ hpos
  · intro key _
    rw [hd.heldQuantity_eq]
    exact h.balanced.held key

/-- One row is rewritten. -/
theorem Database.PaperBooks.of_replace (h : d.PaperBooks) (hbalanced : d'.Balanced)
    (hpositive : ∀ e ∈ d'.executions, 0 < e.quantity)
    (horders : d'.orders = Rows.replaceBy TradingOrder.id new d.orders)
    (hnew : new.mode = .paper → new.PaperBook) : d'.PaperBooks := by
  refine ⟨hbalanced, hpositive, fun o ho hmode => ?_⟩
  rw [horders] at ho
  rcases Rows.mem_replaceBy ho with rfl | ⟨ho, -⟩
  · exact hnew hmode
  · exact h.orders o ho hmode

/-- A row is rewritten outside its key and its filled quantity. -/
theorem Database.PaperBooks.rewrite (h : d.PaperBooks) (hd : d.Valid) (hrow : row ∈ d.orders)
    (hsame : row.SameBook new) (hnew : new.mode = .paper → new.PaperBook) :
    (d.setOrder new).PaperBooks :=
  h.of_replace (h.balanced.rewrite hd.orderIds hrow hsame) h.positive rfl hnew

theorem Session.fillPaper_positive {s : Session} {o : TradingOrder}
    (h : ∀ e ∈ s.work.executions, 0 < e.quantity) {quantity : ℤ} (hq : 0 < quantity) (now : Time)
    (price : ℚ) : ∀ e ∈ (s.fillPaper now o quantity price).work.executions, 0 < e.quantity := by
  intro e he
  rw [Session.fillPaper_executions] at he
  rcases List.mem_append.1 he with he | he
  · exact h e he
  · obtain rfl := List.mem_singleton.1 he
    exact hq

/-- **Filling** all of an order that nothing is filled of. -/
theorem Session.books_fillPaper {s : Session} {o : TradingOrder} (h : s.work.PaperBooks)
    (hids : (s.work.orders.map TradingOrder.id).Nodup) (ho : o ∈ s.work.orders) (ht : s.Tracked)
    (hfilled : o.filledQuantity = 0) {quantity : ℤ} (hquantity : quantity = o.quantity)
    (hpos : 0 < quantity) (now : Time) (price : ℚ) :
    (s.fillPaper now o quantity price).work.PaperBooks := by
  refine h.of_replace (Session.balanced_fillPaper h.balanced hids ho ht now quantity price)
    (Session.fillPaper_positive h.positive hpos now price) (Session.fillPaper_orders ..) fun _ => ?_
  have hstatus : (o.fill quantity price now).status = .filled := by
    rw [TradingOrder.fill_status_eq_filled]
    omega
  refine ⟨?_, fun hopen => ?_⟩
  · simp [hfilled, hquantity]
  · rw [hstatus] at hopen
    exact absurd hopen (by decide)

theorem books_paperPlace {settings : Settings} {s : Store} (h : s.PaperBooks) (now : Time)
    (userId instrumentId : Uuid) (values : OrderValues) (quote : Option NormalizedQuote) :
    (paperPlace settings now s userId instrumentId values quote).1.PaperBooks := by
  have hbalanced : (paperPlace settings now s userId instrumentId values quote).1.Balanced :=
    balanced_paperPlace h.balanced now userId instrumentId values quote
  rcases paperPlace_cases settings now s userId instrumentId values quote with
    hs | ⟨price, t, -, -, hvalid, hsettled, hs⟩
  · rw [hs]; exact h
  have hone := values.one_le_quantity
  generalize ho : paperOrder s.nextUuid userId instrumentId values now = o at hsettled hvalid
  have hnew : o.PaperBook := by
    subst ho
    exact ⟨by change (0 : ℤ) ≤ values.quantity; omega, fun _ => rfl⟩
  have hmem : o ∈ (s.toDatabase.insertOrder o).orders :=
    List.mem_append_right _ (List.mem_singleton.2 rfl)
  have hplaced : (s.toDatabase.insertOrder o).PaperBooks := by
    refine ⟨h.balanced.insertOrder s.valid (by rw [← ho]; rfl) (by rw [← ho]; rfl), h.positive, ?_⟩
    intro y hy hmode
    rcases List.mem_append.1 hy with hy | hy
    · exact h.orders y hy hmode
    · rw [List.mem_singleton.1 hy]; exact hnew
  rw [hs]
  cases hsettled with
  | rests => exact hplaced
  | canceled => exact hplaced.rewrite hvalid hmem ⟨rfl, rfl, rfl⟩ fun _ =>
      ⟨hnew.fits, fun _ => by rw [← ho]; rfl⟩
  | filled price hpos _ =>
    exact Session.books_fillPaper (s := ⟨_, s.toDatabase.insertOrder o⟩) hplaced hvalid.orderIds hmem
      (Session.tracked_self _) (by rw [← ho]; rfl) rfl hpos now price

/-! ## What a request leaves of the books -/

theorem TradingOrder.CopyOf.mode (h : o.CopyOf row) : row.mode = o.mode := by
  have hkey := h.positionKey
  simp only [TradingOrder.positionKey, PositionKey.mk.injEq] at hkey
  exact hkey.2.2.1

theorem TradingOrder.CopyOf.writeBack (h : o.CopyOf row) (new : TradingOrder) :
    o.CopyOf (o.writeBack new row) := ⟨h.id, h.positionKey, h.side⟩

theorem TradingOrder.Resting.status_ne (h : o.Resting) :
    o.status ≠ .canceled ∧ o.status ≠ .filled := by
  constructor
  · intro heq; exact absurd (heq ▸ h.2) (by decide)
  · intro heq; exact absurd (heq ▸ h.2) (by decide)

section HeldCancel

variable (now : Time)

theorem heldCancel_eq_setOrder (hrest : o.Resting) (hrow : row ∈ s.orders) (hcopy : o.CopyOf row) :
    (heldCancel now s o).toDatabase =
      s.toDatabase.setOrder (o.writeBack (o.canceledAt now) row) := by
  rw [heldCancel_of_resting hrest]
  exact Database.writeOrder_of_some (hcopy.id ▸ s.valid.order?_eq hrow)

theorem canceledRow_status (hrest : o.Resting) :
    (o.writeBack (o.canceledAt now) row).status = .canceled :=
  if_neg fun heq => hrest.status_ne.1 heq.symm

theorem canceledRow_filledQuantity :
    (o.writeBack (o.canceledAt now) row).filledQuantity = row.filledQuantity :=
  writeColumn_unchanged _ _

theorem books_heldCancel (h : s.PaperBooks) (hrest : o.Resting) (hrow : row ∈ s.orders)
    (hcopy : o.CopyOf row) (hunfilled : row.filledQuantity = 0) :
    (heldCancel now s o).PaperBooks := by
  have hbook := h.orders row hrow (hcopy.mode.trans hrest.1)
  rw [heldCancel_eq_setOrder now hrest hrow hcopy]
  refine h.rewrite s.valid hrow ⟨rfl, rfl, canceledRow_filledQuantity now⟩ fun _ => ⟨?_, fun _ => ?_⟩
  · rw [canceledRow_filledQuantity]
    have hquantity : (o.writeBack (o.canceledAt now) row).quantity = row.quantity :=
      writeColumn_unchanged _ _
    rw [hquantity]
    exact hbook.fits
  · rw [canceledRow_filledQuantity]; exact hunfilled

/-- The ledger is right after a cancellation only where nothing was filled. -/
theorem unfilled_of_heldCancel (h : s.PaperBooks) (hrest : o.Resting) (hrow : row ∈ s.orders)
    (hcopy : o.CopyOf row) (hledger : (heldCancel now s o).PaperLedger) : row.filledQuantity = 0 := by
  rw [heldCancel_eq_setOrder now hrest hrow hcopy] at hledger
  have hmem : o.writeBack (o.canceledAt now) row ∈
      (s.toDatabase.setOrder (o.writeBack (o.canceledAt now) row)).orders :=
    Rows.mem_replaceBy_self hrow rfl
  have hnone := hledger.canceled _ hmem (hcopy.mode.trans hrest.1) (canceledRow_status now hrest)
  have hzero : s.executedQuantity row.id = 0 := Database.executedQuantity_of_nil hnone
  rw [h.balanced.filled row hrow, hzero]

end HeldCancel

section HeldModify

variable (settings : Settings) (now : Time) {quantity : ℤ} {limitPrice : ℚ}
  {quote : Option NormalizedQuote}

/-- The row after a modification that fills nothing. -/
theorem requotedRow_quantity : (o.writeBack (o.modified quantity limitPrice) row).quantity =
    if quantity = o.quantity then row.quantity else quantity := rfl

theorem requotedRow_filledQuantity :
    (o.writeBack (o.modified quantity limitPrice) row).filledQuantity = row.filledQuantity :=
  writeColumn_unchanged _ _

theorem heldModify_eq_setOrder (hmay : o.MayModify quantity) (hrow : row ∈ s.orders)
    (hcopy : o.CopyOf row) (hcross : quote.any (isCrossing (o.modified quantity limitPrice)) = false) :
    (heldModify settings now s o quantity limitPrice quote).toDatabase =
      s.toDatabase.setOrder (o.writeBack (o.modified quantity limitPrice) row) := by
  rw [heldModify_rests settings now hmay]
  · exact Database.writeOrder_of_some (hcopy.id ▸ s.valid.order?_eq hrow)
  · rintro q rfl
    simpa using hcross

theorem books_heldModify_rests (h : s.PaperBooks) (hmay : o.MayModify quantity)
    (hrow : row ∈ s.orders) (hcopy : o.CopyOf row)
    (hcross : quote.any (isCrossing (o.modified quantity limitPrice)) = false)
    (hfits : quantity ≠ o.quantity → row.filledQuantity ≤ quantity) :
    (heldModify settings now s o quantity limitPrice quote).PaperBooks := by
  have hbook := h.orders row hrow (hcopy.mode.trans hmay.1.1)
  rw [heldModify_eq_setOrder settings now hmay hrow hcopy hcross]
  refine h.rewrite s.valid hrow ⟨rfl, rfl, requotedRow_filledQuantity⟩ fun _ => ⟨?_, fun hopen => ?_⟩
  · rw [requotedRow_filledQuantity, requotedRow_quantity]
    split
    · exact hbook.fits
    · rename_i hne; exact hfits hne
  · have hstatus : (o.writeBack (o.modified quantity limitPrice) row).status = row.status :=
      writeColumn_unchanged _ _
    rw [hstatus] at hopen
    rw [requotedRow_filledQuantity]
    exact hbook.unfilled hopen

theorem fits_of_heldModify_rests (hmay : o.MayModify quantity)
    (hrow : row ∈ s.orders) (hcopy : o.CopyOf row)
    (hcross : quote.any (isCrossing (o.modified quantity limitPrice)) = false)
    (hledger : (heldModify settings now s o quantity limitPrice quote).PaperLedger) :
    quantity ≠ o.quantity → row.filledQuantity ≤ quantity := by
  intro hne
  rw [heldModify_eq_setOrder settings now hmay hrow hcopy hcross] at hledger
  have hfits := hledger.fits _ (Rows.mem_replaceBy_self hrow rfl) (hcopy.mode.trans hmay.1.1)
  rwa [requotedRow_filledQuantity, requotedRow_quantity, if_neg hne] at hfits

/-- The row after a modification that fills the order. -/
def TradingOrder.refilledRow (o row : TradingOrder) (quantity : ℤ) (limitPrice price : ℚ)
    (now : Time) : TradingOrder :=
  o.writeBack ((o.modified quantity limitPrice).fill quantity price now) row

theorem refilledRow_filledQuantity (hmay : o.MayModify quantity) (hfilled : o.filledQuantity = 0)
    (price : ℚ) :
    (o.refilledRow row quantity limitPrice price now).filledQuantity = quantity := by
  have hle := hmay.2.2
  have hnew : ((o.modified quantity limitPrice).fill quantity price now).filledQuantity =
      quantity := by
    simp [TradingOrder.modified, hfilled]
  change writeColumn o.filledQuantity _ row.filledQuantity = quantity
  rw [hnew, writeColumn, if_neg (by omega)]

theorem refilledRow_quantity (price : ℚ) :
    (o.refilledRow row quantity limitPrice price now).quantity =
      if quantity = o.quantity then row.quantity else quantity := rfl

theorem refilledRow_status (hmay : o.MayModify quantity) (hfilled : o.filledQuantity = 0)
    (price : ℚ) : (o.refilledRow row quantity limitPrice price now).status = .filled := by
  have hnew : ((o.modified quantity limitPrice).fill quantity price now).status = .filled := by
    rw [TradingOrder.fill_status_eq_filled]
    simp [TradingOrder.modified, hfilled]
  change writeColumn o.status _ row.status = .filled
  rw [hnew, writeColumn, if_neg fun heq => hmay.1.status_ne.2 heq.symm]

theorem refilledRow_orders (quantity : ℤ) (limitPrice price : ℚ) :
    ((s.begin.fillPaper now row quantity price).work.setOrder
      (o.refilledRow row quantity limitPrice price now)).orders =
    Rows.replaceBy TradingOrder.id (o.refilledRow row quantity limitPrice price now) s.orders := by
  rw [Database.setOrder, Session.fillPaper_orders, Rows.replaceBy_replaceBy (by rfl)]
  rfl

/-- The fill is booked on top of whatever was filled meanwhile. -/
theorem Session.executedQuantity_fillPaper (session : Session) (o : TradingOrder) (price : ℚ) :
    (session.fillPaper now o quantity price).work.executedQuantity o.id =
      session.work.executedQuantity o.id + quantity := by
  unfold Database.executedQuantity
  rw [Session.fillPaper_executions, Rows.total_append, Rows.total_singleton, if_pos (by simp)]
  rfl

theorem books_heldModify_filled (h : s.PaperBooks) (hmay : o.MayModify quantity)
    (hfilled : o.filledQuantity = 0) {q : NormalizedQuote}
    (hcross : isCrossing (o.modified quantity limitPrice) q) (hrow : row ∈ s.orders)
    (hcopy : o.CopyOf row) (hunfilled : row.filledQuantity = 0)
    (hfits : quantity = o.quantity → quantity ≤ row.quantity) :
    (heldModify settings now s o quantity limitPrice (some q)).PaperBooks := by
  have hpos := hmay.2.2
  have hheld := heldModify_filled settings now hmay hfilled hcross hrow hcopy
  dsimp only at hheld
  rw [hheld]
  generalize fillPrice (o.modified quantity limitPrice) q settings.paperSlippageBps = price
  have hvalid : (s.begin.fillPaper now row quantity price).work.Valid :=
    Session.valid_fillPaper s.valid hrow (fun hnone => hnone) now quantity price
  have hbalanced : (s.begin.fillPaper now row quantity price).work.Balanced :=
    Session.balanced_fillPaper h.balanced s.valid.orderIds hrow (Session.tracked_self _) now
      quantity price
  have hmem : row.fill quantity price now ∈
      (s.begin.fillPaper now row quantity price).work.orders := by
    rw [Session.fillPaper_orders]
    exact Rows.mem_replaceBy_self hrow rfl
  have hbook : (row.fill quantity price now).SameBook
      (o.refilledRow row quantity limitPrice price now) :=
    ⟨rfl, rfl, by simp [refilledRow_filledQuantity now hmay hfilled, hunfilled]⟩
  refine h.of_replace (hbalanced.rewrite hvalid.orderIds hmem hbook)
    (Session.fillPaper_positive h.positive (by omega) now price)
    (refilledRow_orders now quantity limitPrice price) fun _ => ⟨?_, fun hopen => ?_⟩
  · rw [refilledRow_filledQuantity now hmay hfilled, refilledRow_quantity]
    split
    · rename_i heq; exact hfits heq
    · exact le_rfl
  · rw [refilledRow_status now hmay hfilled] at hopen
    exact absurd hopen (by decide)

/-- The ledger is right after a modification that fills the order only where
nothing was filled meanwhile, and the row has room for the fill. -/
theorem unfilled_of_heldModify (h : s.PaperBooks) (hmay : o.MayModify quantity)
    (hfilled : o.filledQuantity = 0) {q : NormalizedQuote}
    (hcross : isCrossing (o.modified quantity limitPrice) q) (hrow : row ∈ s.orders)
    (hcopy : o.CopyOf row)
    (hledger : (heldModify settings now s o quantity limitPrice (some q)).PaperLedger) :
    row.filledQuantity = 0 ∧ (quantity = o.quantity → quantity ≤ row.quantity) := by
  have hheld := heldModify_filled settings now hmay hfilled hcross hrow hcopy
  dsimp only at hheld
  rw [hheld] at hledger
  generalize fillPrice (o.modified quantity limitPrice) q settings.paperSlippageBps = price at hledger
  have hmem : o.refilledRow row quantity limitPrice price now ∈
      ((s.begin.fillPaper now row quantity price).work.setOrder
        (o.refilledRow row quantity limitPrice price now)).orders := by
    apply Rows.mem_replaceBy_self (y := row.fill quantity price now)
    · rw [Session.fillPaper_orders]
      exact Rows.mem_replaceBy_self hrow rfl
    · rfl
  have hmode : (o.refilledRow row quantity limitPrice price now).mode = .paper :=
    hcopy.mode.trans hmay.1.1
  have htotal := hledger.filled _ hmem hmode
  have hexecuted : (s.begin.fillPaper now row quantity price).work.executedQuantity row.id =
      s.executedQuantity row.id + quantity :=
    Session.executedQuantity_fillPaper now s.begin row price
  have hfits := hledger.fits _ hmem hmode
  rw [refilledRow_filledQuantity now hmay hfilled] at htotal hfits
  constructor
  · change quantity =
      (s.begin.fillPaper now row quantity price).work.executedQuantity row.id at htotal
    rw [hexecuted, ← h.balanced.filled row hrow] at htotal
    omega
  · intro heq
    rwa [refilledRow_quantity, if_pos heq] at hfits

end HeldModify

/-! ## What the market worker leaves of the books -/

theorem TradingOrder.CopyOf.refl (o : TradingOrder) : o.CopyOf o := ⟨rfl, rfl, rfl⟩

theorem TradingOrder.CopyOf.trans {a b c : TradingOrder} (h : a.CopyOf b) (h' : b.CopyOf c) :
    a.CopyOf c :=
  ⟨h'.id.trans h.id, h'.positionKey.trans h.positionKey, h'.side.trans h.side⟩

/-- Every row is still there, in the columns no operation writes. -/
def Database.Keeps (d d' : Database) : Prop :=
  ∀ row ∈ d.orders, ∃ row' ∈ d'.orders, row.CopyOf row'

theorem Database.keeps_of_replace (horders : d'.orders = Rows.replaceBy TradingOrder.id new d.orders)
    (hcopy : ∀ row ∈ d.orders, row.id = new.id → row.CopyOf new) : d.Keeps d' := by
  intro row hrow
  rw [horders]
  by_cases hid : row.id = new.id
  · exact ⟨new, Rows.mem_replaceBy_self hrow hid, hcopy row hrow hid⟩
  · exact ⟨row, Rows.mem_replaceBy_of_ne hrow hid, .refl row⟩

theorem Database.Keeps.trans {d1 d2 d3 : Database} (h : d1.Keeps d2) (h' : d2.Keeps d3) :
    d1.Keeps d3 := by
  intro row hrow
  obtain ⟨row', hrow', hcopy⟩ := h row hrow
  obtain ⟨row'', hrow'', hcopy'⟩ := h' row' hrow'
  exact ⟨row'', hrow'', hcopy.trans hcopy'⟩

/-- What `process_quote` keeps while it fills `orders`. -/
structure Session.Filling (s : Store) (orders : List TradingOrder) (session : Session) : Prop where
  books : session.work.PaperBooks
  ids : (session.work.orders.map TradingOrder.id).Nodup
  tracked : session.Tracked
  keeps : s.toDatabase.Keeps session.work
  others : ∀ row ∈ s.orders, row.id ∉ orders.map TradingOrder.id → row ∈ session.work.orders

theorem Session.Filling.step {settings : Settings} {now : Time} {quote : NormalizedQuote}
    {orders : List TradingOrder} {session session' : Session} (h : session.Filling s orders)
    (ho : o ∈ orders) (hfill : session.CrossFill settings now quote o session') :
    session'.Filling s orders := by
  have hleft := hfill.left
  have hunfilled := (h.books.orders o hfill.mem hfill.resting.1).unfilled (Or.inl hfill.resting.2)
  have hfull : o.quantity - o.filledQuantity = o.quantity := by omega
  obtain rfl := hfill.eq
  generalize fillPrice o quote settings.paperSlippageBps = price
  refine ⟨?_, ?_, ?_, ?_, ?_⟩
  · exact Session.books_fillPaper h.books h.ids hfill.mem h.tracked hunfilled hfull hleft now price
  · rw [Session.fillPaper_orders, Rows.map_key_replaceBy]
    exact h.ids
  · exact Session.bookExecution_tracked h.tracked
  · refine h.keeps.trans (Database.keeps_of_replace (Session.fillPaper_orders ..) ?_)
    intro row hrow hid
    rw [List.inj_on_of_nodup_map h.ids hrow hfill.mem hid]
    exact ⟨rfl, rfl, rfl⟩
  · intro row hrow hnot
    rw [Session.fillPaper_orders]
    refine Rows.mem_replaceBy_of_ne (h.others row hrow hnot) fun hid => hnot ?_
    exact List.mem_map.2 ⟨o, ho, hid.symm⟩

/-- **The commit of the market worker.** -/
theorem fillSelected_filling (settings : Settings) (now : Time) (h : s.PaperBooks) {f : QuoteFill}
    (hnd : (f.orders.map TradingOrder.id).Nodup)
    (hmem : ∀ o ∈ f.orders, o ∈ s.orders ∧ o.Resting) :
    ∃ session : Session, session.Filling s f.orders ∧
      (fillSelected settings now s f).toDatabase = session.work := by
  have hbegin : s.begin.Filling s f.orders :=
    ⟨h, s.valid.orderIds, Session.tracked_self _, fun row hrow => ⟨row, hrow, .refl row⟩,
      fun row hrow _ => hrow⟩
  unfold fillSelected
  cases hloop : fillCrossed settings now f.quote s.begin f.orders with
  | error e => exact ⟨s.begin, hbegin, rfl⟩
  | ok r =>
    obtain ⟨session, filled⟩ := r
    obtain ⟨fs, hfs, hrun⟩ := fillCrossed_run s.valid le_rfl hnd hmem hloop
    have hend : session.Filling s f.orders :=
      (hrun.guarded_of_forall hfs).invariant hbegin fun _ _ _ hfilling ⟨ho, hfill⟩ =>
        hfilling.step ho hfill
    dsimp only
    split
    · rcases Session.commitOr_fst session s (.ok filled) with hs | ⟨hs, -⟩
      · rw [hs]; exact ⟨s.begin, hbegin, rfl⟩
      · exact ⟨session, hend, hs.symm⟩
    · exact ⟨s.begin, hbegin, rfl⟩

/-! ## Steps -/

/-- The commit of a request finds what the request had read: nothing filled
meanwhile, and room for what the request fills itself. -/
def Undisturbed (desk : PaperDesk) : PaperDeskEvent → Prop
  | .cancel _ index => ∀ o, desk.requests[index]? = some o → ¬ desk.Locked o.id → o.Resting →
      ∀ row, desk.store.order? o.id = some row → row.filledQuantity = 0
  | .modify _ index quantity limitPrice quote => ∀ o, desk.requests[index]? = some o →
      ¬ desk.Locked o.id → o.MayModify quantity →
      ∀ row, desk.store.order? o.id = some row →
        if quote.any (isCrossing (o.modified quantity limitPrice)) then
          row.filledQuantity = 0 ∧ (quantity = o.quantity → quantity ≤ row.quantity)
        else quantity ≠ o.quantity → row.filledQuantity ≤ quantity
  | _ => True

/-- What is known of an order a request holds: it was read from a PAPER row. -/
structure TradingOrder.HeldBy (o : TradingOrder) (d : Database) : Prop where
  mode : o.mode = .paper
  unfilled : o.status ∈ openOrderStatuses → o.filledQuantity = 0
  row : ∃ row ∈ d.orders, o.CopyOf row

/-- The rows the market worker has locked. -/
def lockedOrders (fills : List QuoteFill) : List TradingOrder := fills.flatMap QuoteFill.orders

/-- The books are right, and the open transactions hold what they read. -/
structure PaperDesk.Sound (desk : PaperDesk) : Prop where
  books : desk.store.PaperBooks
  requests : ∀ o ∈ desk.requests, o.HeldBy desk.store.toDatabase
  locks : ((lockedOrders desk.fills).map TradingOrder.id).Nodup
  rows : ∀ o ∈ lockedOrders desk.fills, o ∈ desk.store.orders ∧ o.Resting

variable {desk : PaperDesk} {settings : Settings}

theorem PaperDesk.locked_iff {id : Uuid} :
    desk.Locked id ↔ id ∈ (lockedOrders desk.fills).map TradingOrder.id := by
  simp only [PaperDesk.Locked, lockedOrders, List.mem_map, List.mem_flatMap]
  constructor
  · rintro ⟨f, hf, o, ho, hid⟩; exact ⟨o, ⟨f, hf, ho⟩, hid⟩
  · rintro ⟨o, ⟨f, hf, ho⟩, hid⟩; exact ⟨f, hf, o, ho, hid⟩

theorem lockedOrders_sublist {fills fills' : List QuoteFill} (h : fills'.Sublist fills) :
    (lockedOrders fills').Sublist (lockedOrders fills) := by
  induction h with
  | slnil => exact .slnil
  | cons f _ ih =>
    simp only [lockedOrders, List.flatMap_cons] at ih ⊢
    exact ih.trans (List.sublist_append_right ..)
  | cons_cons f _ ih =>
    simp only [lockedOrders, List.flatMap_cons] at ih ⊢
    exact (List.Sublist.refl _).append ih

/-- A commit that keeps the rows and leaves the locked ones alone. -/
theorem PaperDesk.Sound.commit (h : desk.Sound) {t : Store} (hbooks : t.PaperBooks)
    (hkeeps : desk.store.toDatabase.Keeps t.toDatabase) {requests : List TradingOrder}
    (hrequests : ∀ o ∈ requests, o ∈ desk.requests) {fills : List QuoteFill}
    (hfills : fills.Sublist desk.fills)
    (hrows : ∀ o ∈ lockedOrders fills, o ∈ desk.store.orders → o ∈ t.orders) :
    PaperDesk.Sound ⟨t, requests, fills⟩ := by
  have hsub := lockedOrders_sublist hfills
  refine ⟨hbooks, fun o ho => ?_, h.locks.sublist (hsub.map _), fun o ho => ?_⟩
  · obtain ⟨hmode, hunfilled, row, hrow, hcopy⟩ := h.requests o (hrequests o ho)
    obtain ⟨row', hrow', hcopy'⟩ := hkeeps row hrow
    exact ⟨hmode, hunfilled, row', hrow', hcopy.trans hcopy'⟩
  · obtain ⟨hmem, hrest⟩ := h.rows o (hsub.subset ho)
    exact ⟨hrows o ho hmem, hrest⟩

/-- A commit of a request writes one row, which nobody has locked. -/
theorem PaperDesk.Sound.write (h : desk.Sound) {t : Store} (hbooks : t.PaperBooks)
    (hrow : row ∈ desk.store.orders) (new : TradingOrder) (hcopy : row.CopyOf new)
    (horders : t.orders = Rows.replaceBy TradingOrder.id new desk.store.orders)
    (hfree : ¬ desk.Locked row.id) (index : ℕ) :
    PaperDesk.Sound ⟨t, desk.requests.eraseIdx index, desk.fills⟩ := by
  refine h.commit hbooks (Database.keeps_of_replace horders ?_)
    (fun o ho => List.mem_of_mem_eraseIdx ho) (.refl _) ?_
  · intro y hy hid
    rw [desk.store.valid.eq_of_id hy hrow (hid.trans hcopy.id)]
    exact hcopy
  · intro o ho hmem
    rw [horders]
    refine Rows.mem_replaceBy_of_ne hmem fun hid => hfree ?_
    rw [PaperDesk.locked_iff, ← hcopy.id, ← hid]
    exact List.mem_map_of_mem ho

theorem PaperDesk.Sound.drop (h : desk.Sound) {requests : List TradingOrder}
    (hrequests : ∀ o ∈ requests, o ∈ desk.requests) {fills : List QuoteFill}
    (hfills : fills.Sublist desk.fills) : PaperDesk.Sound ⟨desk.store, requests, fills⟩ :=
  h.commit h.books (fun row hrow => ⟨row, hrow, .refl row⟩) hrequests hfills fun _ _ hmem => hmem

theorem PaperDesk.Sound.held (h : desk.Sound) {index : ℕ} (ho : desk.requests[index]? = some o) :
    ∃ row ∈ desk.store.orders, o.CopyOf row ∧ desk.store.order? o.id = some row ∧
      o.mode = .paper ∧ (o.status ∈ openOrderStatuses → o.filledQuantity = 0) := by
  obtain ⟨hmode, hunfilled, row, hrow, hcopy⟩ := h.requests o (List.mem_of_getElem? ho)
  exact ⟨row, hrow, hcopy, hcopy.id ▸ desk.store.valid.order?_eq hrow, hmode, hunfilled⟩

theorem paperPlace_mem {s : Store} (now : Time) (userId instrumentId : Uuid) (values : OrderValues)
    (quote : Option NormalizedQuote) (ho : o ∈ s.orders) :
    o ∈ (paperPlace settings now s userId instrumentId values quote).1.orders := by
  rcases paperPlace_cases settings now s userId instrumentId values quote with
    hs | ⟨price, t, -, -, hvalid, hsettled, hs⟩
  · rw [hs]; exact ho
  rw [hs]
  have hold : o ∈ (s.toDatabase.insertOrder
      (paperOrder s.nextUuid userId instrumentId values now)).orders := List.mem_append_left _ ho
  have hne : o.id ≠ s.nextUuid := (s.valid.orderUuids o ho).ne
  cases hsettled with
  | rests => exact hold
  | canceled => exact Rows.mem_replaceBy_of_ne hold hne
  | filled price _ _ =>
    rw [Session.fillPaper_orders]
    exact Rows.mem_replaceBy_of_ne hold hne

theorem PaperDesk.Sound.cancel (h : desk.Sound) (now : Time) {index : ℕ}
    (ho : desk.requests[index]? = some o) (hfree : ¬ desk.Locked o.id) :
    (o.Resting → ∀ row, desk.store.order? o.id = some row → row.filledQuantity = 0) →
      PaperDesk.Sound ⟨heldCancel now desk.store o, desk.requests.eraseIdx index, desk.fills⟩ := by
  intro hok
  by_cases hrest : o.Resting
  · obtain ⟨row, hrow, hcopy, hfind, -⟩ := h.held ho
    refine h.write (books_heldCancel now h.books hrest hrow hcopy (hok hrest row hfind)) hrow
      (o.writeBack (o.canceledAt now) row) ⟨rfl, rfl, rfl⟩ ?_ (hcopy.id ▸ hfree) index
    exact congrArg Database.orders (heldCancel_eq_setOrder now hrest hrow hcopy)
  · rw [heldCancel_of_not hrest]
    exact h.drop (fun o' ho' => List.mem_of_mem_eraseIdx ho') (.refl _)

theorem PaperDesk.Sound.modify (h : desk.Sound) (now : Time) {index : ℕ} {quantity : ℤ}
    {limitPrice : ℚ} {quote : Option NormalizedQuote} (ho : desk.requests[index]? = some o)
    (hfree : ¬ desk.Locked o.id)
    (hok : o.MayModify quantity → ∀ row, desk.store.order? o.id = some row →
      if quote.any (isCrossing (o.modified quantity limitPrice)) then
        row.filledQuantity = 0 ∧ (quantity = o.quantity → quantity ≤ row.quantity)
      else quantity ≠ o.quantity → row.filledQuantity ≤ quantity) :
    PaperDesk.Sound ⟨heldModify settings now desk.store o quantity limitPrice quote,
      desk.requests.eraseIdx index, desk.fills⟩ := by
  by_cases hmay : o.MayModify quantity
  · obtain ⟨row, hrow, hcopy, hfind, -, hunfilled⟩ := h.held ho
    have hroom := hok hmay row hfind
    cases hcross : quote.any (isCrossing (o.modified quantity limitPrice)) with
    | true =>
      rw [if_pos hcross] at hroom
      obtain ⟨q, rfl, hq⟩ := (Option.any_eq_true _ _).1 hcross
      have hfilled := hunfilled hmay.1.2
      refine h.write (books_heldModify_filled settings now h.books hmay hfilled hq hrow hcopy hroom.1
        hroom.2) hrow (o.refilledRow row quantity limitPrice
          (fillPrice (o.modified quantity limitPrice) q settings.paperSlippageBps) now)
        ⟨rfl, rfl, rfl⟩ ?_ (hcopy.id ▸ hfree) index
      have hheld := heldModify_filled settings now hmay hfilled hq hrow hcopy
      exact (congrArg Database.orders hheld).trans (refilledRow_orders now quantity limitPrice _)
    | false =>
      rw [if_neg (by simp [hcross])] at hroom
      refine h.write (books_heldModify_rests settings now h.books hmay hrow hcopy hcross hroom) hrow
        (o.writeBack (o.modified quantity limitPrice) row) ⟨rfl, rfl, rfl⟩ ?_
        (hcopy.id ▸ hfree) index
      exact congrArg Database.orders (heldModify_eq_setOrder settings now hmay hrow hcopy hcross)
  · rw [heldModify_of_not settings now hmay]
    exact h.drop (fun o' ho' => List.mem_of_mem_eraseIdx ho') (.refl _)

theorem PaperDesk.Sound.select (h : desk.Sound) (userId : Uuid) (quote : NormalizedQuote)
    (hfree : ¬ ∃ o ∈ restingOrders desk.store.toDatabase userId quote.instrumentId,
      desk.Locked o.id) :
    PaperDesk.Sound { desk with fills := desk.fills ++
      [⟨quote, restingOrders desk.store.toDatabase userId quote.instrumentId⟩] } := by
  have hlocked : lockedOrders (desk.fills ++
      [⟨quote, restingOrders desk.store.toDatabase userId quote.instrumentId⟩]) =
      lockedOrders desk.fills ++
        restingOrders desk.store.toDatabase userId quote.instrumentId := by
    simp [lockedOrders]
  refine ⟨h.books, h.requests, ?_, ?_⟩
  · rw [hlocked, List.map_append]
    refine h.locks.append (restingOrders_nodup desk.store.valid _ _) fun id hold hnew => hfree ?_
    obtain ⟨o, ho, rfl⟩ := List.mem_map.1 hnew
    exact ⟨o, ho, PaperDesk.locked_iff.2 hold⟩
  · intro o ho
    rw [hlocked] at ho
    rcases List.mem_append.1 ho with ho | ho
    · exact h.rows o ho
    · exact restingOrders_resting ho

theorem PaperDesk.Sound.fill (h : desk.Sound) (now : Time) {index : ℕ} {f : QuoteFill}
    (hf : desk.fills[index]? = some f) :
    PaperDesk.Sound ⟨fillSelected settings now desk.store f, desk.requests,
      desk.fills.eraseIdx index⟩ := by
  have hmem : f ∈ desk.fills := List.mem_of_getElem? hf
  obtain ⟨hindex, hget⟩ := List.getElem?_eq_some_iff.1 hf
  have hsplit : (lockedOrders desk.fills).Perm
      (f.orders ++ lockedOrders (desk.fills.eraseIdx index)) := by
    have hperm := (List.getElem_cons_eraseIdx_perm hindex).symm
    rw [hget] at hperm
    simpa [lockedOrders] using hperm.flatMap_right QuoteFill.orders
  have hnd : (f.orders.map TradingOrder.id ++
      (lockedOrders (desk.fills.eraseIdx index)).map TradingOrder.id).Nodup := by
    rw [← List.map_append]
    exact (hsplit.map TradingOrder.id).nodup_iff.1 h.locks
  obtain ⟨hndf, -, hdisjoint⟩ := List.nodup_append'.1 hnd
  obtain ⟨session, hfilling, hs⟩ := fillSelected_filling settings now h.books hndf fun o ho =>
    h.rows o (List.mem_flatMap.2 ⟨f, hmem, ho⟩)
  refine h.commit (hs ▸ hfilling.books) (hs ▸ hfilling.keeps) (fun o ho => ho)
    (List.eraseIdx_sublist ..) fun o ho hrow => ?_
  rw [hs]
  exact hfilling.others o hrow fun hin => hdisjoint hin (List.mem_map_of_mem ho)

/-- **A step** that disturbs nothing keeps the books. -/
theorem sound_paperDeskStep (h : desk.Sound) {e : PaperDeskEvent} (hok : Undisturbed desk e) :
    (paperDeskStep settings desk e).Sound := by
  cases e with
  | place now userId instrumentId values quote =>
    exact h.commit (books_paperPlace h.books now userId instrumentId values quote)
      (fun row hrow => ⟨row, paperPlace_mem now userId instrumentId values quote hrow, .refl row⟩)
      (fun o ho => ho) (.refl _) fun o _ ho => paperPlace_mem now userId instrumentId values quote ho
  | load orderId =>
    rw [paperDeskStep]
    split
    · rename_i o ho
      split
      · rename_i hmode
        obtain ⟨hmem, -⟩ := Database.order?_mem ho
        refine ⟨h.books, fun o' ho' => ?_, h.locks, h.rows⟩
        rcases List.mem_append.1 ho' with ho' | ho'
        · exact h.requests o' ho'
        · obtain rfl := List.mem_singleton.1 ho'
          exact ⟨hmode, fun hopen => (h.books.orders o' hmem hmode).unfilled (Or.inl hopen),
            o', hmem, .refl o'⟩
      · exact h
    · exact h
  | cancel now index =>
    rw [paperDeskStep]
    split
    · rename_i o ho
      split
      · exact h
      · rename_i hfree
        exact h.cancel now ho hfree (hok o ho hfree)
    · exact h
  | modify now index quantity limitPrice quote =>
    rw [paperDeskStep]
    split
    · rename_i o ho
      split
      · exact h
      · rename_i hfree
        exact h.modify now ho hfree (hok o ho hfree)
    · exact h
  | select userId quote =>
    rw [paperDeskStep]
    split
    · exact h
    · rename_i hfree
      exact h.select userId quote hfree
  | fill now index =>
    rw [paperDeskStep]
    split
    · rename_i f hf; exact h.fill now hf
    · exact h
  | dropRequest index => exact h.drop (fun o ho => List.mem_of_mem_eraseIdx ho) (.refl _)
  | dropFill index => exact h.drop (fun o ho => ho) (List.eraseIdx_sublist ..)

/-- **A step** that leaves the ledger right disturbed nothing. -/
theorem undisturbed_of_ledger (h : desk.Sound) {e : PaperDeskEvent}
    (hledger : (paperDeskStep settings desk e).store.PaperLedger) : Undisturbed desk e := by
  cases e with
  | cancel now index =>
    intro o ho hfree hrest row hfind
    obtain ⟨row', hrow, hcopy, hfind', -⟩ := h.held ho
    obtain rfl := Option.some_inj.1 (hfind.symm.trans hfind')
    simp only [paperDeskStep, ho, if_neg hfree] at hledger
    exact unfilled_of_heldCancel now h.books hrest hrow hcopy hledger
  | modify now index quantity limitPrice quote =>
    intro o ho hfree hmay row hfind
    obtain ⟨row', hrow, hcopy, hfind', -, hunfilled⟩ := h.held ho
    obtain rfl := Option.some_inj.1 (hfind.symm.trans hfind')
    simp only [paperDeskStep, ho, if_neg hfree] at hledger
    cases hcross : quote.any (isCrossing (o.modified quantity limitPrice)) with
    | true =>
      obtain ⟨q, rfl, hq⟩ := (Option.any_eq_true _ _).1 hcross
      exact unfilled_of_heldModify settings now h.books hmay (hunfilled hmay.1.2) hq hrow hcopy
        hledger
    | false => exact fits_of_heldModify_rests settings now hmay hrow hcopy hcross hledger
  | place => trivial
  | load => trivial
  | select => trivial
  | fill => trivial
  | dropRequest => trivial
  | dropFill => trivial

/-! ## Runs -/

/-- **Runs.**  From right books on, the ledger is right in every committed state
of a run exactly when every request that commits finds what it had read. -/
theorem paper_ledger_iff (settings : Settings) {s : Store} (h : s.PaperBooks)
    (events : List PaperDeskEvent) :
    (∀ before after, events = before ++ after →
      (before.foldl (paperDeskStep settings) ⟨s, [], []⟩).store.PaperLedger) ↔
    Run (Guarded Undisturbed (Steps (paperDeskStep settings))) ⟨s, [], []⟩ events
      (events.foldl (paperDeskStep settings) ⟨s, [], []⟩) := by
  have hstart : PaperDesk.Sound ⟨s, [], []⟩ := ⟨h, by simp, by simp [lockedOrders],
    by simp [lockedOrders]⟩
  exact guarded_run_invariant_iff (P := fun desk : PaperDesk => desk.store.PaperLedger) hstart
    (fun desk hdesk => hdesk.books.ledger desk.store.valid)
    (fun _ _ hdesk hok => sound_paperDeskStep hdesk hok)
    (fun _ _ hdesk hledger => undisturbed_of_ledger hdesk hledger)

theorem Store.books_empty : Store.empty.PaperBooks :=
  ⟨⟨by simp [Store.empty], fun _ => rfl⟩, by simp [Store.empty], by simp [Store.empty]⟩

/-- A limit order that rests, a request that has read it, and the quote that
fills it before the request cancels it. -/
def canceledLate : List PaperDeskEvent := [
  .place 0 7 3 tenAtHundred
    (some { instrumentId := 3, receivedAt := 0, ltp := 105 }),
  .load 0,
  .select 7 { instrumentId := 3, receivedAt := 1, ltp := 99 },
  .fill 2 0,
  .cancel 3 0]

theorem paper_ledger_iff_canceledLate : Store.empty.PaperBooks ∧
    ((∀ before after, canceledLate = before ++ after →
      (before.foldl (paperDeskStep paperSettings) ⟨Store.empty, [], []⟩).store.PaperLedger) ↔
    Run (Guarded Undisturbed (Steps (paperDeskStep paperSettings))) ⟨Store.empty, [], []⟩
      canceledLate (canceledLate.foldl (paperDeskStep paperSettings) ⟨Store.empty, [], []⟩)) :=
  ⟨Store.books_empty, paper_ledger_iff paperSettings Store.books_empty canceledLate⟩

/-- **A canceled order has an execution.**  The cancellation writes the status
over the fill it has not seen. -/
theorem paper_ledger_overtaken :
    ¬ ∀ (settings : Settings) (events : List PaperDeskEvent),
      (events.foldl (paperDeskStep settings) ⟨Store.empty, [], []⟩).store.PaperLedger := by
  intro h
  have hledger := h paperSettings canceledLate
  have horders : ((canceledLate.foldl (paperDeskStep paperSettings)
      ⟨Store.empty, [], []⟩).store.orders.map fun o => (o.id, o.mode, o.status)) =
      [(0, .paper, .canceled)] := by
    decide +kernel
  have hexecutions : ((canceledLate.foldl (paperDeskStep paperSettings)
      ⟨Store.empty, [], []⟩).store.toDatabase.executionsOf 0).length = 1 := by
    decide +kernel
  obtain ⟨o, ho, hvalues⟩ := List.mem_map.1 (horders ▸ List.mem_singleton.2 rfl)
  simp only [Prod.mk.injEq] at hvalues
  obtain ⟨hid, hmode, hstatus⟩ := hvalues
  have hnone := hledger.canceled o ho hmode hstatus
  rw [hid] at hnone
  rw [hnone] at hexecutions
  cases hexecutions

end GnkAlgo
