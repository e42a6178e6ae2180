import GnkAlgo.Trading.Execution
import GnkAlgo.Lib.AverageCost
import GnkAlgo.Lib.Runs

/-!
# The ledger

The executions are the source of truth; the filled quantity of an order and the
quantity of a position are totals of them.

* `Balanced` — the two totals agree; `Session.balanced_bookExecution` is the
  step every operation uses.
* `applyCommitted` — one `apply_execution` call in a transaction of its own.
-/

namespace GnkAlgo

/-- The quantity of an execution with the sign of its side. -/
def TradeExecution.signedQuantity (e : TradeExecution) : ℤ := e.side.signed e.quantity

/-! ## Totals -/

namespace Database

/-- The key an execution is booked under: that of its order. -/
def keyOf (d : Database) (e : TradeExecution) : Option PositionKey :=
  (d.order? e.orderId).map TradingOrder.positionKey

/-- The sum of the execution quantities of an order. -/
def executedQuantity (d : Database) (id : Uuid) : ℤ :=
  Rows.total (fun e => e.orderId = id) TradeExecution.quantity d.executions

/-- The sum of the signed execution quantities under a key. -/
def executedNet (d : Database) (key : PositionKey) : ℤ :=
  Rows.total (fun e => d.keyOf e = some key) TradeExecution.signedQuantity d.executions

/-- The sum of the quantities of the position rows with a key: one row's, once
the rows are committed. -/
def positionTotal (d : Database) (key : PositionKey) : ℤ :=
  Rows.total (fun p => p.positionKey = key) TradingPosition.quantity d.positions

theorem Valid.heldQuantity_eq {d : Database} (hd : d.Valid) (key : PositionKey) :
    d.heldQuantity key = d.positionTotal key :=
  (Rows.total_of_nodup hd.positionKeys key).symm

theorem keyOf_setOrder {d : Database} {o : TradingOrder}
    (h : ∀ y ∈ d.orders, y.id = o.id → y.positionKey = o.positionKey) (e : TradeExecution) :
    (d.setOrder o).keyOf e = d.keyOf e :=
  (Rows.find?_map_replaceBy (fun y hy hid => (h y hy hid)) e.orderId)

/-- A new order does not change the key of the executions there are. -/
theorem Valid.keyOf_addOrder {d : Database} (hd : d.Valid) (o : TradingOrder) {e : TradeExecution}
    (he : e ∈ d.executions) : (d.addOrder o).keyOf e = d.keyOf e := by
  obtain ⟨y, hy, hid⟩ := List.mem_map.1 (hd.executionOrders e he)
  have hfind : d.order? e.orderId = some y := hid ▸ hd.order?_eq hy
  unfold keyOf order? addOrder at *
  rw [List.find?_append, hfind]
  rfl

/-- The filled quantities and the positions are the totals of the executions. -/
structure Balanced (d : Database) : Prop where
  filled : ∀ o ∈ d.orders, o.filledQuantity = d.executedQuantity o.id
  held : ∀ key, d.positionTotal key = d.executedNet key

/-- Rewriting an order outside its key and its filled quantity. -/
theorem Balanced.setOrder {d : Database} (h : d.Balanced) {o : TradingOrder}
    (hrow : ∀ y ∈ d.orders, y.id = o.id →
      y.positionKey = o.positionKey ∧ y.filledQuantity = o.filledQuantity) :
    (d.setOrder o).Balanced := by
  refine ⟨fun y hy => ?_, fun key => ?_⟩
  · rcases Rows.mem_replaceBy hy with rfl | ⟨hy, -⟩
    · obtain ⟨z, hz, hid⟩ := List.mem_map.1 hy
      by_cases hk : z.id = y.id
      · rw [← (hrow z hz hk).2, h.filled z hz, hk]; rfl
      · rw [if_neg hk] at hid; exact absurd (by rw [hid]) hk
    · exact h.filled y hy
  · rw [show (d.setOrder o).positionTotal key = d.positionTotal key from rfl, h.held key]
    refine (Rows.total_congr fun e _ => ?_)
    rw [keyOf_setOrder fun y hy hid => (hrow y hy hid).1]

/-- Adding an order that nothing is filled of yet. -/
theorem Balanced.addOrder {d : Database} (h : d.Balanced) (hd : d.Valid) {o : TradingOrder}
    (hid : o.id ∉ d.orders.map TradingOrder.id) (hfilled : o.filledQuantity = 0) :
    (d.addOrder o).Balanced := by
  refine ⟨fun y hy => ?_, fun key => ?_⟩
  · rcases List.mem_append.1 hy with hy | hy
    · exact h.filled y hy
    · obtain rfl := List.mem_singleton.1 hy
      rw [hfilled]
      refine (Rows.total_eq_zero fun e he => ?_).symm
      have : e.orderId ≠ y.id := fun heq => hid (heq ▸ hd.executionOrders e he)
      simp [this]
  · rw [show (d.addOrder o).positionTotal key = d.positionTotal key from rfl, h.held key]
    exact Rows.total_congr fun e he => by rw [hd.keyOf_addOrder o he]

end Database

/-! ## Booking keeps the ledger balanced -/

theorem TradingPosition.book_of_open {p : TradingPosition} {side : OrderSide} {quantity : ℤ}
    (price : ℚ) (hopen : p.quantity = 0 ∨ 0 < p.quantity * side.signed quantity) :
    p.book side quantity price =
      { p with
        averagePrice := (p.averagePrice * |p.quantity| + price * |side.signed quantity|) /
          |p.quantity + side.signed quantity|
        quantity := p.quantity + side.signed quantity
        lastPrice := some price } := by
  unfold TradingPosition.book
  rw [if_pos hopen]

theorem TradingPosition.book_of_close {p : TradingPosition} {side : OrderSide} {quantity : ℤ}
    (price : ℚ) (hclose : ¬ (p.quantity = 0 ∨ 0 < p.quantity * side.signed quantity)) :
    p.book side quantity price =
      { p with
        realizedPnl := p.realizedPnl +
          min |p.quantity| |side.signed quantity| * (price - p.averagePrice) *
            (if 0 < p.quantity then 1 else -1)
        averagePrice := if p.quantity + side.signed quantity = 0 then 0
          else if p.quantity * (p.quantity + side.signed quantity) < 0 then price
          else p.averagePrice
        quantity := p.quantity + side.signed quantity
        lastPrice := some price } := by
  unfold TradingPosition.book
  rw [if_neg hclose]
  push_cast
  rfl

@[simp] theorem TradingPosition.book_quantity (p : TradingPosition) (side : OrderSide)
    (quantity : ℤ) (price : ℚ) :
    (p.book side quantity price).quantity = p.quantity + side.signed quantity := by
  unfold TradingPosition.book; dsimp only; split <;> rfl

@[simp] theorem TradingPosition.book_positionKey (p : TradingPosition) (side : OrderSide)
    (quantity : ℤ) (price : ℚ) : (p.book side quantity price).positionKey = p.positionKey := by
  unfold TradingPosition.book; dsimp only; split <;> rfl

@[simp] theorem TradingPosition.book_lastPrice (p : TradingPosition) (side : OrderSide)
    (quantity : ℤ) (price : ℚ) : (p.book side quantity price).lastPrice = some price := by
  unfold TradingPosition.book; dsimp only; split <;> rfl

@[simp] theorem TradingPosition.flat_positionKey (key : PositionKey) :
    (TradingPosition.flat key).positionKey = key := rfl

namespace TradingOrder

variable (o : TradingOrder) (quantity : ℤ) (price : ℚ) (at' : Time)

@[simp] theorem fill_id : (o.fill quantity price at').id = o.id := rfl

@[simp] theorem fill_positionKey : (o.fill quantity price at').positionKey = o.positionKey := rfl

@[simp] theorem fill_clientKey : (o.fill quantity price at').clientKey = o.clientKey := rfl

@[simp] theorem fill_quantity : (o.fill quantity price at').quantity = o.quantity := rfl

@[simp] theorem fill_filledQuantity :
    (o.fill quantity price at').filledQuantity = o.filledQuantity + quantity := rfl

@[simp] theorem execution_orderId (source : ExecutionSource) (id : Option BrokerExecutionId) :
    (o.execution quantity price source id at').orderId = o.id := rfl

@[simp] theorem execution_signedQuantity (source : ExecutionSource)
    (id : Option BrokerExecutionId) :
    (o.execution quantity price source id at').signedQuantity = o.side.signed quantity := rfl

theorem fill_status_eq_filled :
    (o.fill quantity price at').status = .filled ↔ o.filledQuantity + quantity = o.quantity := by
  unfold fill; dsimp only; split <;> simp_all

end TradingOrder

namespace Session

/-- The rows a query finds are in memory too. -/
def Tracked (s : Session) : Prop :=
  ∀ key, (s.stored.position? key).isSome → (s.work.position? key).isSome

theorem tracked_self (d : Database) : Tracked ⟨d, d⟩ := fun _ h => h

section BookPosition

variable {s : Session} {o : TradingOrder} {quantity : ℤ} {price : ℚ}

@[simp] theorem bookPosition_stored : (s.bookPosition o quantity price).stored = s.stored := by
  unfold bookPosition; split <;> rfl

@[simp] theorem bookPosition_orders :
    (s.bookPosition o quantity price).work.orders = s.work.orders := by
  unfold bookPosition; split <;> rfl

@[simp] theorem bookPosition_executions :
    (s.bookPosition o quantity price).work.executions = s.work.executions := by
  unfold bookPosition; split <;> rfl

@[simp] theorem bookPosition_nextUuid :
    (s.bookPosition o quantity price).work.nextUuid = s.work.nextUuid := by
  unfold bookPosition; split <;> rfl

@[simp] theorem bookPosition_controls :
    (s.bookPosition o quantity price).work.controls = s.work.controls := by
  unfold bookPosition; split <;> rfl

@[simp] theorem bookPosition_connections :
    (s.bookPosition o quantity price).work.connections = s.work.connections := by
  unfold bookPosition; split <;> rfl

@[simp] theorem bookPosition_keyOf (e : TradeExecution) :
    (s.bookPosition o quantity price).work.keyOf e = s.work.keyOf e := by
  rw [Database.keyOf, Database.order?, bookPosition_orders]; rfl

theorem bookPosition_tracked (h : s.Tracked) : (s.bookPosition o quantity price).Tracked := by
  intro key hkey
  rw [bookPosition_stored] at hkey
  have := h key hkey
  unfold bookPosition
  split
  · -- the rows keep their keys
    rw [Database.position?, List.find?_isSome] at this ⊢
    obtain ⟨p, hp, hpk⟩ := this
    have hmem : p.positionKey ∈ (s.work.updatePosition o.positionKey
        (·.book o.side quantity price)).positions.map TradingPosition.positionKey := by
      rw [Database.updatePosition, Rows.map_updateFirst fun x _ => by simp]
      exact List.mem_map_of_mem hp
    obtain ⟨q, hq, hqk⟩ := List.mem_map.1 hmem
    exact ⟨q, hq, by rw [hqk]; exact hpk⟩
  · rw [Database.position?, Database.addPosition, List.find?_append, Option.isSome_or]
    exact Bool.or_eq_true_iff.2 (Or.inl this)

theorem position?_bookPosition_of_ne {key : PositionKey} (h : key ≠ o.positionKey) :
    (s.bookPosition o quantity price).work.position? key = s.work.position? key := by
  unfold bookPosition
  split
  · refine Rows.find?_updateFirst_of_disjoint fun p hp => ?_
    have hp : p.positionKey = o.positionKey := by simpa using hp
    simp [hp, h.symm]
  · rw [Database.position?, Database.addPosition, List.find?_append, List.find?_singleton]
    simp [h.symm, Database.position?]

/-- With the stored rows in memory, the row of the order's key is found or made,
and booked. -/
theorem position?_bookPosition_self (hpos : s.stored.positions = s.work.positions) :
    (s.bookPosition o quantity price).work.position? o.positionKey =
      some (((s.work.position? o.positionKey).getD (TradingPosition.flat o.positionKey)).book
        o.side quantity price) := by
  have hsame : s.stored.position? o.positionKey = s.work.position? o.positionKey := by
    rw [Database.position?, hpos]; rfl
  unfold bookPosition
  rw [hsame]
  cases h : s.work.position? o.positionKey with
  | some p =>
    refine (Rows.find?_updateFirst fun q hq => ?_).trans ?_
    · simpa using hq
    · exact congrArg (Option.map _) h
  | none =>
    dsimp only [Database.addPosition, Database.position?] at h ⊢
    rw [List.find?_append, h]
    simp

/-- A position total changes under the key of the order only. -/
theorem positionTotal_bookPosition (h : s.Tracked) (key : PositionKey) :
    (s.bookPosition o quantity price).work.positionTotal key =
      s.work.positionTotal key + if o.positionKey = key then o.side.signed quantity else 0 := by
  unfold bookPosition
  cases hfind : s.stored.position? o.positionKey with
  | some q =>
    obtain ⟨p, hp⟩ := Option.isSome_iff_exists.1 (h o.positionKey (by rw [hfind]; rfl))
    have hpk : p.positionKey = o.positionKey := by simpa using List.find?_some hp
    rw [Database.positionTotal, Database.updatePosition, Rows.total_eq_sum,
      Rows.sum_updateFirst hp, ← Rows.total_eq_sum]
    simp only [TradingPosition.book_positionKey, TradingPosition.book_quantity, hpk]
    by_cases hk : o.positionKey = key
    · simp only [hk, decide_true, if_true, Database.positionTotal]
      ring
    · simp [hk, Database.positionTotal]
  | none =>
    simp only [Database.positionTotal, Database.addPosition, Rows.total_append,
      Rows.total_singleton, TradingPosition.book_positionKey, TradingPosition.flat_positionKey,
      TradingPosition.book_quantity, decide_eq_true_eq]
    simp [TradingPosition.flat]

end BookPosition

section BookExecution

variable {s : Session} {o : TradingOrder} {quantity : ℤ} {price : ℚ} {source : ExecutionSource}
  {id : Option BrokerExecutionId} {at' : Time}

@[simp] theorem bookExecution_stored :
    (s.bookExecution o quantity price source id at').stored = s.stored := by
  simp [bookExecution]

@[simp] theorem bookExecution_orders :
    (s.bookExecution o quantity price source id at').work.orders =
      Rows.replaceBy TradingOrder.id (o.fill quantity price at') s.work.orders := by
  simp [bookExecution, Database.addExecution]

@[simp] theorem bookExecution_executions :
    (s.bookExecution o quantity price source id at').work.executions =
      s.work.executions ++ [o.execution quantity price source id at'] := by
  simp [bookExecution, Database.addExecution]

@[simp] theorem bookExecution_nextUuid :
    (s.bookExecution o quantity price source id at').work.nextUuid = s.work.nextUuid := by
  simp [bookExecution, Database.addExecution]

theorem bookExecution_tracked (h : s.Tracked) :
    (s.bookExecution o quantity price source id at').Tracked :=
  bookPosition_tracked fun key hkey => h key hkey

theorem positionTotal_bookExecution (h : s.Tracked) (key : PositionKey) :
    (s.bookExecution o quantity price source id at').work.positionTotal key =
      s.work.positionTotal key + if o.positionKey = key then o.side.signed quantity else 0 := by
  have ht : Tracked { s with work := (s.work.addExecution
      (o.execution quantity price source id at')).setOrder (o.fill quantity price at') } := h
  exact positionTotal_bookPosition ht key

theorem position?_bookExecution_of_ne {key : PositionKey} (h : key ≠ o.positionKey) :
    (s.bookExecution o quantity price source id at').work.position? key =
      s.work.position? key := by
  rw [bookExecution, position?_bookPosition_of_ne h]; rfl

theorem position?_bookExecution_self (hpos : s.stored.positions = s.work.positions) :
    (s.bookExecution o quantity price source id at').work.position? o.positionKey =
      some (((s.work.position? o.positionKey).getD (TradingPosition.flat o.positionKey)).book
        o.side quantity price) := by
  rw [bookExecution, position?_bookPosition_self (by exact hpos)]; rfl

/-- Booking does not change under which key an execution is booked. -/
theorem keyOf_bookExecution (hids : (s.work.orders.map TradingOrder.id).Nodup)
    (ho : o ∈ s.work.orders) (e : TradeExecution) :
    (s.bookExecution o quantity price source id at').work.keyOf e = s.work.keyOf e := by
  rw [bookExecution, bookPosition_keyOf, Database.keyOf_setOrder]
  · rfl
  · intro y hy hid
    rw [List.inj_on_of_nodup_map hids hy ho hid]
    rfl

/-- **Booking an execution of an order keeps the ledger balanced.** -/
theorem balanced_bookExecution (hids : (s.work.orders.map TradingOrder.id).Nodup)
    (ho : o ∈ s.work.orders) (ht : s.Tracked) (hb : s.work.Balanced) :
    (s.bookExecution o quantity price source id at').work.Balanced := by
  refine ⟨fun y hy => ?_, fun key => ?_⟩
  · rw [Database.executedQuantity, bookExecution_executions, Rows.total_append,
      Rows.total_singleton]
    rw [bookExecution_orders] at hy
    rcases Rows.mem_replaceBy hy with rfl | ⟨hy, hne⟩
    · rw [TradingOrder.fill_filledQuantity, hb.filled o ho, TradingOrder.fill_id,
        TradingOrder.execution_orderId, decide_eq_true rfl, if_pos rfl]
      rfl
    · have hne' : o.id ≠ y.id := fun h => hne h.symm
      rw [hb.filled y hy, TradingOrder.execution_orderId, decide_eq_false hne', if_neg (by simp),
        add_zero]
      rfl
  · have hkey : ∀ e, (s.bookExecution o quantity price source id at').work.keyOf e =
        s.work.keyOf e := keyOf_bookExecution hids ho
    have horder : s.work.keyOf (o.execution quantity price source id at') = some o.positionKey := by
      have hfind : s.work.order? o.id = some o := by
        cases hf : s.work.order? o.id with
        | none => exact absurd (List.find?_eq_none.1 hf o ho) (by simp)
        | some o' =>
          obtain ⟨ho', hid⟩ := Database.order?_mem hf
          rw [List.inj_on_of_nodup_map hids ho' ho hid]
      rw [Database.keyOf, show (o.execution quantity price source id at').orderId = o.id from rfl,
        hfind]
      rfl
    rw [positionTotal_bookExecution ht, hb.held key]
    simp only [Database.executedNet, bookExecution_executions, Rows.total_append,
      Rows.total_singleton, hkey, horder, Option.some.injEq, decide_eq_true_eq]
    rfl

/-- Booking keeps the constraints, where the id is new and a position row that
no query finds is not pending either. -/
theorem valid_bookExecution (hv : s.work.Valid) (ho : o ∈ s.work.orders)
    (hpos : s.stored.position? o.positionKey = none → s.work.position? o.positionKey = none)
    (hid : ∀ i, id = some i → s.work.execution? o.userId i = none)
    (hpaper : ∀ n, id = some (.paper n) → n < s.work.nextUuid) :
    (s.bookExecution o quantity price source id at').work.Valid := by
  have hexec : (s.work.addExecution (o.execution quantity price source id at')).Valid := by
    refine hv.addExecution (List.mem_map.2 ⟨o, ho, rfl⟩) ?_ hpaper
    intro k hk
    obtain ⟨i, hi, rfl⟩ := Option.map_eq_some_iff.1 hk
    exact Database.execution?_eq_none.1 (hid i hi)
  have horder : ((s.work.addExecution (o.execution quantity price source id at')).setOrder
      (o.fill quantity price at')).Valid :=
    hexec.setOrder (o := o) (x := o.fill quantity price at') ho rfl rfl
  unfold bookExecution bookPosition
  cases h : s.stored.position? o.positionKey with
  | some p =>
    exact horder.updatePosition _ fun p => by simp
  | none =>
    refine horder.addPosition ?_
    rw [TradingPosition.book_positionKey, TradingPosition.flat_positionKey]
    exact hpos h

end BookExecution

end Session

/-! ## Calls in transactions of their own -/

/-- The arguments of one `apply_execution` call on the order `orderId`. -/
structure ExecutionCall where
  orderId : Uuid
  quantity : ℤ
  price : ℚ
  source : ExecutionSource
  brokerExecutionId : Option BrokerExecutionId
  executedAt : Option Time
  now : Time

/-- A paper id that a call carries has been drawn from the counter before. -/
def Database.drawn (d : Database) (id : Option BrokerExecutionId) : Database :=
  match id with
  | some (.paper uuid) => { d with nextUuid := max d.nextUuid (uuid + 1) }
  | _ => d

/-- One `apply_execution` call, committed; a call that is refused changes
nothing. -/
def applyCommitted (s : Store) (c : ExecutionCall) : Store :=
  match s.order? c.orderId with
  | none => s
  | some o =>
    match applyExecution c.now ⟨s.toDatabase, s.toDatabase.drawn c.brokerExecutionId⟩ o c.quantity
      c.price c.source c.brokerExecutionId c.executedAt with
    | .error _ => s
    | .ok (session, o') => (session.commitOr s (.ok o')).1

/-- A session that starts from `d`, with a paper id drawn. -/
theorem Database.drawn_valid {d : Database} (hd : d.Valid) (id : Option BrokerExecutionId) :
    (d.drawn id).Valid := by
  unfold drawn
  split
  · exact hd.nextUuid (le_max_left _ _)
  · exact hd

@[simp] theorem Database.drawn_orders (d : Database) (id : Option BrokerExecutionId) :
    (d.drawn id).orders = d.orders := by
  unfold drawn; split <;> rfl

@[simp] theorem Database.drawn_executions (d : Database) (id : Option BrokerExecutionId) :
    (d.drawn id).executions = d.executions := by
  unfold drawn; split <;> rfl

@[simp] theorem Database.drawn_positions (d : Database) (id : Option BrokerExecutionId) :
    (d.drawn id).positions = d.positions := by
  unfold drawn; split <;> rfl

theorem Database.drawn_paper {d : Database} {id : Option BrokerExecutionId} {n : Uuid}
    (h : id = some (.paper n)) : n < (d.drawn id).nextUuid := by
  subst h
  exact lt_of_lt_of_le (Nat.lt_succ_self n) (le_max_right _ _)

/-- A recorded id was drawn long ago. -/
theorem Database.drawn_of_recorded {d w : Database} (hd : d.Valid) {o : TradingOrder}
    {id : Option BrokerExecutionId} {e : TradeExecution}
    (h : Session.recorded? ⟨d, w⟩ o id = some e) : d.drawn id = d := by
  obtain ⟨i, hi, he⟩ := Option.bind_eq_some_iff.1 h
  obtain ⟨rfl, -⟩ := Option.filter_eq_some_iff.1 hi
  cases i with
  | exchange tradeId => rfl
  | paper n =>
    have hrow : e.userId = o.userId ∧ e.brokerExecutionId = some (.paper n) := by
      simpa using List.find?_some he
    have hn : n < d.nextUuid :=
      hd.paperUuids e (List.mem_of_find?_eq_some he) n (by simp [hrow.2])
    rw [Database.drawn, max_eq_left hn]

/-- **What a committed call can do**: leave the store as it is, or book one
execution of a quantity that still fits the order. -/
theorem applyCommitted_cases (s : Store) (c : ExecutionCall) :
    applyCommitted s c = s ∨
    ∃ o ∈ s.orders, o.id = c.orderId ∧ 0 < c.quantity ∧
      o.filledQuantity + c.quantity ≤ o.quantity ∧
      (applyCommitted s c).toDatabase =
        (Session.bookExecution ⟨s.toDatabase, s.toDatabase.drawn c.brokerExecutionId⟩ o c.quantity
          c.price c.source c.brokerExecutionId (c.executedAt.getD c.now)).work := by
  cases ho : s.order? c.orderId with
  | none =>
    left
    simp only [applyCommitted, ho]
  | some o =>
    obtain ⟨hmem, hid⟩ := Database.order?_mem ho
    simp only [applyCommitted, ho]
    rcases applyExecution_cases c.now ⟨s.toDatabase, s.toDatabase.drawn c.brokerExecutionId⟩ o
        c.quantity c.price c.source c.brokerExecutionId c.executedAt with
      ⟨⟨e, he⟩, h⟩ | ⟨-, -, h⟩ | ⟨-, hq, hfit, h⟩
    · left
      simp only [h]
      rw [Database.drawn_of_recorded s.valid he]
      rcases Session.commitOr_fst ⟨s.toDatabase, s.toDatabase⟩ s (.ok o) with hs | ⟨hs, -⟩
      · exact hs
      · exact (Store.ext' hs).symm
    · left
      simp only [h]
    · simp only [h]
      rcases Session.commitOr_fst (Session.bookExecution _ o c.quantity c.price c.source
          c.brokerExecutionId (c.executedAt.getD c.now)) s
          (.ok (o.fill c.quantity c.price (c.executedAt.getD c.now))) with hs | ⟨hs, -⟩
      · exact Or.inl hs
      · exact Or.inr ⟨o, hmem, hid, hq, hfit, hs.symm⟩

end GnkAlgo
