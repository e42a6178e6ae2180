import GnkAlgo.Models
import GnkAlgo.Lib.Rows

/-!
# The database and its sessions

A `Database` is the content of the trading tables, a `Store` a content that
meets the declared constraints: only such a content can be committed.

`SessionLocal` of `backend/app/database.py` is made with `autoflush=False` and
`expire_on_commit=False`.  A `Session` therefore has two contents: `stored`, the
rows a query sees, and `work`, the same rows with the attribute changes made in
memory and the rows added but not flushed.  A query finds a row by its `stored`
columns and hands out the object the session already holds for it, so what it
returns is read off `work`.  `flush` makes `work` visible, `commit` durable;
both fail with an integrity error where a constraint is violated.

The counter `nextUuid` stands for `uuid.uuid4()`: every identifier drawn so far
is below it.
-/

namespace GnkAlgo

/-! ## Errors -/

/-- `TradingError`: a refusal with its code and HTTP status. -/
structure TradingError where
  code : String
  statusCode : ℕ := 409
  deriving DecidableEq, Repr

/-- What a call can raise: a refusal, a violated constraint, or any other
exception that leaves the function. -/
inductive Raised
  | trading (e : TradingError)
  | integrityError
  | escaped
  deriving DecidableEq, Repr

/-! ## Contents -/

structure Database where
  orders : List TradingOrder := []
  executions : List TradeExecution := []
  positions : List TradingPosition := []
  controls : List TradingControl := []
  connections : List BrokerConnection := []
  nextUuid : Uuid := 0
  deriving DecidableEq, Repr

/-- The columns of `uq_trade_execution_broker_id`; a null id is never equal to
another. -/
def TradeExecution.brokerKey (e : TradeExecution) : Option (Uuid × BrokerExecutionId) :=
  e.brokerExecutionId.map (e.userId, ·)

/-- The columns of `uq_trading_order_client_id`. -/
def TradingOrder.clientKey (o : TradingOrder) : Uuid × String := (o.userId, o.clientOrderId)

namespace Database

/-- The constraints of the trading tables: primary and unique keys, the foreign
key of an execution, and every identifier drawn from the counter. -/
structure Valid (d : Database) : Prop where
  orderIds : (d.orders.map TradingOrder.id).Nodup
  clientKeys : (d.orders.map TradingOrder.clientKey).Nodup
  positionKeys : (d.positions.map TradingPosition.positionKey).Nodup
  brokerKeys : (d.executions.filterMap TradeExecution.brokerKey).Nodup
  executionOrders : ∀ e ∈ d.executions, e.orderId ∈ d.orders.map TradingOrder.id
  orderUuids : ∀ o ∈ d.orders, o.id < d.nextUuid
  paperUuids : ∀ e ∈ d.executions, ∀ n ∈ e.brokerExecutionId.toList.filterMap
    (fun | .paper n => some n | .exchange _ => none), n < d.nextUuid

theorem valid_iff {d : Database} : d.Valid ↔
    (d.orders.map TradingOrder.id).Nodup ∧ (d.orders.map TradingOrder.clientKey).Nodup ∧
    (d.positions.map TradingPosition.positionKey).Nodup ∧
    (d.executions.filterMap TradeExecution.brokerKey).Nodup ∧
    (∀ e ∈ d.executions, e.orderId ∈ d.orders.map TradingOrder.id) ∧
    (∀ o ∈ d.orders, o.id < d.nextUuid) ∧
    (∀ e ∈ d.executions, ∀ n ∈ e.brokerExecutionId.toList.filterMap
      (fun | .paper n => some n | .exchange _ => none), n < d.nextUuid) :=
  ⟨fun ⟨h1, h2, h3, h4, h5, h6, h7⟩ => ⟨h1, h2, h3, h4, h5, h6, h7⟩,
    fun ⟨h1, h2, h3, h4, h5, h6, h7⟩ => ⟨h1, h2, h3, h4, h5, h6, h7⟩⟩

instance (d : Database) : Decidable d.Valid := decidable_of_iff' _ valid_iff

/-! ### Lookups -/

/-- `db.get(TradingOrder, id)`. -/
def order? (d : Database) (id : Uuid) : Option TradingOrder := d.orders.find? (·.id = id)

/-- The query of `_position`. -/
def position? (d : Database) (key : PositionKey) : Option TradingPosition :=
  d.positions.find? (·.positionKey = key)

/-- The query for an execution of a user with a broker execution id. -/
def execution? (d : Database) (userId : Uuid) (id : BrokerExecutionId) : Option TradeExecution :=
  d.executions.find? fun e => e.userId = userId ∧ e.brokerExecutionId = some id

/-- The quantity held under a key: what `position.quantity if position else 0` reads. -/
def heldQuantity (d : Database) (key : PositionKey) : ℤ :=
  ((d.position? key).map TradingPosition.quantity).getD 0

/-! ### Row updates -/

/-- Put an order in the place of the row with its primary key. -/
def setOrder (d : Database) (o : TradingOrder) : Database :=
  { d with orders := Rows.replaceBy TradingOrder.id o d.orders }

def addOrder (d : Database) (o : TradingOrder) : Database :=
  { d with orders := d.orders ++ [o] }

/-- Add an order under the identifier drawn for it. -/
def insertOrder (d : Database) (o : TradingOrder) : Database :=
  { d.addOrder o with nextUuid := d.nextUuid + 1 }

def addExecution (d : Database) (e : TradeExecution) : Database :=
  { d with executions := d.executions ++ [e] }

/-- Change the position object a query for `key` returned. -/
def updatePosition (d : Database) (key : PositionKey) (f : TradingPosition → TradingPosition) :
    Database :=
  { d with positions := Rows.updateFirst (·.positionKey = key) f d.positions }

def addPosition (d : Database) (p : TradingPosition) : Database :=
  { d with positions := d.positions ++ [p] }

@[simp] theorem setOrder_orders (d : Database) (o : TradingOrder) :
    (d.setOrder o).orders = Rows.replaceBy TradingOrder.id o d.orders := rfl

@[simp] theorem setOrder_executions (d : Database) (o : TradingOrder) :
    (d.setOrder o).executions = d.executions := rfl

@[simp] theorem setOrder_positions (d : Database) (o : TradingOrder) :
    (d.setOrder o).positions = d.positions := rfl

@[simp] theorem setOrder_nextUuid (d : Database) (o : TradingOrder) :
    (d.setOrder o).nextUuid = d.nextUuid := rfl

@[simp] theorem setOrder_controls (d : Database) (o : TradingOrder) :
    (d.setOrder o).controls = d.controls := rfl

@[simp] theorem setOrder_connections (d : Database) (o : TradingOrder) :
    (d.setOrder o).connections = d.connections := rfl

theorem order?_mem {d : Database} {id : Uuid} {o : TradingOrder} (h : d.order? id = some o) :
    o ∈ d.orders ∧ o.id = id :=
  ⟨List.mem_of_find?_eq_some h, by simpa using List.find?_some h⟩

theorem Valid.eq_of_id {d : Database} (hd : d.Valid) {o o' : TradingOrder} (ho : o ∈ d.orders)
    (ho' : o' ∈ d.orders) (h : o.id = o'.id) : o = o' :=
  List.inj_on_of_nodup_map hd.orderIds ho ho' h

theorem Valid.eq_of_clientKey {d : Database} (hd : d.Valid) {o o' : TradingOrder}
    (ho : o ∈ d.orders) (ho' : o' ∈ d.orders) (h : o.clientKey = o'.clientKey) : o = o' :=
  List.inj_on_of_nodup_map hd.clientKeys ho ho' h

theorem Valid.order?_eq {d : Database} (hd : d.Valid) {o : TradingOrder} (ho : o ∈ d.orders) :
    d.order? o.id = some o :=
  Rows.find?_key hd.orderIds ho

theorem execution?_eq_none {d : Database} {userId : Uuid} {id : BrokerExecutionId} :
    d.execution? userId id = none ↔
      (userId, id) ∉ d.executions.filterMap TradeExecution.brokerKey := by
  simp only [execution?, List.find?_eq_none, List.mem_filterMap, TradeExecution.brokerKey,
    Option.map_eq_some_iff, Prod.mk.injEq, decide_eq_true_eq, not_exists, not_and]
  constructor
  · intro h e he i hi hu hid
    exact h e he hu (by rw [hi, hid])
  · intro h e he hu hid
    exact h e he id hid hu rfl

theorem execution?_mem {d : Database} {userId : Uuid} {id : BrokerExecutionId}
    {e : TradeExecution} (h : d.execution? userId id = some e) :
    e ∈ d.executions ∧ e.brokerKey = some (userId, id) := by
  have hp := List.find?_some h
  rw [decide_eq_true_eq] at hp
  exact ⟨List.mem_of_find?_eq_some h, by rw [TradeExecution.brokerKey, hp.1, hp.2]; rfl⟩

theorem Valid.position?_eq {d : Database} (hd : d.Valid) {p : TradingPosition}
    (hp : p ∈ d.positions) : d.position? p.positionKey = some p :=
  Rows.find?_key hd.positionKeys hp

/-- No execution has an id that has not been drawn yet. -/
theorem Valid.execution?_paper {d : Database} (hd : d.Valid) (userId : Uuid) {n : Uuid}
    (hn : d.nextUuid ≤ n) : d.execution? userId (.paper n) = none := by
  refine List.find?_eq_none.2 fun e he => ?_
  rw [decide_eq_true_eq]
  rintro ⟨-, hid⟩
  exact absurd (hd.paperUuids e he n (by simp [hid])) (not_lt.2 hn)

/-- An order row can be rewritten freely outside its keys. -/
theorem Valid.setOrder {d : Database} (hd : d.Valid) {o x : TradingOrder} (ho : o ∈ d.orders)
    (hid : x.id = o.id) (hkey : x.clientKey = o.clientKey) : (d.setOrder x).Valid := by
  have hrow : ∀ y ∈ d.orders, y.id = x.id → y = o := fun y hy h =>
    hd.eq_of_id hy ho (h.trans hid)
  have hids : ((d.setOrder x).orders.map TradingOrder.id) = d.orders.map TradingOrder.id :=
    Rows.map_key_replaceBy
  refine ⟨by rw [hids]; exact hd.orderIds, ?_, hd.positionKeys, hd.brokerKeys, ?_, ?_,
    hd.paperUuids⟩
  · rw [setOrder_orders, Rows.map_replaceBy fun y hy h => by rw [hrow y hy h, hkey]]
    exact hd.clientKeys
  · intro e he
    rw [hids]
    exact hd.executionOrders e he
  · intro y hy
    rcases Rows.mem_replaceBy hy with rfl | ⟨hy, -⟩
    · rw [hid]; exact hd.orderUuids o ho
    · exact hd.orderUuids y hy

theorem Valid.addExecution {d : Database} (hd : d.Valid) {e : TradeExecution}
    (ho : e.orderId ∈ d.orders.map TradingOrder.id)
    (hkey : ∀ k, e.brokerKey = some k → k ∉ d.executions.filterMap TradeExecution.brokerKey)
    (hpaper : ∀ n, e.brokerExecutionId = some (.paper n) → n < d.nextUuid) :
    (d.addExecution e).Valid := by
  refine ⟨hd.orderIds, hd.clientKeys, hd.positionKeys, ?_, ?_, hd.orderUuids, ?_⟩
  · rw [Database.addExecution, List.filterMap_append]
    refine List.Nodup.append hd.brokerKeys ?_ ?_
    · cases h : e.brokerKey <;> simp [h]
    · intro k hk hk'
      obtain ⟨e', he', hek⟩ := List.mem_filterMap.1 hk'
      rw [List.mem_singleton.1 he'] at hek
      exact hkey k hek hk
  · intro e' he'
    rcases List.mem_append.1 he' with he' | he'
    · exact hd.executionOrders e' he'
    · rw [List.mem_singleton.1 he']; exact ho
  · intro e' he' n hn
    rcases List.mem_append.1 he' with he' | he'
    · exact hd.paperUuids e' he' n hn
    · rw [List.mem_singleton.1 he'] at hn
      refine hpaper n ?_
      cases h : e.brokerExecutionId with
      | none => simp [h] at hn
      | some i =>
        cases i with
        | paper m => simp [h] at hn; rw [hn]
        | exchange t => simp [h] at hn

theorem Valid.updatePosition {d : Database} (hd : d.Valid) (key : PositionKey)
    {f : TradingPosition → TradingPosition} (hf : ∀ p, (f p).positionKey = p.positionKey) :
    (d.updatePosition key f).Valid := by
  refine ⟨hd.orderIds, hd.clientKeys, ?_, hd.brokerKeys, hd.executionOrders, hd.orderUuids,
    hd.paperUuids⟩
  rw [Database.updatePosition, Rows.map_updateFirst fun p _ => hf p]
  exact hd.positionKeys

theorem Valid.addPosition {d : Database} (hd : d.Valid) {p : TradingPosition}
    (hp : d.position? p.positionKey = none) : (d.addPosition p).Valid := by
  refine ⟨hd.orderIds, hd.clientKeys, ?_, hd.brokerKeys, hd.executionOrders, hd.orderUuids,
    hd.paperUuids⟩
  rw [Database.addPosition, List.map_append]
  refine List.Nodup.append hd.positionKeys (by simp) ?_
  intro k hk hk'
  obtain ⟨q, hq, rfl⟩ := List.mem_map.1 hk
  exact absurd (List.find?_eq_none.1 hp q hq) (by simpa using hk')

/-- A higher counter leaves the constraints as they are. -/
theorem Valid.nextUuid {d : Database} (hd : d.Valid) {n : Uuid} (hn : d.nextUuid ≤ n) :
    { d with nextUuid := n }.Valid :=
  ⟨hd.orderIds, hd.clientKeys, hd.positionKeys, hd.brokerKeys, hd.executionOrders,
    fun o ho => lt_of_lt_of_le (hd.orderUuids o ho) hn,
    fun e he m hm => lt_of_lt_of_le (hd.paperUuids e he m hm) hn⟩

/-- An order can be added under a new identifier and a new client id. -/
theorem Valid.insertOrder {d : Database} (hd : d.Valid) {o : TradingOrder}
    (hid : o.id = d.nextUuid) (hclient : o.clientKey ∉ d.orders.map TradingOrder.clientKey) :
    (d.insertOrder o).Valid := by
  have hne : ∀ y ∈ d.orders, y.id ≠ o.id := fun y hy => hid ▸ (hd.orderUuids y hy).ne
  refine ⟨?_, ?_, hd.positionKeys, hd.brokerKeys, ?_, ?_, ?_⟩
  · rw [Database.insertOrder, Database.addOrder, List.map_append]
    refine List.Nodup.append hd.orderIds (by simp) fun n hn hn' => ?_
    obtain ⟨y, hy, rfl⟩ := List.mem_map.1 hn
    exact hne y hy (by simpa using hn')
  · rw [Database.insertOrder, Database.addOrder, List.map_append]
    refine List.Nodup.append hd.clientKeys (by simp) fun k hk hk' => ?_
    rw [List.map_singleton, List.mem_singleton] at hk'
    exact hclient (hk' ▸ hk)
  · intro e he
    rw [Database.insertOrder, Database.addOrder, List.map_append]
    exact List.mem_append_left _ (hd.executionOrders e he)
  · intro y hy
    rcases List.mem_append.1 hy with hy | hy
    · exact (hd.orderUuids y hy).trans (Nat.lt_succ_self _)
    · rw [List.mem_singleton.1 hy, hid]
      exact Nat.lt_succ_self _
  · exact fun e he n hn => (hd.paperUuids e he n hn).trans (Nat.lt_succ_self _)

end Database

/-! ## Stores and sessions -/

/-- A committed content: one that meets the constraints. -/
structure Store extends Database where
  valid : toDatabase.Valid

/-- A unit of work: what queries see and what the objects in memory hold. -/
structure Session where
  stored : Database
  work : Database
  deriving DecidableEq, Repr

/-- The store before anything has happened. -/
def Store.empty : Store where
  valid := by decide

/-- `SessionLocal()`: a session that holds nothing yet. -/
def Store.begin (s : Store) : Session := ⟨s.toDatabase, s.toDatabase⟩

namespace Session

/-- Take an identifier from the counter. -/
def draw (s : Session) : Session :=
  { s with work := { s.work with nextUuid := s.work.nextUuid + 1 } }

/-- `db.flush()`: send the pending rows; queries see them from now on. -/
def flush (s : Session) : Except Raised Session :=
  if s.work.Valid then .ok ⟨s.work, s.work⟩ else .error .integrityError

/-- `db.commit()`. -/
def commit (s : Session) : Except Raised Store :=
  if h : s.work.Valid then .ok ⟨s.work, h⟩ else .error .integrityError

theorem commit_eq_ok {s : Session} {s' : Store} : s.commit = .ok s' ↔ s.work = s'.toDatabase := by
  unfold commit
  constructor
  · intro h
    split at h
    · cases h; rfl
    · cases h
  · rintro h
    have hv : s.work.Valid := h ▸ s'.valid
    rw [dif_pos hv]
    congr

theorem flush_eq_ok {s t : Session} (h : s.flush = .ok t) :
    s.work.Valid ∧ t = ⟨s.work, s.work⟩ := by
  unfold flush at h
  split at h
  · rename_i hv; cases h; exact ⟨hv, rfl⟩
  · cases h

/-- Commit and return `value`; where a constraint fails the transaction is
rolled back to `s`. -/
def commitOr {α : Type*} (session : Session) (s : Store) (value : Except Raised α) :
    Store × Except Raised α :=
  match session.commit with
  | .ok s' => (s', value)
  | .error e => (s, .error e)

theorem commitOr_of_valid {α : Type*} {session : Session} (h : session.work.Valid) (s : Store)
    (value : Except Raised α) : session.commitOr s value = (⟨session.work, h⟩, value) := by
  rw [commitOr, show session.commit = .ok ⟨session.work, h⟩ from dif_pos h]

theorem commitOr_of_not_valid {α : Type*} {session : Session} (h : ¬ session.work.Valid)
    (s : Store) (value : Except Raised α) :
    session.commitOr s value = (s, .error .integrityError) := by
  rw [commitOr, show session.commit = .error .integrityError from dif_neg h]

theorem commitOr_fst {α : Type*} (session : Session) (s : Store) (value : Except Raised α) :
    (session.commitOr s value).1 = s ∨
      (session.work = (session.commitOr s value).1.toDatabase ∧
        (session.commitOr s value).2 = value) := by
  unfold commitOr
  cases h : session.commit with
  | ok s' => exact Or.inr ⟨commit_eq_ok.1 h, rfl⟩
  | error e => exact Or.inl rfl

end Session

theorem Store.ext' {s t : Store} (h : s.toDatabase = t.toDatabase) : s = t := by
  cases s; cases t; cases h; rfl

end GnkAlgo
