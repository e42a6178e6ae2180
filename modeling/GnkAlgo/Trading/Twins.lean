import GnkAlgo.Lib.TwoRuns
import GnkAlgo.Trading.Reconcile
import GnkAlgo.Trading.RiskGate

/-!
# Two databases that look alike to a user

Generated ids differ from run to run, so two databases are compared up to a
`Renaming` of them.

* `Alike` — the rows of a user are the same up to the renaming;
* `ChangedBy` — a user's operation touches rows of that user;
* `Twin` — both, from two committed contents on;
* `Twin.valid_iff` — the constraints fail on both sides or on none.
-/

namespace GnkAlgo

open TwoRuns

/-! ## Renamings -/

/-- Names for the ids of another run: a later draw there is a later draw here, and
from `bound` on, which is what has been drawn, the draws go in step. -/
structure Renaming where
  toFun : Uuid → Uuid
  bound : Uuid
  strictMono : StrictMono toFun
  shift : ∀ k, toFun (bound + k) = toFun bound + k

instance : CoeFun Renaming fun _ => Uuid → Uuid := ⟨Renaming.toFun⟩

theorem Renaming.add (r : Renaming) {n : Uuid} (h : r.bound ≤ n) (k : ℕ) : r (n + k) = r n + k := by
  obtain ⟨j, rfl⟩ := Nat.exists_eq_add_of_le h
  rw [Nat.add_assoc, r.shift, r.shift, Nat.add_assoc]

theorem Renaming.inj (r : Renaming) {m n : Uuid} : r m = r n ↔ m = n := r.strictMono.injective.eq_iff

def TradingOrder.rename (r : Renaming) (o : TradingOrder) : TradingOrder := { o with id := r o.id }

def BrokerExecutionId.rename (r : Renaming) : BrokerExecutionId → BrokerExecutionId
  | .paper n => .paper (r n)
  | .exchange tradeId => .exchange tradeId

def TradeExecution.rename (r : Renaming) (e : TradeExecution) : TradeExecution :=
  { e with
    orderId := r e.orderId
    brokerExecutionId := e.brokerExecutionId.map (·.rename r) }

theorem BrokerExecutionId.rename_inj {r : Renaming} {i j : BrokerExecutionId} :
    i.rename r = j.rename r ↔ i = j := by
  cases i <;> cases j <;> simp [BrokerExecutionId.rename, r.inj]

/-! ## What a user sees -/

namespace Database

/-- To the user `u` the rows of `d` are those of `t` under the names of `r`. -/
structure Alike (u : Uuid) (r : Renaming) (d t : Database) : Prop where
  orders : d.orders.filter (·.userId = u) = (t.orders.filter (·.userId = u)).map (·.rename r)
  executions : d.executions.filter (·.userId = u) =
    (t.executions.filter (·.userId = u)).map (·.rename r)
  positions : d.positions.filter (·.userId = u) = t.positions.filter (·.userId = u)
  controls : d.controls.filter (fun c => c.scopeKey = .global ∨ c.scopeKey = .user u) =
    t.controls.filter (fun c => c.scopeKey = .global ∨ c.scopeKey = .user u)
  connections : d.connections.filter (·.userId = u) = t.connections.filter (·.userId = u)
  nextUuid : d.nextUuid = r t.nextUuid
  bound : r.bound ≤ t.nextUuid

/-- The ids of the orders and their owners. -/
def owners (d : Database) : List (Uuid × Uuid) := d.orders.map fun o => (o.id, o.userId)

/-- `d'` has come from `d` by changes to rows of the user `u`. -/
structure ChangedBy (u : Uuid) (d d' : Database) : Prop where
  orders : ∀ v ≠ u, d'.orders.filter (·.userId = v) = d.orders.filter (·.userId = v)
  executions : ∀ v ≠ u, d'.executions.filter (·.userId = v) = d.executions.filter (·.userId = v)
  positions : ∀ v ≠ u, d'.positions.filter (·.userId = v) = d.positions.filter (·.userId = v)
  controls : ∀ v ≠ u, d'.controls.filter (fun c => c.scopeKey = .global ∨ c.scopeKey = .user v) =
    d.controls.filter (fun c => c.scopeKey = .global ∨ c.scopeKey = .user v)
  connections : ∀ v ≠ u, d'.connections.filter (·.userId = v) = d.connections.filter (·.userId = v)
  connectionKeys : d'.connections.map (fun c => (c.id, c.userId)) =
    d.connections.map fun c => (c.id, c.userId)
  nextUuid : d.nextUuid ≤ d'.nextUuid
  owners : ∃ fresh, d'.owners = d.owners ++ fresh ∧ (fresh.map Prod.fst).Nodup ∧
    ∀ p ∈ fresh, d.nextUuid ≤ p.1 ∧ p.1 < d'.nextUuid
  executed : ∀ e ∈ d'.executions, e ∈ d.executions ∨ (e.orderId, e.userId) ∈ d'.owners

/-- Every execution is of an order of its user, and connections have their own ids. -/
structure Tenanted (d : Database) : Prop where
  executed : ∀ e ∈ d.executions, (e.orderId, e.userId) ∈ d.owners
  connectionIds : (d.connections.map BrokerConnection.id).Nodup

section ChangedBy

variable {u : Uuid} {d d' d'' : Database}

theorem ChangedBy.refl (u : Uuid) (d : Database) : ChangedBy u d d where
  orders _ _ := rfl
  executions _ _ := rfl
  positions _ _ := rfl
  controls _ _ := rfl
  connections _ _ := rfl
  connectionKeys := rfl
  nextUuid := le_refl _
  owners := ⟨[], (List.append_nil _).symm, List.nodup_nil, fun _ h => absurd h List.not_mem_nil⟩
  executed _ he := Or.inl he

theorem ChangedBy.owners_subset (h : ChangedBy u d d') : d.owners ⊆ d'.owners := by
  obtain ⟨fresh, heq, -⟩ := h.owners
  rw [heq]
  exact List.subset_append_left ..

theorem ChangedBy.trans (h : ChangedBy u d d') (h' : ChangedBy u d' d'') : ChangedBy u d d'' where
  orders v hv := (h'.orders v hv).trans (h.orders v hv)
  executions v hv := (h'.executions v hv).trans (h.executions v hv)
  positions v hv := (h'.positions v hv).trans (h.positions v hv)
  controls v hv := (h'.controls v hv).trans (h.controls v hv)
  connections v hv := (h'.connections v hv).trans (h.connections v hv)
  connectionKeys := h'.connectionKeys.trans h.connectionKeys
  nextUuid := h.nextUuid.trans h'.nextUuid
  owners := by
    obtain ⟨fresh, heq, hnd, hfresh⟩ := h.owners
    obtain ⟨fresh', heq', hnd', hfresh'⟩ := h'.owners
    refine ⟨fresh ++ fresh', by rw [heq', heq, List.append_assoc], ?_, fun p hp => ?_⟩
    · rw [List.map_append]
      refine List.Nodup.append hnd hnd' fun id hid hid' => ?_
      obtain ⟨p, hp, rfl⟩ := List.mem_map.1 hid
      obtain ⟨p', hp', hpp⟩ := List.mem_map.1 hid'
      exact absurd ((hfresh p hp).2.trans_le (hfresh' p' hp').1) (by rw [hpp]; exact lt_irrefl _)
    · rcases List.mem_append.1 hp with hp | hp
      · exact ⟨(hfresh p hp).1, (hfresh p hp).2.trans_le h'.nextUuid⟩
      · exact ⟨h.nextUuid.trans (hfresh' p hp).1, (hfresh' p hp).2⟩
  executed e he := by
    rcases h'.executed e he with he | he
    · rcases h.executed e he with he | he
      · exact Or.inl he
      · exact Or.inr (h'.owners_subset he)
    · exact Or.inr he

theorem map_fst_owners (d : Database) : d.owners.map Prod.fst = d.orders.map TradingOrder.id := by
  rw [Database.owners, List.map_map]
  rfl

/-- The ids stay different, and below the counter. -/
theorem ChangedBy.orderIds (h : ChangedBy u d d') (hd : d.Valid) :
    (d'.orders.map TradingOrder.id).Nodup ∧ ∀ p ∈ d'.owners, p.1 < d'.nextUuid := by
  obtain ⟨fresh, heq, hnd, hfresh⟩ := h.owners
  have hold : ∀ p ∈ d.owners, p.1 < d.nextUuid := by
    intro p hp
    obtain ⟨o, ho, rfl⟩ := List.mem_map.1 hp
    exact hd.orderUuids o ho
  refine ⟨?_, fun p hp => ?_⟩
  · rw [← map_fst_owners, heq, List.map_append, map_fst_owners]
    refine List.Nodup.append hd.orderIds hnd fun id hid hid' => ?_
    obtain ⟨o, ho, rfl⟩ := List.mem_map.1 hid
    obtain ⟨p, hp, hpo⟩ := List.mem_map.1 hid'
    exact absurd ((hfresh p hp).1.trans_eq hpo) (not_le.2 (hd.orderUuids o ho))
  · rw [heq] at hp
    rcases List.mem_append.1 hp with hp | hp
    · exact (hold p hp).trans_le h.nextUuid
    · exact (hfresh p hp).2

theorem ChangedBy.tenanted (h : ChangedBy u d d') (hd : d.Tenanted) : d'.Tenanted where
  executed e he := (h.executed e he).elim (fun he => h.owners_subset (hd.executed e he)) id
  connectionIds := by
    have hids := congrArg (List.map Prod.fst) h.connectionKeys
    rw [List.map_map, List.map_map] at hids
    change d'.connections.map BrokerConnection.id = d.connections.map BrokerConnection.id at hids
    rw [hids]
    exact hd.connectionIds

end ChangedBy

end Database

namespace Database

/-! ## What changes a row -/

section Edits

variable {u : Uuid} {r : Renaming} {d t : Database}

theorem ChangedBy.setOrder {o : TradingOrder} (ho : o.userId = u)
    (hown : ∀ y ∈ d.orders, y.id = o.id → y.userId = u) : ChangedBy u d (d.setOrder o) where
  orders v hv := by
    rw [setOrder_orders, Rows.filter_replaceBy fun y hy hid => by rw [hown y hy hid, ho],
      if_neg (by simpa [ho] using hv.symm)]
  executions _ _ := rfl
  positions _ _ := rfl
  controls _ _ := rfl
  connections _ _ := rfl
  connectionKeys := rfl
  nextUuid := le_refl _
  owners := ⟨[], by
    rw [List.append_nil]
    exact Rows.map_replaceBy fun y hy hid => by rw [hid, hown y hy hid, ho],
    List.nodup_nil, fun _ h => absurd h List.not_mem_nil⟩
  executed _ he := Or.inl he

theorem Alike.setOrder (h : Alike u r d t) {o : TradingOrder} (ho : o.userId = u)
    (hd : ∀ y ∈ d.orders, y.id = r o.id → y.userId = u)
    (ht : ∀ y ∈ t.orders, y.id = o.id → y.userId = u) :
    Alike u r (d.setOrder (o.rename r)) (t.setOrder o) where
  orders := by
    rw [setOrder_orders, setOrder_orders,
      Rows.filter_replaceBy fun y hy hid => by
        rw [hd y hy hid]
        exact decide_eq_decide.2 (by simp [TradingOrder.rename, ho]),
      Rows.filter_replaceBy fun y hy hid => by rw [ht y hy hid, ho],
      if_pos (by simp [TradingOrder.rename, ho]), if_pos (by simp [ho]), h.orders]
    exact (Rows.map_replaceBy_of_iff fun y _ => (r.inj : r y.id = r o.id ↔ _)).symm
  executions := h.executions
  positions := h.positions
  controls := h.controls
  connections := h.connections
  nextUuid := h.nextUuid
  bound := h.bound

theorem ChangedBy.insertOrder {o : TradingOrder} (hid : o.id = d.nextUuid) (ho : o.userId = u) :
    ChangedBy u d (d.insertOrder o) where
  orders v hv := by
    exact Rows.filter_concat_of_neg (by simpa [ho] using hv.symm) _
  executions _ _ := rfl
  positions _ _ := rfl
  controls _ _ := rfl
  connections _ _ := rfl
  connectionKeys := rfl
  nextUuid := Nat.le_succ _
  owners := ⟨[(o.id, o.userId)], List.map_append, List.nodup_singleton _, fun p hp => by
    rw [List.mem_singleton.1 hp, hid]
    exact ⟨le_refl _, Nat.lt_succ_self _⟩⟩
  executed _ he := Or.inl he

theorem Alike.insertOrder (h : Alike u r d t) {o : TradingOrder} (ho : o.userId = u) :
    Alike u r (d.insertOrder (o.rename r)) (t.insertOrder o) where
  orders := by
    have ht := Rows.filter_concat_of_pos (p := (·.userId = u)) (decide_eq_true ho) t.orders
    refine (Rows.filter_concat_of_pos (x := o.rename r) (decide_eq_true ho) d.orders).trans ?_
    rw [h.orders, Database.insertOrder, Database.addOrder, ht, List.map_append, List.map_singleton]
  executions := h.executions
  positions := h.positions
  controls := h.controls
  connections := h.connections
  nextUuid := (congrArg (· + 1) h.nextUuid).trans (r.add h.bound 1).symm
  bound := h.bound.trans (Nat.le_succ _)

theorem ChangedBy.draw : ChangedBy u d { d with nextUuid := d.nextUuid + 1 } :=
  { ChangedBy.refl u d with
    nextUuid := Nat.le_succ _
    owners := ⟨[], (List.append_nil _).symm, List.nodup_nil, fun _ h => absurd h List.not_mem_nil⟩ }

theorem Alike.draw (h : Alike u r d t) :
    Alike u r { d with nextUuid := d.nextUuid + 1 } { t with nextUuid := t.nextUuid + 1 } :=
  { h with
    nextUuid := (congrArg (· + 1) h.nextUuid).trans (r.add h.bound 1).symm
    bound := h.bound.trans (Nat.le_succ _) }

theorem ChangedBy.addExecution {e : TradeExecution} (he : e.userId = u)
    (hrow : (e.orderId, u) ∈ d.owners) : ChangedBy u d (d.addExecution e) :=
  { ChangedBy.refl u d with
    executions := fun v hv => by
      exact Rows.filter_concat_of_neg (by simpa [he] using hv.symm) _
    executed := fun x hx => (List.mem_append.1 hx).imp_right fun hx => by
      rw [List.mem_singleton.1 hx, he]
      exact hrow }

theorem Alike.addExecution (h : Alike u r d t) {e : TradeExecution} (he : e.userId = u) :
    Alike u r (d.addExecution (e.rename r)) (t.addExecution e) :=
  { h with
    executions := by
      have ht := Rows.filter_concat_of_pos (p := (·.userId = u)) (decide_eq_true he) t.executions
      refine (Rows.filter_concat_of_pos (x := e.rename r) (decide_eq_true he) d.executions).trans ?_
      rw [h.executions, Database.addExecution, ht, List.map_append, List.map_singleton] }

/-- A position key is one of its user. -/
theorem filter_updatePosition {key : PositionKey} {f : TradingPosition → TradingPosition}
    (hf : ∀ p, (f p).positionKey = p.positionKey) (v : Uuid) :
    (d.updatePosition key f).positions.filter (·.userId = v) =
      if key.userId = v then Rows.updateFirst (·.positionKey = key) f
        (d.positions.filter (·.userId = v))
      else d.positions.filter (·.userId = v) := by
  have hp : ∀ p : TradingPosition, decide (p.positionKey = key) = true →
      decide (p.userId = v) = decide (key.userId = v) ∧
        decide ((f p).userId = v) = decide (key.userId = v) := by
    intro p hp
    have hkey : p.positionKey = key := of_decide_eq_true hp
    have hkey' : (f p).positionKey = key := (hf p).trans hkey
    exact ⟨by rw [← hkey]; rfl, by rw [← hkey']; rfl⟩
  rw [Database.updatePosition, Rows.filter_updateFirst hp]
  simp

theorem ChangedBy.updatePosition {key : PositionKey} {f : TradingPosition → TradingPosition}
    (hkey : key.userId = u) (hf : ∀ p, (f p).positionKey = p.positionKey) :
    ChangedBy u d (d.updatePosition key f) :=
  { ChangedBy.refl u d with
    positions := fun v hv => by
      rw [filter_updatePosition hf, if_neg]
      rw [hkey]
      exact hv.symm }

theorem Alike.updatePosition (h : Alike u r d t) {key : PositionKey}
    {f : TradingPosition → TradingPosition} (hkey : key.userId = u)
    (hf : ∀ p, (f p).positionKey = p.positionKey) :
    Alike u r (d.updatePosition key f) (t.updatePosition key f) :=
  { h with
    positions := by
      rw [filter_updatePosition hf, filter_updatePosition hf, if_pos hkey, if_pos hkey,
        h.positions] }

theorem ChangedBy.addPosition {p : TradingPosition} (hp : p.userId = u) :
    ChangedBy u d (d.addPosition p) :=
  { ChangedBy.refl u d with
    positions := fun v hv => by
      exact Rows.filter_concat_of_neg (by simpa [hp] using hv.symm) _ }

theorem Alike.addPosition (h : Alike u r d t) (p : TradingPosition) :
    Alike u r (d.addPosition p) (t.addPosition p) :=
  { h with
    positions := (List.filter_append ..).trans
      ((congrArg (· ++ _) h.positions).trans (List.filter_append ..).symm) }

end Edits

end Database

/-! ## What the queries of a user find -/

/-- `_owned_order`. -/
def ownedOrder? (d : Database) (userId orderId : Uuid) : Option TradingOrder :=
  d.orders.find? fun o => o.id = orderId ∧ o.userId = userId

/-- A query with a condition on the owner looks among the owner's rows. -/
theorem find?_owner {α : Type*} {owner q : α → Bool} {p : α → Bool} {rows : List α}
    (h : ∀ x, p x = (owner x && q x)) : rows.find? p = (rows.filter owner).find? q := by
  rw [List.find?_filter]
  congr 1
  funext x
  rw [h]
  simp

namespace Database

section Queries

variable {u : Uuid} {r : Renaming} {d t : Database}

theorem Alike.orderOfClient? (h : Alike u r d t) (clientOrderId : String) :
    orderOfClient? d u clientOrderId =
      (GnkAlgo.orderOfClient? t u clientOrderId).map (·.rename r) := by
  have howner : ∀ d : Database, GnkAlgo.orderOfClient? d u clientOrderId =
      (d.orders.filter (·.userId = u)).find? (·.clientOrderId = clientOrderId) :=
    fun d => find?_owner fun o => Bool.decide_and ..
  rw [howner, howner, h.orders, List.find?_map]
  rfl

theorem Alike.ownedOrder? (h : Alike u r d t) (id : Uuid) :
    ownedOrder? d u (r id) = (GnkAlgo.ownedOrder? t u id).map (·.rename r) := by
  have howner : ∀ (d : Database) (id : Uuid), GnkAlgo.ownedOrder? d u id =
      (d.orders.filter (·.userId = u)).find? (·.id = id) :=
    fun d id => find?_owner fun o => by rw [Bool.decide_and, Bool.and_comm]
  rw [howner, howner, h.orders, List.find?_map]
  congr 2
  funext o
  exact decide_eq_decide.2 r.inj

theorem Alike.isHalted (h : Alike u r d t) : isHalted d u = isHalted t u := by
  have howner : ∀ d : Database, GnkAlgo.isHalted d u =
      (d.controls.filter fun c => c.scopeKey = .global ∨ c.scopeKey = .user u).any (·.isHalted) := by
    intro d
    rw [List.any_filter]
    exact congrArg (List.any d.controls) (funext fun c => by simp)
  rw [howner, howner, h.controls]

theorem Alike.openOrderCount (h : Alike u r d t) : openOrderCount d u = openOrderCount t u := by
  have howner : ∀ d : Database, GnkAlgo.openOrderCount d u =
      (d.orders.filter (·.userId = u)).countP (·.status ∈ openOrderStatuses) := by
    intro d
    rw [List.countP_filter]
    exact List.countP_congr fun o _ => by simp [and_comm]
  rw [howner, howner, h.orders, List.countP_map]
  rfl

theorem Alike.position? (h : Alike u r d t) {key : PositionKey} (hkey : key.userId = u) :
    d.position? key = t.position? key := by
  have howner : ∀ d : Database, d.position? key =
      (d.positions.filter (·.userId = u)).find? (·.positionKey = key) :=
    fun d => find?_owner fun p => by
      by_cases hp : p.positionKey = key
      · have huser : p.userId = u := hkey ▸ congrArg PositionKey.userId hp
        simp [hp, huser]
      · simp [hp]
  rw [howner, howner, h.positions]

theorem Alike.heldQuantity (h : Alike u r d t) {key : PositionKey} (hkey : key.userId = u) :
    d.heldQuantity key = t.heldQuantity key := by
  rw [Database.heldQuantity, Database.heldQuantity, h.position? hkey]

theorem Alike.execution? (h : Alike u r d t) (id : BrokerExecutionId) :
    d.execution? u (id.rename r) = (t.execution? u id).map (·.rename r) := by
  have howner : ∀ (d : Database) (id : BrokerExecutionId), d.execution? u id =
      (d.executions.filter (·.userId = u)).find? (·.brokerExecutionId = some id) :=
    fun d id => find?_owner fun e => Bool.decide_and ..
  rw [howner, howner, h.executions, List.find?_map]
  congr 2
  funext e
  refine decide_eq_decide.2 ?_
  cases he : e.brokerExecutionId with
  | none => simp [TradeExecution.rename, he]
  | some i => simp [TradeExecution.rename, he, BrokerExecutionId.rename_inj]

/-- The order of an id whose rows are the user's. -/
theorem Alike.order? (h : Alike u r d t) {id : Uuid}
    (hd : ∀ y ∈ d.orders, y.id = r id → y.userId = u) (ht : ∀ y ∈ t.orders, y.id = id → y.userId = u) :
    d.order? (r id) = (t.order? id).map (·.rename r) := by
  have howner : ∀ (d : Database) (id : Uuid), (∀ y ∈ d.orders, y.id = id → y.userId = u) →
      d.order? id = GnkAlgo.ownedOrder? d u id := by
    intro d id hown
    refine List.find?_congr fun o ho => decide_eq_decide.2 ⟨fun hid => ⟨hid, hown o ho hid⟩, And.left⟩
  rw [howner d _ hd, howner t _ ht, h.ownedOrder?]

theorem Alike.restingOrders (h : Alike u r d t) (instrumentId : Uuid) :
    restingOrders d u instrumentId = (restingOrders t u instrumentId).map (·.rename r) := by
  have howner : ∀ d : Database, GnkAlgo.restingOrders d u instrumentId =
      (d.orders.filter (·.userId = u)).filter (fun o => o.instrumentId = instrumentId ∧
        o.mode = .paper ∧ (o.status = .open ∨ o.status = .partiallyFilled)) := by
    intro d
    rw [List.filter_filter]
    exact List.filter_congr fun o _ => by
      rw [Bool.decide_and, Bool.and_comm]
  rw [howner, howner, h.orders, List.filter_map]
  rfl

theorem Alike.localOrders (h : Alike u r d t) :
    localOrders d u = (localOrders t u).map (·.rename r) := by
  have howner : ∀ d : Database, GnkAlgo.localOrders d u =
      (d.orders.filter (·.userId = u)).filter
        (fun o => o.mode = .live ∧ o.status ∈ openOrderStatuses) := by
    intro d
    rw [List.filter_filter]
    exact List.filter_congr fun o _ => by
      rw [Bool.decide_and, Bool.and_comm]
  rw [howner, howner, h.orders, List.filter_map]
  rfl

theorem Alike.connection? (h : Alike u r d t) :
    (d.connections.find? fun c => c.userId = u ∧ c.broker = .dhan ∧ c.status = .connected) =
      t.connections.find? fun c => c.userId = u ∧ c.broker = .dhan ∧ c.status = .connected := by
  have howner : ∀ d : Database,
      (d.connections.find? fun c => c.userId = u ∧ c.broker = .dhan ∧ c.status = .connected) =
      (d.connections.filter (·.userId = u)).find? (fun c => c.broker = .dhan ∧ c.status = .connected) :=
    fun d => find?_owner fun c => Bool.decide_and ..
  rw [howner, howner, h.connections]

/-! ## Connections and controls -/

theorem ChangedBy.setConnection {c : BrokerConnection} (hc : c.userId = u)
    (hown : ∀ y ∈ d.connections, y.id = c.id → y.userId = u) :
    ChangedBy u d { d with connections := Rows.replaceBy BrokerConnection.id c d.connections } :=
  { ChangedBy.refl u d with
    connections := fun v hv => by
      rw [Rows.filter_replaceBy fun y hy hid => by rw [hown y hy hid, hc],
        if_neg (by simpa [hc] using hv.symm)]
    connectionKeys := Rows.map_replaceBy fun y hy hid => by rw [hid, hown y hy hid, hc] }

theorem Alike.setConnection (h : Alike u r d t) {c : BrokerConnection} (hc : c.userId = u)
    (hd : ∀ y ∈ d.connections, y.id = c.id → y.userId = u)
    (ht : ∀ y ∈ t.connections, y.id = c.id → y.userId = u) :
    Alike u r { d with connections := Rows.replaceBy BrokerConnection.id c d.connections }
      { t with connections := Rows.replaceBy BrokerConnection.id c t.connections } :=
  { h with
    connections := by
      rw [Rows.filter_replaceBy fun y hy hid => by rw [hd y hy hid, hc],
        Rows.filter_replaceBy fun y hy hid => by rw [ht y hy hid, hc],
        if_pos (by simp [hc]), if_pos (by simp [hc]), h.connections] }

/-- The content after the kill switch of a user. -/
def switched (d : Database) (scope : ControlScope) (halted : Bool) : Database :=
  { d with
    controls :=
      if d.controls.any (·.scopeKey = scope) then
        Rows.replaceBy TradingControl.scopeKey ⟨scope, halted⟩ d.controls
      else d.controls ++ [⟨scope, halted⟩] }

theorem ChangedBy.switched (halted : Bool) : ChangedBy u d (d.switched (.user u) halted) :=
  { ChangedBy.refl u d with
    controls := fun v hv => by
      have hscope : ControlScope.user u ≠ .user v := fun heq => hv (ControlScope.user.inj heq).symm
      unfold Database.switched
      dsimp only
      split
      · rw [Rows.filter_replaceBy fun y _ hy => by rw [hy], if_neg (by simp [hscope])]
      · exact Rows.filter_concat_of_neg (by simp [hscope]) _ }

theorem Alike.switched (h : Alike u r d t) (halted : Bool) :
    Alike u r (d.switched (.user u) halted) (t.switched (.user u) halted) :=
  { h with
    controls := by
      have howner : ∀ d : Database, d.controls.any (·.scopeKey = .user u) =
          (d.controls.filter fun c => c.scopeKey = .global ∨ c.scopeKey = .user u).any
            (·.scopeKey = .user u) := by
        intro d
        rw [List.any_filter]
        exact congrArg (List.any d.controls) (funext fun c => by
          by_cases hc : c.scopeKey = .user u <;> simp [hc])
      unfold Database.switched
      dsimp only
      rw [howner d, howner t, h.controls]
      split
      · rw [Rows.filter_replaceBy fun y _ hy => by rw [hy],
          Rows.filter_replaceBy fun y _ hy => by rw [hy], h.controls]
      · rw [Rows.filter_concat_of_pos (by simp), Rows.filter_concat_of_pos (by simp), h.controls] }

end Queries

end Database

/-! ## Twins -/

/-- The operations of a user have made `d` of what `s` holds and `t` of what `s'`
holds, and the two look alike. -/
structure Twin (u : Uuid) (r : Renaming) (s s' : Store) (d t : Database) : Prop where
  left : Database.ChangedBy u s.toDatabase d
  right : Database.ChangedBy u s'.toDatabase t
  alike : Database.Alike u r d t

section Twin

variable {u : Uuid} {r : Renaming} {s s' : Store} {d t : Database} {o : TradingOrder}

/-- There is one owner for an id. -/
theorem Database.ChangedBy.owned (h : Database.ChangedBy u s.toDatabase d) {id v : Uuid}
    (hid : (id, v) ∈ d.owners) : ∀ y ∈ d.orders, y.id = id → y.userId = v := by
  intro y hy hyid
  obtain ⟨x, hx, heq⟩ := List.mem_map.1 hid
  obtain ⟨rfl, rfl⟩ := Prod.mk.inj heq
  rw [List.inj_on_of_nodup_map (h.orderIds s.valid).1 hy hx hyid]

theorem Database.Alike.owner (h : Database.Alike u r d t) {id : Uuid} (hid : (id, u) ∈ t.owners) :
    (r id, u) ∈ d.owners := by
  obtain ⟨x, hx, heq⟩ := List.mem_map.1 hid
  obtain ⟨rfl, rfl⟩ := Prod.mk.inj heq
  have hrow : x.rename r ∈ d.orders.filter (·.userId = x.userId) := by
    rw [h.orders]
    exact List.mem_map_of_mem (List.mem_filter.2 ⟨hx, decide_eq_true rfl⟩)
  exact List.mem_map.2 ⟨_, (List.mem_filter.1 hrow).1, rfl⟩

namespace Twin

theorem refl (h : Database.Alike u r s.toDatabase s'.toDatabase) :
    Twin u r s s' s.toDatabase s'.toDatabase :=
  ⟨.refl _ _, .refl _ _, h⟩

theorem setOrder (h : Twin u r s s' d t) (ho : o.userId = u) (hrow : (o.id, u) ∈ t.owners) :
    Twin u r s s' (d.setOrder (o.rename r)) (t.setOrder o) where
  left := h.left.trans (.setOrder ho (h.left.owned (h.alike.owner hrow)))
  right := h.right.trans (.setOrder ho (h.right.owned hrow))
  alike := h.alike.setOrder ho (h.left.owned (h.alike.owner hrow)) (h.right.owned hrow)

theorem insertOrder (h : Twin u r s s' d t) (ho : o.userId = u) (hid : o.id = t.nextUuid) :
    Twin u r s s' (d.insertOrder (o.rename r)) (t.insertOrder o) where
  left := h.left.trans (.insertOrder ((congrArg r hid).trans h.alike.nextUuid.symm) ho)
  right := h.right.trans (.insertOrder hid ho)
  alike := h.alike.insertOrder ho

theorem draw (h : Twin u r s s' d t) :
    Twin u r s s' { d with nextUuid := d.nextUuid + 1 } { t with nextUuid := t.nextUuid + 1 } :=
  ⟨h.left.trans .draw, h.right.trans .draw, h.alike.draw⟩

theorem addExecution (h : Twin u r s s' d t) {e : TradeExecution} (he : e.userId = u)
    (hrow : (e.orderId, u) ∈ t.owners) :
    Twin u r s s' (d.addExecution (e.rename r)) (t.addExecution e) where
  left := h.left.trans (.addExecution (e := e.rename r) he (h.alike.owner hrow))
  right := h.right.trans (.addExecution he hrow)
  alike := h.alike.addExecution he

theorem updatePosition (h : Twin u r s s' d t) {key : PositionKey}
    {f : TradingPosition → TradingPosition} (hkey : key.userId = u)
    (hf : ∀ p, (f p).positionKey = p.positionKey) :
    Twin u r s s' (d.updatePosition key f) (t.updatePosition key f) :=
  ⟨h.left.trans (.updatePosition hkey hf), h.right.trans (.updatePosition hkey hf),
    h.alike.updatePosition hkey hf⟩

theorem addPosition (h : Twin u r s s' d t) {p : TradingPosition} (hp : p.userId = u) :
    Twin u r s s' (d.addPosition p) (t.addPosition p) :=
  ⟨h.left.trans (.addPosition hp), h.right.trans (.addPosition hp), h.alike.addPosition p⟩

theorem order? (h : Twin u r s s' d t) {id : Uuid} (hrow : (id, u) ∈ t.owners) :
    d.order? (r id) = (t.order? id).map (·.rename r) :=
  h.alike.order? (h.left.owned (h.alike.owner hrow)) (h.right.owned hrow)

end Twin

/-! ### Constraints -/

/-- The constraints that a user's operations can break are those on the rows of the user. -/
theorem Database.ChangedBy.valid_iff (h : Database.ChangedBy u s.toDatabase d)
    (hs : s.toDatabase.Tenanted) : d.Valid ↔
      ((d.orders.filter (·.userId = u)).map TradingOrder.clientKey).Nodup ∧
      ((d.positions.filter (·.userId = u)).map TradingPosition.positionKey).Nodup ∧
      ((d.executions.filter (·.userId = u)).filterMap TradeExecution.brokerKey).Nodup ∧
      ∀ e ∈ d.executions.filter (·.userId = u), ∀ n, e.brokerExecutionId = some (.paper n) →
        n < d.nextUuid := by
  have hclient : (d.orders.map TradingOrder.clientKey).Nodup ↔
      ((d.orders.filter (·.userId = u)).map TradingOrder.clientKey).Nodup := by
    rw [← List.filterMap_eq_map]
    exact Rows.nodup_filterMap_iff_of_owner
      (fun x y k hx hy => congrArg Prod.fst (Option.some_inj.1 (hx.trans hy.symm))) h.orders
      (by rw [List.filterMap_eq_map]; exact s.valid.clientKeys)
  have hposition : (d.positions.map TradingPosition.positionKey).Nodup ↔
      ((d.positions.filter (·.userId = u)).map TradingPosition.positionKey).Nodup := by
    rw [← List.filterMap_eq_map]
    exact Rows.nodup_filterMap_iff_of_owner
      (fun x y k hx hy => congrArg PositionKey.userId (Option.some_inj.1 (hx.trans hy.symm)))
      h.positions (by rw [List.filterMap_eq_map]; exact s.valid.positionKeys)
  have hbroker := Rows.nodup_filterMap_iff_of_owner (f := TradeExecution.brokerKey)
    (fun x y k hx hy => by
      obtain ⟨i, -, rfl⟩ := Option.map_eq_some_iff.1 hx
      obtain ⟨j, -, hj⟩ := Option.map_eq_some_iff.1 hy
      exact (congrArg Prod.fst hj).symm) h.executions s.valid.brokerKeys
  have hpaper : ∀ (e : TradeExecution) (m : Uuid), (∀ n ∈ e.brokerExecutionId.toList.filterMap
      (fun | .paper n => some n | .exchange _ => none), n < m) ↔
      ∀ n, e.brokerExecutionId = some (.paper n) → n < m := by
    intro e m
    cases e.brokerExecutionId with
    | none => simp
    | some i => cases i <;> simp
  constructor
  · intro hd
    exact ⟨hclient.1 hd.clientKeys, hposition.1 hd.positionKeys, hbroker.1 hd.brokerKeys,
      fun e he => (hpaper e _).1 (hd.paperUuids e (List.mem_filter.1 he).1)⟩
  · rintro ⟨hc, hp, hb, hn⟩
    refine ⟨(h.orderIds s.valid).1, hclient.2 hc, hposition.2 hp, hbroker.2 hb, fun e he => ?_,
      fun o ho => (h.orderIds s.valid).2 (o.id, o.userId) (List.mem_map.2 ⟨o, ho, rfl⟩),
      fun e he => (hpaper e _).2 fun n hid => ?_⟩
    · obtain ⟨o, ho, heq⟩ := List.mem_map.1 ((h.tenanted hs).executed e he)
      exact List.mem_map.2 ⟨o, ho, congrArg Prod.fst heq⟩
    · by_cases hu : e.userId = u
      · exact hn e (List.mem_filter.2 ⟨he, decide_eq_true hu⟩) n hid
      · have hold : e ∈ s.executions.filter (·.userId = e.userId) := by
          rw [← h.executions e.userId hu]
          exact List.mem_filter.2 ⟨he, decide_eq_true rfl⟩
        exact ((hpaper e _).1 (s.valid.paperUuids e (List.mem_filter.1 hold).1) n hid).trans_le
          h.nextUuid

theorem TradeExecution.brokerKey_rename (r : Renaming) (e : TradeExecution) :
    (e.rename r).brokerKey = e.brokerKey.map fun k => (k.1, k.2.rename r) := by
  unfold TradeExecution.brokerKey TradeExecution.rename
  cases e.brokerExecutionId <;> rfl

/-- **The constraints hold on both sides or on none.** -/
theorem Twin.valid_iff (h : Twin u r s s' d t) (hs : s.toDatabase.Tenanted)
    (hs' : s'.toDatabase.Tenanted) : d.Valid ↔ t.Valid := by
  rw [h.left.valid_iff hs, h.right.valid_iff hs', h.alike.orders, h.alike.positions,
    h.alike.executions, h.alike.nextUuid]
  refine and_congr ?_ (and_congr Iff.rfl (and_congr ?_ ?_))
  · rw [List.map_map]
    exact Iff.rfl
  · have hkeys : ∀ l : List TradeExecution, (l.map (·.rename r)).filterMap
        TradeExecution.brokerKey = (l.filterMap TradeExecution.brokerKey).map
          fun k => (k.1, k.2.rename r) := by
      intro l
      rw [List.filterMap_map, List.map_filterMap]
      exact List.filterMap_congr fun e _ => e.brokerKey_rename r
    rw [hkeys]
    refine List.nodup_map_iff fun k k' hk => ?_
    obtain ⟨hfst, hsnd⟩ := Prod.mk.inj hk
    exact Prod.ext hfst (BrokerExecutionId.rename_inj.1 hsnd)
  · rw [List.forall_mem_map]
    refine forall₂_congr fun e _ => ?_
    cases he : e.brokerExecutionId with
    | none => simp [TradeExecution.rename, he]
    | some i =>
      cases i with
      | paper n => simp [TradeExecution.rename, he, BrokerExecutionId.rename, r.strictMono.lt_iff_lt]
      | exchange tradeId => simp [TradeExecution.rename, he, BrokerExecutionId.rename]

end Twin

end GnkAlgo
