import GnkAlgo.Trading.PassRows
import GnkAlgo.Trading.Tenants

/-!
# A round of the reconciler

`DhanOrderReconciler.reconcile_once` of `backend/app/trading/reconcile.py`: every
connected Dhan account in turn, each in a transaction of its own.  An account whose
credentials are incomplete is passed over, and one whose books cannot be had, or
cannot be applied, is rolled back.

* `reconcileConnection`, `reconcileOnce` — the body of the loop, and the loop;
* `reconcile_own` — what a pass over a user's account can write;
* `reconcileOnce_apart` — in whatever order the accounts are taken and whatever
  becomes of the others, a round leaves each user what a pass over that user's own
  account leaves, and nothing but open LIVE orders of these accounts is rewritten.
-/

namespace GnkAlgo

/-! ## The round -/

/-- What the requests for the two books of an account end with. -/
inductive BookFetch
  | books (brokerOrders : List BrokerOrderItem) (trades : List TradeItem)
  /-- `DhanOrderError`. -/
  | refused (code : String)
  /-- Any other exception: of the key, of the network, or of an entry that is no number. -/
  | failed

/-- `credentials.get("client_id") or connection.broker_client_id`, where there is a token
as well. -/
def BrokerConnection.dhanClientId (c : BrokerConnection) : Option String :=
  match orMissing c.credentials.accessToken with
  | none => none
  | some _ => (orMissing c.credentials.clientId).or (orMissing c.brokerClientId)

/-- The connections of a round. -/
def connectedDhan (d : Database) : List BrokerConnection :=
  d.connections.filter fun c => c.broker = .dhan ∧ c.status = .connected

/-- The body of the loop of `reconcile_once`. -/
def reconcileConnection (now : BrokerConnection → Time) (fetch : BrokerConnection → BookFetch)
    (s : Store) (c : BrokerConnection) : Store :=
  match c.dhanClientId with
  | none => s
  | some _ =>
    match fetch c with
    | .books brokerOrders trades => (reconcile (now c) s c.userId brokerOrders trades).1
    | .refused _ => s
    | .failed => s

/-- `reconcile_once`. -/
def reconcileOnce (now : BrokerConnection → Time) (fetch : BrokerConnection → BookFetch)
    (s : Store) : Store :=
  (connectedDhan s.toDatabase).foldl (reconcileConnection now fetch) s

/-- The rows of a user that a pass can write. -/
def Database.rowsOf (d : Database) (u : Uuid) :
    List TradingOrder × List TradeExecution × List TradingPosition :=
  (d.orders.filter (·.userId = u), d.executions.filter (·.userId = u),
    d.positions.filter (·.userId = u))

/-! ## What a pass leaves alone -/

/-- Columns that no pass writes. -/
structure Database.SameFrame (d d' : Database) : Prop where
  controls : d'.controls = d.controls
  connections : d'.connections = d.connections
  nextUuid : d'.nextUuid = d.nextUuid

section Passes

variable {now : Time} {s : Store} {p : Pass} {d d' d'' : Database}

theorem Database.SameFrame.refl (d : Database) : d.SameFrame d := ⟨rfl, rfl, rfl⟩

theorem Database.SameFrame.trans (h : d.SameFrame d') (h' : d'.SameFrame d'') : d.SameFrame d'' :=
  ⟨h'.controls.trans h.controls, h'.connections.trans h.connections, h'.nextUuid.trans h.nextUuid⟩

theorem sameFrame_attach (p : Pass) (item : BrokerOrderItem) :
    p.session.work.SameFrame (p.attach item).session.work := by
  unfold Pass.attach
  split
  · exact .refl _
  split
  · exact ⟨rfl, rfl, rfl⟩
  · exact .refl _

theorem sameFrame_importTrade (now : Time) (p : Pass) (item : TradeItem) :
    p.session.work.SameFrame (p.importTrade now item).session.work := by
  unfold Pass.importTrade
  split
  · exact .refl _
  rename_i o _
  split
  · exact .refl _
  rcases applyExecution_cases now p.session o item.tradedQuantity item.tradedPrice
    .dhanReconciliation (some (.exchange item.exchangeTradeId))
    (some (tradeTime now item.exchangeTime)) with ⟨-, h⟩ | ⟨-, -, h⟩ | ⟨-, -, -, h⟩
  · rw [h]
    exact .refl _
  · rw [h]
    exact ⟨rfl, rfl, rfl⟩
  · rw [h]
    constructor
    · exact Session.bookPosition_controls
    · exact Session.bookPosition_connections
    · exact Session.bookPosition_nextUuid

theorem sameFrame_takeStatus (now : Time) (p : Pass) (item : BrokerOrderItem) :
    p.session.work.SameFrame (p.takeStatus now item).session.work := by
  unfold Pass.takeStatus
  split
  · exact .refl _
  · exact ⟨rfl, rfl, rfl⟩

theorem sameFrame_foldl {β : Type} {step : Pass → β → Pass}
    (hstep : ∀ (p : Pass) x, p.session.work.SameFrame (step p x).session.work) (l : List β) (p : Pass) :
    p.session.work.SameFrame (l.foldl step p).session.work :=
  List.foldlRecOn (motive := fun q : Pass => p.session.work.SameFrame q.session.work) l step
    (.refl _) fun q hq x _ => hq.trans (hstep q x)

theorem sameFrame_reconcile (now : Time) (s : Store) (userId : Uuid)
    (brokerOrders : List BrokerOrderItem) (trades : List TradeItem) :
    s.toDatabase.SameFrame (reconcile now s userId brokerOrders trades).1.toDatabase := by
  have hwork : s.toDatabase.SameFrame
      (reconcileApply now s.begin userId brokerOrders trades).work :=
    (sameFrame_foldl sameFrame_attach brokerOrders (startPass s.begin userId)).trans
      ((sameFrame_foldl (sameFrame_importTrade now) trades _).trans
        (sameFrame_foldl (sameFrame_takeStatus now) brokerOrders _))
  unfold reconcile
  by_cases hvalid : (reconcileApply now s.begin userId brokerOrders trades).work.Valid
  · rw [Session.commitOr_of_valid hvalid]
    exact hwork
  · rw [Session.commitOr_of_not_valid hvalid]
    exact .refl _

/-- A pass that is not committed leaves what there was. -/
theorem reconcile_cases (now : Time) (s : Store) (userId : Uuid)
    (brokerOrders : List BrokerOrderItem) (trades : List TradeItem) :
    (reconcile now s userId brokerOrders trades).2 = .ok () ∨
      (reconcile now s userId brokerOrders trades).1 = s := by
  unfold reconcile
  by_cases hvalid : (reconcileApply now s.begin userId brokerOrders trades).work.Valid
  · rw [Session.commitOr_of_valid hvalid]
    exact Or.inl rfl
  · rw [Session.commitOr_of_not_valid hvalid]
    exact Or.inr rfl

end Passes

/-! ## One account -/

section Accounts

variable (now : BrokerConnection → Time) (fetch : BrokerConnection → BookFetch) {s w : Store}
  {c : BrokerConnection} {u : Uuid} {conns : List BrokerConnection} {o : TradingOrder}

/-- An account is passed over or rolled back, or its books are applied. -/
theorem reconcileConnection_cases (c : BrokerConnection) :
    (∀ s, reconcileConnection now fetch s c = s) ∨
    ∃ brokerOrders trades, ∀ s, reconcileConnection now fetch s c =
      (reconcile (now c) s c.userId brokerOrders trades).1 := by
  unfold reconcileConnection
  cases c.dhanClientId with
  | none => exact Or.inl fun _ => rfl
  | some clientId =>
    cases fetch c with
    | books brokerOrders trades => exact Or.inr ⟨brokerOrders, trades, fun _ => rfl⟩
    | refused code => exact Or.inl fun _ => rfl
    | failed => exact Or.inl fun _ => rfl

theorem sameFrame_reconcileConnection (s : Store) (c : BrokerConnection) :
    s.toDatabase.SameFrame (reconcileConnection now fetch s c).toDatabase := by
  rcases reconcileConnection_cases now fetch c with hsame | ⟨brokerOrders, trades, happlied⟩
  · rw [hsame]
    exact .refl _
  · rw [happlied]
    exact sameFrame_reconcile ..

/-- The rows that change are the user's. -/
theorem changedBy_reconcileConnection (hs : s.toDatabase.Tenanted) (c : BrokerConnection) :
    Database.ChangedBy c.userId s.toDatabase (reconcileConnection now fetch s c).toDatabase := by
  rcases reconcileConnection_cases now fetch c with hsame | ⟨brokerOrders, trades, happlied⟩
  · rw [hsame]
    exact .refl _ _
  · rw [happlied]
    exact (Twin.reconcile (.self c.userId s) hs hs (now c) brokerOrders trades).twin.left

theorem rowsOf_other (hs : s.toDatabase.Tenanted) (hu : u ≠ c.userId) :
    (reconcileConnection now fetch s c).toDatabase.rowsOf u = s.toDatabase.rowsOf u := by
  have hchanged := changedBy_reconcileConnection now fetch hs c
  rw [Database.rowsOf, hchanged.orders u hu, hchanged.executions u hu, hchanged.positions u hu]
  rfl

/-- Two contents in which the rows of the user are the same. -/
theorem alike_same (hrows : w.toDatabase.rowsOf u = s.toDatabase.rowsOf u)
    (hframe : s.toDatabase.SameFrame w.toDatabase) :
    Database.Alike u (.same s.nextUuid) w.toDatabase s.toDatabase where
  orders := (congrArg Prod.fst hrows).trans (List.map_id _).symm
  executions := (congrArg (fun rows => rows.2.1) hrows).trans
    ((List.map_congr_left fun e _ => e.rename_same s.nextUuid).trans (List.map_id _)).symm
  positions := congrArg (fun rows => rows.2.2) hrows
  controls := congrArg _ hframe.controls
  connections := congrArg _ hframe.connections
  nextUuid := hframe.nextUuid
  bound := le_refl _

theorem rowsOf_of_alike {d t : Database} {n : Uuid} (h : Database.Alike u (.same n) d t) :
    d.rowsOf u = t.rowsOf u := by
  have horders : d.orders.filter (·.userId = u) = t.orders.filter (·.userId = u) :=
    h.orders.trans (List.map_id _)
  have hexecutions : d.executions.filter (·.userId = u) = t.executions.filter (·.userId = u) :=
    h.executions.trans ((List.map_congr_left fun e _ => e.rename_same n).trans (List.map_id _))
  rw [Database.rowsOf, horders, hexecutions, h.positions]
  rfl

/-- The user's own account, after those of others. -/
theorem rowsOf_own (hs : s.toDatabase.Tenanted) (hw : w.toDatabase.Tenanted)
    (hrows : w.toDatabase.rowsOf c.userId = s.toDatabase.rowsOf c.userId)
    (hframe : s.toDatabase.SameFrame w.toDatabase) :
    (reconcileConnection now fetch w c).toDatabase.rowsOf c.userId =
      (reconcileConnection now fetch s c).toDatabase.rowsOf c.userId := by
  rcases reconcileConnection_cases now fetch c with hsame | ⟨brokerOrders, trades, happlied⟩
  · rw [hsame, hsame]
    exact hrows
  · rw [happlied, happlied]
    have hend := Twin.reconcile (alike_same hrows hframe) hw hs (now c) brokerOrders trades
    exact rowsOf_of_alike hend.twin.alike

/-! ## All accounts -/

/-- What the accounts of others leave. -/
structure LeftBy (u : Uuid) (s w : Store) : Prop where
  rows : w.toDatabase.rowsOf u = s.toDatabase.rowsOf u
  frame : s.toDatabase.SameFrame w.toDatabase
  tenanted : w.toDatabase.Tenanted

theorem leftBy_others (hs : s.toDatabase.Tenanted) (hothers : ∀ c ∈ conns, c.userId ≠ u) :
    LeftBy u s (conns.foldl (reconcileConnection now fetch) s) := by
  refine List.foldlRecOn (motive := LeftBy u s) conns _ ⟨rfl, .refl _, hs⟩ fun w hw c hc => ?_
  exact ⟨(rowsOf_other now fetch hw.tenanted (hothers c hc).symm).trans hw.rows,
    hw.frame.trans (sameFrame_reconcileConnection now fetch w c),
    (changedBy_reconcileConnection now fetch hw.tenanted c).tenanted hw.tenanted⟩

/-- **A user's account among others.** -/
theorem rowsOf_foldl_connections (hs : s.toDatabase.Tenanted)
    (hunique : (conns.map BrokerConnection.userId).Nodup) (hc : c ∈ conns) :
    (conns.foldl (reconcileConnection now fetch) s).toDatabase.rowsOf c.userId =
      (reconcileConnection now fetch s c).toDatabase.rowsOf c.userId := by
  obtain ⟨before, after, rfl⟩ := List.append_of_mem hc
  rw [List.map_append, List.map_cons] at hunique
  have hsplit := List.nodup_append'.1 hunique
  have hbefore : ∀ x ∈ before, x.userId ≠ c.userId := fun x hx hsame =>
    hsplit.2.2 (List.mem_map_of_mem hx) (hsame ▸ List.mem_cons_self ..)
  have hafter : ∀ x ∈ after, x.userId ≠ c.userId := fun x hx hsame =>
    (List.nodup_cons.1 hsplit.2.1).1 (hsame ▸ List.mem_map_of_mem hx)
  have hleft : LeftBy c.userId s (before.foldl (reconcileConnection now fetch) s) :=
    leftBy_others now fetch hs hbefore
  have hown := rowsOf_own now fetch hs hleft.tenanted hleft.rows hleft.frame
  rw [List.foldl_append, List.foldl_cons]
  have htenanted := (changedBy_reconcileConnection now fetch hleft.tenanted
    c).tenanted hleft.tenanted
  have hlast : LeftBy c.userId _ (after.foldl (reconcileConnection now fetch) _) :=
    leftBy_others now fetch htenanted hafter
  exact hlast.rows.trans hown

/-- A user has one Dhan account. -/
theorem nodup_connectedDhan {d : Database}
    (hunique : (d.connections.map fun c => (c.userId, c.broker)).Nodup) :
    ((connectedDhan d).map BrokerConnection.userId).Nodup := by
  refine List.Nodup.of_map (fun u => (u, BrokerName.dhan)) ?_
  have hbroker : ((connectedDhan d).map BrokerConnection.userId).map (fun u => (u, BrokerName.dhan)) =
      (connectedDhan d).map fun c => (c.userId, c.broker) := by
    rw [List.map_map]
    refine List.map_congr_left fun c hc => ?_
    have hdhan := (of_decide_eq_true (List.mem_filter.1 hc).2).1
    rw [hdhan]
    rfl
  rw [hbroker]
  exact hunique.sublist (List.filter_sublist.map _)

/-- A pass keeps the orders it does not load. -/
theorem mem_reconcileConnection (ho : o ∈ s.orders) (hnot : o ∉ localOrders s.toDatabase c.userId) :
    o ∈ (reconcileConnection now fetch s c).orders := by
  rcases reconcileConnection_cases now fetch c with hsame | ⟨brokerOrders, trades, happlied⟩
  · rw [hsame]
    exact ho
  · rw [happlied]
    rcases reconcile_cases (now c) s c.userId brokerOrders trades with hok | hsame
    · rw [reconcile_orders hok]
      exact List.mem_map.2 ⟨o, ho, endRow_of_not_local (now c) trades ho hnot⟩
    · rw [hsame]
      exact ho

end Accounts

/-- **The accounts of a round are apart.**  In whatever order the connected accounts are
taken, each user is left what a pass over that user's own account, begun from the content
the round began with, leaves; a user without one keeps every row; an order that was not
an open LIVE one stays as it was; and controls, connections and ids are not touched. -/
theorem reconcileOnce_apart (now : BrokerConnection → Time) (fetch : BrokerConnection → BookFetch)
    {s : Store} (hs : s.toDatabase.Tenanted)
    (hunique : (s.connections.map fun c => (c.userId, c.broker)).Nodup)
    {conns : List BrokerConnection} (hperm : conns.Perm (connectedDhan s.toDatabase)) :
    let t := conns.foldl (reconcileConnection now fetch) s
    (∀ c ∈ conns, t.toDatabase.rowsOf c.userId =
      (reconcileConnection now fetch s c).toDatabase.rowsOf c.userId) ∧
    (∀ u, (∀ c ∈ conns, c.userId ≠ u) → t.toDatabase.rowsOf u = s.toDatabase.rowsOf u) ∧
    (∀ o ∈ s.orders, o ∉ localOrders s.toDatabase o.userId → o ∈ t.orders) ∧
    s.toDatabase.SameFrame t.toDatabase := by
  have husers : (conns.map BrokerConnection.userId).Nodup := by
    rw [(hperm.map _).nodup_iff]
    exact nodup_connectedDhan hunique
  have hown : ∀ c ∈ conns, (conns.foldl (reconcileConnection now fetch) s).toDatabase.rowsOf
      c.userId = (reconcileConnection now fetch s c).toDatabase.rowsOf c.userId :=
    fun c hc => rowsOf_foldl_connections now fetch hs husers hc
  have hothers : ∀ u, (∀ c ∈ conns, c.userId ≠ u) →
      (conns.foldl (reconcileConnection now fetch) s).toDatabase.rowsOf u =
        s.toDatabase.rowsOf u := fun u hu => (leftBy_others now fetch hs hu).rows
  refine ⟨hown, hothers, fun o ho hnot => ?_, ?_⟩
  · have hrows : ∃ w : Store, o ∈ w.orders ∧
        (conns.foldl (reconcileConnection now fetch) s).toDatabase.rowsOf o.userId =
          w.toDatabase.rowsOf o.userId := by
      by_cases hconnected : ∃ c ∈ conns, c.userId = o.userId
      · obtain ⟨c, hc, huser⟩ := hconnected
        exact ⟨_, mem_reconcileConnection now fetch ho (huser ▸ hnot), huser ▸ hown c hc⟩
      · exact ⟨s, ho, hothers o.userId fun c hc huser => hconnected ⟨c, hc, huser⟩⟩
    obtain ⟨w, hw, hsame⟩ := hrows
    have hmem : o ∈ w.orders.filter (·.userId = o.userId) :=
      List.mem_filter.2 ⟨hw, decide_eq_true rfl⟩
    have horders : (conns.foldl (reconcileConnection now fetch) s).orders.filter
        (·.userId = o.userId) = w.orders.filter (·.userId = o.userId) := congrArg Prod.fst hsame
    rw [← horders] at hmem
    exact (List.mem_filter.1 hmem).1
  · exact List.foldlRecOn (motive := fun w : Store => s.toDatabase.SameFrame w.toDatabase) conns _
      (.refl _) fun w hw c _ => hw.trans (sameFrame_reconcileConnection now fetch w c)

/-- The open orders of two users with one account each, both with the broker's id 1. -/
def twoAccounts : Store where
  orders := [
    { id := 1, userId := 7, instrumentId := 3, clientOrderId := "a", brokerOrderId := some "1",
      mode := .live, side := .buy, orderType := .limit, productType := .intraday, validity := .day,
      quantity := 10, limitPrice := some 100, status := .open },
    { id := 2, userId := 8, instrumentId := 3, clientOrderId := "a", brokerOrderId := some "1",
      mode := .live, side := .sell, orderType := .limit, productType := .intraday, validity := .day,
      quantity := 10, limitPrice := some 100, status := .open }]
  connections := [
    ⟨3, 7, .dhan, some "c7", ⟨none, some "t7"⟩, .connected, none, none⟩,
    ⟨4, 8, .dhan, some "c8", ⟨none, some "t8"⟩, .connected, none, none⟩]
  nextUuid := 10
  valid := by decide

/-- The books of the first, with a trade, are there, and those of the second not. -/
def twoFetches (c : BrokerConnection) : BookFetch :=
  if c.userId = 7 then .books [] (twoTrades.take 1) else .refused "BROKER_UNAVAILABLE"

theorem reconcileOnce_apart_twoAccounts :
    (reconcileOnce (fun _ => 0) twoFetches twoAccounts).toDatabase.rowsOf 7 =
      (reconcile 0 twoAccounts 7 [] (twoTrades.take 1)).1.toDatabase.rowsOf 7 ∧
    (reconcileOnce (fun _ => 0) twoFetches twoAccounts).toDatabase.rowsOf 8 =
      twoAccounts.toDatabase.rowsOf 8 ∧
    (reconcileOnce (fun _ => 0) twoFetches twoAccounts).orders.map TradingOrder.filledQuantity =
      [4, 0] := by
  have happly := (reconcileOnce_apart (fun _ => 0) twoFetches (s := twoAccounts)
    ⟨by decide, by decide⟩ (by decide) (.refl _)).1
  exact ⟨happly ⟨3, 7, .dhan, some "c7", ⟨none, some "t7"⟩, .connected, none, none⟩ (by decide),
    happly ⟨4, 8, .dhan, some "c8", ⟨none, some "t8"⟩, .connected, none, none⟩ (by decide),
    by decide +kernel⟩

end GnkAlgo
