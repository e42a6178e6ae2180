import GnkAlgo.Trading.PassRows

/-!
# The limit on open orders

`_risk_check` counts a user's open orders when an order is placed, and nowhere
else.  The limit holds along every run because no call opens an order that is
closed: `OpensOne` says what a call may do to the rows of the orders.

* `StaysClosed` — the row of an order before and after a call;
* `opensOne_callStep` — every call, in either mode, and every pass;
* `open_orders_capped` — the limit along a run.
-/

namespace GnkAlgo

open Transition

/-! ## Calls -/

/-- A call of the order manager, a pass of the reconciler or a quote, under the
settings it meets. -/
inductive TradingCall
  | order (settings : Settings) (event : OrderEvent)
  | quote (settings : Settings) (now : Time) (userId : Uuid) (quote : NormalizedQuote)

def TradingCall.settings : TradingCall → Settings
  | .order settings _ | .quote settings _ _ _ => settings

/-- One call, run to completion. -/
def callStep (s : Store) : TradingCall → Store
  | .order settings event => orderStep settings s event
  | .quote settings now userId quote => (processQuote settings now s userId quote).1

/-! ## What a call may do -/

/-- The same order of the same user, open only if it was. -/
structure TradingOrder.StaysClosed (o new : TradingOrder) : Prop where
  id : new.id = o.id
  userId : new.userId = o.userId
  wasOpen : new.status ∈ openOrderStatuses → o.status ∈ openOrderStatuses

theorem TradingOrder.StaysClosed.refl (o : TradingOrder) : o.StaysClosed o := ⟨rfl, rfl, fun h => h⟩

/-- Rows of the orders of a database, none of which has been opened. -/
def Database.NoneOpened (d : Database) (rows : List TradingOrder) : Prop :=
  List.Forall₂ TradingOrder.StaysClosed d.orders rows

/-- No order is opened but a new one, of a user below the limit. -/
inductive Database.OpensOne (cap : ℕ) (d d' : Database) : Prop
  | none (h : d.NoneOpened d'.orders)
  | one (o : TradingOrder) (h : d'.orders = d.orders ++ [o])
    (hbelow : openOrderCount d o.userId < cap)

section Rows

variable {d d' : Database} {cap : ℕ} {o new : TradingOrder} {rows : List TradingOrder}

theorem Database.NoneOpened.refl (d : Database) : d.NoneOpened d.orders :=
  List.forall₂_same.2 fun o _ => .refl o

/-- The row of an open order may become any row of that order. -/
theorem Database.NoneOpened.replace (h : d.NoneOpened rows)
    (hids : (rows.map TradingOrder.id).Nodup) (ho : o ∈ rows) (hopen : o.status ∈ openOrderStatuses)
    (hid : new.id = o.id) (huser : new.userId = o.userId) :
    d.NoneOpened (Rows.replaceBy TradingOrder.id new rows) := by
  refine Rows.forall₂_replaceBy h fun x z hz hkey hxz => ?_
  obtain rfl : z = o := List.inj_on_of_nodup_map hids hz ho (hkey.trans hid)
  exact ⟨hid.trans hxz.id, huser.trans hxz.userId, fun _ => hxz.wasOpen hopen⟩

theorem Database.Valid.noneOpened_setOrder (hd : d.Valid) (ho : o ∈ d.orders)
    (hopen : o.status ∈ openOrderStatuses) (hid : new.id = o.id) (huser : new.userId = o.userId) :
    d.NoneOpened (d.setOrder new).orders :=
  (Database.NoneOpened.refl d).replace hd.orderIds ho hopen hid huser

theorem Database.NoneOpened.count_le (h : d.NoneOpened d'.orders) (userId : Uuid) :
    openOrderCount d' userId ≤ openOrderCount d userId := by
  refine Rows.countP_le_of_forall₂ h fun o new hsame hcounted => ?_
  obtain ⟨huser, hopen⟩ := of_decide_eq_true hcounted
  exact decide_eq_true ⟨hsame.userId.symm.trans huser, hsame.wasOpen hopen⟩

/-- **The limit is kept.** -/
theorem Database.OpensOne.count_le (h : d.OpensOne cap d')
    (hcap : ∀ userId, openOrderCount d userId ≤ cap) (userId : Uuid) :
    openOrderCount d' userId ≤ cap := by
  cases h with
  | none h => exact (h.count_le userId).trans (hcap userId)
  | one o h hbelow =>
    unfold openOrderCount at hbelow ⊢
    rw [h, List.countP_append, List.countP_singleton]
    split_ifs with hcounted
    · obtain ⟨rfl, -⟩ := of_decide_eq_true hcounted
      exact hbelow
    · exact hcap userId

/-- **No order is reopened.** -/
theorem Database.OpensOne.terminal (h : d.OpensOne cap d') (ho : o ∈ d.orders)
    (hterminal : o.status ∈ terminalStatuses) :
    ∃ new ∈ d'.orders, new.id = o.id ∧ new.status ∈ terminalStatuses := by
  cases h with
  | none h =>
    obtain ⟨new, hnew, hsame⟩ := Rows.exists_right_of_forall₂ h ho
    refine ⟨new, hnew, hsame.id, mem_terminalStatuses.2 fun hopen => ?_⟩
    exact mem_terminalStatuses.1 hterminal (hsame.wasOpen hopen)
  | one new h _ => exact ⟨o, by rw [h]; exact List.mem_append_left _ ho, rfl, hterminal⟩

end Rows

/-! ## Each call -/

section Calls

variable {settings : Settings} {cap : ℕ} {s t : Store} {o : TradingOrder}

theorem Store.SameTrading.noneOpened (h : s.SameTrading t) : s.NoneOpened t.orders := by
  rw [h.orders]
  exact .refl s.toDatabase

theorem openOrderCount_lt_of_riskCheck {userId instrumentId : Uuid} {side : OrderSide}
    {productType : ProductType} {quantity : ℤ} {price : ℚ} {mode : Mode}
    (h : riskCheck settings s.toDatabase userId instrumentId side productType quantity price mode =
      .ok ()) : openOrderCount s.toDatabase userId < settings.tradingMaxOpenOrders :=
  (riskCheck_eq_ok.1 h).2.2.2.1

theorem opensOne_paperPlace (now : Time) (userId instrumentId : Uuid) (values : OrderValues)
    (quote : Option NormalizedQuote) :
    s.OpensOne settings.tradingMaxOpenOrders
      (paperPlace settings now s userId instrumentId values quote).1.toDatabase := by
  rcases paperPlace_cases settings now s userId instrumentId values quote with
    hs | ⟨price, t, -, hrisk, hvalid, hsettled, hs⟩
  · rw [hs]
    exact .none (.refl s.toDatabase)
  have hbelow := openOrderCount_lt_of_riskCheck hrisk
  have hnew : ∀ y ∈ s.orders, y.id ≠ s.nextUuid := fun y hy heq =>
    absurd (s.valid.orderUuids y hy) (heq ▸ lt_irrefl _)
  rw [hs]
  cases hsettled with
  | rests => exact .one (paperOrder s.nextUuid userId instrumentId values now) rfl hbelow
  | canceled =>
    exact .one { paperOrder s.nextUuid userId instrumentId values now with
      status := .canceled, completedAt := some now }
      (Rows.replaceBy_append_singleton hnew rfl) hbelow
  | filled price _ _ =>
    refine .one ((paperOrder s.nextUuid userId instrumentId values now).fill values.quantity price
      now) ?_ hbelow
    rw [Session.fillPaper_orders]
    exact Rows.replaceBy_append_singleton hnew rfl

theorem noneOpened_paperCancel (ho : o ∈ s.orders) (now : Time) :
    s.NoneOpened (paperCancel now s o).1.orders := by
  rcases paperCancel_cases now s o with hs | ⟨hresting, hs⟩
  · rw [hs]
    exact .refl s.toDatabase
  · rw [hs]
    exact s.valid.noneOpened_setOrder ho hresting.2 rfl rfl

theorem noneOpened_paperModify (ho : o ∈ s.orders) (now : Time) (quantity : ℤ) (limitPrice : ℚ)
    (quote : Option NormalizedQuote) :
    s.NoneOpened (paperModify settings now s o quantity limitPrice quote).1.orders := by
  rcases paperModify_cases settings now s o quantity limitPrice quote with
    hs | ⟨t, hresting, -, -, hmodified, hs⟩
  · rw [hs]
    exact .refl s.toDatabase
  rw [hs]
  cases hmodified with
  | rests => exact s.valid.noneOpened_setOrder ho hresting.2 rfl rfl
  | filled price _ =>
    have hfill : (s.toDatabase.setOrder (o.modified quantity limitPrice)).setOrder
        ((o.modified quantity limitPrice).fill (quantity - o.filledQuantity) price now) =
          s.toDatabase.setOrder
            ((o.modified quantity limitPrice).fill (quantity - o.filledQuantity) price now) :=
      Database.setOrder_setOrder _ rfl
    rw [Session.fillPaper_orders]
    have horders := congrArg Database.orders hfill
    rw [Database.setOrder_orders] at horders
    exact horders ▸ s.valid.noneOpened_setOrder ho hresting.2 rfl rfl

theorem noneOpened_processQuote (now : Time) (userId : Uuid) (quote : NormalizedQuote) :
    s.NoneOpened (processQuote settings now s userId quote).1.orders := by
  rcases processQuote_cases settings now s userId quote with hs | ⟨fs, t, hrun, hs⟩
  · rw [hs]
    exact .refl s.toDatabase
  rw [hs]
  refine (hrun.invariant (P := fun session => s.NoneOpened session.work.orders ∧
    (session.work.orders.map TradingOrder.id).Nodup)
    ⟨.refl s.toDatabase, s.valid.orderIds⟩ ?_).1
  rintro session o _ ⟨hnone, hids⟩ ⟨ho, hresting, now, quantity, price, -, -, rfl⟩
  rw [Session.fillPaper_orders, Rows.map_key_replaceBy]
  exact ⟨hnone.replace hids ho hresting.2 rfl rfl, hids⟩

/-- A pass loads open orders only. -/
theorem noneOpened_reconcile (now : Time) (userId : Uuid) (brokerOrders : List BrokerOrderItem)
    (trades : List TradeItem) :
    s.NoneOpened (reconcile now s userId brokerOrders trades).1.orders := by
  rcases Session.commitOr_fst (reconcileApply now s.begin userId brokerOrders trades) s (.ok ())
    with hs | ⟨-, hok⟩
  · unfold reconcile
    rw [hs]
    exact .refl s.toDatabase
  · rw [reconcile_orders hok]
    refine List.forall₂_map_right_iff.2 (List.forall₂_same.2 fun o ho => ?_)
    by_cases hlocal : o ∈ localOrders s.toDatabase userId
    · obtain ⟨-, -, -, hopen⟩ := Pass.mem_localOrders.1 hlocal
      obtain ⟨-, b, hb⟩ := attachedPass_order? (s := s) userId brokerOrders ho
      have hsame := endRow_sameColumns now s userId brokerOrders trades o
      rw [hb] at hsame
      exact ⟨hsame.id, hsame.userId, fun _ => hopen⟩
    · rw [endRow_of_not_local now trades ho hlocal]
      exact .refl o

theorem opensOne_orderStep (settings : Settings) (s : Store) (event : OrderEvent) :
    s.OpensOne settings.tradingMaxOpenOrders (orderStep settings s event).toDatabase := by
  cases event with
  | place now later userId instrumentId values quote subscribed outcome =>
    rw [orderStep]
    rcases place_cases settings now later s userId instrumentId values quote subscribed outcome
      with ⟨-, h⟩ | ⟨-, hsame⟩ | ⟨hguards, connectionId, h⟩
    · rw [h]
      exact opensOne_paperPlace now userId instrumentId values quote
    · exact .none hsame.noneOpened
    · obtain ⟨q, -, hrisk⟩ := liveChecks_ok hguards.checks
      have huser : ((placeFinish later (liveOrder s.nextUuid userId instrumentId connectionId
          values now) (dhanPlace subscribed outcome)).1.getD (liveOrder s.nextUuid userId
            instrumentId connectionId values now)).userId = userId := by
        cases dhanPlace subscribed outcome <;> rfl
      rw [h]
      exact .one _ rfl (huser.symm ▸ openOrderCount_lt_of_riskCheck hrisk)
  | cancel now later orderId outcome =>
    rw [orderStep]
    cases ho : s.order? orderId with
    | none => exact .none (.refl s.toDatabase)
    | some o =>
      have hmem := (Database.order?_mem ho).1
      dsimp only
      rcases cancel_cases settings now later hmem outcome with ⟨-, h⟩ | ⟨-, hsame⟩ | ⟨hguards, h⟩
      · rw [h]
        exact .none (noneOpened_paperCancel hmem now)
      · exact .none hsame.noneOpened
      · have huser : ((cancelFinish later o.status o.cancelRequested
            (dhanCancel o.cancelRequested outcome)).1.getD o.cancelRequested).userId = o.userId :=
              by
          cases dhanCancel o.cancelRequested outcome <;> rfl
        rw [h]
        exact .none (s.valid.noneOpened_setOrder hmem hguards.isOpen cancelFinish_id huser)
  | modify now orderId quantity limitPrice quote outcome =>
    rw [orderStep]
    cases ho : s.order? orderId with
    | none => exact .none (.refl s.toDatabase)
    | some o =>
      have hmem := (Database.order?_mem ho).1
      dsimp only
      rcases modify_cases settings now hmem quantity limitPrice quote outcome with
        ⟨-, h⟩ | ⟨-, -, -, hsame⟩ | ⟨-, hguards, -, h⟩
      · rw [h]
        exact .none (noneOpened_paperModify hmem now quantity limitPrice quote)
      · exact .none hsame.noneOpened
      · have huser : ((modifyFinish o quantity limitPrice (dhanModify o outcome)).1.getD
            o).userId = o.userId := by
          cases dhanModify o outcome <;> rfl
        rw [h]
        exact .none (s.valid.noneOpened_setOrder hmem hguards.isOpen modifyFinish_id huser)
  | reconcile now userId brokerOrders trades =>
    exact .none (noneOpened_reconcile now userId brokerOrders trades)

/-- **Each call opens one order at most**, and only below the limit. -/
theorem opensOne_callStep (s : Store) (call : TradingCall) :
    s.OpensOne call.settings.tradingMaxOpenOrders (callStep s call).toDatabase := by
  cases call with
  | order settings event => exact opensOne_orderStep settings s event
  | quote settings now userId quote => exact .none (noneOpened_processQuote now userId quote)

end Calls

/-- **The limit on open orders.**  From any store in which no user is over the
limit, so from one without orders, along any sequence of calls, quotes and passes
under settings with that limit: no user is ever over the limit, and an order with a
terminal status has one after each call. -/
theorem open_orders_capped {cap : ℕ} {s : Store}
    (h0 : ∀ userId, openOrderCount s.toDatabase userId ≤ cap) {calls : List TradingCall}
    (hcap : ∀ call ∈ calls, call.settings.tradingMaxOpenOrders = cap) :
    (∀ before after, calls = before ++ after →
      ∀ userId, openOrderCount (before.foldl callStep s).toDatabase userId ≤ cap) ∧
    ∀ before call after, calls = before ++ call :: after →
      ∀ o ∈ (before.foldl callStep s).orders, o.status ∈ terminalStatuses →
        ∃ new ∈ (callStep (before.foldl callStep s) call).orders,
          new.id = o.id ∧ new.status ∈ terminalStatuses := by
  refine ⟨fun before after heq => ?_, fun before call _ _ o ho hterminal =>
    (opensOne_callStep _ call).terminal ho hterminal⟩
  have hrun := (run_foldl callStep s before).guarded_of_forall
    (p := fun call => call.settings.tradingMaxOpenOrders = cap)
    fun call hcall => hcap call (by rw [heq]; exact List.mem_append_left _ hcall)
  refine hrun.invariant (P := fun s => ∀ userId, openOrderCount s.toDatabase userId ≤ cap) h0 ?_
  rintro s call _ hs ⟨hlimit, rfl⟩
  exact (hlimit ▸ opensOne_callStep s call).count_le hs

/-- At most two open orders. -/
def twoOpenSettings : Settings :=
  { liveSettings with tradingMaxOpenOrders := 2, one_le_tradingMaxOpenOrders := one_le_two }

/-- A market order, accepted under an id of the broker. -/
def acceptedUnder (clientOrderId brokerOrderId : String) : TradingCall :=
  .order twoOpenSettings (.place 0 1 7 3 { marketValues with clientOrderId := clientOrderId }
    (some quoteAtHundred) true
    (.response 200 (.object { orderId := some brokerOrderId, orderStatus := some "PENDING" })))

/-- A third order is refused, until a pass finds the first one canceled. -/
def crowdedCalls : List TradingCall := [
  acceptedUnder "a" "Da", acceptedUnder "b" "Db", acceptedUnder "c" "Dc",
  .order twoOpenSettings (.reconcile 2 7 [{ orderId := "Da", orderStatus := some "CANCELLED" }] []),
  acceptedUnder "d" "Dd"]

theorem crowdedCalls_settings : ∀ call ∈ crowdedCalls, call.settings.tradingMaxOpenOrders = 2 := by
  decide

theorem open_orders_capped_crowdedCalls :
    (∀ before after, crowdedCalls = before ++ after →
      ∀ userId, openOrderCount (before.foldl callStep connectedStore).toDatabase userId ≤ 2) ∧
    (crowdedCalls.foldl callStep connectedStore).orders.map
      (fun o => (o.clientOrderId, o.status)) = [("a", .canceled), ("b", .open), ("d", .open)] :=
  ⟨(open_orders_capped (fun _ => Nat.zero_le _) crowdedCalls_settings).1, by decide +kernel⟩

end GnkAlgo
