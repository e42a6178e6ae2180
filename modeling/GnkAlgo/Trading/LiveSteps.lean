import GnkAlgo.Trading.PaperSteps
import GnkAlgo.Trading.Service

/-!
# What the order manager can do

One lemma for each call of `OrderManager`: how far it gets before its `await`,
and which rows it leaves at its end.  `SameTrading` says that two stores agree
on everything but the broker connections, which `_connection` may rewrite.
-/

namespace GnkAlgo

/-! ## Stores that differ in their connections only -/

/-- Only the broker connections differ. -/
structure Store.SameTrading (s t : Store) : Prop where
  orders : t.orders = s.orders
  executions : t.executions = s.executions
  positions : t.positions = s.positions
  controls : t.controls = s.controls
  nextUuid : t.nextUuid = s.nextUuid

theorem Store.SameTrading.refl (s : Store) : s.SameTrading s := ⟨rfl, rfl, rfl, rfl, rfl⟩

/-- `_connection` touches nothing but the connection, and that only to refuse. -/
theorem liveConnection_cases (now : Time) (s : Store) (userId : Uuid) :
    (∃ t e, liveConnection now s userId = (t, .error e) ∧ s.SameTrading t) ∨
    ∃ r, liveConnection now s userId = (s, .ok r) := by
  unfold liveConnection
  split
  · exact Or.inl ⟨s, _, rfl, .refl s⟩
  · rename_i c hc
    split
    · exact Or.inl ⟨_, _, rfl, ⟨rfl, rfl, rfl, rfl, rfl⟩⟩
    · dsimp only
      split
      · exact Or.inr ⟨_, rfl⟩
      · exact Or.inl ⟨s, _, rfl, .refl s⟩

/-! ## Committing an outcome -/

/-- `new` is `base` up to the columns a call writes. -/
def TradingOrder.Rewrites (base new : TradingOrder) : Prop := base.writeBack new base = new

theorem Database.Valid.writeOrder_eq {d : Database} (hd : d.Valid) {base new : TradingOrder}
    (hbase : base ∈ d.orders) (hnew : base.Rewrites new) :
    d.writeOrder base new = d.setOrder new := by
  rw [Database.writeOrder, hd.order?_eq hbase]
  dsimp only
  rw [hnew]

/-- The content after a call that met the row it had read. -/
theorem Store.finish_eq {s : Store} {base : TradingOrder} {outcome : Outcome}
    (hbase : base ∈ s.orders) (hnew : ∀ new ∈ outcome.1, base.Rewrites new) :
    (s.finish base outcome).1 = s ∧ outcome.1 = none ∨
    ∃ new ∈ outcome.1, (s.finish base outcome).1.toDatabase = s.toDatabase.setOrder new := by
  obtain ⟨write, result⟩ := outcome
  cases write with
  | none => exact Or.inl ⟨rfl, rfl⟩
  | some new =>
    exact Or.inr ⟨new, rfl, s.valid.writeOrder_eq hbase (hnew new rfl)⟩

theorem Store.finish_result (s : Store) (base : TradingOrder) (outcome : Outcome) :
    (s.finish base outcome).2 = outcome.2 := by
  unfold Store.finish; split <;> rfl

theorem placeFinish_rewrites {now : Time} {o : TradingOrder} {result : AdapterResult} :
    ∀ new ∈ (placeFinish now o result).1, o.Rewrites new := by
  intro new hnew
  cases result <;> cases hnew <;> simp [TradingOrder.Rewrites, TradingOrder.writeBack]

theorem cancelFinish_rewrites {now : Time} {prior : OrderStatus} {o : TradingOrder}
    {result : AdapterResult} : ∀ new ∈ (cancelFinish now prior o result).1, o.Rewrites new := by
  intro new hnew
  cases result <;> cases hnew <;> simp [TradingOrder.Rewrites, TradingOrder.writeBack]

theorem modifyFinish_rewrites {o : TradingOrder} {quantity : ℤ} {limitPrice : ℚ}
    {result : AdapterResult} :
    ∀ new ∈ (modifyFinish o quantity limitPrice result).1, o.Rewrites new := by
  intro new hnew
  cases result <;> cases hnew <;> simp [TradingOrder.Rewrites, TradingOrder.writeBack]

/-! ## Calls -/

/-- What `place` asks for in live mode before it sends the request. -/
structure PlaceGuards (settings : Settings) (now : Time) (s : Store)
    (userId instrumentId : Uuid) (values : OrderValues) (quote : Option NormalizedQuote) :
    Prop where
  mode : settings.tradingMode = .live
  gate : liveGate settings = .ok ()
  client : orderOfClient? s.toDatabase userId values.clientOrderId = none
  checks : liveChecks settings now s.toDatabase userId instrumentId values quote = .ok ()
  connection : ∃ r, (liveConnection now s userId).2 = .ok r

/-- A client id that is not found is not taken. -/
theorem clientKey_not_mem {d : Database} {userId : Uuid} {clientOrderId : String}
    (h : orderOfClient? d userId clientOrderId = none) :
    (userId, clientOrderId) ∉ d.orders.map TradingOrder.clientKey := by
  intro hmem
  obtain ⟨o, ho, hkey⟩ := List.mem_map.1 hmem
  obtain ⟨huser, hclient⟩ := Prod.mk.inj hkey
  exact absurd (List.find?_eq_none.1 h o ho) (by simp [huser, hclient])

/-- **How far `place` gets.** -/
theorem placeBegin_cases (settings : Settings) (now : Time) (s : Store)
    (userId instrumentId : Uuid) (values : OrderValues) (quote : Option NormalizedQuote) :
    (settings.tradingMode = .paper ∧
      placeBegin settings now s userId instrumentId values quote =
        ((paperPlace settings now s userId instrumentId values quote).1,
          .done (paperPlace settings now s userId instrumentId values quote).2)) ∨
    (¬ PlaceGuards settings now s userId instrumentId values quote ∧
      ∃ t r, placeBegin settings now s userId instrumentId values quote = (t, .done r) ∧
        s.SameTrading t) ∨
    (PlaceGuards settings now s userId instrumentId values quote ∧
      ∃ connectionId t,
        t.toDatabase = s.toDatabase.insertOrder
          (liveOrder s.nextUuid userId instrumentId connectionId values now) ∧
        placeBegin settings now s userId instrumentId values quote =
          (t, .awaiting (liveOrder s.nextUuid userId instrumentId connectionId values now))) := by
  unfold placeBegin
  cases hmode : settings.tradingMode with
  | disabled =>
    exact Or.inr (Or.inl ⟨fun h => absurd h.mode (by rw [hmode]; decide), s, _, rfl, .refl s⟩)
  | paper => exact Or.inl ⟨rfl, rfl⟩
  | live =>
    right
    dsimp only
    cases hgate : liveGate settings with
    | error e =>
      exact Or.inl ⟨fun h => absurd h.gate (by rw [hgate]; simp), s, _, rfl, .refl s⟩
    | ok u =>
      cases hclient : orderOfClient? s.toDatabase userId values.clientOrderId with
      | some o =>
        exact Or.inl ⟨fun h => absurd h.client (by rw [hclient]; simp), s, _, rfl,
          .refl s⟩
      | none =>
        cases hchecks : liveChecks settings now s.toDatabase userId instrumentId values quote with
        | error e =>
          exact Or.inl ⟨fun h => absurd h.checks (by rw [hchecks]; simp), s, _, rfl,
            .refl s⟩
        | ok u =>
          rcases liveConnection_cases now s userId with
            ⟨t, e, hconn, hsame⟩ | ⟨⟨c, credentials, id⟩, hconn⟩
          · dsimp only
            rw [hconn]
            refine Or.inl ⟨fun h => ?_, t, _, rfl, hsame⟩
            obtain ⟨r, hr⟩ := h.connection
            rw [hconn] at hr
            cases hr
          · dsimp only
            rw [hconn]
            have hvalid := s.valid.insertOrder
              (o := liveOrder s.nextUuid userId instrumentId c.id values now) rfl
              (clientKey_not_mem hclient)
            refine Or.inr ⟨⟨hmode, hgate, hclient, hchecks, _, by rw [hconn]⟩, c.id,
              ⟨_, hvalid⟩, rfl, ?_⟩
            dsimp only
            rw [Session.commit, dif_pos hvalid]

/-- What `cancel` asks of a LIVE order and of the account before it sends the request. -/
structure CancelGuards (settings : Settings) (now : Time) (s : Store) (o : TradingOrder) :
    Prop where
  isOpen : o.status ∈ openOrderStatuses
  mode : o.mode = .live
  gate : liveGate settings = .ok ()
  connection : ∃ r, (liveConnection now s o.userId).2 = .ok r

/-- What `cancel` writes before its request. -/
def TradingOrder.cancelRequested (o : TradingOrder) : TradingOrder :=
  { o with status := .cancelPending, version := o.version + 1 }

/-- **How far `cancel` gets.** -/
theorem cancelBegin_cases (settings : Settings) (now : Time) (s : Store) (o : TradingOrder) :
    (o.mode = .paper ∧ cancelBegin settings now s o =
      ((paperCancel now s o).1, .done (paperCancel now s o).2)) ∨
    (¬ CancelGuards settings now s o ∧
      ∃ t r, cancelBegin settings now s o = (t, .done r) ∧ s.SameTrading t) ∨
    (CancelGuards settings now s o ∧ cancelBegin settings now s o =
      (s.writeOrder o o.cancelRequested, .awaiting o.cancelRequested)) := by
  unfold cancelBegin
  by_cases hopen : o.status ∈ openOrderStatuses
  swap
  · rw [if_pos hopen]
    exact Or.inr (Or.inl ⟨fun h => hopen h.isOpen, s, _, rfl, .refl s⟩)
  rw [if_neg (not_not.2 hopen)]
  by_cases hmode : o.mode = .paper
  · rw [if_pos hmode]; exact Or.inl ⟨hmode, rfl⟩
  rw [if_neg hmode]
  right
  cases hgate : liveGate settings with
  | error e =>
    exact Or.inl ⟨fun h => absurd h.gate (by rw [hgate]; simp), s, _, rfl, .refl s⟩
  | ok u =>
    dsimp only
    rcases liveConnection_cases now s o.userId with ⟨t, e, hconn, hsame⟩ | ⟨r, hconn⟩
    · rw [hconn]
      refine Or.inl ⟨fun h => ?_, t, _, rfl, hsame⟩
      obtain ⟨r, hr⟩ := h.connection
      rw [hconn] at hr
      cases hr
    · rw [hconn]
      refine Or.inr ⟨⟨hopen, ?_, hgate, r, by rw [hconn]⟩, rfl⟩
      cases h : o.mode with
      | paper => exact absurd h hmode
      | live => rfl

/-- What `modify` asks of a LIVE order and of the account before it sends the request. -/
structure ModifyGuards (settings : Settings) (now : Time) (s : Store) (o : TradingOrder)
    (quantity : ℤ) : Prop where
  isOpen : o.status ∈ openOrderStatuses
  orderType : o.orderType = .limit
  quantity : max 1 o.filledQuantity ≤ quantity
  gate : liveGate settings = .ok ()
  connection : ∃ r, (liveConnection now s o.userId).2 = .ok r

/-- **How far `modify` gets.** -/
theorem modifyBegin_cases (settings : Settings) (now : Time) (s : Store) (o : TradingOrder)
    (quantity : ℤ) (limitPrice : ℚ) (quote : Option NormalizedQuote) :
    (o.mode = .paper ∧ modifyBegin settings now s o quantity limitPrice quote =
      ((paperModify settings now s o quantity limitPrice quote).1,
        .done (paperModify settings now s o quantity limitPrice quote).2)) ∨
    (o.mode = .live ∧ ¬ ModifyGuards settings now s o quantity ∧
      ∃ t e, modifyBegin settings now s o quantity limitPrice quote = (t, .done (.error e)) ∧
        s.SameTrading t) ∨
    (o.mode = .live ∧ ModifyGuards settings now s o quantity ∧
      modifyBegin settings now s o quantity limitPrice quote = (s, .awaiting o)) := by
  unfold modifyBegin
  cases hmode : o.mode with
  | paper => exact Or.inl ⟨rfl, if_pos rfl⟩
  | live =>
    right
    rw [if_neg (by decide)]
    cases hgate : liveGate settings with
    | error e =>
      refine Or.inl ⟨rfl, fun h => ?_, s, _, rfl, .refl s⟩
      have := h.gate
      rw [hgate] at this
      cases this
    | ok u =>
      dsimp only
      by_cases hguard : o.status ∉ openOrderStatuses ∨ o.orderType ≠ .limit
      · rw [if_pos hguard]
        exact Or.inl ⟨rfl, fun h => hguard.elim (fun hs => hs h.isOpen) (fun ht => ht h.orderType),
          s, _, rfl, .refl s⟩
      rw [if_neg hguard]
      by_cases hquantity : quantity < max 1 o.filledQuantity
      · rw [if_pos hquantity]
        exact Or.inl ⟨rfl, fun h => absurd h.quantity (not_le.2 hquantity), s, _, rfl, .refl s⟩
      rw [if_neg hquantity]
      obtain ⟨hopen, htype⟩ := not_or.1 hguard
      rcases liveConnection_cases now s o.userId with ⟨t, e, hconn, hsame⟩ | ⟨r, hconn⟩
      · rw [hconn]
        refine Or.inl ⟨rfl, fun h => ?_, t, _, rfl, hsame⟩
        obtain ⟨r, hr⟩ := h.connection
        rw [hconn] at hr
        cases hr
      · rw [hconn]
        exact Or.inr ⟨rfl, ⟨not_not.1 hopen, not_not.1 htype, not_lt.1 hquantity, hgate,
          ⟨r, by rw [hconn]⟩⟩, rfl⟩

/-! ## Whole calls -/

theorem Database.setOrder_setOrder (d : Database) {o new : TradingOrder} (h : o.id = new.id) :
    (d.setOrder o).setOrder new = d.setOrder new := by
  rw [Database.setOrder, Database.setOrder, Database.setOrder]
  dsimp only
  rw [Rows.replaceBy_replaceBy h]

theorem Database.Valid.setOrder_self {d : Database} (hd : d.Valid) {o : TradingOrder}
    (ho : o ∈ d.orders) : d.setOrder o = d := by
  rw [Database.setOrder, Rows.replaceBy_self hd.orderIds ho]

/-- Rewriting the order that was inserted last. -/
theorem Database.Valid.setOrder_insertOrder {d : Database} (hd : d.Valid) {o new : TradingOrder}
    (hid : o.id = d.nextUuid) (hnew : new.id = o.id) :
    (d.insertOrder o).setOrder new = d.insertOrder new := by
  have hne : ∀ y ∈ d.orders, y.id ≠ new.id := fun y hy h =>
    absurd (hd.orderUuids y hy) (by rw [h, hnew, hid]; exact lt_irrefl _)
  rw [Database.insertOrder, Database.insertOrder, Database.setOrder, Database.addOrder]
  dsimp only
  rw [Rows.replaceBy_append_singleton hne hnew.symm]
  rfl

theorem placeFinish_id {now : Time} {o : TradingOrder} {result : AdapterResult} :
    ((placeFinish now o result).1.getD o).id = o.id := by
  cases result <;> rfl

theorem cancelFinish_id {now : Time} {prior : OrderStatus} {o : TradingOrder}
    {result : AdapterResult} : ((cancelFinish now prior o result).1.getD o).id = o.id := by
  cases result <;> rfl

theorem modifyFinish_id {o : TradingOrder} {quantity : ℤ} {limitPrice : ℚ}
    {result : AdapterResult} : ((modifyFinish o quantity limitPrice result).1.getD o).id = o.id := by
  cases result <;> rfl

/-- The content after a call that met the row it had read. -/
theorem Store.finish_toDatabase {s : Store} {base : TradingOrder} {outcome : Outcome}
    (hbase : base ∈ s.orders) (hnew : ∀ new ∈ outcome.1, base.Rewrites new) :
    (s.finish base outcome).1.toDatabase = s.toDatabase.setOrder (outcome.1.getD base) := by
  rcases Store.finish_eq hbase hnew with ⟨hs, hnone⟩ | ⟨new, hmem, hs⟩
  · rw [hs, hnone, Option.getD_none, s.valid.setOrder_self hbase]
  · rw [hs, Option.mem_def.1 hmem, Option.getD_some]

/-- **What `place` can do**: in paper mode what the paper engine does; in live
mode nothing, or insert the order as the broker's answer leaves it. -/
theorem place_cases (settings : Settings) (now later : Time) (s : Store)
    (userId instrumentId : Uuid) (values : OrderValues) (quote : Option NormalizedQuote)
    (subscribed : Bool) (outcome : HttpOutcome) :
    (settings.tradingMode = .paper ∧
      place settings now later s userId instrumentId values quote subscribed outcome =
        paperPlace settings now s userId instrumentId values quote) ∨
    (¬ PlaceGuards settings now s userId instrumentId values quote ∧ s.SameTrading
      (place settings now later s userId instrumentId values quote subscribed outcome).1) ∨
    (PlaceGuards settings now s userId instrumentId values quote ∧ ∃ connectionId,
      (place settings now later s userId instrumentId values quote subscribed outcome).1.toDatabase =
        s.toDatabase.insertOrder
          ((placeFinish later (liveOrder s.nextUuid userId instrumentId connectionId values now)
            (dhanPlace subscribed outcome)).1.getD
            (liveOrder s.nextUuid userId instrumentId connectionId values now))) := by
  unfold place
  rcases placeBegin_cases settings now s userId instrumentId values quote with
    ⟨hmode, h⟩ | ⟨hguards, t, r, h, hsame⟩ | ⟨hguards, connectionId, t, ht, h⟩
  · rw [h]; exact Or.inl ⟨hmode, rfl⟩
  · rw [h]; exact Or.inr (Or.inl ⟨hguards, hsame⟩)
  · rw [h]
    refine Or.inr (Or.inr ⟨hguards, connectionId, ?_⟩)
    have hmem : liveOrder s.nextUuid userId instrumentId connectionId values now ∈ t.orders := by
      rw [ht]; exact List.mem_append_right _ (List.mem_singleton.2 rfl)
    dsimp only
    rw [Store.finish_toDatabase hmem placeFinish_rewrites, ht]
    exact s.valid.setOrder_insertOrder rfl placeFinish_id

/-- **What `cancel` can do.** -/
theorem cancel_cases (settings : Settings) (now later : Time) {s : Store} {o : TradingOrder}
    (ho : o ∈ s.orders) (outcome : HttpOutcome) :
    (o.mode = .paper ∧ cancel settings now later s o outcome = paperCancel now s o) ∨
    (¬ CancelGuards settings now s o ∧
      s.SameTrading (cancel settings now later s o outcome).1) ∨
    (CancelGuards settings now s o ∧
      (cancel settings now later s o outcome).1.toDatabase = s.toDatabase.setOrder
        ((cancelFinish later o.status o.cancelRequested
          (dhanCancel o.cancelRequested outcome)).1.getD o.cancelRequested)) := by
  unfold cancel
  rcases cancelBegin_cases settings now s o with
    ⟨hmode, h⟩ | ⟨hguards, t, r, h, hsame⟩ | ⟨hguards, h⟩
  · rw [h]; exact Or.inl ⟨hmode, rfl⟩
  · rw [h]; exact Or.inr (Or.inl ⟨hguards, hsame⟩)
  · have hwrite : (s.writeOrder o o.cancelRequested).toDatabase =
        s.toDatabase.setOrder o.cancelRequested := s.valid.writeOrder_eq ho (by
      simp [TradingOrder.Rewrites, TradingOrder.writeBack, TradingOrder.cancelRequested])
    have hmem : o.cancelRequested ∈ (s.writeOrder o o.cancelRequested).orders := by
      rw [hwrite]; exact Rows.mem_replaceBy_self ho rfl
    rw [h]
    refine Or.inr (Or.inr ⟨hguards, ?_⟩)
    dsimp only
    rw [Store.finish_toDatabase hmem cancelFinish_rewrites, hwrite]
    exact Database.setOrder_setOrder _ cancelFinish_id.symm

/-- **What `modify` can do.** -/
theorem modify_cases (settings : Settings) (now : Time) {s : Store} {o : TradingOrder}
    (ho : o ∈ s.orders) (quantity : ℤ) (limitPrice : ℚ) (quote : Option NormalizedQuote)
    (outcome : HttpOutcome) :
    (o.mode = .paper ∧ modify settings now s o quantity limitPrice quote outcome =
      paperModify settings now s o quantity limitPrice quote) ∨
    (o.mode = .live ∧ ¬ ModifyGuards settings now s o quantity ∧
      (∃ e, (modify settings now s o quantity limitPrice quote outcome).2 = .error e) ∧
      s.SameTrading (modify settings now s o quantity limitPrice quote outcome).1) ∨
    (o.mode = .live ∧ ModifyGuards settings now s o quantity ∧
      (modify settings now s o quantity limitPrice quote outcome).2 =
        (modifyFinish o quantity limitPrice (dhanModify o outcome)).2 ∧
      (modify settings now s o quantity limitPrice quote outcome).1.toDatabase =
        s.toDatabase.setOrder
          ((modifyFinish o quantity limitPrice (dhanModify o outcome)).1.getD o)) := by
  unfold modify
  rcases modifyBegin_cases settings now s o quantity limitPrice quote with
    ⟨hmode, h⟩ | ⟨hmode, hguards, t, e, h, hsame⟩ | ⟨hmode, hguards, h⟩
  · rw [h]; exact Or.inl ⟨hmode, rfl⟩
  · rw [h]; exact Or.inr (Or.inl ⟨hmode, hguards, ⟨e, rfl⟩, hsame⟩)
  · rw [h]
    exact Or.inr (Or.inr ⟨hmode, hguards, Store.finish_result .., Store.finish_toDatabase ho
      modifyFinish_rewrites⟩)

end GnkAlgo
