import GnkAlgo.Trading.CallRuns
import GnkAlgo.Trading.PaperDesk

/-!
# Placing under a client order id again

A placement whose client order id is taken is answered from the order that is
there: `_matches` compares seven fields with what its columns hold now.  Five of
these never change; quantity and limit price do when the order is modified, and
the trigger price is not compared.

* `TradingOrder.terms` — the columns no operation writes;
* `tradingStep` — calls of the order manager that overlap, requests on the paper
  engine, quotes and passes;
* `place_idempotent_iff` — after any run, which repeated placements are answered
  as the first one promises.
-/

namespace GnkAlgo

open Transition

/-! ## What no operation writes -/

/-- The columns that are written when the order is inserted and never again. -/
structure OrderTerms where
  id : Uuid
  userId : Uuid
  instrumentId : Uuid
  clientOrderId : String
  mode : Mode
  side : OrderSide
  orderType : OrderType
  productType : ProductType
  validity : OrderValidity
  deriving DecidableEq, Repr

def TradingOrder.terms (o : TradingOrder) : OrderTerms where
  id := o.id
  userId := o.userId
  instrumentId := o.instrumentId
  clientOrderId := o.clientOrderId
  mode := o.mode
  side := o.side
  orderType := o.orderType
  productType := o.productType
  validity := o.validity

def Database.terms (d : Database) : List OrderTerms := d.orders.map TradingOrder.terms

section Terms

variable {d : Database} {s t : Store} {o new : TradingOrder}

theorem Database.map_id_terms (d : Database) :
    d.terms.map OrderTerms.id = d.orders.map TradingOrder.id := by
  rw [Database.terms, List.map_map]
  rfl

/-- A rewritten row keeps its terms. -/
theorem Database.terms_setOrder (hids : (d.orders.map TradingOrder.id).Nodup) (ho : o ∈ d.orders)
    (hterms : new.terms = o.terms) : (d.setOrder new).terms = d.terms := by
  have hid : new.id = o.id := congrArg OrderTerms.id hterms
  refine Rows.map_replaceBy fun y hy hyid => ?_
  rw [List.inj_on_of_nodup_map hids hy ho (hyid.trans hid), hterms]

theorem Database.terms_writeOrder (hids : (d.orders.map TradingOrder.id).Nodup)
    (base new : TradingOrder) : (d.writeOrder base new).terms = d.terms := by
  unfold Database.writeOrder
  split
  · rfl
  · rename_i row hrow
    exact Database.terms_setOrder hids (Database.order?_mem hrow).1 rfl

theorem Store.SameTrading.terms (h : s.SameTrading t) : t.terms = s.terms :=
  congrArg (List.map TradingOrder.terms) h.orders

theorem terms_finish (s : Store) (base : TradingOrder) (outcome : Outcome) :
    (s.finish base outcome).1.terms = s.terms := by
  unfold Store.finish
  split
  · rfl
  · exact Database.terms_writeOrder s.valid.orderIds base _

theorem terms_paperPlace (settings : Settings) (now : Time) (s : Store)
    (userId instrumentId : Uuid) (values : OrderValues) (quote : Option NormalizedQuote) :
    s.terms ⊆ (paperPlace settings now s userId instrumentId values quote).1.terms :=
  List.map_subset _ fun _ ho => paperPlace_mem now userId instrumentId values quote ho

theorem terms_placeBegin (settings : Settings) (now : Time) (s : Store)
    (userId instrumentId : Uuid) (values : OrderValues) (quote : Option NormalizedQuote) :
    s.terms ⊆ (placeBegin settings now s userId instrumentId values quote).1.terms := by
  rcases placeBegin_cases settings now s userId instrumentId values quote with
    ⟨-, h⟩ | ⟨-, t, r, h, hsame⟩ | ⟨-, connectionId, t, ht, h⟩
  · rw [h]; exact terms_paperPlace settings now s userId instrumentId values quote
  · rw [h]; exact hsame.terms ▸ List.Subset.refl _
  · rw [h]
    refine List.map_subset _ fun o ho => ?_
    dsimp only
    rw [congrArg Database.orders ht]
    exact List.mem_append_left _ ho

theorem terms_cancelBegin (settings : Settings) (now : Time) (s : Store) (hlive : o.mode = .live) :
    (cancelBegin settings now s o).1.terms = s.terms := by
  rcases cancelBegin_cases settings now s o with
    ⟨hpaper, -⟩ | ⟨-, t, r, h, hsame⟩ | ⟨-, h⟩
  · exact absurd (hpaper.symm.trans hlive) (by decide)
  · rw [h]; exact hsame.terms
  · rw [h]; exact Database.terms_writeOrder s.valid.orderIds o _

theorem terms_modifyBegin (settings : Settings) (now : Time) (s : Store) (hlive : o.mode = .live)
    (quantity : ℤ) (limitPrice : ℚ) (quote : Option NormalizedQuote) :
    (modifyBegin settings now s o quantity limitPrice quote).1.terms = s.terms := by
  rcases modifyBegin_cases settings now s o quantity limitPrice quote with
    ⟨hpaper, -⟩ | ⟨-, -, t, e, h, hsame⟩ | ⟨-, -, h⟩
  · exact absurd (hpaper.symm.trans hlive) (by decide)
  · rw [h]; exact hsame.terms
  · rw [h]

theorem terms_heldCancel (now : Time) (s : Store) (o : TradingOrder) :
    (heldCancel now s o).terms = s.terms := by
  unfold heldCancel
  split
  · rfl
  · exact Database.terms_writeOrder s.valid.orderIds o _

theorem terms_heldModify (settings : Settings) (now : Time) (s : Store) (o : TradingOrder)
    (quantity : ℤ) (limitPrice : ℚ) (quote : Option NormalizedQuote) :
    (heldModify settings now s o quantity limitPrice quote).terms = s.terms := by
  unfold heldModify
  split
  · rfl
  · rename_i session o' _
    rcases Session.commitOr_fst ⟨s.toDatabase, { session.work with
        orders := (s.toDatabase.writeOrder o o').orders }⟩ s (.ok o') with hs | ⟨hs, -⟩
    · rw [hs]
    · rw [← hs]
      exact Database.terms_writeOrder s.valid.orderIds o o'

/-- A quote fills orders, which keep their terms. -/
theorem terms_processQuote (settings : Settings) (now : Time) (s : Store) (userId : Uuid)
    (quote : NormalizedQuote) : (processQuote settings now s userId quote).1.terms = s.terms := by
  rcases processQuote_cases settings now s userId quote with hs | ⟨fs, t, hrun, hs⟩
  · rw [hs]
  rw [hs]
  refine hrun.invariant (P := fun t => t.work.terms = s.terms) rfl ?_
  rintro session o _ hterms ⟨ho, -, now, quantity, price, -, -, rfl⟩
  have hids : (session.work.orders.map TradingOrder.id).Nodup := by
    rw [← Database.map_id_terms, hterms, Database.map_id_terms]
    exact s.valid.orderIds
  have hset := Database.terms_setOrder hids ho (show (o.fill quantity price now).terms = o.terms
    from rfl)
  rw [← hterms, ← hset]
  exact congrArg (List.map TradingOrder.terms) (Session.fillPaper_orders session now o quantity price)

theorem imported_terms {now : Time} {stored : Database} {o : TradingOrder} {item : TradeItem} :
    (o.imported now stored item).terms = o.terms := by
  unfold TradingOrder.imported
  split
  · rfl
  split <;> rfl

theorem statusOf_terms {now : Time} {o : TradingOrder} {item : BrokerOrderItem} :
    (Pass.statusOf now o item).terms = o.terms := by
  unfold Pass.statusOf
  dsimp only
  split <;> rfl

/-- A pass writes fills and statuses. -/
theorem terms_reconcile (now : Time) (s : Store) (userId : Uuid)
    (brokerOrders : List BrokerOrderItem) (trades : List TradeItem) :
    s.terms ⊆ (reconcile now s userId brokerOrders trades).1.terms := by
  rcases Session.commitOr_fst (reconcileApply now s.begin userId brokerOrders trades) s (.ok ())
    with hs | ⟨hs, -⟩
  · rw [reconcile, hs]; exact List.Subset.refl _
  intro terms hterms
  obtain ⟨o, ho, rfl⟩ := List.mem_map.1 hterms
  obtain ⟨b, hrow, -⟩ := pass_row now userId brokerOrders trades ho
  rw [hs] at hrow
  refine List.mem_map.2 ⟨_, (Database.order?_mem hrow).1, ?_⟩
  refine List.foldlRecOn (motive := fun x : TradingOrder => x.terms = o.terms) _ _ ?_
    fun x hx item _ => statusOf_terms.trans hx
  exact List.foldlRecOn (motive := fun x : TradingOrder => x.terms = o.terms) _ _ rfl
    fun x hx item _ => imported_terms.trans hx

end Terms

/-! ## Runs -/

/-- The desk of the live calls, with the PAPER orders that API requests hold. -/
structure TradingDesk extends Desk where
  held : List TradingOrder

/-- An event of the desk, a step of a request on the paper engine, or a quote. -/
inductive TradingEvent
  | call (event : CallEvent)
  | load (orderId : Uuid)
  | cancel (now : Time) (index : ℕ)
  | modify (now : Time) (index : ℕ) (quantity : ℤ) (limitPrice : ℚ)
      (quote : Option NormalizedQuote)
  | drop (index : ℕ)
  | quote (now : Time) (userId : Uuid) (quote : NormalizedQuote)

/-- One event. -/
def tradingStep (settings : Settings) (desk : TradingDesk) : TradingEvent → TradingDesk
  | .call event => { desk with toDesk := deskStep settings desk.toDesk event }
  | .load orderId =>
    match desk.store.order? orderId with
    | some o => if o.mode = .paper then { desk with held := desk.held ++ [o] } else desk
    | none => desk
  | .cancel now index =>
    match desk.held[index]? with
    | some o => { desk with
        store := heldCancel now desk.store o
        held := desk.held.eraseIdx index }
    | none => desk
  | .modify now index quantity limitPrice quote =>
    match desk.held[index]? with
    | some o => { desk with
        store := heldModify settings now desk.store o quantity limitPrice quote
        held := desk.held.eraseIdx index }
    | none => desk
  | .drop index => { desk with held := desk.held.eraseIdx index }
  | .quote now userId quote =>
    { desk with store := (processQuote settings now desk.store userId quote).1 }

theorem terms_deskStep (settings : Settings) (desk : Desk) (e : CallEvent) :
    desk.store.terms ⊆ (deskStep settings desk e).store.terms := by
  cases e with
  | place now userId instrumentId values quote =>
    have h := terms_placeBegin settings now desk.store userId instrumentId values quote
    rw [deskStep]
    generalize placeBegin settings now desk.store userId instrumentId values quote = r at h ⊢
    obtain ⟨t, result | o⟩ := r <;> exact h
  | load orderId =>
    rw [deskStep]
    split
    · split <;> exact List.Subset.refl _
    · exact List.Subset.refl _
  | cancel now index =>
    rw [deskStep]
    split
    · rename_i o live _
      have h := terms_cancelBegin settings now desk.store live
      generalize cancelBegin settings now desk.store o = r at h ⊢
      obtain ⟨t, result | o'⟩ := r <;> exact h ▸ List.Subset.refl _
    · exact List.Subset.refl _
  | modify now index quantity limitPrice quote =>
    rw [deskStep]
    split
    · rename_i o live _
      have h := terms_modifyBegin settings now desk.store live quantity limitPrice quote
      generalize modifyBegin settings now desk.store o quantity limitPrice quote = r at h ⊢
      obtain ⟨t, result | o'⟩ := r <;> exact h ▸ List.Subset.refl _
    · exact List.Subset.refl _
  | answer now index subscribed outcome =>
    rw [deskStep]
    split
    · exact (terms_finish desk.store _ _).symm ▸ List.Subset.refl _
    · exact List.Subset.refl _
  | crash index => exact List.Subset.refl _
  | reconcile now userId brokerOrders trades =>
    exact terms_reconcile now desk.store userId brokerOrders trades

/-- **One event** leaves every order its terms. -/
theorem terms_tradingStep (settings : Settings) (desk : TradingDesk) (e : TradingEvent) :
    desk.store.terms ⊆ (tradingStep settings desk e).store.terms := by
  cases e with
  | call event => exact terms_deskStep settings desk.toDesk event
  | load orderId =>
    rw [tradingStep]
    split
    · split <;> exact List.Subset.refl _
    · exact List.Subset.refl _
  | cancel now index =>
    rw [tradingStep]
    split
    · exact (terms_heldCancel now desk.store _).symm ▸ List.Subset.refl _
    · exact List.Subset.refl _
  | modify now index quantity limitPrice quote =>
    rw [tradingStep]
    split
    · exact (terms_heldModify settings now desk.store _ quantity limitPrice quote).symm ▸
        List.Subset.refl _
    · exact List.Subset.refl _
  | drop index => exact List.Subset.refl _
  | quote now userId quote =>
    exact (terms_processQuote settings now desk.store userId quote).symm ▸ List.Subset.refl _

theorem terms_run {settings : Settings} {desk t : TradingDesk} {events : List TradingEvent}
    (hrun : Run (Steps (tradingStep settings)) desk events t) : desk.store.terms ⊆ t.store.terms :=
  hrun.invariant (P := fun d => desk.store.terms ⊆ d.store.terms) (List.Subset.refl _)
    fun d e _ hd hstep => hstep ▸ List.Subset.trans hd (terms_tradingStep settings d e)

/-! ## The order of a placement -/

/-- The order a placement answers with, or has committed when it waits for the
broker. -/
def Phase.order? : Phase → Option TradingOrder
  | .done (.ok o) => some o
  | .done (.error _) => none
  | .awaiting o => some o

/-- The terms of an order are those of a request. -/
structure OrderTerms.Of (terms : OrderTerms) (userId instrumentId : Uuid) (values : OrderValues) :
    Prop where
  userId : terms.userId = userId
  instrumentId : terms.instrumentId = instrumentId
  clientOrderId : terms.clientOrderId = values.clientOrderId
  side : terms.side = values.side
  orderType : terms.orderType = values.orderType
  productType : terms.productType = values.productType
  validity : terms.validity = values.validity

theorem matchesValues_iff {o : TradingOrder} {userId instrumentId : Uuid} {values : OrderValues}
    (huser : o.userId = userId) (hclient : o.clientOrderId = values.clientOrderId) :
    matchesValues o instrumentId values ↔ o.terms.Of userId instrumentId values ∧
      o.quantity = values.quantity ∧ o.limitPrice = values.limitPrice := by
  simp only [matchesValues, Bool.decide_and, Bool.and_eq_true, decide_eq_true_eq]
  constructor
  · rintro ⟨h1, h2, h3, h4, h5, h6, h7⟩
    exact ⟨⟨huser, h1, hclient, h2, h3, h4, h5⟩, h6, h7⟩
  · rintro ⟨⟨-, h1, -, h2, h3, h4, h5⟩, h6, h7⟩
    exact ⟨h1, h2, h3, h4, h5, h6, h7⟩

theorem orderOfClient?_eq_some {d : Database} {userId : Uuid} {clientOrderId : String}
    {o : TradingOrder} (h : orderOfClient? d userId clientOrderId = some o) :
    o ∈ d.orders ∧ o.userId = userId ∧ o.clientOrderId = clientOrderId := by
  refine ⟨List.mem_of_find?_eq_some h, ?_⟩
  simpa using List.find?_some h

theorem replay_ok {o existing : TradingOrder} {userId instrumentId : Uuid} {values : OrderValues}
    (huser : existing.userId = userId) (hclient : existing.clientOrderId = values.clientOrderId)
    (h : replay existing instrumentId values = .ok o) :
    o = existing ∧ existing.terms.Of userId instrumentId values := by
  unfold replay at h
  split at h
  · rename_i hmatches
    cases h
    exact ⟨rfl, ((matchesValues_iff huser hclient).1 hmatches).1⟩
  · cases h

/-- What settling a new order does to it, in memory and in its row. -/
theorem settleNew_terms {settings : Settings} {now : Time} {s t : Session} {o o' : TradingOrder}
    {quote : Option NormalizedQuote} (hv : s.stored.Valid)
    (hn : s.stored.nextUuid ≤ s.work.nextUuid)
    (hids : (s.work.orders.map TradingOrder.id).Nodup) (ho : o ∈ s.work.orders)
    (h : settleNew settings now s o quote = .ok (t, o')) :
    o'.terms = o.terms ∧ t.work.terms = s.work.terms := by
  have hcanceled : ∀ {t o'}, (if o.validity = .ioc then settleNew.cancelNew now s o else .ok (s, o)) =
      .ok (t, o') → o'.terms = o.terms ∧ t.work.terms = s.work.terms := by
    intro t o' h
    split at h
    · cases h
      exact ⟨rfl, Database.terms_setOrder hids ho rfl⟩
    · cases h
      exact ⟨rfl, rfl⟩
  unfold settleNew at h
  cases quote with
  | none => exact hcanceled h
  | some q =>
    dsimp only at h
    split at h
    · rcases paperFill_cases settings now hv hn o o.quantity q with ⟨-, hfill⟩ | ⟨-, -, hfill⟩
      · cases hfill.symm.trans h
      · cases hfill.symm.trans h
        refine ⟨rfl, ?_⟩
        rw [← Database.terms_setOrder hids ho (show (o.fill o.quantity
          (fillPrice o q settings.paperSlippageBps) now).terms = o.terms from rfl)]
        exact congrArg (List.map TradingOrder.terms) (Session.fillPaper_orders s now o o.quantity _)
    · exact hcanceled h

/-- **What the paper engine returns**: an order of the store it leaves, with the
terms of the request. -/
theorem paperPlace_order {settings : Settings} {now : Time} {s : Store}
    {userId instrumentId : Uuid} {values : OrderValues} {quote : Option NormalizedQuote}
    {o : TradingOrder} (h : (paperPlace settings now s userId instrumentId values quote).2 = .ok o) :
    o.terms ∈ (paperPlace settings now s userId instrumentId values quote).1.terms ∧
      o.terms.Of userId instrumentId values := by
  unfold paperPlace at h ⊢
  split at h
  · cases h
  rename_i hmode
  rw [if_neg hmode]
  split at h
  · rename_i existing hexisting
    obtain ⟨hmem, huser, hclient⟩ := orderOfClient?_eq_some hexisting
    obtain ⟨rfl, hof⟩ := replay_ok huser hclient h
    exact ⟨List.mem_map_of_mem hmem, hof⟩
  split at h
  · cases h
  dsimp only at h ⊢
  generalize ho : paperOrder s.nextUuid userId instrumentId values now = new at h ⊢
  cases hflush : Session.flush ⟨s.toDatabase, s.toDatabase.insertOrder new⟩ with
  | error e => rw [hflush] at h; cases h
  | ok session =>
    obtain ⟨hvalid, rfl⟩ := Session.flush_eq_ok hflush
    rw [hflush] at h
    dsimp only at h ⊢
    have hnew : new ∈ (s.toDatabase.insertOrder new).orders :=
      List.mem_append_right _ (List.mem_singleton.2 rfl)
    split at h
    · cases h
    · rename_i t o' hsettle
      obtain ⟨hterms, hrows⟩ := settleNew_terms
        (s := ⟨s.toDatabase.insertOrder new, s.toDatabase.insertOrder new⟩) hvalid le_rfl
        hvalid.orderIds hnew hsettle
      by_cases hcommit : t.work.Valid
      · rw [Session.commitOr_of_valid hcommit] at h ⊢
        cases h
        refine ⟨?_, ?_⟩
        · change o.terms ∈ t.work.terms
          rw [hterms, hrows]
          exact List.mem_map_of_mem hnew
        · rw [hterms, ← ho]
          exact ⟨rfl, rfl, rfl, rfl, rfl, rfl, rfl⟩
      · rw [Session.commitOr_of_not_valid hcommit] at h
        cases h

/-- A placement that answers with an order, or has committed one, passed the gate
of its mode. -/
theorem placeBegin_order {settings : Settings} {now : Time} {s : Store}
    {userId instrumentId : Uuid} {values : OrderValues} {quote : Option NormalizedQuote}
    {o : TradingOrder}
    (h : (placeBegin settings now s userId instrumentId values quote).2.order? = some o) :
    (o.terms ∈ (placeBegin settings now s userId instrumentId values quote).1.terms ∧
      o.terms.Of userId instrumentId values) ∧
    (settings.tradingMode = .paper ∨
      settings.tradingMode = .live ∧ liveGate settings = .ok ()) := by
  unfold placeBegin at h ⊢
  cases hmode : settings.tradingMode with
  | disabled => rw [hmode] at h; cases h
  | paper =>
    rw [hmode] at h
    dsimp only at h ⊢
    have hplace := @paperPlace_order settings now s userId instrumentId values quote o
    generalize paperPlace settings now s userId instrumentId values quote = r at h hplace ⊢
    obtain ⟨t, e | o'⟩ := r
    · cases h
    · cases h
      exact ⟨hplace rfl, Or.inl rfl⟩
  | live =>
    rw [hmode] at h
    dsimp only at h ⊢
    cases hgate : liveGate settings with
    | error e => rw [hgate] at h; cases h
    | ok _ =>
      refine ⟨?_, Or.inr ⟨rfl, rfl⟩⟩
      rw [hgate] at h
      dsimp only at h ⊢
      split at h
      · rename_i existing hexisting
        obtain ⟨hmem, huser, hclient⟩ := orderOfClient?_eq_some hexisting
        cases hreplay : replay existing instrumentId values with
        | error e => rw [hreplay] at h; cases h
        | ok o' =>
          rw [hreplay] at h
          cases h
          obtain ⟨rfl, hof⟩ := replay_ok huser hclient hreplay
          exact ⟨List.mem_map_of_mem hmem, hof⟩
      split at h
      · cases h
      split at h
      · cases h
      rename_i t connection _ _ _
      cases hcommit : Session.commit ⟨t.toDatabase, t.toDatabase.insertOrder
          (liveOrder t.nextUuid userId instrumentId connection.id values now)⟩ with
      | error e => rw [hcommit] at h; cases h
      | ok u =>
        rw [hcommit] at h
        cases h
        have hu : u.toDatabase = t.toDatabase.insertOrder
            (liveOrder t.nextUuid userId instrumentId connection.id values now) := by
          unfold Session.commit at hcommit
          split at hcommit
          · cases hcommit; rfl
          · cases hcommit
        refine ⟨?_, rfl, rfl, rfl, rfl, rfl, rfl, rfl⟩
        refine List.mem_map_of_mem ?_
        dsimp only
        rw [congrArg Database.orders hu]
        exact List.mem_append_right _ (List.mem_singleton.2 rfl)

/-! ## Placing again -/

/-- What the answer to a later placement with the same client order id is to be:
the order for the request that was placed, a conflict for any other, and nothing
changed. -/
structure Idempotent (settings : Settings) (s : Store) (row : TradingOrder) (userId instrumentId : Uuid)
    (values : OrderValues) (instrumentId' : Uuid) (values' : OrderValues) : Prop where
  repeated : instrumentId' = instrumentId → values' = values →
    ∀ now later quote subscribed outcome, place settings now later s userId instrumentId' values'
      quote subscribed outcome = (s, .ok row)
  changed : ¬ (instrumentId' = instrumentId ∧ values' = values) →
    ∀ now later quote subscribed outcome, place settings now later s userId instrumentId' values'
      quote subscribed outcome = (s, .error (.trading ⟨"IDEMPOTENCY_CONFLICT", 409⟩))

/-- The request that was placed finds its quantity and its limit price in the
order; and one that finds its own there, with the other fields that are compared
as they were placed, is that request. -/
structure Unmistaken (row : TradingOrder) (instrumentId : Uuid) (values : OrderValues)
    (instrumentId' : Uuid) (values' : OrderValues) : Prop where
  repeated : instrumentId' = instrumentId → values' = values →
    row.quantity = values.quantity ∧ row.limitPrice = values.limitPrice
  changed : instrumentId' = instrumentId → values'.side = values.side →
    values'.orderType = values.orderType → values'.productType = values.productType →
    values'.validity = values.validity → values'.quantity = row.quantity →
    values'.limitPrice = row.limitPrice →
    values'.quantity = values.quantity ∧ values'.limitPrice = values.limitPrice ∧
      values'.triggerPrice = values.triggerPrice

section Replay

variable {settings : Settings} {s : Store} {row : TradingOrder} {userId instrumentId : Uuid}
  {values : OrderValues}

theorem OrderValues.ext' {v w : OrderValues} (hc : v.clientOrderId = w.clientOrderId)
    (hs : v.side = w.side) (ht : v.orderType = w.orderType) (hp : v.productType = w.productType)
    (hv : v.validity = w.validity) (hq : v.quantity = w.quantity)
    (hl : v.limitPrice = w.limitPrice) (hg : v.triggerPrice = w.triggerPrice) : v = w := by
  cases v
  cases w
  simp_all

/-- **A client order id that is taken** is answered from its order. -/
theorem place_taken (hmode : settings.tradingMode = .paper ∨
      settings.tradingMode = .live ∧ liveGate settings = .ok ())
    (hrow : orderOfClient? s.toDatabase userId values.clientOrderId = some row) (now later : Time)
    (quote : Option NormalizedQuote) (subscribed : Bool) (outcome : HttpOutcome) :
    place settings now later s userId instrumentId values quote subscribed outcome =
      (s, replay row instrumentId values) := by
  unfold place placeBegin
  rcases hmode with hmode | ⟨hmode, hgate⟩
  · unfold paperPlace
    simp only [hmode, ne_eq, not_true_eq_false, if_false, hrow]
  · simp only [hmode, hgate, hrow]

theorem orderOfClient?_eq (hrow : row ∈ s.orders) (huser : row.userId = userId)
    {clientOrderId : String} (hclient : row.clientOrderId = clientOrderId) :
    orderOfClient? s.toDatabase userId clientOrderId = some row := by
  unfold orderOfClient?
  cases hfind : s.orders.find? fun o => o.userId = userId ∧ o.clientOrderId = clientOrderId with
  | none =>
    have hnot := List.find?_eq_none.1 hfind row hrow
    exact absurd (by simp [huser, hclient]) hnot
  | some o =>
    obtain ⟨hmem, huser', hclient'⟩ := orderOfClient?_eq_some hfind
    rw [s.valid.eq_of_clientKey hmem hrow (by
      rw [TradingOrder.clientKey, TradingOrder.clientKey, huser, huser', hclient, hclient'])]

theorem replay_eq_ok_iff : replay row instrumentId values = .ok row ↔
    matchesValues row instrumentId values := by
  unfold replay
  split
  · rename_i h; exact iff_of_true rfl h
  · rename_i h; exact iff_of_false (by simp) h

theorem replay_eq_error_iff :
    replay row instrumentId values = .error (.trading ⟨"IDEMPOTENCY_CONFLICT", 409⟩) ↔
      ¬ matchesValues row instrumentId values := by
  unfold replay
  split
  · rename_i h; exact iff_of_false (by simp) (not_not.2 h)
  · rename_i h; exact iff_of_true rfl h

/-- A later placement is answered as the first one promises exactly when it is
not mistaken. -/
theorem idempotent_iff (hmode : settings.tradingMode = .paper ∨
      settings.tradingMode = .live ∧ liveGate settings = .ok ())
    (hrow : row ∈ s.orders) (hof : row.terms.Of userId instrumentId values) {instrumentId' : Uuid}
    {values' : OrderValues} (hclient : values'.clientOrderId = values.clientOrderId) :
    Idempotent settings s row userId instrumentId values instrumentId' values' ↔
      Unmistaken row instrumentId values instrumentId' values' := by
  have hplace : ∀ now later quote subscribed outcome, place settings now later s userId
      instrumentId' values' quote subscribed outcome = (s, replay row instrumentId' values') :=
    place_taken hmode (orderOfClient?_eq hrow hof.userId (hof.clientOrderId.trans hclient.symm))
  have hmatches : matchesValues row instrumentId' values' ↔
      row.terms.Of userId instrumentId' values' ∧ row.quantity = values'.quantity ∧
        row.limitPrice = values'.limitPrice :=
    matchesValues_iff hof.userId (hof.clientOrderId.trans hclient.symm)
  constructor
  · intro h
    constructor
    · rintro rfl rfl
      have hok := (hplace 0 0 none true (.network true)).symm.trans
        (h.repeated rfl rfl 0 0 none true (.network true))
      exact (hmatches.1 (replay_eq_ok_iff.1 (Prod.mk.inj hok).2)).2
    · intro hi hside htype hproduct hvalidity hquantity hlimit
      by_contra hdiffers
      have hconflict := (hplace 0 0 none true (.network true)).symm.trans (h.changed (by
        rintro ⟨-, rfl⟩
        exact hdiffers ⟨rfl, rfl, rfl⟩) 0 0 none true (.network true))
      refine replay_eq_error_iff.1 (Prod.mk.inj hconflict).2 (hmatches.2 ⟨?_, hquantity.symm,
        hlimit.symm⟩)
      exact ⟨hof.userId, hof.instrumentId.trans hi.symm, hof.clientOrderId.trans hclient.symm,
        hof.side.trans hside.symm, hof.orderType.trans htype.symm,
        hof.productType.trans hproduct.symm, hof.validity.trans hvalidity.symm⟩
  · intro h
    constructor
    · rintro rfl rfl now later quote subscribed outcome
      rw [hplace, replay_eq_ok_iff.2 (hmatches.2 ⟨hof, h.repeated rfl rfl⟩)]
    · intro hdiffers now later quote subscribed outcome
      rw [hplace, replay_eq_error_iff.2]
      intro hm
      obtain ⟨hof', hquantity, hlimit⟩ := hmatches.1 hm
      have hi := hof'.instrumentId.symm.trans hof.instrumentId
      have hside := hof'.side.symm.trans hof.side
      have htype := hof'.orderType.symm.trans hof.orderType
      have hproduct := hof'.productType.symm.trans hof.productType
      have hvalidity := hof'.validity.symm.trans hof.validity
      obtain ⟨hq, hl, ht⟩ := h.changed hi hside htype hproduct hvalidity hquantity.symm hlimit.symm
      exact hdiffers ⟨hi, OrderValues.ext' hclient hside htype hproduct hvalidity hq hl ht⟩

end Replay

/-- **When placing is idempotent.**  A placement answers with an order or commits
one; after any run of calls, requests, quotes and passes the order is there, and
a placement under the same client order id is answered as that placement
promises exactly when it is not mistaken. -/
theorem place_idempotent_iff {settings : Settings} {desk t : TradingDesk} {now : Time}
    {userId instrumentId : Uuid} {values : OrderValues} {quote : Option NormalizedQuote}
    {o : TradingOrder} {events : List TradingEvent}
    (hplaced : (placeBegin settings now desk.store userId instrumentId values quote).2.order? =
      some o)
    (hrun : Run (Steps (tradingStep settings))
      (tradingStep settings desk (.call (.place now userId instrumentId values quote))) events t) :
    ∃ row, t.store.order? o.id = some row ∧ ∀ (instrumentId' : Uuid) (values' : OrderValues),
      values'.clientOrderId = values.clientOrderId →
        (Idempotent settings t.store row userId instrumentId values instrumentId' values' ↔
          Unmistaken row instrumentId values instrumentId' values') := by
  obtain ⟨⟨hmem, hof⟩, hmode⟩ := placeBegin_order hplaced
  have hcommitted : o.terms ∈ (tradingStep settings desk
      (.call (.place now userId instrumentId values quote))).store.terms := by
    rw [tradingStep, deskStep]
    generalize placeBegin settings now desk.store userId instrumentId values quote = r at hmem ⊢
    obtain ⟨s, result | o'⟩ := r <;> exact hmem
  obtain ⟨row, hrow, hterms⟩ := List.mem_map.1 (terms_run hrun hcommitted)
  have hid : row.id = o.id := congrArg OrderTerms.id hterms
  refine ⟨row, hid ▸ t.store.valid.order?_eq hrow, fun instrumentId' values' hclient => ?_⟩
  exact idempotent_iff hmode hrow (hterms ▸ hof) hclient

/-- The order is placed, and modified to 5. -/
def halved : TradingDesk :=
  [.call (.place 0 7 3 tenAtHundred none), .load 0, .modify 1 0 5 100 none].foldl
    (tradingStep paperSettings) ⟨⟨Store.empty, []⟩, []⟩

theorem place_idempotent_iff_halved : ∃ row, halved.store.order? 0 = some row ∧
    Idempotent paperSettings halved.store row 7 3 tenAtHundred 3
      { tenAtHundred with side := .sell } := by
  have hplaced : (placeBegin paperSettings 0 Store.empty 7 3 tenAtHundred none).2.order? =
      some (paperOrder 0 7 3 tenAtHundred 0) := by
    decide +kernel
  have hrun : Run (Steps (tradingStep paperSettings)) (tradingStep paperSettings
      ⟨⟨Store.empty, []⟩, []⟩ (.call (.place 0 7 3 tenAtHundred none)))
      [.load 0, .modify 1 0 5 100 none] halved := run_foldl _ _ _
  obtain ⟨row, hrow, h⟩ := place_idempotent_iff hplaced hrun
  refine ⟨row, hrow, (h 3 { tenAtHundred with side := .sell } rfl).2 ⟨?_, ?_⟩⟩
  · intro _ hsame
    exact absurd (congrArg OrderValues.side hsame) (by decide)
  · intro _ hside
    exact absurd hside (by decide)

/-- **A repeated placement is refused.**  The order was placed, and after its
modification the same request conflicts. -/
theorem repeated_placement_conflicts :
    (place paperSettings 0 0 Store.empty 7 3 tenAtHundred none true (.network true)).2 =
      .ok (paperOrder 0 7 3 tenAtHundred 0) ∧
    (place paperSettings 2 2 halved.store 7 3 tenAtHundred none true (.network true)).2 =
      .error (.trading ⟨"IDEMPOTENCY_CONFLICT", 409⟩) := by
  decide +kernel

end GnkAlgo
