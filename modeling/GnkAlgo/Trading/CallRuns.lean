import GnkAlgo.Trading.Lifecycle

/-!
# Calls that overlap

Between the request of a call of `OrderManager` and its answer other calls and
passes commit.  `deskStep` takes the calls apart: an event reads an order,
begins a call up to its `await`, brings the broker's answer, kills a call or
runs a pass, which is one transaction.

* `deskStep_cancel`, `deskStep_modify`, `deskStep_place` — a call that nobody
  interrupts is the call of the order manager;
* `Spares` — the answers and begins that leave the status of a settled order;
* `settled_kept_iff` — along a run no settled order changes its status exactly
  when every event of the run is one of those.
-/

namespace GnkAlgo

open Transition

/-! ## Calls in flight -/

/-- A call on a LIVE order, with the order as its session holds it: it has read
the order, or it waits for the answer to its request. -/
inductive Call
  | loaded (order : TradingOrder) (live : order.mode = .live)
  | placing (order : TradingOrder)
  | canceling (prior : OrderStatus) (order : TradingOrder)
  | modifying (order : TradingOrder) (quantity : ℤ) (limitPrice : ℚ)

/-- What is committed, and the calls that have not ended. -/
structure Desk where
  store : Store
  calls : List Call

inductive CallEvent
  | place (now : Time) (userId instrumentId : Uuid) (values : OrderValues)
      (quote : Option NormalizedQuote)
  | load (orderId : Uuid)
  | cancel (now : Time) (index : ℕ)
  | modify (now : Time) (index : ℕ) (quantity : ℤ) (limitPrice : ℚ)
      (quote : Option NormalizedQuote)
  | answer (now : Time) (index : ℕ) (subscribed : Bool) (outcome : HttpOutcome)
  | crash (index : ℕ)
  | reconcile (now : Time) (userId : Uuid) (brokerOrders : List BrokerOrderItem)
      (trades : List TradeItem)

/-- What a call makes of the answer, next to the order it read; nothing where it
does not wait for one. -/
def Call.answered (now : Time) (subscribed : Bool) (outcome : HttpOutcome) :
    Call → Option (TradingOrder × Outcome)
  | .loaded .. => none
  | .placing o => some (o, placeFinish now o (dhanPlace subscribed outcome))
  | .canceling prior o => some (o, cancelFinish now prior o (dhanCancel o outcome))
  | .modifying o quantity limitPrice =>
    some (o, modifyFinish o quantity limitPrice (dhanModify o outcome))

/-- One event. -/
def deskStep (settings : Settings) (desk : Desk) : CallEvent → Desk
  | .place now userId instrumentId values quote =>
    match placeBegin settings now desk.store userId instrumentId values quote with
    | (s, .done _) => { desk with store := s }
    | (s, .awaiting o) => ⟨s, desk.calls ++ [.placing o]⟩
  | .load orderId =>
    match desk.store.order? orderId with
    | some o =>
      if live : o.mode = .live then { desk with calls := desk.calls ++ [.loaded o live] } else desk
    | none => desk
  | .cancel now index =>
    match desk.calls[index]? with
    | some (.loaded o _) =>
      match cancelBegin settings now desk.store o with
      | (s, .done _) => ⟨s, desk.calls.eraseIdx index⟩
      | (s, .awaiting o') => ⟨s, desk.calls.set index (.canceling o.status o')⟩
    | _ => desk
  | .modify now index quantity limitPrice quote =>
    match desk.calls[index]? with
    | some (.loaded o _) =>
      match modifyBegin settings now desk.store o quantity limitPrice quote with
      | (s, .done _) => ⟨s, desk.calls.eraseIdx index⟩
      | (s, .awaiting o') => ⟨s, desk.calls.set index (.modifying o' quantity limitPrice)⟩
    | _ => desk
  | .answer now index subscribed outcome =>
    match (desk.calls[index]?).bind (Call.answered now subscribed outcome) with
    | some (o, result) => ⟨(desk.store.finish o result).1, desk.calls.eraseIdx index⟩
    | none => desk
  | .crash index => { desk with calls := desk.calls.eraseIdx index }
  | .reconcile now userId brokerOrders trades =>
    { desk with store := (reconcile now desk.store userId brokerOrders trades).1 }

/-! ## Calls that nobody interrupts -/

theorem deskStep_place (settings : Settings) (now later : Time) (s : Store)
    (userId instrumentId : Uuid) (values : OrderValues) (quote : Option NormalizedQuote)
    (subscribed : Bool) (outcome : HttpOutcome) :
    ([.place now userId instrumentId values quote, .answer later 0 subscribed outcome].foldl
      (deskStep settings) ⟨s, []⟩).store =
    (place settings now later s userId instrumentId values quote subscribed outcome).1 := by
  simp only [List.foldl_cons, List.foldl_nil, deskStep, place]
  rcases placeBegin settings now s userId instrumentId values quote with ⟨t, result | o⟩ <;> rfl

theorem deskStep_cancel (settings : Settings) (now later : Time) {s : Store} {o : TradingOrder}
    (ho : o ∈ s.orders) (hlive : o.mode = .live) (subscribed : Bool) (outcome : HttpOutcome) :
    ([.load o.id, .cancel now 0, .answer later 0 subscribed outcome].foldl
      (deskStep settings) ⟨s, []⟩).store = (cancel settings now later s o outcome).1 := by
  simp only [List.foldl_cons, List.foldl_nil, deskStep, cancel, s.valid.order?_eq ho, dif_pos hlive,
    List.nil_append, List.getElem?_cons_zero]
  rcases cancelBegin settings now s o with ⟨t, result | o'⟩ <;> rfl

theorem deskStep_modify (settings : Settings) (now later : Time) {s : Store} {o : TradingOrder}
    (ho : o ∈ s.orders) (hlive : o.mode = .live) (quantity : ℤ) (limitPrice : ℚ)
    (quote : Option NormalizedQuote) (subscribed : Bool) (outcome : HttpOutcome) :
    ([.load o.id, .modify now 0 quantity limitPrice quote,
      .answer later 0 subscribed outcome].foldl (deskStep settings) ⟨s, []⟩).store =
    (modify settings now s o quantity limitPrice quote outcome).1 := by
  simp only [List.foldl_cons, List.foldl_nil, deskStep, modify, s.valid.order?_eq ho, dif_pos hlive,
    List.nil_append, List.getElem?_cons_zero]
  rcases hbegin : modifyBegin settings now s o quantity limitPrice quote with ⟨t, result | o'⟩
  · rfl
  · rcases modifyBegin_cases settings now s o quantity limitPrice quote with
      ⟨hpaper, -⟩ | ⟨-, -, t', e, h, -⟩ | ⟨-, -, h⟩
    · exact absurd (hpaper.symm.trans hlive) (by decide)
    · cases h.symm.trans hbegin
    · cases h.symm.trans hbegin
      rfl

/-! ## Settled orders -/

/-- A LIVE order with a terminal status and its fills imported; `Imported` says
of an id and a filled quantity that they are. -/
structure TradingOrder.Settled (Imported : Uuid → ℤ → Prop) (o : TradingOrder) : Prop where
  mode : o.mode = .live
  status : o.status ∈ terminalStatuses
  imported : Imported o.id o.filledQuantity

/-- Every settled order of `s` is settled in `t`, with the same status. -/
def Store.Keeps (Imported : Uuid → ℤ → Prop) (s t : Store) : Prop :=
  ∀ o ∈ s.orders, o.Settled Imported →
    ∃ o' ∈ t.orders, o'.id = o.id ∧ o'.status = o.status ∧ o'.Settled Imported

/-- The answer leaves the status of a row that is settled when it comes: it
stands for the status the call holds already, or for the one the row has, or the
call is left by an exception before it writes. -/
def Call.Spares (row : TradingOrder) (subscribed : Bool) (outcome : HttpOutcome) : Call → Prop
  | .loaded .. => True
  | .placing o =>
    match dhanPlace subscribed outcome with
    | .ok response => mapDhanStatus response.orderStatus ∈ [o.status, row.status]
    | .error e => (if e.ambiguous then .unknown else .rejected) ∈ [o.status, row.status]
    | .escaped => True
  | .canceling prior o =>
    match dhanCancel o outcome with
    | .ok response => mapDhanStatus ((orMissing response.orderStatus).or (some "CANCELLED")) ∈
        [o.status, row.status]
    | .error e => (if e.ambiguous then .unknown else prior) ∈ [o.status, row.status]
    | .escaped => True
  | .modifying o _ _ =>
    match dhanModify o outcome with
    | .ok response => mapDhanStatus response.orderStatus ∈ [o.status, row.status]
    | .error e => (if e.ambiguous then .unknown else o.status) ∈ [o.status, row.status]
    | .escaped => True

/-- The order a call is about. -/
def Call.order : Call → TradingOrder
  | .loaded o _ | .placing o | .canceling _ o | .modifying o _ _ => o

/-- The events that leave the status of every settled order: an answer that
comes when the order is settled is one of those above, and no cancellation that
was read before the order was settled still begins. -/
def Spares (settings : Settings) (Imported : Uuid → ℤ → Prop) (desk : Desk) : CallEvent → Prop
  | .cancel now index => ∀ o live, desk.calls[index]? = some (.loaded o live) →
      CancelGuards settings now desk.store o → ∀ row, desk.store.order? o.id = some row →
        row.Settled Imported → o.status = .cancelPending
  | .answer _ index subscribed outcome => ∀ call, desk.calls[index]? = some call →
      ∀ row, desk.store.order? call.order.id = some row → row.Settled Imported →
        call.Spares row subscribed outcome
  | _ => True

variable {Imported : Uuid → ℤ → Prop} {s t u : Store}

theorem Store.Keeps.refl (s : Store) : s.Keeps Imported s := fun o ho h => ⟨o, ho, rfl, rfl, h⟩

theorem Store.Keeps.trans (hst : s.Keeps Imported t) (htu : t.Keeps Imported u) :
    s.Keeps Imported u := by
  intro o ho h
  obtain ⟨o', ho', hid, hstatus, h'⟩ := hst o ho h
  obtain ⟨o'', ho'', hid', hstatus', h''⟩ := htu o' ho' h'
  exact ⟨o'', ho'', hid'.trans hid, hstatus'.trans hstatus, h''⟩

/-- Rows that are still there are kept. -/
theorem Store.Keeps.of_subset (h : ∀ o ∈ s.orders, o.mode = .live → o ∈ t.orders) :
    s.Keeps Imported t :=
  fun o ho hsettled => ⟨o, h o ho hsettled.mode, rfl, rfl, hsettled⟩

theorem Store.SameTrading.keeps (h : s.SameTrading t) : s.Keeps Imported t :=
  .of_subset fun o ho _ => by rw [h.orders]; exact ho

theorem writeColumn_eq_iff {β : Type*} [DecidableEq β] {base new row : β} :
    writeColumn base new row = row ↔ new ∈ [base, row] := by
  unfold writeColumn
  split
  · rename_i h; simp [h]
  · rename_i h; simp [h]

/-- **A commit** of a call that read `base` and fills nothing leaves the settled
orders their status exactly when it writes none to a settled row. -/
theorem Store.keeps_writeOrder_iff {base new : TradingOrder}
    (hfilled : new.filledQuantity = base.filledQuantity) :
    s.Keeps Imported (s.writeOrder base new) ↔
      ∀ row, s.order? base.id = some row → row.Settled Imported →
        new.status ∈ [base.status, row.status] := by
  cases hrow : s.order? base.id with
  | none =>
    have hsame : (s.writeOrder base new).toDatabase = s.toDatabase := by
      change s.toDatabase.writeOrder base new = s.toDatabase
      rw [Database.writeOrder, hrow]
    refine iff_of_true ?_ (by simp)
    rw [Store.ext' hsame]
    exact .refl s
  | some row =>
    obtain ⟨hmem, hid⟩ := Database.order?_mem hrow
    have horders : (s.writeOrder base new).orders =
        Rows.replaceBy TradingOrder.id (base.writeBack new row) s.orders := by
      change (s.toDatabase.writeOrder base new).orders = _
      rw [Database.writeOrder, hrow]
      rfl
    simp only [Option.some.injEq, forall_eq']
    constructor
    · intro h hsettled
      obtain ⟨o', ho', hid', hstatus, -⟩ := h row hmem hsettled
      rw [horders] at ho'
      rcases Rows.mem_replaceBy ho' with rfl | ⟨-, hne⟩
      · exact writeColumn_eq_iff.1 hstatus
      · exact absurd hid' hne
    · intro h o ho hsettled
      rw [horders]
      by_cases hsame : o.id = row.id
      · obtain rfl := s.valid.eq_of_id ho hmem hsame
        have hstatus : (base.writeBack new o).status = o.status :=
          writeColumn_eq_iff.2 (h hsettled)
        have hquantity : (base.writeBack new o).filledQuantity = o.filledQuantity := by
          change writeColumn base.filledQuantity new.filledQuantity o.filledQuantity = _
          rw [hfilled, writeColumn_unchanged]
        refine ⟨_, Rows.mem_replaceBy_self ho rfl, rfl, hstatus, hsettled.mode, ?_, ?_⟩
        · rw [hstatus]; exact hsettled.status
        · rw [hquantity]; exact hsettled.imported
      · exact ⟨o, Rows.mem_replaceBy_of_ne ho hsame, rfl, rfl, hsettled⟩

/-! ## Events -/

/-- The paper engine adds a row of its own and touches no other. -/
theorem keeps_paperPlace (settings : Settings) (now : Time) (s : Store)
    (userId instrumentId : Uuid) (values : OrderValues) (quote : Option NormalizedQuote) :
    s.Keeps Imported (paperPlace settings now s userId instrumentId values quote).1 := by
  rcases paperPlace_cases settings now s userId instrumentId values quote with
    hs | ⟨price, t, -, -, -, hsettled, hs⟩
  · rw [hs]; exact .refl s
  have horders := congrArg Database.orders hs
  refine .of_subset fun o ho _ => ?_
  have hne : o.id ≠ s.nextUuid := (s.valid.orderUuids o ho).ne
  have hplaced : o ∈ (s.toDatabase.insertOrder
      (paperOrder s.nextUuid userId instrumentId values now)).orders :=
    List.mem_append_left _ ho
  rw [horders]
  cases hsettled with
  | rests => exact hplaced
  | canceled => exact Rows.mem_replaceBy_of_ne hplaced hne
  | filled price _ _ =>
    rw [Session.fillPaper_orders]
    exact Rows.mem_replaceBy_of_ne hplaced hne

theorem keeps_placeBegin (settings : Settings) (now : Time) (s : Store)
    (userId instrumentId : Uuid) (values : OrderValues) (quote : Option NormalizedQuote) :
    s.Keeps Imported (placeBegin settings now s userId instrumentId values quote).1 := by
  rcases placeBegin_cases settings now s userId instrumentId values quote with
    ⟨-, h⟩ | ⟨-, t, r, h, hsame⟩ | ⟨-, connectionId, t, ht, h⟩
  · rw [h]; exact keeps_paperPlace settings now s userId instrumentId values quote
  · rw [h]; exact hsame.keeps
  · rw [h]
    refine .of_subset fun o ho _ => ?_
    dsimp only
    rw [congrArg Database.orders ht]
    exact List.mem_append_left _ ho

/-- A pass does not load a settled order. -/
theorem keeps_reconcile (now : Time) (s : Store) (userId : Uuid)
    (brokerOrders : List BrokerOrderItem) (trades : List TradeItem) :
    s.Keeps Imported (reconcile now s userId brokerOrders trades).1 := by
  intro o ho hsettled
  have hlocal : o ∉ localOrders s.toDatabase userId := by
    intro h
    have hopen : o.userId = userId ∧ o.mode = .live ∧ o.status ∈ openOrderStatuses := by
      simpa using (List.mem_filter.1 h).2
    exact mem_terminalStatuses.1 hsettled.status hopen.2.2
  rcases Session.commitOr_fst (reconcileApply now s.begin userId brokerOrders trades) s (.ok ())
    with hs | ⟨hs, -⟩
  · rw [reconcile, hs]; exact ⟨o, ho, rfl, rfl, hsettled⟩
  · obtain ⟨b, hrow, -⟩ := pass_row now userId brokerOrders trades ho
    obtain ⟨htrades, hitems⟩ := attachedPass_nothing ho hlocal brokerOrders trades
    rw [htrades, hitems, hs] at hrow
    exact ⟨_, (Database.order?_mem hrow).1, rfl, rfl, hsettled.mode, hsettled.status,
      hsettled.imported⟩

theorem keeps_cancelBegin_iff {settings : Settings} {now : Time} {o : TradingOrder}
    (hlive : o.mode = .live) : s.Keeps Imported (cancelBegin settings now s o).1 ↔
      (CancelGuards settings now s o → ∀ row, s.order? o.id = some row →
        row.Settled Imported → o.status = .cancelPending) := by
  rcases cancelBegin_cases settings now s o with
    ⟨hpaper, -⟩ | ⟨hguards, t, r, h, hsame⟩ | ⟨hguards, h⟩
  · exact absurd (hpaper.symm.trans hlive) (by decide)
  · rw [h]; exact iff_of_true hsame.keeps fun hg => absurd hg hguards
  · rw [h]
    dsimp only
    rw [Store.keeps_writeOrder_iff (by rfl)]
    have hrow : ∀ row : TradingOrder, row.Settled Imported →
        (o.cancelRequested.status ∈ [o.status, row.status] ↔ o.status = .cancelPending) := by
      intro row hsettled
      have hne : row.status ≠ .cancelPending := fun heq =>
        mem_terminalStatuses.1 hsettled.status (by rw [heq]; decide)
      change OrderStatus.cancelPending ∈ [o.status, row.status] ↔ _
      simp [hne.symm, eq_comm (a := o.status)]
    exact ⟨fun hk _ row hid hsettled => (hrow row hsettled).1 (hk row hid hsettled),
      fun hk row hid hsettled => (hrow row hsettled).2 (hk hguards row hid hsettled)⟩

theorem keeps_modifyBegin {settings : Settings} {now : Time} {o : TradingOrder}
    (hlive : o.mode = .live) (quantity : ℤ) (limitPrice : ℚ) (quote : Option NormalizedQuote) :
    s.Keeps Imported (modifyBegin settings now s o quantity limitPrice quote).1 := by
  rcases modifyBegin_cases settings now s o quantity limitPrice quote with
    ⟨hpaper, -⟩ | ⟨-, -, t, e, h, hsame⟩ | ⟨-, -, h⟩
  · exact absurd (hpaper.symm.trans hlive) (by decide)
  · rw [h]; exact hsame.keeps
  · rw [h]; exact .refl s

/-- What a call leaves of the row it finds: it fills nothing, and it spares the
status exactly when its answer does. -/
theorem Call.spares_iff {now : Time} {subscribed : Bool} {outcome : HttpOutcome} {call : Call}
    {o : TradingOrder} {result : Outcome} (h : call.answered now subscribed outcome = some (o, result))
    (row : TradingOrder) :
    o = call.order ∧ (call.Spares row subscribed outcome ↔
      ∀ new ∈ result.1, new.status ∈ [o.status, row.status]) ∧
    ∀ new ∈ result.1, new.filledQuantity = o.filledQuantity := by
  cases call with
  | loaded o' live => cases h
  | placing o' =>
    cases h
    refine ⟨rfl, ?_⟩
    rw [Call.Spares]
    cases dhanPlace subscribed outcome <;> simp [placeFinish]
  | canceling prior o' =>
    cases h
    refine ⟨rfl, ?_⟩
    rw [Call.Spares]
    cases dhanCancel o outcome <;> simp [cancelFinish]
  | modifying o' quantity limitPrice =>
    cases h
    refine ⟨rfl, ?_⟩
    rw [Call.Spares]
    cases dhanModify o outcome <;> simp [modifyFinish]

theorem keeps_finish_iff {now : Time} {subscribed : Bool} {outcome : HttpOutcome} {call : Call}
    {o : TradingOrder} {result : Outcome}
    (h : call.answered now subscribed outcome = some (o, result)) :
    s.Keeps Imported (s.finish o result).1 ↔ ∀ row, s.order? call.order.id = some row →
      row.Settled Imported → call.Spares row subscribed outcome := by
  obtain ⟨horder, -, hfilled⟩ := Call.spares_iff h o
  simp only [(Call.spares_iff h _).2.1, ← horder]
  obtain ⟨write, value⟩ := result
  cases write with
  | none => exact iff_of_true (.refl s) (by simp)
  | some new =>
    change s.Keeps Imported (s.writeOrder o new) ↔ _
    rw [Store.keeps_writeOrder_iff (hfilled new rfl)]
    simp

/-- **One event** leaves every settled order its status exactly when it is one
of those that spare it. -/
theorem keeps_deskStep_iff (settings : Settings) (desk : Desk) (e : CallEvent) :
    desk.store.Keeps Imported (deskStep settings desk e).store ↔
      Spares settings Imported desk e := by
  cases e with
  | place now userId instrumentId values quote =>
    have h : desk.store.Keeps Imported
        (placeBegin settings now desk.store userId instrumentId values quote).1 :=
      keeps_placeBegin settings now desk.store userId instrumentId values quote
    refine iff_of_true ?_ trivial
    rw [deskStep]
    generalize placeBegin settings now desk.store userId instrumentId values quote = r at h ⊢
    obtain ⟨t, result | o⟩ := r <;> exact h
  | load orderId =>
    refine iff_of_true ?_ trivial
    rw [deskStep]
    split
    · split <;> exact .refl _
    · exact .refl _
  | cancel now index =>
    rw [deskStep, Spares]
    cases hcall : desk.calls[index]? with
    | none => exact iff_of_true (.refl _) (by simp)
    | some call =>
      cases call with
      | loaded o live =>
        have h : desk.store.Keeps Imported (cancelBegin settings now desk.store o).1 ↔
            (CancelGuards settings now desk.store o → ∀ row, desk.store.order? o.id = some row →
              row.Settled Imported → o.status = .cancelPending) := keeps_cancelBegin_iff live
        simp only [Option.some.injEq, Call.loaded.injEq]
        have hsame : (∀ (o' : TradingOrder), o'.mode = .live → o = o' →
            CancelGuards settings now desk.store o' → ∀ row, desk.store.order? o'.id = some row →
              row.Settled Imported → o'.status = .cancelPending) ↔
            (CancelGuards settings now desk.store o → ∀ row, desk.store.order? o.id = some row →
              row.Settled Imported → o.status = .cancelPending) :=
          ⟨fun hk => hk o live rfl, fun hk o' _ heq => heq ▸ hk⟩
        rw [hsame, ← h]
        generalize cancelBegin settings now desk.store o = r
        obtain ⟨t, result | o'⟩ := r <;> exact Iff.rfl
      | placing | canceling | modifying => exact iff_of_true (.refl _) (by simp)
  | modify now index quantity limitPrice quote =>
    refine iff_of_true ?_ trivial
    rw [deskStep]
    split
    · rename_i o live _
      have h : desk.store.Keeps Imported
          (modifyBegin settings now desk.store o quantity limitPrice quote).1 :=
        keeps_modifyBegin live quantity limitPrice quote
      generalize modifyBegin settings now desk.store o quantity limitPrice quote = r at h ⊢
      obtain ⟨t, result | o'⟩ := r <;> exact h
    · exact .refl _
  | answer now index subscribed outcome =>
    rw [deskStep, Spares]
    cases hcall : desk.calls[index]? with
    | none => exact iff_of_true (.refl _) (by simp)
    | some call =>
      simp only [Option.bind_some, Option.some.injEq, forall_eq']
      cases hanswer : call.answered now subscribed outcome with
      | none =>
        cases call with
        | loaded o live => exact iff_of_true (.refl _) fun _ _ _ => trivial
        | placing | canceling | modifying => cases hanswer
      | some r => exact keeps_finish_iff hanswer
  | crash index => exact iff_of_true (.refl _) trivial
  | reconcile now userId brokerOrders trades =>
    exact iff_of_true (keeps_reconcile now desk.store userId brokerOrders trades) trivial

/-! ## Runs -/

/-- **Runs.**  From every state of a run to every later one each settled order
keeps its status exactly when every event of the run spares it. -/
theorem settled_kept_iff (settings : Settings) (Imported : Uuid → ℤ → Prop) (desk : Desk)
    (events : List CallEvent) :
    (∀ before middle after, events = before ++ middle ++ after →
      (before.foldl (deskStep settings) desk).store.Keeps Imported
        ((before ++ middle).foldl (deskStep settings) desk).store) ↔
    Run (Guarded (Spares settings Imported) (Steps (deskStep settings))) desk events
      (events.foldl (deskStep settings) desk) :=
  (guarded_run_iff (R := fun d d' : Desk => d.store.Keeps Imported d'.store)
    (fun d => .refl d.store) (fun _ _ _ => .trans) (keeps_deskStep_iff settings)).symm

/-- A limit order for 10 that rests at the broker, and a cancellation that waits
for its answer while a pass imports the trade that fills the order. -/
def filledMeanwhile : List CallEvent := [
  .place 0 7 3 tenAtHundred (some quoteAtHundred),
  .answer 1 0 true (.response 200 (.object { orderId := some "1", orderStatus := some "PENDING" })),
  .load 10,
  .cancel 2 0,
  .reconcile 3 7 [{ orderId := "1", orderStatus := some "TRADED" }]
    [{ orderId := "1", exchangeTradeId := "t", tradedQuantity := 10, tradedPrice := 100 }]]

/-- The broker's answer to that cancellation. -/
def lateCancel : CallEvent :=
  .answer 4 0 true (.response 200 (.object { orderStatus := some "CANCELLED" }))

/-- **A filled order is canceled.**  The answer to a cancellation that was
waiting overwrites the FILLED of the pass. -/
theorem filled_overwritten :
    ¬ ∀ (settings : Settings) (s : Store) (events : List CallEvent) (e : CallEvent),
      ∀ o ∈ (events.foldl (deskStep settings) ⟨s, []⟩).store.orders, o.mode = .live →
        o.status = .filled → o.filledQuantity = o.quantity →
        ∃ o' ∈ ((events ++ [e]).foldl (deskStep settings) ⟨s, []⟩).store.orders,
          o'.id = o.id ∧ o'.status = .filled := by
  intro h
  have hbefore : ((filledMeanwhile.foldl (deskStep liveSettings)
      ⟨connectedStore, []⟩).store.orders.map
        fun o => (o.id, o.mode, o.status, o.filledQuantity, o.quantity)) =
      [(10, .live, .filled, 10, 10)] := by
    decide +kernel
  have hafter : (((filledMeanwhile ++ [lateCancel]).foldl (deskStep liveSettings)
      ⟨connectedStore, []⟩).store.orders.map fun o => (o.id, o.status)) = [(10, .canceled)] := by
    decide +kernel
  obtain ⟨o, ho, hvalues⟩ := List.mem_map.1 (hbefore ▸ List.mem_singleton.2 rfl)
  simp only [Prod.mk.injEq] at hvalues
  obtain ⟨-, hmode, hstatus, hfilled, hquantity⟩ := hvalues
  obtain ⟨o', ho', -, hstatus'⟩ := h liveSettings connectedStore filledMeanwhile lateCancel o ho
    hmode hstatus (hfilled.trans hquantity.symm)
  have hmem := List.mem_map_of_mem (f := fun o : TradingOrder => (o.id, o.status)) ho'
  rw [hafter, List.mem_singleton, hstatus'] at hmem
  cases (Prod.mk.inj hmem).2

end GnkAlgo
