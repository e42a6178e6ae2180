import GnkAlgo.Trading.Engine
import GnkAlgo.Trading.Ledger

/-!
# What the paper engine can do

One lemma for each operation of `PaperTradingEngine`: the stores it can commit.
Everything proved about runs of the paper engine starts from these.

* `Session.Fill` — one fill inside a session; the loop of `process_quote` is a
  run of fills (`fillCrossed_run`), each of what is left of a crossed order;
* `paperPlace_cases`, `paperCancel_cases`, `paperModify_cases`,
  `processQuote_cases`.
-/

namespace GnkAlgo

open Transition

/-! ## Fills -/

/-- A query does not find an id that was drawn after its rows were stored. -/
theorem Session.recorded?_paper {s : Session} (hv : s.stored.Valid) {n : Uuid}
    (hn : s.stored.nextUuid ≤ n) (o : TradingOrder) : s.recorded? o (some (.paper n)) = none := by
  rw [Session.recorded?, Option.filter_some, if_pos (by rfl)]
  exact hv.execution?_paper o.userId hn

/-- The session after a paper fill. -/
def Session.fillPaper (s : Session) (now : Time) (o : TradingOrder) (quantity : ℤ) (price : ℚ) :
    Session :=
  s.draw.bookExecution o quantity price .paper (some (.paper s.work.nextUuid)) now

/-- A paper fill of an order in memory can be committed, where a position row
that no query finds is not pending either. -/
theorem Session.valid_fillPaper {s : Session} (hv : s.work.Valid) {o : TradingOrder}
    (ho : o ∈ s.work.orders)
    (hpos : s.stored.position? o.positionKey = none → s.work.position? o.positionKey = none)
    (now : Time) (quantity : ℤ) (price : ℚ) : (s.fillPaper now o quantity price).work.Valid := by
  refine Session.valid_bookExecution (s := s.draw) (hv.nextUuid (Nat.le_succ _)) ho hpos ?_ ?_
  · intro i hi
    obtain rfl := Option.some_inj.1 hi
    exact hv.execution?_paper o.userId le_rfl
  · intro n hn
    obtain rfl := BrokerExecutionId.paper.inj (Option.some_inj.1 hn)
    exact Nat.lt_succ_self _

/-- A paper fill is refused for its quantity, or else booked. -/
theorem paperFill_cases (settings : Settings) (now : Time) {s : Session} (hv : s.stored.Valid)
    (hn : s.stored.nextUuid ≤ s.work.nextUuid) (o : TradingOrder) (quantity : ℤ)
    (quote : NormalizedQuote) :
    ((quantity ≤ 0 ∨ o.quantity < o.filledQuantity + quantity) ∧
      paperFill settings now s o quantity quote = .error ⟨"INVALID_EXECUTION_QUANTITY", 409⟩) ∨
    (0 < quantity ∧ o.filledQuantity + quantity ≤ o.quantity ∧
      paperFill settings now s o quantity quote =
        .ok (s.fillPaper now o quantity (fillPrice o quote settings.paperSlippageBps),
          o.fill quantity (fillPrice o quote settings.paperSlippageBps) now)) := by
  have hnew : s.draw.recorded? o (some (.paper s.work.nextUuid)) = none :=
    Session.recorded?_paper (s := s.draw) hv hn o
  rcases applyExecution_cases now s.draw o quantity (fillPrice o quote settings.paperSlippageBps)
      .paper (some (.paper s.work.nextUuid)) none with ⟨⟨e, he⟩, -⟩ | ⟨-, hq, h⟩ | ⟨-, hq, hfit, h⟩
  · rw [hnew] at he; cases he
  · exact Or.inl ⟨hq, h⟩
  · exact Or.inr ⟨hq, hfit, h⟩

/-- An order the engine may fill: an open PAPER order. -/
def TradingOrder.Resting (o : TradingOrder) : Prop :=
  o.mode = .paper ∧ o.status ∈ openOrderStatuses

/-- One fill of a resting order inside a session. -/
def Session.Fill (s : Session) (o : TradingOrder) (t : Session) : Prop :=
  o ∈ s.work.orders ∧ o.Resting ∧ ∃ now quantity price, 0 < quantity ∧
    o.filledQuantity + quantity ≤ o.quantity ∧ t = s.fillPaper now o quantity price

@[simp] theorem Session.fillPaper_stored (s : Session) (now : Time) (o : TradingOrder)
    (quantity : ℤ) (price : ℚ) : (s.fillPaper now o quantity price).stored = s.stored := by
  simp [Session.fillPaper, Session.draw]

@[simp] theorem Session.fillPaper_nextUuid (s : Session) (now : Time) (o : TradingOrder)
    (quantity : ℤ) (price : ℚ) :
    (s.fillPaper now o quantity price).work.nextUuid = s.work.nextUuid + 1 := by
  simp [Session.fillPaper, Session.draw]

@[simp] theorem Session.fillPaper_orders (s : Session) (now : Time) (o : TradingOrder)
    (quantity : ℤ) (price : ℚ) :
    (s.fillPaper now o quantity price).work.orders =
      Rows.replaceBy TradingOrder.id (o.fill quantity price now) s.work.orders := by
  simp [Session.fillPaper, Session.draw]

theorem fillCrossed_of_map {result : Except TradingError (Session × ℕ)} {t : Session} {filled : ℕ}
    (h : (result.map fun r => (r.1, r.2 + 1)) = .ok (t, filled)) : ∃ n, result = .ok (t, n) := by
  cases result with
  | error e => cases h
  | ok r => cases h; exact ⟨r.2, rfl⟩

/-- One fill of the loop of `process_quote`: what is left of a resting order that
the quote crosses, at the price the quote gives. -/
structure Session.CrossFill (settings : Settings) (now : Time) (quote : NormalizedQuote)
    (s : Session) (o : TradingOrder) (t : Session) : Prop where
  mem : o ∈ s.work.orders
  resting : o.Resting
  crossing : isCrossing o quote
  left : 0 < o.quantity - o.filledQuantity
  eq : t = s.fillPaper now o (o.quantity - o.filledQuantity)
    (fillPrice o quote settings.paperSlippageBps)

theorem Session.CrossFill.fill {settings : Settings} {now : Time} {quote : NormalizedQuote}
    {s t : Session} {o : TradingOrder} (h : s.CrossFill settings now quote o t) : s.Fill o t :=
  ⟨h.mem, h.resting, now, _, _, h.left, by omega, h.eq⟩

/-- **The loop of `process_quote` is a run of fills**, one for each crossed order. -/
theorem fillCrossed_run {settings : Settings} {now : Time} {quote : NormalizedQuote}
    {orders : List TradingOrder} : ∀ {s t : Session} {filled : ℕ}, s.stored.Valid →
      s.stored.nextUuid ≤ s.work.nextUuid → (orders.map TradingOrder.id).Nodup →
      (∀ o ∈ orders, o ∈ s.work.orders ∧ o.Resting) →
      fillCrossed settings now quote s orders = .ok (t, filled) →
      ∃ fs, (∀ o ∈ fs, o ∈ orders) ∧ Run (Session.CrossFill settings now quote) s fs t := by
  induction orders with
  | nil =>
    intro s t filled _ _ _ _ h
    cases h
    exact ⟨[], by simp, .nil⟩
  | cons o rest ih =>
    intro s t filled hv hn hnd hmem h
    rw [List.map_cons, List.nodup_cons] at hnd
    rw [fillCrossed] at h
    by_cases hcross : isCrossing o quote
    · rw [if_pos hcross] at h
      obtain ⟨ho, hrest⟩ := hmem o (List.mem_cons_self ..)
      rcases paperFill_cases settings now hv hn o (o.quantity - o.filledQuantity) quote with
        ⟨-, hfill⟩ | ⟨hq, hfit, hfill⟩
      · rw [hfill] at h; cases h
      · rw [hfill] at h
        dsimp only at h
        obtain ⟨n, hloop⟩ := fillCrossed_of_map h
        obtain ⟨fs, hfs, hrun⟩ := ih (by simpa using hv) (by simpa using Nat.le_succ_of_le hn) hnd.2
          (fun o' ho' => by
            -- the orders still to come are other rows
            obtain ⟨hmem', hrest'⟩ := hmem o' (List.mem_cons_of_mem _ ho')
            have hne : o'.id ≠ o.id := fun heq => hnd.1 (List.mem_map.2 ⟨o', ho', heq⟩)
            rw [Session.fillPaper_orders]
            exact ⟨Rows.mem_replaceBy_of_ne hmem' hne, hrest'⟩) hloop
        refine ⟨o :: fs, ?_, .cons ⟨ho, hrest, hcross, hq, rfl⟩ hrun⟩
        intro o' ho'
        rcases List.mem_cons.1 ho' with rfl | ho'
        · exact List.mem_cons_self ..
        · exact List.mem_cons_of_mem _ (hfs o' ho')
    · rw [if_neg hcross] at h
      obtain ⟨fs, hfs, hrun⟩ := ih hv hn hnd.2 (fun o' ho' => hmem o' (List.mem_cons_of_mem _ ho')) h
      exact ⟨fs, fun o' ho' => List.mem_cons_of_mem _ (hfs o' ho'), hrun⟩

/-- The loop is not refused where something is left of every order. -/
theorem fillCrossed_isOk {settings : Settings} {now : Time} {quote : NormalizedQuote}
    {orders : List TradingOrder} : ∀ {s : Session}, s.stored.Valid →
      s.stored.nextUuid ≤ s.work.nextUuid → (∀ o ∈ orders, o.filledQuantity < o.quantity) →
      ∃ r, fillCrossed settings now quote s orders = .ok r := by
  induction orders with
  | nil => intro s _ _ _; exact ⟨_, rfl⟩
  | cons o rest ih =>
    intro s hv hn hleft
    have hrest : ∀ o ∈ rest, o.filledQuantity < o.quantity :=
      fun o' ho' => hleft o' (List.mem_cons_of_mem _ ho')
    have ho := hleft o (List.mem_cons_self ..)
    rw [fillCrossed]
    split
    · rcases paperFill_cases settings now hv hn o (o.quantity - o.filledQuantity) quote with
        ⟨hbad, -⟩ | ⟨-, -, hfill⟩
      · omega
      · rw [hfill]
        obtain ⟨r, hr⟩ := ih (s := s.fillPaper now o (o.quantity - o.filledQuantity)
          (fillPrice o quote settings.paperSlippageBps)) (by simpa using hv)
          (by simpa using Nat.le_succ_of_le hn) hrest
        dsimp only
        rw [hr]
        exact ⟨_, rfl⟩
    · exact ih hv hn hrest

theorem restingOrders_resting {d : Database} {userId instrumentId : Uuid} {o : TradingOrder}
    (h : o ∈ restingOrders d userId instrumentId) : o ∈ d.orders ∧ o.Resting := by
  obtain ⟨ho, hp⟩ := List.mem_filter.1 h
  have hp : o.userId = userId ∧ o.instrumentId = instrumentId ∧ o.mode = .paper ∧
      (o.status = .open ∨ o.status = .partiallyFilled) := by simpa using hp
  refine ⟨ho, hp.2.2.1, ?_⟩
  rcases hp.2.2.2 with h | h <;> rw [h] <;> decide

theorem restingOrders_nodup {d : Database} (hd : d.Valid) (userId instrumentId : Uuid) :
    ((restingOrders d userId instrumentId).map TradingOrder.id).Nodup :=
  hd.orderIds.sublist (List.filter_sublist.map _)

/-- **What `process_quote` can commit**: nothing new, or a run of fills of the
orders the quote crosses. -/
theorem processQuote_fills (settings : Settings) (now : Time) (s : Store) (userId : Uuid)
    (quote : NormalizedQuote) :
    (processQuote settings now s userId quote).1 = s ∨
    ∃ fs t, Run (Session.CrossFill settings now quote) s.begin fs t ∧
      (processQuote settings now s userId quote).1.toDatabase = t.work := by
  unfold processQuote
  cases h : fillCrossed settings now quote s.begin
      (restingOrders s.toDatabase userId quote.instrumentId) with
  | error e => exact Or.inl rfl
  | ok r =>
    obtain ⟨t, filled⟩ := r
    dsimp only
    by_cases hf : 0 < filled
    · rw [if_pos hf]
      obtain ⟨fs, -, hrun⟩ := fillCrossed_run s.valid le_rfl (restingOrders_nodup s.valid _ _)
        (fun o ho => restingOrders_resting ho) h
      rcases Session.commitOr_fst t s (.ok filled) with hs | ⟨hs, -⟩
      · exact Or.inl hs
      · exact Or.inr ⟨fs, t, hrun, hs.symm⟩
    · rw [if_neg hf]; exact Or.inl rfl

theorem processQuote_cases (settings : Settings) (now : Time) (s : Store) (userId : Uuid)
    (quote : NormalizedQuote) :
    (processQuote settings now s userId quote).1 = s ∨
    ∃ fs t, Run Session.Fill s.begin fs t ∧
      (processQuote settings now s userId quote).1.toDatabase = t.work :=
  (processQuote_fills settings now s userId quote).imp_right fun ⟨fs, t, hrun, hs⟩ =>
    ⟨fs, t, hrun.mono fun _ _ _ h => h.fill, hs⟩

/-! ## Placing -/

/-- What `place` leaves of the new order `o` in a session that holds it. -/
inductive Session.Settled (now : Time) (s : Session) (o : TradingOrder) : Session → Prop
  | rests : Settled now s o s
  | canceled : Settled now s o
      { s with work := s.work.setOrder { o with status := .canceled, completedAt := some now } }
  | filled (price : ℚ) : 0 < o.quantity → o.filledQuantity + o.quantity ≤ o.quantity →
      Settled now s o (s.fillPaper now o o.quantity price)

/-- How `place` settles the new order `o`: a crossed order is filled, another is
canceled or rests as its validity says. -/
inductive Session.NewSettled (settings : Settings) (now : Time) (quote : Option NormalizedQuote)
    (s : Session) (o : TradingOrder) : Session → Prop
  | rests : (∀ q ∈ quote, ¬ isCrossing o q) → o.validity ≠ .ioc →
      NewSettled settings now quote s o s
  | canceled : NewSettled settings now quote s o
      { s with work := s.work.setOrder { o with status := .canceled, completedAt := some now } }
  | filled (q : NormalizedQuote) : quote = some q → isCrossing o q → 0 < o.quantity →
      o.filledQuantity + o.quantity ≤ o.quantity →
      NewSettled settings now quote s o
        (s.fillPaper now o o.quantity (fillPrice o q settings.paperSlippageBps))

theorem Session.NewSettled.settled {settings : Settings} {now : Time}
    {quote : Option NormalizedQuote} {s t : Session} {o : TradingOrder}
    (h : s.NewSettled settings now quote o t) : s.Settled now o t := by
  cases h with
  | rests => exact .rests
  | canceled => exact .canceled
  | filled q _ _ hq hfit => exact .filled _ hq hfit

theorem settleNew_settled {settings : Settings} {now : Time} {s t : Session} {o o' : TradingOrder}
    {quote : Option NormalizedQuote} (hv : s.stored.Valid)
    (hn : s.stored.nextUuid ≤ s.work.nextUuid)
    (h : settleNew settings now s o quote = .ok (t, o')) :
    s.NewSettled settings now quote o t := by
  have hold : (∀ q ∈ quote, ¬ isCrossing o q) →
      (if o.validity = .ioc then settleNew.cancelNew now s o else .ok (s, o)) = .ok (t, o') →
      s.NewSettled settings now quote o t := by
    intro hcross h
    split at h
    · cases h; exact .canceled
    · rename_i hvalidity
      cases h
      exact .rests hcross hvalidity
  unfold settleNew at h
  cases quote with
  | none => exact hold (by simp) h
  | some q =>
    dsimp only at h
    split at h
    · rename_i hcross
      rcases paperFill_cases settings now hv hn o o.quantity q with
        ⟨-, hfill⟩ | ⟨hq, hfit, hfill⟩
      · rw [hfill] at h; cases h
      · rw [hfill] at h; cases h; exact .filled q rfl hcross hq hfit
    · rename_i hcross
      exact hold (by simpa using hcross) h

/-- **What `place` can commit**: nothing new, or an order that passed the checks,
settled. -/
theorem paperPlace_settled (settings : Settings) (now : Time) (s : Store)
    (userId instrumentId : Uuid) (values : OrderValues) (quote : Option NormalizedQuote) :
    (paperPlace settings now s userId instrumentId values quote).1 = s ∨
    ∃ t, paperChecks settings now s.toDatabase userId instrumentId values quote = .ok () ∧
      let o := paperOrder s.nextUuid userId instrumentId values now
      let d := s.toDatabase.insertOrder o
      d.Valid ∧ Session.NewSettled settings now quote ⟨d, d⟩ o t ∧
      (paperPlace settings now s userId instrumentId values quote).1.toDatabase = t.work := by
  unfold paperPlace
  split
  · exact Or.inl rfl
  split
  · exact Or.inl rfl
  split
  · exact Or.inl rfl
  rename_i hchecks
  dsimp only
  cases hflush : Session.flush ⟨s.toDatabase,
      s.toDatabase.insertOrder (paperOrder s.nextUuid userId instrumentId values now)⟩ with
  | error e => exact Or.inl rfl
  | ok session =>
    obtain ⟨hvalid, rfl⟩ := Session.flush_eq_ok hflush
    dsimp only
    split
    · exact Or.inl rfl
    · rename_i t o' hsettle
      have hsettled := settleNew_settled hvalid le_rfl hsettle
      rcases Session.commitOr_fst t s (.ok o') with hs | ⟨hs, -⟩
      · exact Or.inl hs
      · exact Or.inr ⟨t, hchecks, hvalid, hsettled, hs.symm⟩

/-- The same, with the gate the order passed. -/
theorem paperPlace_cases (settings : Settings) (now : Time) (s : Store)
    (userId instrumentId : Uuid) (values : OrderValues) (quote : Option NormalizedQuote) :
    (paperPlace settings now s userId instrumentId values quote).1 = s ∨
    ∃ price t, riskPrice? quote values.limitPrice = some price ∧
      riskCheck settings s.toDatabase userId instrumentId values.side values.productType
        values.quantity price .paper = .ok () ∧
      let o := paperOrder s.nextUuid userId instrumentId values now
      let d := s.toDatabase.insertOrder o
      d.Valid ∧ Session.Settled now ⟨d, d⟩ o t ∧
      (paperPlace settings now s userId instrumentId values quote).1.toDatabase = t.work := by
  rcases paperPlace_settled settings now s userId instrumentId values quote with
    hs | ⟨t, hchecks, hvalid, hsettled, hs⟩
  · exact Or.inl hs
  · obtain ⟨price, hprice, hrisk⟩ := paperChecks_ok hchecks
    exact Or.inr ⟨price, t, hprice, hrisk, hvalid, hsettled.settled, hs⟩

/-! ## Canceling and modifying -/

/-- **What `cancel` can commit.** -/
theorem paperCancel_cases (now : Time) (s : Store) (o : TradingOrder) :
    (paperCancel now s o).1 = s ∨
    (o.Resting ∧ (paperCancel now s o).1.toDatabase = s.toDatabase.setOrder (o.canceledAt now)) := by
  unfold paperCancel
  by_cases h : o.mode ≠ .paper ∨ o.status ∉ openOrderStatuses
  · rw [paperCancelOrder, if_pos h]; exact Or.inl rfl
  · rw [paperCancelOrder, if_neg h]
    obtain ⟨hmode, hstatus⟩ := not_or.1 h
    rcases Session.commitOr_fst ⟨s.toDatabase, s.toDatabase.setOrder (o.canceledAt now)⟩ s
        (.ok (o.canceledAt now)) with hs | ⟨hs, -⟩
    · exact Or.inl hs
    · exact Or.inr ⟨⟨not_not.1 hmode, not_not.1 hstatus⟩, hs.symm⟩

/-- The session `modify` leaves: the new row, filled or not. -/
inductive Session.Modified (now : Time) (s : Session) (o : TradingOrder) (quantity : ℤ)
    (limitPrice : ℚ) : Session → Prop
  | rests : Modified now s o quantity limitPrice
      { s with work := s.work.setOrder (o.modified quantity limitPrice) }
  | filled (price : ℚ) : 0 < quantity - o.filledQuantity →
      Modified now s o quantity limitPrice
        (Session.fillPaper { s with work := s.work.setOrder (o.modified quantity limitPrice) } now
          (o.modified quantity limitPrice) (quantity - o.filledQuantity) price)

/-- How `modify` leaves the order: rewritten, and filled where the quote crosses it. -/
inductive Session.Requoted (settings : Settings) (now : Time) (quote : Option NormalizedQuote)
    (s : Session) (o : TradingOrder) (quantity : ℤ) (limitPrice : ℚ) : Session → Prop
  | rests : Requoted settings now quote s o quantity limitPrice
      { s with work := s.work.setOrder (o.modified quantity limitPrice) }
  | filled (q : NormalizedQuote) : quote = some q →
      isCrossing (o.modified quantity limitPrice) q → 0 < quantity - o.filledQuantity →
      Requoted settings now quote s o quantity limitPrice
        (Session.fillPaper { s with work := s.work.setOrder (o.modified quantity limitPrice) } now
          (o.modified quantity limitPrice) (quantity - o.filledQuantity)
          (fillPrice (o.modified quantity limitPrice) q settings.paperSlippageBps))

theorem Session.Requoted.modified {settings : Settings} {now : Time}
    {quote : Option NormalizedQuote} {s t : Session} {o : TradingOrder} {quantity : ℤ}
    {limitPrice : ℚ} (h : s.Requoted settings now quote o quantity limitPrice t) :
    s.Modified now o quantity limitPrice t := by
  cases h with
  | rests => exact .rests
  | filled q _ _ hq => exact .filled _ hq

theorem paperModifySession_modified {settings : Settings} {now : Time} {s t : Session}
    {o o' : TradingOrder} {quantity : ℤ} {limitPrice : ℚ} {quote : Option NormalizedQuote}
    (hv : s.stored.Valid) (hn : s.stored.nextUuid ≤ s.work.nextUuid)
    (h : paperModifySession settings now s o quantity limitPrice quote = .ok (t, o')) :
    o.Resting ∧ o.orderType = .limit ∧ max 1 o.filledQuantity ≤ quantity ∧
      s.Requoted settings now quote o quantity limitPrice t := by
  unfold paperModifySession at h
  split at h
  · cases h
  rename_i hguard
  split at h
  · cases h
  rename_i hquantity
  obtain ⟨hmode, hguard⟩ := not_or.1 hguard
  obtain ⟨hstatus, htype⟩ := not_or.1 hguard
  refine ⟨⟨not_not.1 hmode, not_not.1 hstatus⟩, not_not.1 htype, not_lt.1 hquantity, ?_⟩
  cases quote with
  | none => cases h; exact .rests
  | some q =>
    dsimp only at h
    split at h
    · rename_i hcross
      rcases paperFill_cases settings now
          (s := { s with work := s.work.setOrder (o.modified quantity limitPrice) }) hv hn
          (o.modified quantity limitPrice) (quantity - o.filledQuantity) q with
        ⟨-, hfill⟩ | ⟨hq, -, hfill⟩
      · cases hfill.symm.trans h
      · cases hfill.symm.trans h
        exact .filled q rfl hcross hq
    · cases h; exact .rests

/-- **What `modify` can commit.** -/
theorem paperModify_requoted (settings : Settings) (now : Time) (s : Store) (o : TradingOrder)
    (quantity : ℤ) (limitPrice : ℚ) (quote : Option NormalizedQuote) :
    (paperModify settings now s o quantity limitPrice quote).1 = s ∨
    ∃ t, o.Resting ∧ o.orderType = .limit ∧ max 1 o.filledQuantity ≤ quantity ∧
      s.begin.Requoted settings now quote o quantity limitPrice t ∧
      (paperModify settings now s o quantity limitPrice quote).1.toDatabase = t.work := by
  unfold paperModify
  cases h : paperModifySession settings now s.begin o quantity limitPrice quote with
  | error e => exact Or.inl rfl
  | ok r =>
    obtain ⟨t, o'⟩ := r
    obtain ⟨hrest, htype, hquantity, hmodified⟩ := paperModifySession_modified s.valid le_rfl h
    dsimp only
    rcases Session.commitOr_fst t s (.ok o') with hs | ⟨hs, -⟩
    · exact Or.inl hs
    · exact Or.inr ⟨t, hrest, htype, hquantity, hmodified, hs.symm⟩

theorem paperModify_cases (settings : Settings) (now : Time) (s : Store) (o : TradingOrder)
    (quantity : ℤ) (limitPrice : ℚ) (quote : Option NormalizedQuote) :
    (paperModify settings now s o quantity limitPrice quote).1 = s ∨
    ∃ t, o.Resting ∧ o.orderType = .limit ∧ max 1 o.filledQuantity ≤ quantity ∧
      s.begin.Modified now o quantity limitPrice t ∧
      (paperModify settings now s o quantity limitPrice quote).1.toDatabase = t.work :=
  (paperModify_requoted settings now s o quantity limitPrice quote).imp_right
    fun ⟨t, hrest, htype, hquantity, hmodified, hs⟩ =>
      ⟨t, hrest, htype, hquantity, hmodified.modified, hs⟩

end GnkAlgo
