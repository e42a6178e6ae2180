import GnkAlgo.Trading.OrderRuns
import GnkAlgo.Trading.QuoteBatch

/-!
# A pass's trades as one transaction

`_apply` imports all trades of a pass in one session that is committed once.
Compared with a commit after each trade (`reconcileStepwise`) a query misses what
the pass itself has booked: a trade that is listed again is not recognised, and
a second fill under a position key without a stored row adds a second row.

* `PassBookable`, `reconcile_commits_iff` — when the one commit succeeds;
* `PassSeparable` — no trade of the pass depends on such a row;
* `reconcile_eq_stepwise` — then one transaction is as good as one a trade;
* `batch_agrees` — quotes and passes together.
-/

namespace GnkAlgo

open Transition

namespace Pass

/-! ## A commit after each trade -/

/-- The second loop with a commit after each trade; a trade that cannot be
committed is rolled back. -/
def importCommitted (now : Time) (p : Pass) (item : TradeItem) : Pass :=
  match (p.importTrade now item).session.commit with
  | .ok store => { p.importTrade now item with session := store.begin }
  | .error _ => p

theorem importCommitted_of_valid {now : Time} {p : Pass} {item : TradeItem}
    (h : (p.importTrade now item).session.work.Valid) :
    p.importCommitted now item = { p.importTrade now item with
      session := ⟨(p.importTrade now item).session.work,
        (p.importTrade now item).session.work⟩ } := by
  unfold importCommitted
  rw [Session.commit, dif_pos h]
  rfl

end Pass

/-- `_apply` with a commit after each trade. -/
def reconcileStepwise (now : Time) (s : Store) (userId : Uuid)
    (brokerOrders : List BrokerOrderItem) (trades : List TradeItem) : Session :=
  let p := trades.foldl (Pass.importCommitted now) (attachedPass s.begin userId brokerOrders)
  (brokerOrders.foldl (Pass.takeStatus now) p).session

/-! ## Trades that do not depend on each other's rows -/

/-- The trade is booked on `o`: it is new, and fits what the trades listed
before it leave of the order. -/
structure Books (s : Store) (userId : Uuid) (brokerOrders : List BrokerOrderItem)
    (before : List TradeItem) (item : TradeItem) (o : TradingOrder) : Prop where
  loaded : o ∈ localOrders s.toDatabase userId
  named : (attachedPass s.begin userId brokerOrders).tradeTarget item = some o.id
  isNew : o.IsNewTrade s.toDatabase item
  fits : 0 < item.tradedQuantity ∧ filledBy s.toDatabase o
    ((attachedPass s.begin userId brokerOrders).tradesFor before o.id) + item.tradedQuantity ≤
      o.quantity

/-- Two trades that are booked have different ids, and where they are booked
under one position key its row is stored. -/
def PassBookable (s : Store) (userId : Uuid) (brokerOrders : List BrokerOrderItem)
    (trades : List TradeItem) : Prop :=
  ∀ l₁ a l₂ b l₃ o o', trades = l₁ ++ a :: (l₂ ++ b :: l₃) →
    Books s userId brokerOrders l₁ a o → Books s userId brokerOrders (l₁ ++ a :: l₂) b o' →
    a.exchangeTradeId ≠ b.exchangeTradeId ∧
      (o.positionKey = o'.positionKey → (s.position? o.positionKey).isSome)

/-- No new trade of a loaded order repeats the id of one that is booked, and two
that are booked under one position key find its row stored. -/
def PassSeparable (s : Store) (userId : Uuid) (brokerOrders : List BrokerOrderItem)
    (trades : List TradeItem) : Prop :=
  ∀ l₁ a l₂ b l₃ o o', trades = l₁ ++ a :: (l₂ ++ b :: l₃) →
    Books s userId brokerOrders l₁ a o → o' ∈ localOrders s.toDatabase userId →
    (attachedPass s.begin userId brokerOrders).tradeTarget b = some o'.id →
    o'.IsNewTrade s.toDatabase b →
    a.exchangeTradeId ≠ b.exchangeTradeId ∧
      (Books s userId brokerOrders (l₁ ++ a :: l₂) b o' → o.positionKey = o'.positionKey →
        (s.position? o.positionKey).isSome)

theorem PassSeparable.bookable {s : Store} {userId : Uuid} {brokerOrders : List BrokerOrderItem}
    {trades : List TradeItem} (h : PassSeparable s userId brokerOrders trades) :
    PassBookable s userId brokerOrders trades := by
  intro l₁ a l₂ b l₃ o o' heq ha hb
  obtain ⟨hid, hkey⟩ := h l₁ a l₂ b l₃ o o' heq ha hb.loaded hb.named hb.isNew
  exact ⟨hid, hkey hb⟩

theorem PassBookable.of_append {s : Store} {userId : Uuid} {brokerOrders : List BrokerOrderItem}
    {trades rest : List TradeItem} (h : PassBookable s userId brokerOrders (trades ++ rest)) :
    PassBookable s userId brokerOrders trades := by
  rintro l₁ a l₂ b l₃ o o' rfl
  exact h l₁ a l₂ b (l₃ ++ rest) o o' (by simp)

theorem PassSeparable.of_append {s : Store} {userId : Uuid} {brokerOrders : List BrokerOrderItem}
    {trades rest : List TradeItem} (h : PassSeparable s userId brokerOrders (trades ++ rest)) :
    PassSeparable s userId brokerOrders trades := by
  rintro l₁ a l₂ b l₃ o o' rfl
  exact h l₁ a l₂ b (l₃ ++ rest) o o' (by simp)

/-! ## What the rows of a pass owe to its trades -/

section Import

variable {s : Store} {userId : Uuid} {brokerOrders : List BrokerOrderItem} {now : Time}
  {trades : List TradeItem}

/-- An id or a position key found in memory is stored, or due to a trade of `trades`
that was booked. -/
structure Owed (s : Store) (userId : Uuid) (brokerOrders : List BrokerOrderItem)
    (trades : List TradeItem) (work : Database) : Prop where
  ids : ∀ t, work.execution? userId (.exchange t) ≠ none →
    s.execution? userId (.exchange t) ≠ none ∨
    ∃ l₁ a l₂ o, trades = l₁ ++ a :: l₂ ∧ Books s userId brokerOrders l₁ a o ∧
      a.exchangeTradeId = t
  keys : ∀ key, work.position? key ≠ none → s.position? key ≠ none ∨
    ∃ l₁ a l₂ o, trades = l₁ ++ a :: l₂ ∧ Books s userId brokerOrders l₁ a o ∧
      o.positionKey = key
  stored : ∀ t, s.execution? userId (.exchange t) ≠ none →
    work.execution? userId (.exchange t) ≠ none

theorem Owed.skip {trades : List TradeItem} {work work' : Database} {item : TradeItem}
    (h : Owed s userId brokerOrders trades work) (he : work'.executions = work.executions)
    (hp : work'.positions = work.positions) :
    Owed s userId brokerOrders (trades ++ [item]) work' := by
  have hexec : ∀ t, work'.execution? userId (.exchange t) = work.execution? userId (.exchange t) :=
    fun t => by rw [Database.execution?, he]; rfl
  have hpos : ∀ key, work'.position? key = work.position? key :=
    fun key => by rw [Database.position?, hp]; rfl
  refine ⟨fun t ht => ?_, fun key hkey => ?_, fun t ht => ?_⟩
  · rw [hexec] at ht
    refine (h.ids t ht).imp_right ?_
    rintro ⟨l₁, a, l₂, o, rfl, hbooks, rfl⟩
    exact ⟨l₁, a, l₂ ++ [item], o, by simp, hbooks, rfl⟩
  · rw [hpos] at hkey
    refine (h.keys key hkey).imp_right ?_
    rintro ⟨l₁, a, l₂, o, rfl, hbooks, rfl⟩
    exact ⟨l₁, a, l₂ ++ [item], o, by simp, hbooks, rfl⟩
  · rw [hexec]; exact h.stored t ht

theorem Owed.book {trades : List TradeItem} {session : Session} {item : TradeItem}
    {o row : TradingOrder} (h : Owed s userId brokerOrders trades session.work)
    (hbooks : Books s userId brokerOrders trades item o) (huser : row.userId = userId)
    (hkey : row.positionKey = o.positionKey) :
    Owed s userId brokerOrders (trades ++ [item]) (session.bookTrade now row item).work := by
  have hexec : ∀ t, (session.bookTrade now row item).work.execution? userId (.exchange t) =
      (session.work.execution? userId (.exchange t)).or
        (if item.exchangeTradeId = t then some (row.execution item.tradedQuantity item.tradedPrice
          .dhanReconciliation (some (.exchange item.exchangeTradeId))
          (tradeTime now item.exchangeTime)) else none) := by
    intro t
    rw [Session.bookTrade, Database.execution?, Session.bookExecution_executions,
      List.find?_append, List.find?_singleton]
    congr 1
    simp [TradingOrder.execution, huser]
  refine ⟨fun t ht => ?_, fun key hk => ?_, fun t ht => ?_⟩
  · by_cases hold : session.work.execution? userId (.exchange t) = none
    · rw [hexec, hold, Option.none_or] at ht
      have hid : item.exchangeTradeId = t := by
        by_contra hne
        rw [if_neg hne] at ht
        exact ht rfl
      exact Or.inr ⟨trades, item, [], o, rfl, hbooks, hid⟩
    · refine (h.ids t hold).imp_right ?_
      rintro ⟨l₁, a, l₂, o', rfl, hbooks', rfl⟩
      exact ⟨l₁, a, l₂ ++ [item], o', by simp, hbooks', rfl⟩
  · by_cases hself : key = row.positionKey
    · exact Or.inr ⟨trades, item, [], o, rfl, hbooks, by rw [hself, hkey]⟩
    · rw [Session.bookTrade, Session.position?_bookExecution_of_ne hself] at hk
      refine (h.keys key hk).imp_right ?_
      rintro ⟨l₁, a, l₂, o', rfl, hbooks', rfl⟩
      exact ⟨l₁, a, l₂ ++ [item], o', by simp, hbooks', rfl⟩
  · rw [hexec]
    cases hw : session.work.execution? userId (.exchange t) with
    | none => exact absurd hw (h.stored t ht)
    | some e => simp

/-! ## One trade after others -/

/-- The state of a pass when `trades` are imported. -/
def importedPass (now : Time) (s : Store) (userId : Uuid) (brokerOrders : List BrokerOrderItem)
    (trades : List TradeItem) : Pass :=
  trades.foldl (Pass.importTrade now) (attachedPass s.begin userId brokerOrders)

theorem importedPass_append_singleton (item : TradeItem) :
    importedPass now s userId brokerOrders (trades ++ [item]) =
      (importedPass now s userId brokerOrders trades).importTrade now item := by
  rw [importedPass, List.foldl_append]; rfl

theorem sound_importedPass (now : Time) (s : Store) (userId : Uuid)
    (brokerOrders : List BrokerOrderItem) (trades : List TradeItem) :
    (importedPass now s userId brokerOrders trades).Sound s.toDatabase userId :=
  (sound_attachedPass s userId brokerOrders).foldl_importTrade now trades

/-- The row of a stored order once the trades of a pass are imported. -/
theorem row_importedPass (now : Time) (userId : Uuid) (brokerOrders : List BrokerOrderItem)
    (trades : List TradeItem) {o : TradingOrder} (ho : o ∈ s.orders) :
    ∃ row, (importedPass now s userId brokerOrders trades).order? o.id = some row ∧
      o.FilledTo row (filledBy s.toDatabase o
        ((attachedPass s.begin userId brokerOrders).tradesFor trades o.id)) := by
  obtain ⟨b, hb, -⟩ := Pass.order?_foldl_attach (Pass.sound_startPass s.begin userId rfl)
    brokerOrders o.id (s.valid.order?_eq ho)
  have hrow := Pass.order?_foldl_importTrade now trades o.id
    (sound_attachedPass s userId brokerOrders)
  have hto := foldl_imported_filledTo now s.toDatabase { o with brokerOrderId := b }
    ((attachedPass s.begin userId brokerOrders).tradesFor trades o.id)
  refine ⟨_, hrow.trans ?_, hto.id, hto.positionKey, hto.side, hto.quantity, hto.filledQuantity⟩
  rw [attachedPass, hb]
  rfl

/-- The loaded order a trade names, and its row when `trades` are imported. -/
structure Names (now : Time) (s : Store) (userId : Uuid) (brokerOrders : List BrokerOrderItem)
    (trades : List TradeItem) (item : TradeItem) (o row : TradingOrder) : Prop where
  loaded : o ∈ localOrders s.toDatabase userId
  named : (attachedPass s.begin userId brokerOrders).tradeTarget item = some o.id
  owner : o.userId = userId
  found : (importedPass now s userId brokerOrders trades).ofBroker? item.orderId = some row
  held : row ∈ (importedPass now s userId brokerOrders trades).session.work.orders
  filledTo : o.FilledTo row (filledBy s.toDatabase o
    ((attachedPass s.begin userId brokerOrders).tradesFor trades o.id))

theorem Names.books_iff {item : TradeItem} {o row : TradingOrder}
    (h : Names now s userId brokerOrders trades item o row) :
    Books s userId brokerOrders trades item o ↔
      row.IsNewTrade s.toDatabase item ∧ row.Fits item := by
  rw [h.filledTo.isNewTrade_iff, h.filledTo.fits_iff]
  exact ⟨fun hb => ⟨hb.isNew, hb.fits⟩, fun ⟨hnew, hfits⟩ => ⟨h.loaded, h.named, hnew, hfits⟩⟩

/-- A trade names no loaded order, or one. -/
theorem names_cases (now : Time) (s : Store) (userId : Uuid) (brokerOrders : List BrokerOrderItem)
    (trades : List TradeItem) (item : TradeItem) :
    ((attachedPass s.begin userId brokerOrders).tradeTarget item = none ∧
      (importedPass now s userId brokerOrders trades).ofBroker? item.orderId = none) ∨
    ∃ o row, Names now s userId brokerOrders trades item o row := by
  have hsound := sound_importedPass now s userId brokerOrders trades
  have htarget : (importedPass now s userId brokerOrders trades).tradeTarget item =
      (attachedPass s.begin userId brokerOrders).tradeTarget item := by
    rw [Pass.tradeTarget, importedPass, (Pass.foldl_importTrade_dicts now trades _).1]; rfl
  rcases hsound.ofBroker?_cases item with ⟨hnamed, hnone⟩ | ⟨row, hnamed, hfound, hrow⟩
  · exact Or.inl ⟨htarget ▸ hnamed, hnone⟩
  · obtain ⟨o, hlocal, hid⟩ := hsound.tradeTarget_local hnamed
    obtain ⟨row', hrow', hto⟩ := row_importedPass now userId brokerOrders trades
      (List.mem_of_mem_filter hlocal)
    rw [hid, hrow] at hrow'
    obtain rfl := Option.some_inj.1 hrow'
    have huser : o.userId = userId := by
      have := (List.mem_filter.1 hlocal).2
      simp only [decide_eq_true_eq] at this
      exact this.1
    exact Or.inr ⟨o, row, hlocal, by rw [← htarget, hnamed, hid], huser, hfound,
      (Database.order?_mem hrow).1, hto⟩

/-- **One trade after others**: it is skipped, refused or booked. -/
theorem Names.importTrade_cases {item : TradeItem} {o row : TradingOrder}
    (h : Names now s userId brokerOrders trades item o row) :
    (¬ row.IsNewTrade s.toDatabase item ∧
      importedPass now s userId brokerOrders (trades ++ [item]) =
        importedPass now s userId brokerOrders trades) ∨
    (row.IsNewTrade s.toDatabase item ∧ ¬ row.Fits item ∧
      importedPass now s userId brokerOrders (trades ++ [item]) =
        (importedPass now s userId brokerOrders trades).setOrder row.refuse) ∨
    (row.IsNewTrade s.toDatabase item ∧ row.Fits item ∧
      importedPass now s userId brokerOrders (trades ++ [item]) =
        { importedPass now s userId brokerOrders trades with
          session := (importedPass now s userId brokerOrders trades).session.bookTrade now row
            item }) := by
  rw [importedPass_append_singleton]
  have hcases := Pass.importTrade_found now h.found
  rw [(sound_importedPass now s userId brokerOrders trades).stored_eq] at hcases
  exact hcases

/-! ## The rows of a pass meet the constraints -/

/-- What the first loop over `trades` keeps where they can be booked. -/
structure Kept (now : Time) (s : Store) (userId : Uuid) (brokerOrders : List BrokerOrderItem)
    (trades : List TradeItem) : Prop where
  valid : (importedPass now s userId brokerOrders trades).session.work.Valid
  tracked : (importedPass now s userId brokerOrders trades).session.Tracked
  owed : Owed s userId brokerOrders trades
    (importedPass now s userId brokerOrders trades).session.work

/-- A new trade is not among those booked before, and its position row is stored
or not there. -/
theorem Kept.fresh (h : Kept now s userId brokerOrders trades) {item : TradeItem}
    {o row : TradingOrder} (hnames : Names now s userId brokerOrders trades item o row)
    (hbooks : Books s userId brokerOrders trades item o)
    (hbook : PassBookable s userId brokerOrders (trades ++ [item])) :
    (importedPass now s userId brokerOrders trades).session.work.execution? userId
      (.exchange item.exchangeTradeId) = none ∧
    ((importedPass now s userId brokerOrders trades).session.work.position? row.positionKey ≠ none →
      s.position? row.positionKey ≠ none) := by
  constructor
  · by_contra hwork
    rcases h.owed.ids _ hwork with hsome | ⟨l₁, a, l₂, o', rfl, hbooks', heq⟩
    · exact hsome (hnames.owner ▸ hbooks.isNew.2)
    · exact (hbook l₁ a l₂ item [] o' o (by simp) hbooks' hbooks).1 heq
  · intro hwork
    rcases h.owed.keys _ hwork with hsome | ⟨l₁, a, l₂, o', rfl, hbooks', hkey⟩
    · exact hsome
    · rw [hnames.filledTo.positionKey] at hkey ⊢
      rw [← hkey]
      exact Option.isSome_iff_ne_none.1
        ((hbook l₁ a l₂ item [] o' o (by simp) hbooks' hbooks).2 hkey)

theorem Kept.step (h : Kept now s userId brokerOrders trades) {item : TradeItem}
    (hbook : PassBookable s userId brokerOrders (trades ++ [item])) :
    Kept now s userId brokerOrders (trades ++ [item]) := by
  rcases names_cases now s userId brokerOrders trades item with ⟨-, hnone⟩ | ⟨o, row, hnames⟩
  · have hp : importedPass now s userId brokerOrders (trades ++ [item]) =
        importedPass now s userId brokerOrders trades := by
      rw [importedPass_append_singleton, Pass.importTrade, hnone]
    exact ⟨hp ▸ h.valid, hp ▸ h.tracked, hp ▸ h.owed.skip rfl rfl⟩
  · have huser : row.userId = userId := hnames.filledTo.userId.trans hnames.owner
    rcases hnames.importTrade_cases with ⟨-, hp⟩ | ⟨-, -, hp⟩ | ⟨hnew, hfit, hp⟩
    · exact ⟨hp ▸ h.valid, hp ▸ h.tracked, hp ▸ h.owed.skip rfl rfl⟩
    · refine ⟨hp ▸ h.valid.setOrder hnames.held rfl rfl, ?_, hp ▸ h.owed.skip rfl rfl⟩
      rw [hp]; exact h.tracked
    · have hbooks := hnames.books_iff.2 ⟨hnew, hfit⟩
      obtain ⟨hexec, hpos⟩ := h.fresh hnames hbooks hbook
      refine ⟨?_, ?_, hp ▸ h.owed.book hbooks huser hnames.filledTo.positionKey⟩
      · rw [hp]
        refine Session.valid_bookExecution h.valid hnames.held (fun hnone => ?_) ?_ ?_
        · by_contra hsome
          rw [(sound_importedPass now s userId brokerOrders trades).stored_eq] at hnone
          exact hpos hsome hnone
        · intro i hi
          obtain rfl := Option.some_inj.1 hi
          rw [huser]; exact hexec
        · intro n hn
          cases Option.some_inj.1 hn
      · rw [hp]; exact Session.bookExecution_tracked h.tracked

/-! ## The two loops side by side -/

/-- The two loops have the same rows in memory; the queries of the second see
all of them. -/
structure Together (p q : Pass) : Prop where
  work : q.session.work = p.session.work
  byBroker : q.byBroker = p.byBroker
  byCorrelation : q.byCorrelation = p.byCorrelation
  executions : q.session.stored.executions = p.session.work.executions
  positions : q.session.stored.positions = p.session.work.positions

theorem Pass.ofBroker?_congr {p q : Pass} (hw : q.session.work = p.session.work)
    (hb : q.byBroker = p.byBroker) (brokerId : String) :
    q.ofBroker? brokerId = p.ofBroker? brokerId := by
  unfold Pass.ofBroker?
  rw [hb]
  congr 1
  funext id
  rw [Pass.order?, Pass.order?, hw]

/-- After a trade whose import leaves the same rows in both loops. -/
theorem Together.commit {p q p' : Pass} {item : TradeItem} (h : Together p q)
    (hdicts : p'.byBroker = p.byBroker ∧ p'.byCorrelation = p.byCorrelation)
    (hw : (q.importTrade now item).session.work = p'.session.work)
    (hv : p'.session.work.Valid) : Together p' (q.importCommitted now item) := by
  obtain ⟨hb, hc⟩ := Pass.importTrade_dicts now q item
  rw [Pass.importCommitted_of_valid (hw ▸ hv)]
  exact ⟨hw, hb.trans (h.byBroker.trans hdicts.1.symm), hc.trans (h.byCorrelation.trans
    hdicts.2.symm), congrArg Database.executions hw, congrArg Database.positions hw⟩

/-- **One trade** keeps the two loops together. -/
theorem Together.step {item : TradeItem} {q : Pass}
    (h : Together (importedPass now s userId brokerOrders trades) q)
    (hkept : Kept now s userId brokerOrders trades)
    (hsep : PassSeparable s userId brokerOrders (trades ++ [item])) :
    Together (importedPass now s userId brokerOrders (trades ++ [item]))
      (q.importCommitted now item) := by
  have hv := (hkept.step hsep.bookable).valid
  have hdicts := Pass.importTrade_dicts now
    (importedPass now s userId brokerOrders trades) item
  rw [← importedPass_append_singleton] at hdicts
  refine h.commit hdicts ?_ hv
  have hlookup := Pass.ofBroker?_congr h.work h.byBroker item.orderId
  rcases names_cases now s userId brokerOrders trades item with ⟨-, hnone⟩ | ⟨o, row, hnames⟩
  · rw [importedPass_append_singleton, Pass.importTrade, Pass.importTrade, hlookup, hnone]
    exact h.work
  rw [hnames.found] at hlookup
  have huser : row.userId = userId := hnames.filledTo.userId.trans hnames.owner
  -- the queries of the second loop find the trade new exactly when those of the first do
  have hseen : q.session.stored.execution? row.userId (.exchange item.exchangeTradeId) =
      (importedPass now s userId brokerOrders trades).session.work.execution? userId
        (.exchange item.exchangeTradeId) := by
    rw [Database.execution?, h.executions, huser]; rfl
  have hnewIff : row.IsNewTrade q.session.stored item ↔ row.IsNewTrade s.toDatabase item := by
    rw [TradingOrder.IsNewTrade, TradingOrder.IsNewTrade, hseen, huser]
    refine and_congr_right fun hne => ⟨fun hwork => ?_, fun hstored => ?_⟩
    · by_contra hsome
      exact hkept.owed.stored _ hsome hwork
    · by_contra hwork
      rcases hkept.owed.ids _ hwork with hsome | ⟨l₁, a, l₂, o', rfl, hbooks, heq⟩
      · exact hsome hstored
      · exact (hsep l₁ a l₂ item [] o' o (by simp) hbooks hnames.loaded hnames.named
          ⟨hne, by rw [hnames.owner]; exact hstored⟩).1 heq
  have hqcases := Pass.importTrade_found now hlookup
  rw [hnewIff] at hqcases
  rcases hnames.importTrade_cases with ⟨hnew, hp⟩ | ⟨hnew, hfit, hp⟩ | ⟨hnew, hfit, hp⟩ <;>
    rcases hqcases with ⟨hnew', hq⟩ | ⟨hnew', hfit', hq⟩ | ⟨hnew', hfit', hq⟩ <;>
    first | contradiction | rw [hp, hq]
  · exact h.work
  · rw [Pass.setOrder, Pass.setOrder, h.work]
  · -- booked: both find the position row, or neither does
    obtain ⟨-, hpos⟩ := hkept.fresh hnames (hnames.books_iff.2 ⟨hnew, hfit⟩) hsep.bookable
    refine Session.bookExecution_congr h.work ?_ _ _ _ _ _
    have hstored := (sound_importedPass now s userId brokerOrders trades).stored_eq
    have hqpos : q.session.stored.position? row.positionKey =
        (importedPass now s userId brokerOrders trades).session.work.position? row.positionKey := by
      rw [Database.position?, h.positions]; rfl
    rw [hqpos, hstored, Bool.eq_iff_iff, Option.isSome_iff_ne_none, Option.isSome_iff_ne_none]
    refine ⟨hpos, fun hsome => Option.isSome_iff_ne_none.1 (hkept.tracked _ ?_)⟩
    rw [hstored]
    exact Option.isSome_iff_ne_none.2 hsome

/-! ## The loops around the trades -/

/-- The first loop attaches broker ids and changes nothing else. -/
theorem attachedPass_frame (s : Store) (userId : Uuid) (brokerOrders : List BrokerOrderItem) :
    (attachedPass s.begin userId brokerOrders).session.work.executions = s.executions ∧
    (attachedPass s.begin userId brokerOrders).session.work.positions = s.positions ∧
    (attachedPass s.begin userId brokerOrders).session.work.Valid := by
  refine (List.foldlRecOn (motive := fun p : Pass => p.Sound s.toDatabase userId ∧
    p.session.work.executions = s.executions ∧ p.session.work.positions = s.positions ∧
    p.session.work.Valid) brokerOrders Pass.attach
    ⟨Pass.sound_startPass s.begin userId rfl, rfl, rfl, s.valid⟩ ?_).2
  rintro p ⟨hsound, he, hp, hv⟩ item -
  refine ⟨hsound.attach item, ?_⟩
  rcases Pass.attach_cases p item with ⟨hsame, -⟩ | ⟨o, ho, -, -, hattached, hset⟩
  · rw [hsame]; exact ⟨he, hp, hv⟩
  · rcases hsound.ofItem?_cases item with ⟨-, hnone⟩ | ⟨o', -, ho', hrow⟩
    · rw [hnone] at ho; cases ho
    rw [ho'] at ho
    obtain rfl := Option.some_inj.1 ho
    rw [hset, hattached]
    exact ⟨he, hp, hv.setOrder (Database.order?_mem hrow).1 rfl rfl⟩

theorem kept_nil : Kept now s userId brokerOrders [] := by
  obtain ⟨he, hp, hv⟩ := attachedPass_frame s userId brokerOrders
  have hexec : ∀ t, (attachedPass s.begin userId brokerOrders).session.work.execution? userId t =
      s.execution? userId t := fun t => by rw [Database.execution?, he]; rfl
  have hpos : ∀ key, (attachedPass s.begin userId brokerOrders).session.work.position? key =
      s.position? key := fun key => by rw [Database.position?, hp]; rfl
  refine ⟨hv, fun key hkey => ?_, fun t ht => Or.inl ?_, fun key hkey => Or.inl ?_,
    fun t ht => ?_⟩
  · rw [(sound_importedPass now s userId brokerOrders []).stored_eq] at hkey
    exact (hpos key).symm ▸ hkey
  · exact (hexec _) ▸ ht
  · exact (hpos key) ▸ hkey
  · exact (hexec _).symm ▸ ht

/-- **The loop** over trades that can be booked keeps the constraints. -/
theorem kept_importedPass (now : Time) (trades : List TradeItem)
    (h : PassBookable s userId brokerOrders trades) : Kept now s userId brokerOrders trades := by
  induction trades using List.reverseRecOn with
  | nil => exact kept_nil
  | append_singleton trades item ih => exact (ih h.of_append).step h

/-- **The loops** stay together over separable trades. -/
theorem together_foldl (now : Time) (trades : List TradeItem)
    (h : PassSeparable s userId brokerOrders trades) :
    Together (importedPass now s userId brokerOrders trades)
      (trades.foldl (Pass.importCommitted now) (attachedPass s.begin userId brokerOrders)) := by
  induction trades using List.reverseRecOn with
  | nil =>
    obtain ⟨he, hp, -⟩ := attachedPass_frame s userId brokerOrders
    have hstored := (sound_attachedPass s userId brokerOrders).stored_eq
    exact ⟨rfl, rfl, rfl, by rw [List.foldl_nil, hstored]; exact he.symm,
      by rw [List.foldl_nil, hstored]; exact hp.symm⟩
  | append_singleton trades item ih =>
    rw [List.foldl_append]
    exact (ih h.of_append).step (kept_importedPass now trades h.of_append.bookable) h

theorem Pass.ofItem?_congr {p q : Pass} (hw : q.session.work = p.session.work)
    (hb : q.byBroker = p.byBroker) (hc : q.byCorrelation = p.byCorrelation)
    (item : BrokerOrderItem) : q.ofItem? item = p.ofItem? item := by
  unfold Pass.ofItem?
  rw [Pass.ofBroker?_congr hw hb, hc]
  congr 2
  funext id
  rw [Pass.order?, Pass.order?, hw]

/-- The status loop depends on the rows in memory and the dictionaries only. -/
theorem foldl_takeStatus_congr (now : Time) (items : List BrokerOrderItem) : ∀ {p q : Pass},
    q.session.work = p.session.work → q.byBroker = p.byBroker →
    q.byCorrelation = p.byCorrelation →
    (items.foldl (Pass.takeStatus now) q).session.work =
      (items.foldl (Pass.takeStatus now) p).session.work := by
  induction items with
  | nil => exact fun hw _ _ => hw
  | cons item rest ih =>
    intro p q hw hb hc
    obtain ⟨hpb, hpc⟩ := Pass.takeStatus_dicts now p item
    obtain ⟨hqb, hqc⟩ := Pass.takeStatus_dicts now q item
    refine ih ?_ (hqb.trans (hb.trans hpb.symm)) (hqc.trans (hc.trans hpc.symm))
    have hlookup := Pass.ofItem?_congr hw hb hc item
    unfold Pass.takeStatus
    rw [hlookup]
    cases p.ofItem? item with
    | none => exact hw
    | some o => exact congrArg (Database.setOrder · (Pass.statusOf now o item)) hw

/-- The status loop keeps the constraints. -/
theorem valid_foldl_takeStatus (now : Time) (items : List BrokerOrderItem) {p : Pass}
    (h : p.session.work.Valid) : (items.foldl (Pass.takeStatus now) p).session.work.Valid := by
  refine List.foldlRecOn (motive := fun p : Pass => p.session.work.Valid) items _ h ?_
  intro p hv item _
  unfold Pass.takeStatus
  cases ho : p.ofItem? item with
  | none => exact hv
  | some o =>
    have hmem : o ∈ p.session.work.orders := by
      unfold Pass.ofItem? at ho
      rcases Option.or_eq_some_iff.1 ho with hb | ⟨-, hc⟩
      · obtain ⟨id, -, hid⟩ := Option.bind_eq_some_iff.1 hb
        exact (Database.order?_mem hid).1
      · obtain ⟨id, -, hid⟩ := Option.bind_eq_some_iff.1 hc
        exact (Database.order?_mem hid).1
    refine hv.setOrder hmem ?_ ?_ <;> unfold Pass.statusOf <;> dsimp only <;> split <;> rfl

/-! ## When a pass can be committed -/

/-- Rows are only ever added. -/
theorem importedPass_append (now : Time) (s : Store) (userId : Uuid)
    (brokerOrders : List BrokerOrderItem) (trades rest : List TradeItem) :
    ∃ es ks, (importedPass now s userId brokerOrders (trades ++ rest)).session.work.executions =
        (importedPass now s userId brokerOrders trades).session.work.executions ++ es ∧
      (importedPass now s userId brokerOrders (trades ++ rest)).session.work.positions.map
          TradingPosition.positionKey =
        (importedPass now s userId brokerOrders trades).session.work.positions.map
          TradingPosition.positionKey ++ ks := by
  induction rest using List.reverseRecOn with
  | nil => exact ⟨[], [], by simp, by simp⟩
  | append_singleton rest item ih =>
    obtain ⟨es, ks, hes, hks⟩ := ih
    rw [← List.append_assoc]
    rcases names_cases now s userId brokerOrders (trades ++ rest) item with
      ⟨-, hnone⟩ | ⟨o, row, hnames⟩
    · rw [importedPass_append_singleton, Pass.importTrade, hnone]
      exact ⟨es, ks, hes, hks⟩
    · rcases hnames.importTrade_cases with ⟨-, hp⟩ | ⟨-, -, hp⟩ | ⟨-, -, hp⟩
      · rw [hp]; exact ⟨es, ks, hes, hks⟩
      · rw [hp]; exact ⟨es, ks, hes, hks⟩
      · rw [hp, Session.bookTrade, Session.bookExecution_executions,
          Session.bookExecution_positionKeys, hes, hks]
        exact ⟨_, _, List.append_assoc .., List.append_assoc ..⟩

/-- The rows that a trade adds when it is booked. -/
theorem Books.importedPass (now : Time) {item : TradeItem} {o : TradingOrder}
    (h : Books s userId brokerOrders trades item o) :
    ∃ e, e.brokerKey = some (userId, .exchange item.exchangeTradeId) ∧
      (e.orderId = o.id ∧ e.side = o.side ∧ e.quantity = item.tradedQuantity) ∧
      (importedPass now s userId brokerOrders (trades ++ [item])).session.work.executions =
        (importedPass now s userId brokerOrders trades).session.work.executions ++ [e] ∧
      (importedPass now s userId brokerOrders (trades ++ [item])).session.work.positions.map
          TradingPosition.positionKey =
        (importedPass now s userId brokerOrders trades).session.work.positions.map
          TradingPosition.positionKey ++
          if s.position? o.positionKey = none then [o.positionKey] else [] := by
  rcases names_cases now s userId brokerOrders trades item with ⟨hnone, -⟩ | ⟨o', row, hnames⟩
  · rw [h.named] at hnone; cases hnone
  · have hid := hnames.named
    rw [h.named] at hid
    obtain rfl := s.valid.eq_of_id (List.mem_of_mem_filter h.loaded)
      (List.mem_of_mem_filter hnames.loaded) (Option.some_inj.1 hid)
    obtain ⟨hnew, hfit⟩ := hnames.books_iff.1 h
    rcases hnames.importTrade_cases with ⟨hnew', -⟩ | ⟨-, hfit', -⟩ | ⟨-, -, hp⟩
    · exact absurd hnew hnew'
    · exact absurd hfit hfit'
    · have huser : row.userId = userId := hnames.filledTo.userId.trans hnames.owner
      rw [hp, Session.bookTrade, Session.bookExecution_executions,
        Session.bookExecution_positionKeys, hnames.filledTo.positionKey,
        (sound_importedPass now s userId brokerOrders trades).stored_eq]
      exact ⟨_, by rw [← huser]; rfl, ⟨hnames.filledTo.id, hnames.filledTo.side, rfl⟩, rfl, rfl⟩

/-- The status loop adds no rows. -/
theorem foldl_takeStatus_rows (now : Time) (items : List BrokerOrderItem) (p : Pass) :
    (items.foldl (Pass.takeStatus now) p).session.work.executions = p.session.work.executions ∧
      (items.foldl (Pass.takeStatus now) p).session.work.positions = p.session.work.positions := by
  refine List.foldlRecOn (motive := fun q : Pass =>
    q.session.work.executions = p.session.work.executions ∧
      q.session.work.positions = p.session.work.positions) items _ ⟨rfl, rfl⟩ ?_
  intro q hq item _
  unfold Pass.takeStatus
  cases q.ofItem? item with
  | none => exact hq
  | some o => exact hq

/-- **A pass can be committed exactly when the trades it books do not collide.** -/
theorem reconcile_commits_iff :
    (reconcile now s userId brokerOrders trades).2 = .ok () ↔
      PassBookable s userId brokerOrders trades := by
  constructor
  · intro hok
    have hvalid : (reconcileApply now s.begin userId brokerOrders trades).work.Valid := by
      by_contra hnot
      rw [reconcile, Session.commitOr_of_not_valid hnot] at hok
      cases hok
    obtain ⟨hes, hps⟩ := foldl_takeStatus_rows now brokerOrders
      (importedPass now s userId brokerOrders trades)
    have hbroker := hvalid.brokerKeys
    have hkeys := hvalid.positionKeys
    rw [show (reconcileApply now s.begin userId brokerOrders trades).work.executions = _ from hes]
      at hbroker
    rw [show (reconcileApply now s.begin userId brokerOrders trades).work.positions = _ from hps]
      at hkeys
    rintro l₁ a l₂ b l₃ o o' rfl ha hb
    -- the rows up to `a`, up to `b` and in the end
    obtain ⟨ea, hea, -, hexecA, hkeysA⟩ := ha.importedPass now
    obtain ⟨es, ks, hexecB, hkeysB⟩ :=
      importedPass_append now s userId brokerOrders (l₁ ++ [a]) l₂
    obtain ⟨eb, heb, -, hexecB', hkeysB'⟩ := hb.importedPass now
    obtain ⟨es', ks', hexec, hkeysEnd⟩ :=
      importedPass_append now s userId brokerOrders (l₁ ++ a :: l₂ ++ [b]) l₃
    have hl₂ : l₁ ++ [a] ++ l₂ = l₁ ++ a :: l₂ := by simp
    have hl₃ : l₁ ++ a :: l₂ ++ [b] ++ l₃ = l₁ ++ a :: (l₂ ++ b :: l₃) := by simp
    rw [hl₂] at hexecB hkeysB
    rw [hl₃, hexecB'] at hexec
    rw [hl₃, hkeysB'] at hkeysEnd
    rw [hexec, List.append_assoc, List.filterMap_append] at hbroker
    rw [hkeysEnd, List.append_assoc] at hkeys
    refine ⟨fun heq => ?_, fun heq => ?_⟩
    · refine List.disjoint_of_nodup_append hbroker (a := (userId, .exchange a.exchangeTradeId)) ?_ ?_
      · exact List.mem_filterMap.2 ⟨ea, by rw [hexecB, hexecA]; simp, hea⟩
      · exact List.mem_filterMap.2 ⟨eb, by simp, by rw [heb, heq]⟩
    · by_contra hnone
      rw [Option.not_isSome_iff_eq_none] at hnone
      refine List.disjoint_of_nodup_append hkeys (a := o.positionKey) ?_ ?_
      · rw [hkeysB, hkeysA, if_pos hnone]
        simp
      · rw [if_pos (heq ▸ hnone), heq]
        simp
  · intro h
    have hvalid : (reconcileApply now s.begin userId brokerOrders trades).work.Valid :=
      valid_foldl_takeStatus now brokerOrders (kept_importedPass now trades h).valid
    rw [reconcile, Session.commitOr_of_valid hvalid]

/-- The rows of a pass that is committed. -/
theorem reconcile_toDatabase (hok : (reconcile now s userId brokerOrders trades).2 = .ok ()) :
    (reconcile now s userId brokerOrders trades).1.toDatabase =
      (brokerOrders.foldl (Pass.takeStatus now)
        (importedPass now s userId brokerOrders trades)).session.work := by
  have hvalid : (reconcileApply now s.begin userId brokerOrders trades).work.Valid :=
    valid_foldl_takeStatus now brokerOrders
      (kept_importedPass now trades (reconcile_commits_iff.1 hok)).valid
  rw [reconcile, Session.commitOr_of_valid hvalid]
  rfl

/-- **What a committed pass records**: the trades recorded before, and those it books. -/
theorem execution?_reconcile_iff (hok : (reconcile now s userId brokerOrders trades).2 = .ok ())
    (tradeId : String) :
    (reconcile now s userId brokerOrders trades).1.execution? userId (.exchange tradeId) ≠ none ↔
      s.execution? userId (.exchange tradeId) ≠ none ∨
      ∃ before item after o, trades = before ++ item :: after ∧
        Books s userId brokerOrders before item o ∧ item.exchangeTradeId = tradeId := by
  have howed := (kept_importedPass now trades (reconcile_commits_iff.1 hok)).owed
  have hexec : (reconcile now s userId brokerOrders trades).1.execution? userId
      (.exchange tradeId) = (importedPass now s userId brokerOrders trades).session.work.execution?
        userId (.exchange tradeId) := by
    rw [Database.execution?, reconcile_toDatabase hok,
      (foldl_takeStatus_rows now brokerOrders _).1]
    rfl
  rw [hexec]
  constructor
  · exact howed.ids tradeId
  · rintro (hold | ⟨before, item, after, o, rfl, hbooks, rfl⟩)
    · exact howed.stored tradeId hold
    · obtain ⟨e, hkey, -, hadded, -⟩ := hbooks.importedPass now
      obtain ⟨es, -, hes, -⟩ :=
        importedPass_append now s userId brokerOrders (before ++ [item]) after
      rw [List.append_assoc, List.singleton_append] at hes
      rw [Ne, Database.execution?_eq_none, not_not, hes, hadded]
      exact List.mem_filterMap.2 ⟨e, by simp, hkey⟩

/-! ## When one transaction is as good -/

/-- The pass commits, and leaves the orders, executions and positions that it
leaves with a commit after each trade. -/
def PassStepwise (now : Time) (s : Store) (userId : Uuid) (brokerOrders : List BrokerOrderItem)
    (trades : List TradeItem) : Prop :=
  let batch := reconcile now s userId brokerOrders trades
  let stepwise := reconcileStepwise now s userId brokerOrders trades
  batch.2 = .ok () ∧ batch.1.orders = stepwise.work.orders ∧
    batch.1.executions = stepwise.work.executions ∧ batch.1.positions = stepwise.work.positions

/-- **A pass over separable trades is as good as one with a commit after each.** -/
theorem reconcile_eq_stepwise (h : PassSeparable s userId brokerOrders trades) :
    PassStepwise now s userId brokerOrders trades := by
  have htogether := together_foldl now trades h
  have hwork := foldl_takeStatus_congr now brokerOrders htogether.work htogether.byBroker
    htogether.byCorrelation
  have hvalid : (reconcileApply now s.begin userId brokerOrders trades).work.Valid :=
    valid_foldl_takeStatus now brokerOrders (kept_importedPass now trades h.bookable).valid
  change (reconcileStepwise now s userId brokerOrders trades).work =
    (reconcileApply now s.begin userId brokerOrders trades).work at hwork
  unfold PassStepwise reconcile
  rw [Session.commitOr_of_valid hvalid]
  dsimp only
  rw [hwork]
  exact ⟨rfl, rfl, rfl, rfl⟩

end Import

/-- Trades with distinct ids are separable where the position rows are there. -/
theorem PassSeparable.of_nodup {s : Store} {userId : Uuid} {brokerOrders : List BrokerOrderItem}
    {trades : List TradeItem} (hids : (trades.map TradeItem.exchangeTradeId).Nodup)
    (hkeys : ∀ o ∈ localOrders s.toDatabase userId, (s.position? o.positionKey).isSome) :
    PassSeparable s userId brokerOrders trades := by
  rintro l₁ a l₂ b l₃ o o' rfl ha hloaded - -
  refine ⟨fun heq => ?_, fun _ _ => hkeys o ha.loaded⟩
  rw [List.map_append, List.map_cons] at hids
  have hnot := (List.nodup_cons.1 hids.of_append_right).1
  exact hnot (List.mem_map.2 ⟨b, by simp, heq.symm⟩)

/-! ## Batches -/

/-- **Batches.**  A quote agrees with its fills one by one exactly when they are
separable.  A pass commits exactly when the trades it books do not collide, and
agrees with a commit after each trade when they are separable.  Both keep the
ledger balanced. -/
theorem batch_agrees (settings : Settings) (now : Time) (s : Store) (userId : Uuid)
    (quote : NormalizedQuote) (brokerOrders : List BrokerOrderItem) (trades : List TradeItem) :
    (QuoteAgrees settings now s userId quote ↔ QuoteSeparable s userId quote) ∧
    ((reconcile now s userId brokerOrders trades).2 = .ok () ↔
      PassBookable s userId brokerOrders trades) ∧
    (PassSeparable s userId brokerOrders trades →
      PassStepwise now s userId brokerOrders trades) ∧
    (s.Balanced → (processQuote settings now s userId quote).1.Balanced ∧
      (reconcile now s userId brokerOrders trades).1.Balanced) :=
  ⟨quoteAgrees_iff s userId, reconcile_commits_iff, reconcile_eq_stepwise,
    fun hb => ⟨balanced_processQuote hb now userId quote,
      balanced_reconcile hb now userId brokerOrders trades⟩⟩

/-- A store with an open LIVE order for 10 and its flat position. -/
def openLiveOrder : Store where
  orders := [
    { id := 1, userId := 7, instrumentId := 3, clientOrderId := "a", brokerOrderId := some "1",
      mode := .live, side := .buy, orderType := .limit, productType := .intraday, validity := .day,
      quantity := 10, limitPrice := some 100, status := .open }]
  positions := [TradingPosition.flat ⟨7, 3, .live, .intraday⟩]
  nextUuid := 10
  valid := by decide

/-- Two trades that fill it. -/
def twoTrades : List TradeItem := [
  { orderId := "1", exchangeTradeId := "x", tradedQuantity := 4, tradedPrice := 100 },
  { orderId := "1", exchangeTradeId := "y", tradedQuantity := 6, tradedPrice := 99 }]

theorem batch_agrees_twoTrades :
    PassStepwise 0 openLiveOrder 7 [] twoTrades ∧
      (reconcile 0 openLiveOrder 7 [] twoTrades).1.Balanced :=
  have h := batch_agrees {} 0 openLiveOrder 7 { instrumentId := 3, receivedAt := 0, ltp := 1 } []
    twoTrades
  ⟨h.2.2.1 (.of_nodup (by decide) (by decide)), (h.2.2.2 ⟨by decide, fun key => by
    simp [Database.positionTotal, Database.executedNet, openLiveOrder, TradingPosition.flat,
      Rows.total_cons]⟩).2⟩

/-- Two resting paper orders of one user on one instrument, and no position. -/
def twoRestingOrders : Store where
  orders := [
    { id := 1, userId := 7, instrumentId := 3, clientOrderId := "a", mode := .paper, side := .buy,
      orderType := .limit, productType := .intraday, validity := .day, quantity := 10,
      limitPrice := some 100, status := .open },
    { id := 2, userId := 7, instrumentId := 3, clientOrderId := "b", mode := .paper, side := .buy,
      orderType := .limit, productType := .intraday, validity := .day, quantity := 5,
      limitPrice := some 100, status := .open }]
  nextUuid := 10
  valid := by decide

/-- **Two fills at once.**  A quote that crosses both orders adds two position
rows with one key, and the commit fails. -/
theorem batch_collides :
    ¬ ((∀ (settings : Settings) (now : Time) (s : Store) (userId : Uuid)
        (quote : NormalizedQuote), QuoteAgrees settings now s userId quote) ∧
      ∀ (now : Time) (s : Store) (userId : Uuid) (brokerOrders : List BrokerOrderItem)
        (trades : List TradeItem), PassStepwise now s userId brokerOrders trades) := by
  rintro ⟨h, -⟩
  obtain ⟨⟨filled, hok⟩, -⟩ := h {} 0 twoRestingOrders 7
    { instrumentId := 3, receivedAt := 0, ltp := 99 }
  have herror : (processQuote {} 0 twoRestingOrders 7
      { instrumentId := 3, receivedAt := 0, ltp := 99 }).2 = .error .integrityError := by
    decide +kernel
  rw [herror] at hok
  cases hok

end GnkAlgo
