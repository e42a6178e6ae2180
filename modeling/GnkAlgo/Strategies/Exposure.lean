import GnkAlgo.Strategies.Constraints
import GnkAlgo.Strategies.Preview
import GnkAlgo.Strategies.Routes
import GnkAlgo.Trading.Covered

/-!
# What a strategy sells

A strategy that is its user's only source of orders sells out of what it has bought.
Its exposure is the sum of all its executions, whatever product they were made
under, while positions are kept by product type; and an edit may change the product
between the purchase and the sale.

* `SoleMove` — a step of the strategy's, or anything that leaves its user alone;
* `SellsWhatItHolds` — no sale is placed over a position of another product;
* `SoleSound` — the invariant that carries the result;
* `never_short` — as long as every step meets the condition, no position of the
  user is short; `short_after_edit` is a run that does not meet it.
-/

namespace GnkAlgo

open StrategyExecutor Transition Upserts

/-! ## The strategy and its surroundings -/

/-- What the signals refer to: the run of each has been drawn, and the strategy, its
user and the order are there. -/
structure Platform.Referenced (p : Platform) : Prop where
  runs : ∀ x ∈ p.tables.signals, x.runId < p.tables.nextUuid
  strategies : ∀ x ∈ p.tables.signals, ∃ s ∈ p.tables.strategies,
    s.id = x.strategyId ∧ s.userId = x.userId
  orders : ∀ x ∈ p.tables.signals, ∀ id ∈ x.orderId, ∃ o ∈ p.trading.orders, o.id = id

/-- Whatever else goes on leaves the strategies, signals, orders and positions of a
user as they are. -/
structure Platform.Apart (userId : Uuid) (p q : Platform) : Prop where
  valid : q.tables.Valid
  referenced : q.Referenced
  balanced : q.trading.Balanced
  strategies : q.tables.strategies.filter (fun s => s.userId = userId) =
    p.tables.strategies.filter fun s => s.userId = userId
  signals : q.tables.signals.filter (fun x => x.userId = userId) =
    p.tables.signals.filter fun x => x.userId = userId
  orders : q.trading.orders.filter (fun o => o.userId = userId) =
    p.trading.orders.filter fun o => o.userId = userId
  positions : q.trading.positions.filter (fun r => r.userId = userId) =
    p.trading.positions.filter fun r => r.userId = userId

/-- An event of the one PAPER strategy of a user: it is created while the user has
none, evaluated with the order manager's placements, and the rest is free. -/
def SoleSource (settings : StrategySettings) (userId : Uuid) (p : Platform) :
    StrategyEvent → Prop
  | .create owner _ payload => owner = userId → payload.executionMode = .paper ∧
      ∀ s ∈ p.tables.strategies, s.userId ≠ userId
  | .evaluate strategyId _ _ placing => ∀ s ∈ p.tables.strategy? strategyId, s.userId = userId ∧
      ∃ now later subscribed outcome,
        placing = orderManagerPlace settings.toSettings now later subscribed outcome
  | _ => True

section Moves

variable (settings : StrategySettings) (lib : StrategyLibraries) (intervals : CandleIntervals)

/-- A step of the strategy, or of others. -/
inductive SoleMove (userId : Uuid) : Platform → Option StrategyEvent → Platform → Prop
  | own {p : Platform} {e : StrategyEvent} : SoleSource settings userId p e →
      SoleMove userId p (some e) (strategyStep settings lib intervals p e)
  | others {p q : Platform} : p.Apart userId q → SoleMove userId p none q

/-- **When a strategy sells what it holds**: an evaluation that comes to place a sale
finds nothing held under another product type than the strategy's. -/
def SellsWhatItHolds (p : Platform) : Option StrategyEvent → Prop
  | some (.evaluate strategyId candle inputs _) =>
    ∀ strategy ∈ p.tables.strategy? strategyId, ∀ x : Placing settings p strategy candle inputs,
      x.side = .sell → ∀ productType, productType ≠ strategy.productType →
        p.trading.heldQuantity
          ⟨strategy.userId, strategy.instrumentId, .paper, productType⟩ = 0
  | _ => True

end Moves

/-! ## The invariant -/

/-- What of a strategy no request changes. -/
def Strategy.profile (s : Strategy) : Uuid × Uuid × Uuid × Mode :=
  (s.id, s.userId, s.instrumentId, s.executionMode)

/-- What is kept while a strategy is its user's only source of orders. -/
structure SoleSound (userId : Uuid) (p : Platform) : Prop where
  valid : p.tables.Valid
  referenced : p.Referenced
  balanced : p.trading.Balanced
  covers : p.trading.CoversSales userId
  sole : ∀ s ∈ p.tables.strategies, s.userId = userId → ∀ s' ∈ p.tables.strategies,
    s'.userId = userId → s'.id = s.id
  paper : ∀ s ∈ p.tables.strategies, s.userId = userId → s.executionMode = .paper
  linked : ∀ o ∈ p.trading.orders, o.userId = userId →
    ∃ s ∈ p.tables.strategies, s.userId = userId ∧ IsOrderOf p.tables s.id o.id
  placed : ∀ s ∈ p.tables.strategies, s.userId = userId → ∀ id, IsOrderOf p.tables s.id id →
    ∃ o ∈ p.trading.orders, o.id = id ∧ o.userId = userId ∧ o.instrumentId = s.instrumentId ∧
      o.mode = .paper

/-! ## Exposure and positions -/

def productTypes : List ProductType := [.cnc, .intraday, .margin, .mtf]

theorem mem_productTypes (productType : ProductType) : productType ∈ productTypes := by
  cases productType <;> decide

section Exposure

variable {userId : Uuid} {p : Platform} {strategy : Strategy}

theorem SoleSound.strategy_eq (h : SoleSound userId p) {s s' : Strategy}
    (hs : s ∈ p.tables.strategies) (huser : s.userId = userId) (hs' : s' ∈ p.tables.strategies)
    (huser' : s'.userId = userId) : s' = s :=
  List.inj_on_of_nodup_map h.valid.strategyIds hs' hs (h.sole s hs huser s' hs' huser')

/-- An execution is of the strategy exactly when it is booked under one of its keys. -/
theorem SoleSound.isOrderOf_iff (h : SoleSound userId p) (hs : strategy ∈ p.tables.strategies)
    (huser : strategy.userId = userId) (e : TradeExecution) :
    IsOrderOf p.tables strategy.id e.orderId ↔
      ∃ key ∈ productTypes.map (PositionKey.mk userId strategy.instrumentId .paper),
        p.trading.keyOf e = some key := by
  constructor
  · intro hlink
    obtain ⟨o, ho, hid, houser, hinstrument, hmode⟩ := h.placed strategy hs huser _ hlink
    have hfind : p.trading.order? e.orderId = some o := hid ▸ p.trading.valid.order?_eq ho
    refine ⟨o.positionKey, ?_, ?_⟩
    · rw [List.mem_map]
      refine ⟨o.productType, mem_productTypes _, ?_⟩
      rw [TradingOrder.positionKey, houser, hinstrument, hmode]
    · rw [Database.keyOf, hfind]
      rfl
  · rintro ⟨key, hkey, hbooked⟩
    obtain ⟨productType, -, rfl⟩ := List.mem_map.1 hkey
    obtain ⟨o, hfind, hokey⟩ := Option.map_eq_some_iff.1 hbooked
    obtain ⟨ho, hid⟩ := Database.order?_mem hfind
    have houser : o.userId = userId := congrArg PositionKey.userId hokey
    obtain ⟨s, hsmem, hsuser, hlink⟩ := h.linked o ho houser
    rw [← hid, ← h.strategy_eq hs huser hsmem hsuser]
    exact hlink

/-- **The exposure of the strategy is what its user holds**, over all products. -/
theorem SoleSound.strategyExposure_eq (h : SoleSound userId p)
    (hs : strategy ∈ p.tables.strategies) (huser : strategy.userId = userId) :
    strategyExposure p.trading.toDatabase p.tables strategy.id =
      (productTypes.map fun productType => p.trading.positionTotal
        ⟨userId, strategy.instrumentId, .paper, productType⟩).sum := by
  have hkeys : (productTypes.map (PositionKey.mk userId strategy.instrumentId .paper)).Nodup := by
    apply List.Nodup.map
    · intro a b hab
      exact congrArg PositionKey.productType hab
    · decide
  calc strategyExposure p.trading.toDatabase p.tables strategy.id
      = Rows.total (fun e => ∃ key ∈ productTypes.map
          (PositionKey.mk userId strategy.instrumentId .paper), p.trading.keyOf e = some key)
          TradeExecution.signedQuantity p.trading.executions := by
        apply Rows.total_congr
        intro e _
        exact decide_eq_decide.2 (h.isOrderOf_iff hs huser e)
    _ = ((productTypes.map (PositionKey.mk userId strategy.instrumentId .paper)).map
          p.trading.positionTotal).sum := by
        rw [Rows.total_of_keys hkeys]
        congr 1
        apply List.map_congr_left
        intro key _
        exact (h.balanced.held key).symm
    _ = _ := by
        rw [List.map_map]
        rfl

/-- Where nothing is held under another product, the exposure is the one position. -/
theorem SoleSound.strategyExposure_of_flat (h : SoleSound userId p)
    (hs : strategy ∈ p.tables.strategies) (huser : strategy.userId = userId)
    (hflat : ∀ productType, productType ≠ strategy.productType → p.trading.heldQuantity
      ⟨strategy.userId, strategy.instrumentId, .paper, productType⟩ = 0) :
    strategyExposure p.trading.toDatabase p.tables strategy.id =
      p.trading.positionTotal ⟨userId, strategy.instrumentId, .paper, strategy.productType⟩ := by
  have hzero : ∀ productType, productType ≠ strategy.productType → p.trading.positionTotal
      ⟨userId, strategy.instrumentId, .paper, productType⟩ = 0 := by
    intro productType hne
    rw [← huser, ← p.trading.valid.heldQuantity_eq]
    exact hflat productType hne
  rw [h.strategyExposure_eq hs huser]
  cases hproduct : strategy.productType <;>
    simp [productTypes, hzero, hproduct]

end Exposure

/-! ## Steps that place nothing -/

section Moves

variable {userId : Uuid} {p q : Platform}

/-- Signals that stay name the orders they named. -/
theorem isOrderOf_mono {t u : StrategyTables} (h : t.signals ⊆ u.signals) {strategyId id : Uuid}
    (hlink : IsOrderOf t strategyId id) : IsOrderOf u strategyId id := by
  obtain ⟨x, hx, hnames⟩ := hlink
  exact ⟨x, h hx, hnames⟩

theorem exists_of_profile {t u : StrategyTables}
    (h : u.strategies.map Strategy.profile = t.strategies.map Strategy.profile) {s : Strategy}
    (hs : s ∈ t.strategies) : ∃ s' ∈ u.strategies, s'.id = s.id ∧ s'.userId = s.userId ∧
      s'.instrumentId = s.instrumentId ∧ s'.executionMode = s.executionMode := by
  have hmem : s.profile ∈ u.strategies.map Strategy.profile := h ▸ List.mem_map_of_mem hs
  obtain ⟨s', hs', hprofile⟩ := List.mem_map.1 hmem
  simp only [Strategy.profile, Prod.mk.injEq] at hprofile
  exact ⟨s', hs', hprofile⟩

theorem exists_of_terms {d d' : Database} (h : d.terms ⊆ d'.terms) {o : TradingOrder}
    (ho : o ∈ d.orders) : ∃ o' ∈ d'.orders, o'.terms = o.terms :=
  List.mem_map.1 (h (List.mem_map_of_mem ho))

/-- **What a step may do**: rows stay, a new order of the user is named by a signal,
and a new signal of its strategy names an order of the user. -/
theorem SoleSound.move (h : SoleSound userId p) (hvalid : q.tables.Valid)
    (hreferenced : q.Referenced) (hbalanced : q.trading.Balanced)
    (hcovers : q.trading.CoversSales userId)
    (hstrategies : q.tables.strategies.map Strategy.profile =
      p.tables.strategies.map Strategy.profile)
    (hterms : p.trading.terms ⊆ q.trading.terms) (hkept : p.tables.signals ⊆ q.tables.signals)
    (hnew : ∀ o ∈ q.trading.orders, o.userId = userId → o.terms ∈ p.trading.terms ∨
      ∃ s ∈ p.tables.strategies, s.userId = userId ∧ IsOrderOf q.tables s.id o.id)
    (hsignals : ∀ x ∈ q.tables.signals, x ∈ p.tables.signals ∨
      ∀ s ∈ p.tables.strategies, s.userId = userId → x.strategyId = s.id → ∀ id ∈ x.orderId,
        ∃ o ∈ q.trading.orders, o.id = id ∧ o.userId = userId ∧
          o.instrumentId = s.instrumentId ∧ o.mode = .paper) : SoleSound userId q where
  valid := hvalid
  referenced := hreferenced
  balanced := hbalanced
  covers := hcovers
  sole := by
    intro s hs huser s' hs' huser'
    obtain ⟨r, hr, hid, hruser, -⟩ := exists_of_profile hstrategies.symm hs
    obtain ⟨r', hr', hid', hruser', -⟩ := exists_of_profile hstrategies.symm hs'
    rw [← hid, ← hid']
    exact h.sole r hr (hruser.trans huser) r' hr' (hruser'.trans huser')
  paper := by
    intro s hs huser
    obtain ⟨r, hr, -, hruser, -, hmode⟩ := exists_of_profile hstrategies.symm hs
    rw [← hmode]
    exact h.paper r hr (hruser.trans huser)
  linked := by
    intro o ho houser
    have hlink : ∃ s ∈ p.tables.strategies, s.userId = userId ∧ IsOrderOf q.tables s.id o.id := by
      rcases hnew o ho houser with hold | hlink
      · obtain ⟨o', ho', hsame⟩ := List.mem_map.1 hold
        have hid : o'.id = o.id := congrArg OrderTerms.id hsame
        have howner : o'.userId = o.userId := congrArg OrderTerms.userId hsame
        obtain ⟨s, hs, huser, hlink⟩ := h.linked o' ho' (howner.trans houser)
        exact ⟨s, hs, huser, hid ▸ isOrderOf_mono hkept hlink⟩
      · exact hlink
    obtain ⟨s, hs, huser, hlink⟩ := hlink
    obtain ⟨s', hs', hid, huser', -⟩ := exists_of_profile hstrategies hs
    exact ⟨s', hs', huser'.trans huser, hid ▸ hlink⟩
  placed := by
    intro s' hs' huser' id hlink
    obtain ⟨s, hs, hid, huser, hinstrument, -⟩ := exists_of_profile hstrategies.symm hs'
    obtain ⟨x, hx, hstrategy, horder⟩ := hlink
    rw [← hinstrument]
    rcases hsignals x hx with hold | hplaced
    · obtain ⟨o, ho, hoid, houser, hoinstrument, hmode⟩ := h.placed s hs (huser.trans huser') id
        ⟨x, hold, hstrategy.trans hid.symm, horder⟩
      obtain ⟨o', ho', hsame⟩ := exists_of_terms hterms ho
      exact ⟨o', ho', (congrArg OrderTerms.id hsame).trans hoid,
        (congrArg OrderTerms.userId hsame).trans houser,
        (congrArg OrderTerms.instrumentId hsame).trans hoinstrument,
        (congrArg OrderTerms.mode hsame).trans hmode⟩
    · exact hplaced s hs (huser.trans huser') (hstrategy.trans hid.symm) id horder

/-- A request that leaves the signals. -/
theorem SoleSound.retable (h : SoleSound userId p) {t : StrategyTables} (hvalid : t.Valid)
    (hstrategies : t.strategies.map Strategy.profile = p.tables.strategies.map Strategy.profile)
    (hsignals : t.signals = p.tables.signals) (hnext : p.tables.nextUuid ≤ t.nextUuid) :
    SoleSound userId { p with tables := t } := by
  have hreferenced : Platform.Referenced { p with tables := t } := by
    refine ⟨?_, ?_, ?_⟩
    · intro x hx
      exact (h.referenced.runs x (hsignals ▸ hx)).trans_le hnext
    · intro x hx
      obtain ⟨s, hs, hid, huser⟩ := h.referenced.strategies x (hsignals ▸ hx)
      obtain ⟨s', hs', hid', huser', -⟩ := exists_of_profile hstrategies hs
      exact ⟨s', hs', hid'.trans hid, huser'.trans huser⟩
    · intro x hx
      exact h.referenced.orders x (hsignals ▸ hx)
  refine h.move hvalid hreferenced h.balanced h.covers hstrategies (List.Subset.refl _) ?_ ?_ ?_
  · rw [hsignals]
    exact List.Subset.refl _
  · intro o ho _
    exact Or.inl (List.mem_map_of_mem ho)
  · intro x hx
    exact Or.inl (hsignals ▸ hx)

/-- A new strategy, the user's first where it is the user's. -/
theorem SoleSound.create (h : SoleSound userId p) {s : Strategy} {v : StrategyVersion}
    (hid : s.id = p.tables.nextUuid)
    (hvalid : ((p.tables.insertStrategy s).addVersion v).Valid)
    (hfirst : s.userId = userId → s.executionMode = .paper ∧
      ∀ s ∈ p.tables.strategies, s.userId ≠ userId) :
    SoleSound userId { p with tables := (p.tables.insertStrategy s).addVersion v } := by
  have hunnamed : ∀ id, ¬ IsOrderOf p.tables s.id id := by
    rintro id ⟨x, hx, hstrategy, -⟩
    obtain ⟨r, hr, hrid, -⟩ := h.referenced.strategies x hx
    have hlt := h.valid.strategyUuids r hr
    rw [hrid, hstrategy, hid] at hlt
    exact lt_irrefl _ hlt
  have hmem : ∀ s' ∈ p.tables.strategies ++ [s], s' ∈ p.tables.strategies ∨ s' = s := by
    intro s' hs'
    rcases List.mem_append.1 hs' with hs' | hs'
    · exact Or.inl hs'
    · exact Or.inr (List.mem_singleton.1 hs')
  refine ⟨hvalid, ⟨?_, ?_, h.referenced.orders⟩, h.balanced, h.covers, ?_, ?_, ?_, ?_⟩
  · intro x hx
    exact (h.referenced.runs x hx).trans (Nat.lt_succ_self _)
  · intro x hx
    obtain ⟨r, hr, hrefers⟩ := h.referenced.strategies x hx
    exact ⟨r, List.mem_append_left _ hr, hrefers⟩
  · intro a ha hauser b hb hbuser
    rcases hmem a ha with hold | rfl <;> rcases hmem b hb with hold' | rfl
    · exact h.sole a hold hauser b hold' hbuser
    · exact absurd hauser ((hfirst hbuser).2 a hold)
    · exact absurd hbuser ((hfirst hauser).2 b hold')
    · rfl
  · intro a ha hauser
    rcases hmem a ha with hold | rfl
    · exact h.paper a hold hauser
    · exact (hfirst hauser).1
  · intro o ho houser
    obtain ⟨r, hr, hruser, hlink⟩ := h.linked o ho houser
    exact ⟨r, List.mem_append_left _ hr, hruser, hlink⟩
  · intro a ha hauser id hlink
    rcases hmem a ha with hold | rfl
    · exact h.placed a hold hauser id hlink
    · exact absurd hlink (hunnamed id)

end Moves

/-! ## Evaluations -/

section Evaluations

variable {settings : StrategySettings} {lib : StrategyLibraries} {userId : Uuid} {p q : Platform}
  {strategy : Strategy} {candle : MarketCandle} {inputs : EvaluationInputs}

/-- What has settled keeps its profile. -/
theorem profile_of_settled {l l' : List Strategy}
    (h : l'.map Strategy.settled = l.map Strategy.settled) :
    l'.map Strategy.profile = l.map Strategy.profile := by
  have hprofile : ∀ l : List Strategy, l.map Strategy.profile = (l.map Strategy.settled).map
      fun s => (s.1, s.2.1, s.2.2.2.2.instrumentId, s.2.2.2.2.executionMode) := by
    intro l
    rw [List.map_map]
    rfl
  rw [hprofile, h, ← hprofile]

/-- A signal of the strategy, and the order it names if it names one. -/
theorem SoleSound.signal (h : SoleSound userId p) (hs : strategy ∈ p.tables.strategies)
    (huser : strategy.userId = userId) {x : StrategySignal} (hstrategy : x.strategyId = strategy.id)
    (howner : x.userId = strategy.userId) (hrun : x.runId < q.tables.nextUuid)
    (hvalid : q.tables.Valid)
    (hprofile : q.tables.strategies.map Strategy.profile =
      p.tables.strategies.map Strategy.profile)
    (hsignals : q.tables.signals = p.tables.signals ++ [x])
    (hnext : p.tables.nextUuid ≤ q.tables.nextUuid) (hbalanced : q.trading.Balanced)
    (hcovers : q.trading.CoversSales userId) (hterms : p.trading.terms ⊆ q.trading.terms)
    (hnew : ∀ o ∈ q.trading.orders, o.terms ∈ p.trading.terms ∨ x.orderId = some o.id)
    (horder : ∀ id ∈ x.orderId, ∃ o ∈ q.trading.orders, o.id = id ∧ o.userId = userId ∧
      o.instrumentId = strategy.instrumentId ∧ o.mode = .paper) : SoleSound userId q := by
  have hmem : ∀ y ∈ q.tables.signals, y ∈ p.tables.signals ∨ y = x := by
    intro y hy
    rw [hsignals] at hy
    rcases List.mem_append.1 hy with hy | hy
    · exact Or.inl hy
    · exact Or.inr (List.mem_singleton.1 hy)
  have hx : x ∈ q.tables.signals := hsignals ▸ List.mem_append_right _ (List.mem_singleton.2 rfl)
  have hreferenced : q.Referenced := by
    refine ⟨?_, ?_, ?_⟩
    · intro y hy
      rcases hmem y hy with hold | rfl
      · exact (h.referenced.runs y hold).trans_le hnext
      · exact hrun
    · intro y hy
      have hrefers : ∃ s ∈ p.tables.strategies, s.id = y.strategyId ∧ s.userId = y.userId := by
        rcases hmem y hy with hold | rfl
        · exact h.referenced.strategies y hold
        · exact ⟨strategy, hs, hstrategy.symm, howner.symm⟩
      obtain ⟨s, hs, hid, hsuser⟩ := hrefers
      obtain ⟨s', hs', hid', hsuser', -⟩ := exists_of_profile hprofile hs
      exact ⟨s', hs', hid'.trans hid, hsuser'.trans hsuser⟩
    · intro y hy id hid
      rcases hmem y hy with hold | rfl
      · obtain ⟨o, ho, hoid⟩ := h.referenced.orders y hold id hid
        obtain ⟨o', ho', hsame⟩ := exists_of_terms hterms ho
        exact ⟨o', ho', (congrArg OrderTerms.id hsame).trans hoid⟩
      · obtain ⟨o, ho, hoid, -⟩ := horder id hid
        exact ⟨o, ho, hoid⟩
  refine h.move hvalid hreferenced hbalanced hcovers hprofile hterms ?_ ?_ ?_
  · rw [hsignals]
    exact List.subset_append_left _ _
  · intro o ho _
    refine (hnew o ho).imp_right fun hnames => ⟨strategy, hs, huser, x, hx, hstrategy, hnames⟩
  · intro y hy
    rcases hmem y hy with hold | rfl
    · exact Or.inl hold
    · refine Or.inr fun s hs' huser' hsame id hid => ?_
      rw [h.strategy_eq hs huser hs' huser']
      exact horder id hid

theorem SoleSound.claimed (h : SoleSound userId p)
    (hrun : run? p.tables strategy.id candle.startAt = none) (inputs : EvaluationInputs) :
    SoleSound userId { p with tables := claimedTables p strategy candle inputs } :=
  h.retable (valid_claimedTables h.valid hrun inputs)
    (profile_of_settled (claimedTables_settled p strategy candle inputs)) rfl (Nat.le_succ _)

theorem SoleSound.quiet (h : SoleSound userId p) {t : StrategyTables} (hvalid : t.Valid)
    (hquiet : p.tables.Quiet t) (hsignals : t.signals = p.tables.signals) :
    SoleSound userId { p with tables := t } :=
  h.retable hvalid (profile_of_settled hquiet.strategies) hsignals hquiet.nextUuid

/-- The end of a run. -/
theorem SoleSound.finish (h : SoleSound userId p) (strategyId runId : Uuid) (finishedAt : Time)
    (e : RunEnd) :
    SoleSound userId { p with tables := finish p.tables strategyId runId finishedAt e } :=
  h.quiet (valid_finish h.valid ..) (quiet_finish ..) (finish_signals ..)

end Evaluations

section Placements

variable {settings : StrategySettings} {lib : StrategyLibraries} {userId : Uuid} {p q : Platform}
  {strategy : Strategy} {candle : MarketCandle} {inputs : EvaluationInputs}

/-- The signal an evaluation has flushed, or what has become of it. -/
structure FlushedBy (p : Platform) (strategy : Strategy) (candle : MarketCandle)
    (inputs : EvaluationInputs) (y : StrategySignal) : Prop where
  id : y.id = (claimedTables p strategy candle inputs).nextUuid
  runId : y.runId = p.tables.nextUuid
  strategyId : y.strategyId = strategy.id
  userId : y.userId = strategy.userId

/-- It meets the constraints, if the order it may name is named by no other. -/
theorem SoleSound.valid_flushed (h : SoleSound userId p)
    (hrun : run? p.tables strategy.id candle.startAt = none) {y : StrategySignal}
    (hy : FlushedBy p strategy candle inputs y)
    (horder : ∀ id ∈ y.orderId, ∀ x ∈ p.tables.signals, x.orderId ≠ some id) :
    ((claimedTables p strategy candle inputs).insertSignal y).Valid := by
  apply (valid_claimedTables h.valid hrun inputs).insertSignal hy.id
  · intro x hx
    rw [hy.runId]
    exact (h.referenced.runs x hx).ne
  · exact horder

/-- A platform with the flushed signal, and the order it names if it names one. -/
theorem SoleSound.flushed (h : SoleSound userId p) (hs : strategy ∈ p.tables.strategies)
    (huser : strategy.userId = userId) {y : StrategySignal}
    (hy : FlushedBy p strategy candle inputs y)
    (hquiet : ((claimedTables p strategy candle inputs).insertSignal y).Quiet q.tables)
    (hsignals : q.tables.signals = p.tables.signals ++ [y]) (hvalid : q.tables.Valid)
    (hbalanced : q.trading.Balanced) (hcovers : q.trading.CoversSales userId)
    (hterms : p.trading.terms ⊆ q.trading.terms)
    (hnew : ∀ o ∈ q.trading.orders, o.terms ∈ p.trading.terms ∨ y.orderId = some o.id)
    (horder : ∀ id ∈ y.orderId, ∃ o ∈ q.trading.orders, o.id = id ∧ o.userId = userId ∧
      o.instrumentId = strategy.instrumentId ∧ o.mode = .paper) : SoleSound userId q := by
  have hnext : p.tables.nextUuid + 2 ≤ q.tables.nextUuid := hquiet.nextUuid
  refine h.signal hs huser hy.strategyId hy.userId ?_ hvalid ?_ hsignals ?_ hbalanced hcovers
    hterms hnew horder
  · rw [hy.runId]
    exact (Nat.lt_add_of_pos_right Nat.two_pos).trans_le hnext
  · exact profile_of_settled (hquiet.strategies.trans
      (claimedTables_settled p strategy candle inputs))
  · exact (Nat.le_add_right _ 2).trans hnext

/-- The same, where nothing has been traded and no order is named. -/
theorem SoleSound.flushed_unnamed (h : SoleSound userId p) (hs : strategy ∈ p.tables.strategies)
    (huser : strategy.userId = userId) {y : StrategySignal}
    (hy : FlushedBy p strategy candle inputs y) (hnone : y.orderId = none) {t : StrategyTables}
    (hquiet : ((claimedTables p strategy candle inputs).insertSignal y).Quiet t)
    (hsignals : t.signals = p.tables.signals ++ [y]) (hvalid : t.Valid) :
    SoleSound userId { p with tables := t } := by
  refine h.flushed hs huser hy hquiet hsignals hvalid h.balanced h.covers (List.Subset.refl _) ?_ ?_
  · intro o ho
    exact Or.inl (List.mem_map_of_mem ho)
  · intro id hid
    rw [hnone] at hid
    cases hid

/-- A suppressed action. -/
theorem SoleSound.suppressedWith (h : SoleSound userId p) (hs : strategy ∈ p.tables.strategies)
    (huser : strategy.userId = userId) (hrun : run? p.tables strategy.id candle.startAt = none)
    (side : OrderSide) (reason : String) (diagnostics : Diagnostics) :
    SoleSound userId
      (suppressedWith lib p strategy candle inputs side reason diagnostics) := by
  unfold GnkAlgo.suppressedWith suppressed
  have hflushed : ∀ y, FlushedBy p strategy candle inputs y → y.orderId = none → ∀ e,
      SoleSound userId ⟨p.trading, StrategyExecutor.finish
        ((claimedTables p strategy candle inputs).insertSignal y) strategy.id p.tables.nextUuid
        inputs.clock.finished e⟩ := by
    intro y hy hnone e
    refine h.flushed_unnamed hs huser hy hnone (quiet_finish ..) (finish_signals ..)
      (valid_finish (h.valid_flushed hrun hy ?_) ..)
    intro id hid
    rw [hnone] at hid
    cases hid
  exact hflushed _ ⟨rfl, rfl, rfl, rfl⟩ rfl _

/-- None of the user's orders is open where the strategy has none. -/
theorem SoleSound.closed (h : SoleSound userId p) (hs : strategy ∈ p.tables.strategies)
    (huser : strategy.userId = userId)
    (hfree : hasOpenOrder p.trading.toDatabase (claimedTables p strategy candle inputs)
      strategy.id = false) :
    ∀ o ∈ p.trading.orders, o.userId = userId → o.status ∉ openOrderStatuses := by
  intro o ho houser hopen
  obtain ⟨s, hsmem, hsuser, hlink⟩ := h.linked o ho houser
  rw [h.strategy_eq hs huser hsmem hsuser] at hlink
  have hnone := List.any_eq_false.1 hfree o ho
  have hlinked : IsOrderOf (claimedTables p strategy candle inputs) strategy.id o.id := hlink
  exact hnone (by simpa using ⟨hopen, hlinked⟩)

/-- **A sale is covered** where nothing is held under another product. -/
theorem SoleSound.sale_le (h : SoleSound userId p) (hs : strategy ∈ p.tables.strategies)
    (huser : strategy.userId = userId) (x : Placing settings p strategy candle inputs)
    (hflat : x.side = .sell → ∀ productType, productType ≠ strategy.productType →
      p.trading.heldQuantity ⟨strategy.userId, strategy.instrumentId, .paper, productType⟩ = 0)
    (hside : (x.values lib).side = .sell) :
    (x.values lib).quantity ≤ p.trading.positionTotal
      ⟨userId, strategy.instrumentId, .paper, (x.values lib).productType⟩ := by
  have hsell : x.side = .sell := hside
  have hexposure : exposureAt p strategy candle inputs = p.trading.positionTotal
      ⟨userId, strategy.instrumentId, .paper, strategy.productType⟩ :=
    h.strategyExposure_of_flat hs huser (hflat hsell)
  show orderQuantity strategy x.side (exposureAt p strategy candle inputs) ≤ _
  rw [hsell]
  show min strategy.quantity (exposureAt p strategy candle inputs) ≤ _
  rw [hexposure]
  exact min_le_right _ _

/-- The strategy trades where its mode is served. -/
theorem tradingMode_of_judge {candleStart : Time} {verdict : OrderSide × Diagnostics}
    (h : judge settings strategy candleStart inputs = .ok verdict) :
    strategy.executionMode.tradingMode = settings.tradingMode := by
  unfold judge at h
  cases hgate : gateCheck settings strategy inputs.user with
  | error e =>
    rw [hgate] at h
    cases h
  | ok u =>
    unfold gateCheck at hgate
    split_ifs at hgate with hengine hactive hmode
    all_goals exact not_not.1 hmode

theorem place_paper {settings : Settings} (hmode : settings.tradingMode = .paper)
    (now later : Time) (s : Store) (userId instrumentId : Uuid) (values : OrderValues)
    (quote : Option NormalizedQuote) (subscribed : Bool) (outcome : HttpOutcome) :
    place settings now later s userId instrumentId values quote subscribed outcome =
      paperPlace settings now s userId instrumentId values quote := by
  unfold place placeBegin
  rw [hmode]

end Placements

section Outcome

variable {settings : StrategySettings} {lib : StrategyLibraries} {userId : Uuid} {p q : Platform}
  {strategy : Strategy} {candle : MarketCandle} {inputs : EvaluationInputs}

variable (lib) in
/-- The tables once the flushed signal has been written: the signal `y`, then the
columns of the strategy and the end of the run. -/
theorem Placing.written (h : SoleSound userId p) (x : Placing settings p strategy candle inputs)
    {f : StrategySignal → StrategySignal} {g : Strategy → Strategy} (e : RunEnd)
    (hg : ∀ s, (g s).settled = s.settled) {t : StrategyTables}
    (ht : t = finish (((x.created lib).updateSignal
        (claimedTables p strategy candle inputs).nextUuid f).updateStrategy strategy.id g)
      strategy.id p.tables.nextUuid inputs.clock.finished e) :
    ((claimedTables p strategy candle inputs).insertSignal (f (x.signal lib))).Quiet t ∧
      t.signals = p.tables.signals ++ [f (x.signal lib)] ∧
      (((claimedTables p strategy candle inputs).insertSignal (f (x.signal lib))).Valid →
        t.Valid) := by
  have hfresh : ∀ s ∈ (claimedTables p strategy candle inputs).signals,
      s.id < (claimedTables p strategy candle inputs).nextUuid := fun s hs =>
    (h.valid.signalUuids s hs).trans (Nat.lt_succ_self _)
  have hinserted : (x.created lib).updateSignal (claimedTables p strategy candle inputs).nextUuid f =
      (claimedTables p strategy candle inputs).insertSignal (f (x.signal lib)) :=
    StrategyTables.updateSignal_insertSignal hfresh rfl f
  rw [ht, hinserted]
  refine ⟨(StrategyTables.quiet_updateStrategy _ _ hg).trans (quiet_finish ..), finish_signals ..,
    fun hvalid => valid_finish (hvalid.updateStrategy _ ?_ ?_) ..⟩
  · intro s
    exact congrArg Prod.fst (hg s)
  · intro s
    have hsettled := hg s
    simp only [Strategy.settled, Prod.mk.injEq] at hsettled
    exact Prod.ext hsettled.2.1 hsettled.2.2.1

/-- The flushed signal once its order is known. -/
def submittedSignal (s : StrategySignal) (order : TradingOrder) : StrategySignal :=
  { s with orderId := some order.id, status := .orderSubmitted }

variable (lib) in
theorem Placing.written_submitted (h : SoleSound userId p)
    (x : Placing settings p strategy candle inputs) (order : TradingOrder) :
    ((claimedTables p strategy candle inputs).insertSignal
        (submittedSignal (x.signal lib) order)).Quiet
      (submitted (x.created lib) strategy p.tables.nextUuid
        (claimedTables p strategy candle inputs).nextUuid order x.diagnostics
        inputs.clock.finished) ∧
    (submitted (x.created lib) strategy p.tables.nextUuid
        (claimedTables p strategy candle inputs).nextUuid order x.diagnostics
        inputs.clock.finished).signals =
      p.tables.signals ++ [submittedSignal (x.signal lib) order] ∧
    (((claimedTables p strategy candle inputs).insertSignal
        (submittedSignal (x.signal lib) order)).Valid →
      (submitted (x.created lib) strategy p.tables.nextUuid
        (claimedTables p strategy candle inputs).nextUuid order x.diagnostics
        inputs.clock.finished).Valid) :=
  x.written lib h (f := fun s => submittedSignal s order) (g := fun s => { s with lastError := none })
    ⟨.succeeded, { x.diagnostics with orderStatus := some order.status }, none⟩ (fun _ => rfl) rfl

/-- **A placement keeps the user's positions long**, where a sale finds nothing held
under another product. -/
theorem SoleSound.outcome (h : SoleSound userId p) (hs : strategy ∈ p.tables.strategies)
    (huser : strategy.userId = userId) (hrun : run? p.tables strategy.id candle.startAt = none)
    (x : Placing settings p strategy candle inputs)
    (hflat : x.side = .sell → ∀ productType, productType ≠ strategy.productType →
      p.trading.heldQuantity ⟨strategy.userId, strategy.instrumentId, .paper, productType⟩ = 0)
    (now later : Time) (subscribed : Bool) (answer : HttpOutcome) :
    SoleSound userId
      (x.outcome lib (orderManagerPlace settings.toSettings now later subscribed answer)) := by
  have hmode : settings.tradingMode = .paper := by
    rw [← tradingMode_of_judge x.judged, h.paper strategy hs huser]
    rfl
  generalize hr : paperPlace settings.toSettings now p.trading userId strategy.instrumentId
    (x.values lib) (some x.quote) = r
  have hplacement : x.placement lib
      (orderManagerPlace settings.toSettings now later subscribed answer) =
      ⟨r.1, r.1.toDatabase ≠ p.trading.toDatabase, some r.2⟩ := by
    unfold Placing.placement orderManagerPlace
    rw [place_paper hmode, huser, hr]
  have hclosed := h.closed hs huser x.free
  have hcovers : r.1.CoversSales userId := by
    rw [← hr]
    exact coversSales_paperPlace h.covers hclosed now fun hside => h.sale_le hs huser x hflat hside
  have hbalanced : r.1.Balanced := by
    rw [← hr]
    exact balanced_paperPlace h.balanced ..
  -- where nothing has been traded and the run fails, the flushed signal is rolled back
  have hfailed : ∀ e t, t = StrategyExecutor.finish (claimedTables p strategy candle inputs)
      strategy.id p.tables.nextUuid inputs.clock.finished e → SoleSound userId ⟨p.trading, t⟩ := by
    rintro e t rfl
    exact (h.claimed hrun inputs).finish ..
  have hy : ∀ o, FlushedBy p strategy candle inputs (submittedSignal (x.signal lib) o) := fun _ =>
    ⟨rfl, rfl, rfl, rfl⟩
  unfold Placing.outcome settle
  rw [hplacement]
  dsimp only
  rcases paperPlace_result _ _ _ _ _ _ _ hr.symm with
    ⟨hsame, ⟨e, he⟩ | ⟨o, ho, houser, hok⟩⟩ | ⟨o, hok, hid, hterms⟩
  · rw [hsame, he]
    cases e with
    | trading e =>
      dsimp only
      have hwritten := x.written lib h (f := fun s =>
        { s with status := .rejected, reason := some e.code }) (g := fun s => { s with
          lastError := some e.code
          status := if strategy.executionMode = .live then .error else s.status })
        ⟨.failed, { x.diagnostics with reason := some e.code }, none⟩ (fun _ => rfl) rfl
      have hflushed : FlushedBy p strategy candle inputs
          { x.signal lib with status := .rejected, reason := some e.code } := ⟨rfl, rfl, rfl, rfl⟩
      refine h.flushed_unnamed hs huser hflushed rfl hwritten.1 hwritten.2.1
        (hwritten.2.2 (h.valid_flushed hrun hflushed ?_))
      intro id hnone
      cases hnone
    | integrityError => exact hfailed (crashed inputs.exceptionName) _ (by simp)
    | escaped => exact hfailed (crashed inputs.exceptionName) _ (by simp)
  · rw [hsame, hok]
    dsimp only
    obtain ⟨hquiet, hsignals, -⟩ := x.written_submitted lib h o
    split
    · rename_i hvalid
      obtain ⟨s, hsmem, hsuser, hlink⟩ := h.linked o ho houser
      obtain ⟨o', ho', hplaced⟩ := h.placed s hsmem hsuser o.id hlink
      rw [h.strategy_eq hs huser hsmem hsuser] at hplaced
      refine h.flushed hs huser (hy o) hquiet hsignals hvalid h.balanced h.covers
        (List.Subset.refl _) ?_ ?_
      · intro o' ho'
        exact Or.inl (List.mem_map_of_mem ho')
      · intro id hid
        obtain rfl := Option.some_inj.1 hid
        exact ⟨o', ho', hplaced⟩
    · exact hfailed (crashed inputs.exceptionName) _ (by simp)
  · rw [hok]
    dsimp only
    obtain ⟨hquiet, hsignals, hkept⟩ := x.written_submitted lib h o
    have hvalid := hkept (h.valid_flushed hrun (hy o) ?_)
    · rw [if_pos hvalid]
      refine h.flushed hs huser (hy o) hquiet hsignals hvalid hbalanced hcovers ?_ ?_ ?_
      · rw [hterms]
        exact List.subset_append_left _ _
      · intro o' ho'
        have hmem : o'.terms ∈ r.1.terms := List.mem_map_of_mem ho'
        rw [hterms] at hmem
        rcases List.mem_append.1 hmem with hold | hnew
        · exact Or.inl hold
        · have hid' : o'.id = p.trading.nextUuid :=
            congrArg OrderTerms.id (List.mem_singleton.1 hnew)
          exact Or.inr (congrArg some (hid.trans hid'.symm))
      · intro id hid'
        obtain rfl := Option.some_inj.1 hid'
        have hmem : (paperOrder p.trading.nextUuid userId strategy.instrumentId (x.values lib)
            now).terms ∈ r.1.terms := by
          rw [hterms]
          exact List.mem_append_right _ (List.mem_singleton.2 rfl)
        obtain ⟨o', ho', hsame⟩ := List.mem_map.1 hmem
        exact ⟨o', ho', (congrArg OrderTerms.id hsame).trans hid.symm,
          congrArg OrderTerms.userId hsame, congrArg OrderTerms.instrumentId hsame,
          congrArg OrderTerms.mode hsame⟩
    · -- no signal names an order whose id has just been drawn
      intro id hid' y hsignal hnames
      obtain rfl := Option.some_inj.1 hid'
      obtain ⟨o', ho', hid''⟩ := h.referenced.orders y hsignal _ hnames
      have hlt := p.trading.valid.orderUuids o' ho'
      rw [hid'', hid] at hlt
      exact lt_irrefl _ hlt

end Outcome

/-! ## Others -/

section Others

variable {userId : Uuid} {p q : Platform}

theorem mem_iff_of_filter {α : Type*} {f : α → Bool} {l l' : List α} {x : α}
    (h : l.filter f = l'.filter f) (hx : f x = true) : x ∈ l ↔ x ∈ l' := by
  have hl : x ∈ l.filter f ↔ x ∈ l'.filter f := by rw [h]
  simpa [List.mem_filter, hx] using hl

theorem Platform.Apart.mem_orders (h : p.Apart userId q) {o : TradingOrder}
    (ho : o.userId = userId) : o ∈ q.trading.orders ↔ o ∈ p.trading.orders :=
  mem_iff_of_filter h.orders (by simpa using ho)

theorem Platform.Apart.mem_strategies (h : p.Apart userId q) {s : Strategy}
    (hs : s.userId = userId) : s ∈ q.tables.strategies ↔ s ∈ p.tables.strategies :=
  mem_iff_of_filter h.strategies (by simpa using hs)

theorem Platform.Apart.mem_signals (h : p.Apart userId q) {x : StrategySignal}
    (hx : x.userId = userId) : x ∈ q.tables.signals ↔ x ∈ p.tables.signals :=
  mem_iff_of_filter h.signals (by simpa using hx)

/-- A signal is its strategy's user's. -/
theorem userId_of_signal (hvalid : p.tables.Valid) (href : p.Referenced) {s : Strategy}
    (hs : s ∈ p.tables.strategies) {x : StrategySignal} (hx : x ∈ p.tables.signals)
    (hstrategy : x.strategyId = s.id) : x.userId = s.userId := by
  obtain ⟨r, hr, hid, huser⟩ := href.strategies x hx
  rw [List.inj_on_of_nodup_map hvalid.strategyIds hs hr (hstrategy.symm.trans hid.symm)]
  exact huser.symm

theorem Platform.Apart.restingQuantity (h : p.Apart userId q) {key : PositionKey}
    (hkey : key.userId = userId) (side : OrderSide) :
    q.trading.restingQuantity key side = p.trading.restingQuantity key side := by
  have hown : ∀ d : Database, d.restingQuantity key side =
      Rows.total (fun o => o.userId = userId) (fun o => o.restingUnder key side) d.orders := by
    intro d
    rw [Rows.total_eq_sum, Database.restingQuantity]
    congr 1
    apply List.map_congr_left
    intro o _
    split
    · rfl
    · rename_i hother
      apply TradingOrder.restingUnder_of_ne
      rintro ⟨hokey, -⟩
      apply hother
      rw [decide_eq_true_eq, ← hkey, ← hokey]
      rfl
  rw [hown, hown, Rows.total, Rows.total, h.orders]

theorem Platform.Apart.positionTotal (h : p.Apart userId q) {key : PositionKey}
    (hkey : key.userId = userId) :
    q.trading.positionTotal key = p.trading.positionTotal key := by
  have hown : ∀ d : Database, d.positionTotal key = Rows.total (fun r => r.positionKey = key)
      TradingPosition.quantity (d.positions.filter fun r => r.userId = userId) := by
    intro d
    rw [Database.positionTotal, Rows.total, Rows.total, List.filter_filter]
    congr 2
    apply List.filter_congr
    intro r _
    by_cases hr : r.positionKey = key
    · have huser : r.userId = userId := by
        rw [← hkey, ← hr]
        rfl
      simp [hr, huser]
    · simp [hr]
  rw [hown, hown, h.positions]

/-- **Others leave what is kept.** -/
theorem SoleSound.others (h : SoleSound userId p) (ha : p.Apart userId q) :
    SoleSound userId q where
  valid := ha.valid
  referenced := ha.referenced
  balanced := ha.balanced
  covers := by
    refine ⟨?_, ?_⟩
    · intro o ho houser
      exact h.covers.fits o ((ha.mem_orders houser).1 ho) houser
    · intro key hkey
      rw [ha.restingQuantity hkey, ha.positionTotal hkey]
      exact h.covers.covered key hkey
  sole := by
    intro s hs huser s' hs' huser'
    exact h.sole s ((ha.mem_strategies huser).1 hs) huser s' ((ha.mem_strategies huser').1 hs') huser'
  paper := by
    intro s hs huser
    exact h.paper s ((ha.mem_strategies huser).1 hs) huser
  linked := by
    intro o ho houser
    obtain ⟨s, hs, huser, x, hx, hstrategy, hnames⟩ := h.linked o ((ha.mem_orders houser).1 ho) houser
    have hxuser := (userId_of_signal h.valid h.referenced hs hx hstrategy).trans huser
    exact ⟨s, (ha.mem_strategies huser).2 hs, huser, x, (ha.mem_signals hxuser).2 hx, hstrategy,
      hnames⟩
  placed := by
    rintro s hs huser id ⟨x, hx, hstrategy, hnames⟩
    have hxuser := (userId_of_signal ha.valid ha.referenced hs hx hstrategy).trans huser
    obtain ⟨o, ho, hid, houser, hplaced⟩ := h.placed s ((ha.mem_strategies huser).1 hs) huser id
      ⟨x, (ha.mem_signals hxuser).1 hx, hstrategy, hnames⟩
    exact ⟨o, (ha.mem_orders houser).2 ho, hid, houser, hplaced⟩

end Others

/-! ## The steps of the strategy -/

section Steps

variable {settings : StrategySettings} {lib : StrategyLibraries} {intervals : CandleIntervals}
  {userId : Uuid} {p : Platform}

theorem SoleSound.evaluate (h : SoleSound userId p) {strategy : Strategy} {candle : MarketCandle}
    {inputs : EvaluationInputs} (hs : strategy ∈ p.tables.strategies)
    (huser : strategy.userId = userId)
    (hflat : ∀ x : Placing settings p strategy candle inputs, x.side = .sell →
      ∀ productType, productType ≠ strategy.productType → p.trading.heldQuantity
        ⟨strategy.userId, strategy.instrumentId, .paper, productType⟩ = 0)
    (now later : Time) (subscribed : Bool) (answer : HttpOutcome) :
    SoleSound userId (evaluate settings lib
      (orderManagerPlace settings.toSettings now later subscribed answer) p strategy candle
      inputs) := by
  rcases evaluate_cases (q := StrategyExecutor.evaluate settings lib
      (orderManagerPlace settings.toSettings now later subscribed answer) p strategy candle inputs)
    rfl with ⟨hsame, -⟩ | ⟨hrun, ⟨e, hended⟩ | ⟨side, reason, diagnostics, hsuppressed⟩ | ⟨x, hplaced⟩⟩
  · rw [hsame]
    exact h
  · rw [hended]
    exact (h.claimed hrun inputs).finish ..
  · rw [hsuppressed]
    exact h.suppressedWith hs huser hrun side reason diagnostics
  · rw [hplaced]
    exact h.outcome hs huser hrun x (hflat x) now later subscribed answer

/-- **A step that sells what is held keeps the positions long.** -/
theorem soleSound_strategyStep (h : SoleSound userId p) {e : StrategyEvent}
    (hsource : SoleSource settings userId p e) (hsells : SellsWhatItHolds settings p (some e)) :
    SoleSound userId (strategyStep settings lib intervals p e) := by
  cases e with
  | create owner instrument payload =>
    rcases createStrategy_cases (r := createStrategy lib intervals instrument p.tables owner payload)
      rfl with ⟨hsame, -⟩ | ⟨s, hs, hnew, hvalid⟩
    · rw [strategyStep, hsame]
      exact h
    · rw [strategyStep, hnew]
      rw [hnew] at hvalid
      refine h.create (hs ▸ rfl) hvalid fun hsuser => ?_
      rw [hs] at hsuser ⊢
      exact hsource hsuser
  | update owner strategyId payload =>
    rcases updateStrategy_cases (r := updateStrategy lib intervals p.tables owner strategyId payload)
      rfl with hsame | ⟨s, hs, -, -, -, name, hbounds, -, hedit, hvalid⟩
    · rw [strategyStep, hsame]
      exact h
    · rw [strategyStep, hedit]
      rw [hedit] at hvalid
      refine h.retable hvalid ?_ rfl le_rfl
      have hreplaced := updateById_eq_replaceBy (f := fun _ => editedStrategy s name payload hbounds)
        h.valid.strategyIds hs rfl
      refine (congrArg (List.map Strategy.profile) hreplaced).trans (Rows.map_replaceBy ?_)
      intro s' hs' hid
      rw [List.inj_on_of_nodup_map h.valid.strategyIds hs' hs hid]
      rfl
  | activate now owner strategyId mfaEnabled confirmation =>
    rcases activate_cases (r := activate settings now p owner strategyId mfaEnabled confirmation)
      rfl with hsame | ⟨s, -, -, -, hactive⟩
    · rw [strategyStep, hsame]
      exact h
    · rw [strategyStep, hactive]
      exact h.quiet (h.valid.updateStrategy _ (fun _ => rfl) fun _ => rfl)
        (StrategyTables.quiet_updateStrategy _ _ fun _ => rfl) rfl
  | pause now owner strategyId =>
    rcases pause_cases (r := pause now p.tables owner strategyId) rfl with
      hsame | ⟨s, -, -, -, hpaused⟩
    · rw [strategyStep, hsame]
      exact h
    · rw [strategyStep, hpaused]
      exact h.quiet (h.valid.updateStrategy _ (fun _ => rfl) fun _ => rfl)
        (StrategyTables.quiet_updateStrategy _ _ fun _ => rfl) rfl
  | evaluate strategyId candle inputs placing =>
    rw [strategyStep]
    cases hstrategy : p.tables.strategy? strategyId with
    | none => exact h
    | some strategy =>
      obtain ⟨huser, now, later, subscribed, answer, rfl⟩ := hsource strategy hstrategy
      exact h.evaluate (List.mem_of_find?_eq_some hstrategy) huser (hsells strategy hstrategy) now
        later subscribed answer
  | quote now quoted quote =>
    rw [strategyStep]
    have hterms := terms_processQuote settings.toSettings now p.trading quoted quote
    have hkept : p.trading.terms ⊆ (processQuote settings.toSettings now p.trading quoted
        quote).1.terms := hterms ▸ List.Subset.refl _
    have hreferenced : Platform.Referenced ⟨(processQuote settings.toSettings now p.trading quoted
        quote).1, p.tables⟩ := by
      refine ⟨h.referenced.runs, h.referenced.strategies, ?_⟩
      intro x hx id hid
      obtain ⟨o, ho, hoid⟩ := h.referenced.orders x hx id hid
      obtain ⟨o', ho', hsame⟩ := exists_of_terms hkept ho
      exact ⟨o', ho', (congrArg OrderTerms.id hsame).trans hoid⟩
    refine h.move h.valid hreferenced (balanced_processQuote h.balanced now quoted quote)
      (coversSales_processQuote h.covers now quoted quote) rfl hkept
      (List.Subset.refl _) ?_ ?_
    · intro o ho _
      refine Or.inl (hterms ▸ List.mem_map_of_mem ho)
    · intro x hx
      exact Or.inl hx

end Steps

/-! ## Runs -/

section Runs

variable {settings : StrategySettings} {lib : StrategyLibraries} {intervals : CandleIntervals}
  {userId : Uuid} {p q : Platform}

theorem soleSound_start (userId : Uuid) : SoleSound userId ⟨.empty, {}⟩ := by
  have hempty : ∀ key : PositionKey, Store.empty.positionTotal key = 0 := fun _ => rfl
  refine ⟨by decide, ⟨?_, ?_, ?_⟩, Store.books_empty.balanced, ⟨?_, ?_⟩, ?_, ?_, ?_, ?_⟩
  · exact List.forall_mem_nil _
  · exact List.forall_mem_nil _
  · exact List.forall_mem_nil _
  · exact List.forall_mem_nil _
  · intro key _
    exact le_refl _
  · exact List.forall_mem_nil _
  · exact List.forall_mem_nil _
  · exact List.forall_mem_nil _
  · exact List.forall_mem_nil _

/-- One step of the strategy or of others. -/
theorem SoleSound.step (h : SoleSound userId p) {e : Option StrategyEvent}
    (hsells : SellsWhatItHolds settings p e) (hmove : SoleMove settings lib intervals userId p e q) :
    SoleSound userId q := by
  cases hmove with
  | own hsource => exact soleSound_strategyStep h hsource hsells
  | others hapart => exact h.others hapart

/-- **A strategy sells out of the position it bought into**, as long as no sale is
placed while its user holds the instrument under another product: no position of the
user is ever short. -/
theorem never_short {events : List (Option StrategyEvent)}
    (hrun : Run (Guarded (SellsWhatItHolds settings) (SoleMove settings lib intervals userId))
      ⟨.empty, {}⟩ events p) :
    ∀ r ∈ p.trading.positions, r.userId = userId → 0 ≤ r.quantity := by
  have hsound : SoleSound userId p :=
    hrun.invariant (P := SoleSound userId) (soleSound_start userId)
      fun _ _ _ h hstep => h.step hstep.1 hstep.2
  intro r hr huser
  have hheld : p.trading.positionTotal r.positionKey = r.quantity := by
    rw [← p.trading.valid.heldQuantity_eq, Database.heldQuantity, p.trading.valid.position?_eq hr]
    rfl
  rw [← hheld]
  exact hsound.covers.positionTotal_nonneg huser

/-- A sufficient condition that can be read off a platform. -/
theorem sellsWhatItHolds_of_flat {e : Option StrategyEvent}
    (h : ∀ s ∈ p.tables.strategies, ∀ productType ∈ productTypes, productType ≠ s.productType →
      p.trading.heldQuantity ⟨s.userId, s.instrumentId, .paper, productType⟩ = 0) :
    SellsWhatItHolds settings p e := by
  cases e with
  | none => trivial
  | some e =>
    cases e with
    | evaluate strategyId candle inputs placing =>
      intro strategy hstrategy _ _ productType hne
      exact h strategy (List.mem_of_find?_eq_some hstrategy) productType
        (mem_productTypes productType) hne
    | create => trivial
    | update => trivial
    | activate => trivial
    | pause => trivial
    | quote => trivial

end Runs

/-! ## An edit between the purchase and the sale -/

/-- Ten shares on the crossing of the averages of two and three candles. -/
def tenShares : StrategyCreate where
  instrumentId := 1
  fastPeriod := 2
  slowPeriod := 3
  quantity := 10
  name := "SMA cross"
  inBounds := by decide +kernel

/-- An evaluation some seconds on, with a fresh quote. -/
def evaluationAt (seconds start : ℤ) (candles : List MarketCandle) : StrategyEvent :=
  .evaluate 0 (minuteCandle start 0)
    { candles := candles
      user := some {}
      instrument := some {}
      latest := .ok (some (quoteOfTwelve (seconds * 1000000)))
      clock := { started := seconds * 1000000, ordered := by simp } }
    (orderManagerPlace paperStrategySettings.toSettings (seconds * 1000000) (seconds * 1000000) true
      (.network true))

def fallingCandles : List MarketCandle :=
  [minuteCandle 420 10, minuteCandle 480 11, minuteCandle 540 12, minuteCandle 600 8]

/-- The platform after events of the strategy, from nothing. -/
def afterEvents (events : List StrategyEvent) : Platform :=
  events.foldl (strategyStep paperStrategySettings ⟨id, fun _ => "0000000000"⟩ oneMinute)
    ⟨.empty, {}⟩

/-- The strategy buys. -/
def bought : List StrategyEvent :=
  [.create 7 (some {}) tenShares, .activate 0 7 0 false none, evaluationAt 301 240 steadyCandles]

/-- The moves of that strategy's user. -/
abbrev smaMove : Platform → Option StrategyEvent → Platform → Prop :=
  SoleMove paperStrategySettings ⟨id, fun _ => "0000000000"⟩ oneMinute 7

/-- One more event of the strategy. -/
theorem run_afterEvents {ok : Platform → Option StrategyEvent → Prop} {events : List StrategyEvent}
    {e : StrategyEvent}
    (hrun : Run (Guarded ok smaMove) ⟨.empty, {}⟩ (events.map some) (afterEvents events))
    (hsource : SoleSource paperStrategySettings 7 (afterEvents events) e)
    (hok : ok (afterEvents events) (some e)) :
    Run (Guarded ok smaMove) ⟨.empty, {}⟩ ((events ++ [e]).map some)
      (afterEvents (events ++ [e])) := by
  rw [List.map_append, afterEvents, List.foldl_append]
  exact .snoc hrun ⟨hok, .own hsource⟩

theorem run_created {ok : Platform → Option StrategyEvent → Prop}
    (hok : ok (afterEvents []) (some (.create 7 (some {}) tenShares))) :
    Run (Guarded ok smaMove) ⟨.empty, {}⟩
      (([] ++ [.create 7 (some {}) tenShares] : List StrategyEvent).map some)
      (afterEvents ([] ++ [.create 7 (some {}) tenShares])) := by
  apply run_afterEvents
  · exact .nil
  · intro _
    exact ⟨rfl, List.forall_mem_nil _⟩
  · exact hok

/-- An evaluation of the only strategy there is. -/
theorem soleSource_evaluationAt {p : Platform} (h : ∀ s ∈ p.tables.strategies, s.userId = 7)
    (seconds start : ℤ) (candles : List MarketCandle) :
    SoleSource paperStrategySettings 7 p (evaluationAt seconds start candles) :=
  fun s hs => ⟨h s (List.mem_of_find?_eq_some hs), _, _, _, _, rfl⟩

/-- Bought and sold under one product. -/
theorem never_short_roundTrip :
    (afterEvents (bought ++ [evaluationAt 661 600 fallingCandles])).trading.positions.filter
      (fun r => r.userId = 7 ∧ r.quantity < 0) = [] := by
  have hcreated : Run (Guarded (SellsWhatItHolds paperStrategySettings) smaMove) ⟨.empty, {}⟩ _ _ :=
    run_created trivial
  have hactive := run_afterEvents (e := .activate 0 7 0 false none) hcreated trivial trivial
  have hbought := run_afterEvents hactive
    (soleSource_evaluationAt (by decide +kernel) 301 240 steadyCandles)
    (sellsWhatItHolds_of_flat (by decide +kernel))
  have hsold := run_afterEvents hbought
    (soleSource_evaluationAt (by decide +kernel) 661 600 fallingCandles)
    (sellsWhatItHolds_of_flat (by decide +kernel))
  refine List.filter_eq_nil_iff.2 fun r hr hshort => ?_
  rw [decide_eq_true_eq] at hshort
  exact absurd hshort.2 (not_lt.2 (never_short hsold r hr hshort.1))

/-- The purchase under INTRADAY, the sale under CNC: ten shares short. -/
theorem short_after_edit :
    ∃ events p, Run smaMove ⟨.empty, {}⟩ events p ∧
      ∃ r ∈ p.trading.positions, r.userId = 7 ∧ r.quantity < 0 := by
  have hcreated : Run (Guarded (fun _ _ => True) smaMove) ⟨.empty, {}⟩ _ _ := run_created trivial
  have hactive := run_afterEvents (e := .activate 0 7 0 false none) hcreated trivial trivial
  have hbought := run_afterEvents hactive
    (soleSource_evaluationAt (by decide +kernel) 301 240 steadyCandles) trivial
  have hpaused := run_afterEvents (e := .pause 0 7 0) hbought trivial trivial
  have hedited := run_afterEvents (e := .update 7 0 { productType := some (some .cnc) }) hpaused
    trivial trivial
  have hagain := run_afterEvents (e := .activate 0 7 0 false none) hedited trivial trivial
  have hsold := run_afterEvents hagain
    (soleSource_evaluationAt (by decide +kernel) 661 600 fallingCandles) trivial
  exact ⟨_, _, hsold.of_guarded, by decide +kernel⟩

end GnkAlgo
