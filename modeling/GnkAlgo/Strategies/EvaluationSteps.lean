import GnkAlgo.Strategies.Executor

/-!
# What an evaluation does

The inversion of `evaluate`: nothing at all where its candle has a run already; a
run that ends before an order; a suppressed action; or a placement, which has
passed every check of `_route`.

* `Placing` — an evaluation that has come to its placement;
* `evaluate_cases` — the four ways an evaluation goes;
* `quiet_evaluate` — it keeps the strategies' parameters and versions, and adds the
  one run that claims its candle;
* `evaluate_signals` — it adds one signal at most, its own.
-/

namespace GnkAlgo

open StrategyExecutor Upserts

section Evaluation

variable (settings : StrategySettings) (lib : StrategyLibraries) (p : Platform)
  (strategy : Strategy) (candle : MarketCandle) (inputs : EvaluationInputs)

/-- The tables once the candle is claimed. -/
def claimedTables : StrategyTables :=
  claim p.tables strategy candle.startAt inputs.clock.started

/-- The platform after a run that ends before an order. -/
def endedWith (e : RunEnd) : Platform where
  trading := p.trading
  tables := finish (claimedTables p strategy candle inputs) strategy.id p.tables.nextUuid
    inputs.clock.finished e

/-- The platform after a suppressed action. -/
def suppressedWith (side : OrderSide) (reason : String) (diagnostics : Diagnostics) : Platform where
  trading := p.trading
  tables := suppressed lib (claimedTables p strategy candle inputs) strategy candle
    p.tables.nextUuid side reason diagnostics inputs.clock

/-- What a strategy holds when its candle is claimed. -/
def exposureAt : ℤ :=
  strategyExposure p.trading.toDatabase (claimedTables p strategy candle inputs) strategy.id

/-- An evaluation that has come to its placement, with the checks it has passed. -/
structure Placing where
  side : OrderSide
  diagnostics : Diagnostics
  quote : NormalizedQuote
  instrument : TradedInstrument
  unclaimed : run? p.tables strategy.id candle.startAt = none
  judged : judge settings strategy candle.startAt inputs = .ok (side, diagnostics)
  counted : orderCountCheck settings (claimedTables p strategy candle inputs) strategy
    inputs.clock.day inputs.clock.minute = .ok ()
  free : hasOpenOrder p.trading.toDatabase (claimedTables p strategy candle inputs)
    strategy.id = false
  flat : side = .buy → exposureAt p strategy candle inputs = 0
  long : ¬ (side = .sell ∧ exposureAt p strategy candle inputs ≤ 0)
  quoted : ∃ latest, inputs.latest = .ok latest ∧
    quoteCheck settings.toSettings inputs.clock.quote latest = .ok quote
  available : inputs.instrument.filter TradedInstrument.isActive = some instrument

variable {settings lib p strategy candle inputs}

namespace Placing

variable (x : Placing settings p strategy candle inputs)

variable (lib) in
def values : OrderValues :=
  orderValues lib strategy x.instrument candle.startAt x.side (exposureAt p strategy candle inputs)
    x.quote.ltp x.long

variable (lib) in
/-- The signal it has flushed. -/
def signal : StrategySignal :=
  createdSignal strategy (claimedTables p strategy candle inputs).nextUuid p.tables.nextUuid
    (x.values lib) x.quote.ltp inputs.clock.generated

variable (lib) in
/-- The tables with the flushed signal. -/
def created : StrategyTables :=
  (claimedTables p strategy candle inputs).insertSignal (x.signal lib)

variable (lib) in
/-- The placement. -/
def placement (placing : Placer) : Placement :=
  placing p.trading strategy.userId strategy.instrumentId (x.values lib) x.quote

variable (lib) in
/-- What the evaluation leaves behind. -/
def outcome (placing : Placer) : Platform :=
  settle (x.placement lib placing) inputs (claimedTables p strategy candle inputs) (x.created lib)
    strategy p.tables.nextUuid (claimedTables p strategy candle inputs).nextUuid x.diagnostics

end Placing

variable {placing : Placer}

theorem route_cases {side : OrderSide} {diagnostics : Diagnostics}
    (hrun : run? p.tables strategy.id candle.startAt = none)
    (hjudged : judge settings strategy candle.startAt inputs = .ok (side, diagnostics))
    {q : Platform} (hq : q = route settings lib placing
      { p with tables := claimedTables p strategy candle inputs } strategy candle p.tables.nextUuid
      side diagnostics inputs) :
    (∃ e, q = endedWith p strategy candle inputs e) ∨
    (∃ side reason diagnostics, q = suppressedWith lib p strategy candle inputs side reason
      diagnostics) ∨
    ∃ x : Placing settings p strategy candle inputs, q = x.outcome lib placing := by
  unfold route at hq
  dsimp only at hq
  split at hq
  · exact Or.inl ⟨_, hq⟩
  rename_i hcounted
  split_ifs at hq with hopen hbuy hsell
  · exact Or.inr (Or.inl ⟨_, _, _, hq⟩)
  · exact Or.inr (Or.inl ⟨_, _, _, hq⟩)
  · exact Or.inr (Or.inl ⟨_, _, _, hq⟩)
  split at hq
  · exact Or.inl ⟨_, hq⟩
  rename_i latest hlatest
  split at hq
  · exact Or.inl ⟨_, hq⟩
  rename_i quote hquote
  split at hq
  · exact Or.inl ⟨_, hq⟩
  rename_i instrument hinstrument
  split_ifs at hq with hflushed
  · refine Or.inr (Or.inr ⟨⟨side, diagnostics, quote, instrument, hrun, hjudged, hcounted, ?_, ?_,
      hsell, ⟨latest, hlatest, hquote⟩, hinstrument⟩, hq⟩)
    · exact Bool.not_eq_true _ ▸ hopen
    · intro hside
      by_contra hne
      exact hbuy ⟨hside, hne⟩
  · exact Or.inl ⟨_, hq⟩

/-- **The ways an evaluation goes.** -/
theorem evaluate_cases {q : Platform}
    (hq : q = evaluate settings lib placing p strategy candle inputs) :
    (q = p ∧ ∃ run, run? p.tables strategy.id candle.startAt = some run) ∨
    (run? p.tables strategy.id candle.startAt = none ∧
      ((∃ e, q = endedWith p strategy candle inputs e) ∨
      (∃ side reason diagnostics, q = suppressedWith lib p strategy candle inputs side reason
        diagnostics) ∨
      ∃ x : Placing settings p strategy candle inputs, q = x.outcome lib placing)) := by
  unfold evaluate at hq
  split at hq
  · rename_i run hrun
    exact Or.inl ⟨hq, run, hrun⟩
  rename_i hrun
  refine Or.inr ⟨hrun, ?_⟩
  dsimp only at hq
  split at hq
  · exact Or.inl ⟨_, hq⟩
  · rename_i hjudged
    exact route_cases hrun hjudged hq

end Evaluation

/-! ## What it keeps -/

/-- The columns of a strategy that only the requests write. -/
def Strategy.settled (s : Strategy) : Uuid × Uuid × String × ℕ × StrategyDefinition :=
  (s.id, s.userId, s.name, s.version, strategyDefinition s)

/-- The columns of a run that are written once. -/
def StrategyRun.claimed (r : StrategyRun) : Uuid × Uuid × Uuid × ℕ × Time :=
  (r.id, r.strategyId, r.userId, r.strategyVersion, r.candleStartAt)

/-- The strategies keep their parameters, the versions and runs what they say. -/
structure StrategyTables.Quiet (t u : StrategyTables) : Prop where
  strategies : u.strategies.map Strategy.settled = t.strategies.map Strategy.settled
  versions : u.versions = t.versions
  runs : u.runs.map StrategyRun.claimed = t.runs.map StrategyRun.claimed
  nextUuid : t.nextUuid ≤ u.nextUuid

namespace StrategyTables

theorem Quiet.refl (t : StrategyTables) : t.Quiet t := ⟨rfl, rfl, rfl, le_rfl⟩

theorem Quiet.trans {t u v : StrategyTables} (h : t.Quiet u) (h' : u.Quiet v) : t.Quiet v :=
  ⟨h'.strategies.trans h.strategies, h'.versions.trans h.versions, h'.runs.trans h.runs,
    h.nextUuid.trans h'.nextUuid⟩

theorem quiet_updateStrategy (t : StrategyTables) (id : Uuid) {f : Strategy → Strategy}
    (hf : ∀ s, (f s).settled = s.settled) : t.Quiet (t.updateStrategy id f) :=
  ⟨map_of_updateById hf, rfl, rfl, le_rfl⟩

theorem quiet_updateRun (t : StrategyTables) (id : Uuid) {f : StrategyRun → StrategyRun}
    (hf : ∀ r, (f r).claimed = r.claimed) : t.Quiet (t.updateRun id f) :=
  ⟨rfl, rfl, map_of_updateById hf, le_rfl⟩

theorem quiet_updateSignal (t : StrategyTables) (id : Uuid) (f : StrategySignal → StrategySignal) :
    t.Quiet (t.updateSignal id f) :=
  ⟨rfl, rfl, rfl, le_rfl⟩

theorem quiet_insertSignal (t : StrategyTables) (s : StrategySignal) : t.Quiet (t.insertSignal s) :=
  ⟨rfl, rfl, rfl, Nat.le_succ _⟩

theorem Quiet.ids {t u : StrategyTables} (h : t.Quiet u) :
    u.strategies.map Strategy.id = t.strategies.map Strategy.id := by
  have hids : ∀ l : List Strategy, l.map Strategy.id = (l.map Strategy.settled).map Prod.fst :=
    fun l => by rw [List.map_map]; rfl
  rw [hids, h.strategies, ← hids]

theorem Quiet.exists_of_mem {t u : StrategyTables} (h : t.Quiet u) {s' : Strategy}
    (hs' : s' ∈ u.strategies) : ∃ s ∈ t.strategies, s.settled = s'.settled := by
  have hmem := List.mem_map_of_mem (f := Strategy.settled) hs'
  rw [h.strategies] at hmem
  exact List.mem_map.1 hmem

end StrategyTables

theorem quiet_finish (t : StrategyTables) (strategyId runId : Uuid) (finishedAt : Time)
    (e : RunEnd) : t.Quiet (finish t strategyId runId finishedAt e) := by
  have hrun : t.Quiet (t.updateRun runId fun r => { r with
      status := e.status, diagnostics := e.diagnostics, finishedAt := some finishedAt }) :=
    t.quiet_updateRun runId fun _ => rfl
  unfold finish
  dsimp only
  split
  · exact hrun
  · exact hrun.trans (StrategyTables.quiet_updateStrategy _ _ fun _ => rfl)

section Quiet

variable {settings : StrategySettings} {lib : StrategyLibraries} {p q : Platform}
  {strategy : Strategy} {candle : MarketCandle} {inputs : EvaluationInputs} {placing : Placer}

theorem quiet_submitted (t : StrategyTables) (strategy : Strategy) (runId signalId : Uuid)
    (order : TradingOrder) (diagnostics : Diagnostics) (finishedAt : Time) :
    t.Quiet (submitted t strategy runId signalId order diagnostics finishedAt) := by
  unfold submitted
  refine .trans ?_ (quiet_finish ..)
  refine .trans ?_ (StrategyTables.quiet_updateStrategy _ _ fun _ => rfl)
  exact t.quiet_updateSignal ..

theorem quiet_suppressed (t : StrategyTables) (strategy : Strategy) (candle : MarketCandle)
    (runId : Uuid) (side : OrderSide) (reason : String) (diagnostics : Diagnostics)
    (clock : EvaluationClock) :
    t.Quiet (suppressed lib t strategy candle runId side reason diagnostics clock) := by
  unfold suppressed
  dsimp only
  refine .trans ?_ (quiet_finish ..)
  exact t.quiet_insertSignal _

theorem quiet_rejected (t : StrategyTables) (strategy : Strategy) (runId signalId : Uuid)
    (code : String) (diagnostics : Diagnostics) (finishedAt : Time) :
    t.Quiet (rejected t strategy runId signalId code diagnostics finishedAt) := by
  unfold rejected
  refine .trans ?_ (quiet_finish ..)
  refine .trans ?_ (StrategyTables.quiet_updateStrategy _ _ fun _ => rfl)
  exact t.quiet_updateSignal ..

theorem quiet_settle {claimed created : StrategyTables} (hcreated : claimed.Quiet created)
    (placement : Placement) (inputs : EvaluationInputs) (strategy : Strategy)
    (runId signalId : Uuid) (diagnostics : Diagnostics) :
    claimed.Quiet
      (settle placement inputs claimed created strategy runId signalId diagnostics).tables := by
  have hkept : claimed.Quiet (if placement.committed then created else claimed) := by
    split
    · exact hcreated
    · exact .refl _
  have hfailed := hkept.trans (quiet_finish _ strategy.id runId inputs.clock.finished
    (crashed inputs.exceptionName))
  unfold settle
  dsimp only
  split
  · exact hkept
  · split
    · exact hcreated.trans (quiet_submitted ..)
    · exact hfailed
  · exact hcreated.trans (quiet_rejected ..)
  · exact hfailed

theorem Placing.quiet_outcome (x : Placing settings p strategy candle inputs) :
    (claimedTables p strategy candle inputs).Quiet (x.outcome lib placing).tables :=
  quiet_settle (StrategyTables.quiet_insertSignal _ _) ..

theorem claimedTables_settled (p : Platform) (strategy : Strategy) (candle : MarketCandle)
    (inputs : EvaluationInputs) :
    (claimedTables p strategy candle inputs).strategies.map Strategy.settled =
      p.tables.strategies.map Strategy.settled := by
  unfold claimedTables claim
  apply map_of_updateById
  intro s
  rfl

/-- **An evaluation keeps the parameters and versions**, and of runs it adds the one
that claims its candle. -/
theorem quiet_evaluate (hq : q = evaluate settings lib placing p strategy candle inputs) :
    (q = p ∧ ∃ run, run? p.tables strategy.id candle.startAt = some run) ∨
    (run? p.tables strategy.id candle.startAt = none ∧
      (claimedTables p strategy candle inputs).Quiet q.tables) := by
  rcases evaluate_cases hq with h | ⟨hrun, ⟨e, h⟩ | ⟨side, reason, diagnostics, h⟩ | ⟨x, h⟩⟩
  · exact Or.inl h
  · rw [h]
    exact Or.inr ⟨hrun, quiet_finish ..⟩
  · rw [h]
    exact Or.inr ⟨hrun, quiet_suppressed ..⟩
  · rw [h]
    exact Or.inr ⟨hrun, x.quiet_outcome⟩

end Quiet

/-! ## What it adds -/

section Signals

variable {settings : StrategySettings} {lib : StrategyLibraries} {p q : Platform}
  {strategy : Strategy} {candle : MarketCandle} {inputs : EvaluationInputs} {placing : Placer}

@[simp] theorem finish_signals (t : StrategyTables) (strategyId runId : Uuid) (finishedAt : Time)
    (e : RunEnd) : (finish t strategyId runId finishedAt e).signals = t.signals := by
  unfold finish
  dsimp only
  split <;> rfl

theorem StrategyTables.updateSignal_insertSignal {t : StrategyTables}
    (hfresh : ∀ s ∈ t.signals, s.id < t.nextUuid) {x : StrategySignal} (hx : x.id = t.nextUuid)
    (f : StrategySignal → StrategySignal) :
    (t.insertSignal x).updateSignal t.nextUuid f = t.insertSignal (f x) := by
  have hne : ∀ s ∈ t.signals, s.id ≠ x.id := fun s hs => hx ▸ (hfresh s hs).ne
  have hsignals : updateById StrategySignal.id t.nextUuid f (t.signals ++ [x]) =
      t.signals ++ [f x] := by
    rw [← hx]
    exact updateById_concat_of_fresh hne
  unfold updateSignal insertSignal
  dsimp only
  rw [hsignals]

variable (settings p strategy candle inputs) in
/-- The signal of an evaluation: it is the strategy's, and unless it is suppressed the
limits have been checked. -/
structure SignalOf (x : StrategySignal) : Prop where
  id : x.id = (claimedTables p strategy candle inputs).nextUuid
  strategyId : x.strategyId = strategy.id
  userId : x.userId = strategy.userId
  generatedAt : x.generatedAt = inputs.clock.generated
  counted : x.status = .suppressed ∨
    orderCountCheck settings p.tables strategy inputs.clock.day inputs.clock.minute = .ok ()

theorem Placing.signalOf (x : Placing settings p strategy candle inputs) :
    SignalOf settings p strategy candle inputs (x.signal lib) :=
  ⟨rfl, rfl, rfl, rfl, Or.inr x.counted⟩

theorem Placing.outcome_signals (x : Placing settings p strategy candle inputs)
    (hfresh : ∀ s ∈ p.tables.signals, s.id < p.tables.nextUuid) :
    (x.outcome lib placing).tables.signals = p.tables.signals ∨
    ∃ y, (x.outcome lib placing).tables.signals = p.tables.signals ++ [y] ∧
      SignalOf settings p strategy candle inputs y ∧
      y.id < (x.outcome lib placing).tables.nextUuid := by
  have hfresh' : ∀ s ∈ (claimedTables p strategy candle inputs).signals,
      s.id < (claimedTables p strategy candle inputs).nextUuid := fun s hs =>
    (hfresh s hs).trans (Nat.lt_succ_self _)
  have hwritten : ∀ f : StrategySignal → StrategySignal, ∀ u : StrategyTables,
      (∀ y, SignalOf settings p strategy candle inputs y →
        SignalOf settings p strategy candle inputs (f y)) → (x.created lib).Quiet u →
      u.signals = ((x.created lib).updateSignal
        (claimedTables p strategy candle inputs).nextUuid f).signals →
      ∃ y, u.signals = p.tables.signals ++ [y] ∧
        SignalOf settings p strategy candle inputs y ∧ y.id < u.nextUuid := by
    intro f u hf hquiet hu
    have hsignal : SignalOf settings p strategy candle inputs (f (x.signal lib)) := hf _ x.signalOf
    refine ⟨f (x.signal lib), ?_, hsignal, hsignal.id.trans_lt hquiet.nextUuid⟩
    rw [hu]
    exact congrArg StrategyTables.signals (StrategyTables.updateSignal_insertSignal hfresh' rfl f)
  -- what is left of the flushed signal where the placement ends in an exception
  have hkept : ∀ kept, kept = (if (x.placement lib placing).committed then x.created lib
        else claimedTables p strategy candle inputs) → ∀ u : StrategyTables, kept.Quiet u →
      u.signals = kept.signals →
      u.signals = p.tables.signals ∨ ∃ y, u.signals = p.tables.signals ++ [y] ∧
        SignalOf settings p strategy candle inputs y ∧ y.id < u.nextUuid := by
    rintro kept rfl u hquiet hu
    rw [hu]
    split at hquiet
    · rename_i hcommitted
      rw [if_pos hcommitted]
      exact Or.inr ⟨x.signal lib, rfl, x.signalOf, hquiet.nextUuid⟩
    · rename_i hcommitted
      rw [if_neg hcommitted]
      exact Or.inl rfl
  have hfailed := hkept _ rfl (finish _ strategy.id p.tables.nextUuid inputs.clock.finished
    (crashed inputs.exceptionName)) (quiet_finish ..) (finish_signals ..)
  unfold Placing.outcome settle
  dsimp only
  split
  · exact hkept _ rfl _ (.refl _) rfl
  · split
    · refine Or.inr (hwritten _ _ (fun y hy => ?_) (quiet_submitted ..) (finish_signals ..))
      exact ⟨hy.id, hy.strategyId, hy.userId, hy.generatedAt, Or.inr x.counted⟩
    · exact hfailed
  · refine Or.inr (hwritten _ _ (fun y hy => ?_) (quiet_rejected ..) (finish_signals ..))
    exact ⟨hy.id, hy.strategyId, hy.userId, hy.generatedAt, Or.inr x.counted⟩
  · exact hfailed

/-- **The signal of an evaluation.**  It adds none or one, its own, to the signals
there were. -/
theorem evaluate_signals (hfresh : ∀ s ∈ p.tables.signals, s.id < p.tables.nextUuid)
    (hq : q = evaluate settings lib placing p strategy candle inputs) :
    q.tables.signals = p.tables.signals ∨
    ∃ x, q.tables.signals = p.tables.signals ++ [x] ∧
      SignalOf settings p strategy candle inputs x ∧ x.id < q.tables.nextUuid := by
  rcases evaluate_cases hq with ⟨h, -⟩ | ⟨-, ⟨e, h⟩ | ⟨side, reason, diagnostics, h⟩ | ⟨x, h⟩⟩
  · exact Or.inl (by rw [h])
  · refine Or.inl ?_
    rw [h, endedWith, finish_signals]
    rfl
  · rw [h]
    refine Or.inr ⟨_, finish_signals .., ⟨rfl, rfl, rfl, rfl, Or.inl rfl⟩, ?_⟩
    show (claimedTables p strategy candle inputs).nextUuid + 1 ≤ _
    unfold suppressedWith suppressed
    exact (quiet_finish (StrategyTables.insertSignal _ _) ..).nextUuid
  · rw [h]
    exact x.outcome_signals hfresh

end Signals

end GnkAlgo
