import GnkAlgo.Strategies.Executor

/-!
# Previews

`preview` of `backend/app/routers/strategies.py` runs the evaluator over the growing
prefixes of a window of candles; a live evaluation runs it over the last
`slow_period + 1` candles, and only where they follow one another without a gap.

* `preview_actions` — a preview emits the actions of its closes;
* `mem_preview_iff` — what a preview lists;
* `preview_agrees_iff` — at a candle with enough of its past in the window, the
  preview shows what the live engine would do exactly when no gap is among the
  candles of the slow average, or they make no crossing.
-/

namespace GnkAlgo

open StrategyExecutor

/-! ## The preview -/

structure StrategyPreviewOut where
  candleStartAt : Time
  action : OrderSide
  close : ℚ
  fastAverage : ℚ
  slowAverage : ℚ
  deriving DecidableEq, Repr

/-- The row of a candle, from the closes up to it. -/
def previewRow (strategy : Strategy) (closes : List ℚ) (candle : MarketCandle) :
    Option StrategyPreviewOut :=
  (evaluateSmaCross closes strategy.fastPeriod strategy.slowPeriod).bind fun decision =>
    decision.action.map fun action =>
      ⟨candle.startAt, action, candle.close, decision.fastAverage, decision.slowAverage⟩

/-- The body of the loop: `closes` and `output`. -/
def previewStep (strategy : Strategy) (state : List ℚ × List StrategyPreviewOut)
    (candle : MarketCandle) : List ℚ × List StrategyPreviewOut :=
  let closes := state.1 ++ [candle.close]
  (closes, state.2 ++ (previewRow strategy closes candle).toList)

/-- The candles of a preview, ascending. -/
def previewWindow (rows : List MarketCandle) (strategy : Strategy) (limit : ℕ) :
    List MarketCandle :=
  ((completeCandles rows (seriesOf strategy)).take limit).reverse

/-- `preview`. -/
def preview (rows : List MarketCandle) (strategy : Strategy) (limit : ℕ) :
    List StrategyPreviewOut :=
  ((previewWindow rows strategy limit).foldl (previewStep strategy) ([], [])).2

/-- A preview lists a candle with an action. -/
def Lists (output : List StrategyPreviewOut) (candleStart : Time) (action : OrderSide) : Prop :=
  ∃ row ∈ output, row.candleStartAt = candleStart ∧ row.action = action

/-- An evaluation of the candle reaches `_route` with an action. -/
def Routes (settings : StrategySettings) (strategy : Strategy) (candleStart : Time)
    (inputs : EvaluationInputs) (action : OrderSide) : Prop :=
  ∃ diagnostics, judge settings strategy candleStart inputs = .ok (action, diagnostics)

/-! ## What a preview lists -/

section Fold

variable {strategy : Strategy}

def closesOf (candles : List MarketCandle) : List ℚ := candles.map fun c => c.close

theorem previewRow_action (closes : List ℚ) (candle : MarketCandle) :
    (previewRow strategy closes candle).map StrategyPreviewOut.action =
      actionAfter strategy.fastPeriod strategy.slowPeriod closes := by
  rw [previewRow, actionAfter]
  cases evaluateSmaCross closes strategy.fastPeriod strategy.slowPeriod with
  | none => rfl
  | some decision =>
    rw [Option.bind_some, Option.bind_some, Option.map_map]
    cases decision.action <;> rfl

theorem previewRow_startAt {closes : List ℚ} {candle : MarketCandle} {row : StrategyPreviewOut}
    (h : previewRow strategy closes candle = some row) : row.candleStartAt = candle.startAt := by
  obtain ⟨decision, -, hdecision⟩ := Option.bind_eq_some_iff.1 h
  obtain ⟨action, -, rfl⟩ := Option.map_eq_some_iff.1 hdecision
  rfl

theorem foldl_previewStep (candles : List MarketCandle) :
    (candles.foldl (previewStep strategy) ([], [])).1 = closesOf candles ∧
    ∀ row, row ∈ (candles.foldl (previewStep strategy) ([], [])).2 ↔
      ∃ earlier candle later, candles = earlier ++ candle :: later ∧
        previewRow strategy (closesOf (earlier ++ [candle])) candle = some row := by
  induction candles using List.reverseRecOn with
  | nil => simp [closesOf]
  | append_singleton candles last ih =>
    obtain ⟨hcloses, hrows⟩ := ih
    have hstep : (candles ++ [last]).foldl (previewStep strategy) ([], []) =
        previewStep strategy (candles.foldl (previewStep strategy) ([], [])) last := by
      rw [List.foldl_concat]
    have hseen : closesOf candles ++ [last.close] = closesOf (candles ++ [last]) := by
      simp [closesOf]
    rw [hstep, previewStep, hcloses, hseen]
    refine ⟨rfl, fun row => ?_⟩
    rw [List.mem_append, hrows, Option.mem_toList]
    constructor
    · rintro (⟨earlier, candle, later, rfl, hrow⟩ | hrow)
      · exact ⟨earlier, candle, later ++ [last], by simp, hrow⟩
      · exact ⟨candles, last, [], rfl, hrow⟩
    · rintro ⟨earlier, candle, later, heq, hrow⟩
      rcases later.eq_nil_or_concat' with rfl | ⟨later, x, rfl⟩
      · obtain ⟨rfl, hlast⟩ := List.append_inj' heq rfl
        obtain rfl := List.singleton_inj.1 hlast
        exact Or.inr hrow
      · rw [← List.cons_append, ← List.append_assoc] at heq
        obtain ⟨rfl, -⟩ := List.append_inj' heq rfl
        exact Or.inl ⟨earlier, candle, later, rfl, hrow⟩

/-- **What a preview lists**: the rows of its candles, each from the closes up to it. -/
theorem mem_preview_iff {rows : List MarketCandle} {limit : ℕ} {row : StrategyPreviewOut} :
    row ∈ preview rows strategy limit ↔
      ∃ earlier candle later, previewWindow rows strategy limit = earlier ++ candle :: later ∧
        previewRow strategy (closesOf (earlier ++ [candle])) candle = some row :=
  (foldl_previewStep _).2 row

/-- **A preview emits the actions of its closes.** -/
theorem preview_actions (rows : List MarketCandle) (strategy : Strategy) (limit : ℕ) :
    (preview rows strategy limit).map StrategyPreviewOut.action =
      emittedActions strategy.fastPeriod strategy.slowPeriod
        (closesOf (previewWindow rows strategy limit)) := by
  rw [preview]
  induction previewWindow rows strategy limit using List.reverseRecOn with
  | nil => rfl
  | append_singleton candles last ih =>
    have hseen : closesOf (candles ++ [last]) = closesOf candles ++ [last.close] := by
      simp [closesOf]
    rw [List.foldl_concat, previewStep, (foldl_previewStep candles).1, List.map_append, ih, hseen,
      emittedActions_concat, ← previewRow_action _ last]
    cases previewRow strategy (closesOf candles ++ [last.close]) last <;> rfl

end Fold

/-! ## The two windows -/

section Windows

variable {strategy : Strategy} {rows : List MarketCandle} {limit : ℕ} {candle : MarketCandle}
  {earlier later : List MarketCandle}

/-- The query lists the candles of a series in strictly descending order. -/
theorem completeCandles_descending (hkeys : (rows.map MarketCandle.key).Nodup) (series : Series) :
    (completeCandles rows series).Pairwise fun a b => b.startAt < a.startAt := by
  have hsorted := List.pairwise_insertionSort (fun a b : MarketCandle => b.startAt ≤ a.startAt)
    (rows.filter fun c => c.series = series ∧ c.isComplete)
  have hperm := List.perm_insertionSort (fun a b : MarketCandle => b.startAt ≤ a.startAt)
    (rows.filter fun c => c.series = series ∧ c.isComplete)
  have hnodup : ((completeCandles rows series).map MarketCandle.key).Nodup :=
    ((hperm.map _).nodup_iff).2 (hkeys.sublist (List.filter_sublist.map _))
  have hseries : ∀ c ∈ completeCandles rows series, c.series = series := by
    intro c hc
    have hmem := List.mem_filter.1 (hperm.mem_iff.1 hc)
    simpa using (of_decide_eq_true hmem.2).1
  have hne := List.pairwise_map.1 hnodup
  refine (hsorted.and hne).imp_of_mem fun {a b} ha hb ⟨hle, hkey⟩ => lt_of_le_of_ne hle fun heq => ?_
  exact hkey (Prod.ext ((hseries a ha).trans (hseries b hb).symm) heq.symm)

/-- What the live query finds for a candle of the preview's window: the candle and
the last of those before it in the window. -/
theorem candleWindow_eq (hkeys : (rows.map MarketCandle.key).Nodup)
    (hsplit : previewWindow rows strategy limit = earlier ++ candle :: later)
    (hearlier : strategy.slowPeriod ≤ earlier.length) :
    candleWindow rows strategy candle.startAt =
      (earlier.drop (earlier.length - strategy.slowPeriod)) ++ [candle] := by
  let found := completeCandles rows (seriesOf strategy)
  have htake : found.take limit = later.reverse ++ candle :: earlier.reverse := by
    have hreverse := congrArg List.reverse hsplit
    rw [previewWindow, List.reverse_reverse] at hreverse
    simpa using hreverse
  have hfound : found = later.reverse ++ candle :: (earlier.reverse ++ found.drop limit) := by
    conv_lhs => rw [← List.take_append_drop limit found, htake]
    simp
  have hdescending := completeCandles_descending hkeys (seriesOf strategy)
  change found.Pairwise _ at hdescending
  rw [hfound, List.pairwise_append] at hdescending
  obtain ⟨-, hrest, hacross⟩ := hdescending
  have hfilter : found.filter (fun c => c.startAt ≤ candle.startAt) =
      candle :: (earlier.reverse ++ found.drop limit) := by
    conv_lhs => rw [hfound]
    rw [List.filter_append, List.filter_eq_nil_iff.2, List.nil_append, List.filter_eq_self.2]
    · intro c hc
      rcases List.mem_cons.1 hc with rfl | hc
      · exact decide_eq_true le_rfl
      · exact decide_eq_true ((List.pairwise_cons.1 hrest).1 c hc).le
    · intro c hc
      have hlt := hacross c hc candle (List.mem_cons_self ..)
      simpa using hlt
  have hlive : candleWindow rows strategy candle.startAt =
      ((found.filter fun c => c.startAt ≤ candle.startAt).take (strategy.slowPeriod + 1)).reverse :=
    rfl
  rw [hlive, hfilter, List.take_succ_cons, List.reverse_cons,
    List.take_append_of_le_length (by rwa [List.length_reverse]), List.reverse_take,
    List.reverse_reverse, List.length_reverse]

/-- Both evaluate the same closes. -/
theorem evaluateSmaCross_window (hkeys : (rows.map MarketCandle.key).Nodup)
    (hsplit : previewWindow rows strategy limit = earlier ++ candle :: later)
    (hearlier : strategy.slowPeriod ≤ earlier.length) :
    evaluateSmaCross (closesOf (earlier ++ [candle])) strategy.fastPeriod strategy.slowPeriod =
      evaluateSmaCross (closesOf (candleWindow rows strategy candle.startAt)) strategy.fastPeriod
        strategy.slowPeriod := by
  have hcloses : closesOf (earlier ++ [candle]) =
      closesOf (earlier.take (earlier.length - strategy.slowPeriod)) ++
        closesOf (candleWindow rows strategy candle.startAt) := by
    rw [candleWindow_eq hkeys hsplit hearlier, closesOf, closesOf, closesOf, ← List.map_append,
      ← List.append_assoc, List.take_append_drop]
  rw [hcloses]
  refine evaluateSmaCross_append strategy.inBounds.periods ?_
  rw [candleWindow_eq hkeys hsplit hearlier, closesOf, List.length_map, List.length_append,
    List.length_drop, List.length_singleton]
  omega

theorem length_candleWindow (hkeys : (rows.map MarketCandle.key).Nodup)
    (hsplit : previewWindow rows strategy limit = earlier ++ candle :: later)
    (hearlier : strategy.slowPeriod ≤ earlier.length) :
    (candleWindow rows strategy candle.startAt).length = strategy.slowPeriod + 1 := by
  rw [candleWindow_eq hkeys hsplit hearlier, List.length_append, List.length_drop,
    List.length_singleton]
  omega

/-- The action after the candles of the live window. -/
def windowAction (rows : List MarketCandle) (strategy : Strategy) (candleStart : Time) :
    Option OrderSide :=
  actionAfter strategy.fastPeriod strategy.slowPeriod
    (closesOf (candleWindow rows strategy candleStart))

theorem lists_iff (hkeys : (rows.map MarketCandle.key).Nodup)
    (hsplit : previewWindow rows strategy limit = earlier ++ candle :: later)
    (hearlier : strategy.slowPeriod ≤ earlier.length) (action : OrderSide) :
    Lists (preview rows strategy limit) candle.startAt action ↔
      windowAction rows strategy candle.startAt = some action := by
  have haction : windowAction rows strategy candle.startAt =
      (previewRow strategy (closesOf (earlier ++ [candle])) candle).map StrategyPreviewOut.action := by
    rw [previewRow_action, windowAction, actionAfter, actionAfter,
      evaluateSmaCross_window hkeys hsplit hearlier]
  rw [haction, Option.map_eq_some_iff]
  constructor
  · rintro ⟨row, hrow, hstart, rfl⟩
    obtain ⟨earlier', candle', later', hsplit', hrow'⟩ := mem_preview_iff.1 hrow
    -- starts are unique in the window, so the row is the candle's
    have hascending : (previewWindow rows strategy limit).Pairwise fun a b => a.startAt < b.startAt :=
      List.pairwise_reverse.2
        ((completeCandles_descending hkeys (seriesOf strategy)).sublist (List.take_sublist ..))
    have hnodup : ((previewWindow rows strategy limit).map MarketCandle.startAt).Nodup :=
      List.pairwise_map.2 (hascending.imp fun h => h.ne)
    have hstarts : candle'.startAt = candle.startAt := (previewRow_startAt hrow').symm.trans hstart
    obtain ⟨rfl, rfl, -⟩ :=
      Rows.split_unique_of_nodup hnodup hsplit hsplit' hstarts.symm
    exact ⟨row, hrow', rfl⟩
  · rintro ⟨row, hrow, rfl⟩
    exact ⟨row, mem_preview_iff.2 ⟨earlier, candle, later, hsplit, hrow⟩, previewRow_startAt hrow, rfl⟩

end Windows

section Agreement

variable {settings : StrategySettings} {strategy : Strategy} {rows : List MarketCandle}
  {inputs : EvaluationInputs} {candle : MarketCandle}

/-- With the gates open and the clock in time, an evaluation routes the action of its
window, unless the window has a gap. -/
theorem routes_iff (hgates : gateCheck settings strategy inputs.user = .ok ())
    (hlag : lagCheck settings strategy candle.startAt inputs.clock.lag = .ok ())
    (hlength : (candleWindow inputs.candles strategy candle.startAt).length =
      strategy.slowPeriod + 1) (action : OrderSide) :
    Routes settings strategy candle.startAt inputs action ↔
      hasGap strategy.timeframeSeconds
        (candleWindow inputs.candles strategy candle.startAt) = false ∧
      windowAction inputs.candles strategy candle.startAt = some action := by
  have hjudge : judge settings strategy candle.startAt inputs =
      crossCheck strategy inputs.candles candle.startAt := by
    rw [judge, hgates, hlag]
    rfl
  rw [Routes, hjudge, crossCheck, hlength, windowAction, actionAfter, closesOf]
  by_cases hgap : hasGap strategy.timeframeSeconds
      (candleWindow inputs.candles strategy candle.startAt) = true
  · rw [if_pos ⟨le_rfl, hgap⟩]
    simp [hgap]
  · rw [if_neg fun h => hgap h.2]
    rw [Bool.not_eq_true] at hgap
    cases hdecision : evaluateSmaCross
        ((candleWindow inputs.candles strategy candle.startAt).map fun c => c.close)
        strategy.fastPeriod strategy.slowPeriod with
    | none => simp
    | some decision => cases haction : decision.action <;> simp [hgap, haction]

/-- **A preview shows what the live engine would do** at a candle with enough of its
past in the window, every action of the one an action of the other, exactly when
the candles of the slow average follow one another without a gap or make no
crossing. -/
theorem preview_agrees_iff {limit : ℕ} {earlier later : List MarketCandle}
    (hkeys : (rows.map MarketCandle.key).Nodup)
    (hsplit : previewWindow rows strategy limit = earlier ++ candle :: later)
    (hearlier : strategy.slowPeriod ≤ earlier.length) (hcandles : inputs.candles = rows)
    (hgates : gateCheck settings strategy inputs.user = .ok ())
    (hlag : lagCheck settings strategy candle.startAt inputs.clock.lag = .ok ()) :
    (∀ action, Lists (preview rows strategy limit) candle.startAt action ↔
      Routes settings strategy candle.startAt inputs action) ↔
    (hasGap strategy.timeframeSeconds (candleWindow rows strategy candle.startAt) = false ∨
      windowAction rows strategy candle.startAt = none) := by
  subst hcandles
  have hlength := length_candleWindow hkeys hsplit hearlier
  simp only [lists_iff hkeys hsplit hearlier, routes_iff hgates hlag hlength]
  constructor
  · intro h
    cases haction : windowAction inputs.candles strategy candle.startAt with
    | none => exact Or.inr rfl
    | some action => exact Or.inl ((h action).1 haction).1
  · rintro (hgap | hnone) action
    · exact ⟨fun haction => ⟨hgap, haction⟩, fun h => h.2⟩
    · rw [hnone]
      simp

end Agreement

/-! ## A gap under the slow average -/

theorem one_le_twenty : 1 ≤ 20 := by norm_num

def paperStrategySettings : StrategySettings where
  __ := (default : Settings)
  tradingMode := .paper
  strategyEngineEnabled := true
  one_le_strategyMaxOrdersPerUserPerDay := one_le_twenty

/-- A quote that rises. -/
def quoteOfTwelve (receivedAt : Time) : NormalizedQuote where
  instrumentId := 1
  receivedAt := receivedAt
  ltp := 12

/-- Averages of two and three candles of a minute. -/
def twoThreeStrategy : Strategy where
  instrumentId := 1
  fastPeriod := 2
  slowPeriod := 3
  id := 5
  userId := 7
  name := "SMA cross"
  status := .active
  inBounds := by decide +kernel

/-- A completed candle of the strategy's series. -/
def minuteCandle (seconds : ℤ) (close : ℚ) : MarketCandle where
  opening := close
  high := close
  low := close
  close := close
  volume := 1
  userId := 7
  instrumentId := 1
  intervalSeconds := 60
  startAt := seconds * 1000000
  openInterest := none
  source := "TEST"
  isComplete := true

/-- An evaluation just after the candle of 240 has closed. -/
def inputsAfter (candles : List MarketCandle) : EvaluationInputs where
  candles := candles
  user := some {}
  instrument := some {}
  latest := .ok none
  clock := { started := 301 * 1000000 }

def steadyCandles : List MarketCandle :=
  [minuteCandle 60 10, minuteCandle 120 9, minuteCandle 180 8, minuteCandle 240 12]

/-- The first candle is a minute further away. -/
def gappedCandles : List MarketCandle :=
  [minuteCandle 0 10, minuteCandle 120 9, minuteCandle 180 8, minuteCandle 240 12]

theorem preview_agrees_steady :
    (∀ action, Lists (preview steadyCandles twoThreeStrategy 500) (240 * 1000000) action ↔
      Routes paperStrategySettings twoThreeStrategy (240 * 1000000) (inputsAfter steadyCandles)
        action) ↔
    (hasGap 60 (candleWindow steadyCandles twoThreeStrategy (240 * 1000000)) = false ∨
      windowAction steadyCandles twoThreeStrategy (240 * 1000000) = none) := by
  have hsplit : previewWindow steadyCandles twoThreeStrategy 500 =
      [minuteCandle 60 10, minuteCandle 120 9, minuteCandle 180 8] ++ minuteCandle 240 12 :: [] := by
    decide +kernel
  exact preview_agrees_iff (by decide +kernel) hsplit (by decide) rfl (by decide +kernel)
    (by decide +kernel)

/-- The preview lists a purchase the live engine skips. -/
theorem preview_over_gap :
    Lists (preview gappedCandles twoThreeStrategy 500) (240 * 1000000) .buy ∧
    ¬ Routes paperStrategySettings twoThreeStrategy (240 * 1000000) (inputsAfter gappedCandles)
      .buy := by
  refine ⟨?_, ?_⟩
  · have hlisted : ∃ row ∈ preview gappedCandles twoThreeStrategy 500,
        row.candleStartAt = 240 * 1000000 ∧ row.action = .buy := by decide +kernel
    exact hlisted
  · rintro ⟨diagnostics, h⟩
    have hskipped : judge paperStrategySettings twoThreeStrategy (240 * 1000000)
        (inputsAfter gappedCandles) = .error (.skipped "CANDLE_GAP") := by decide +kernel
    cases hskipped.symm.trans h

end GnkAlgo
