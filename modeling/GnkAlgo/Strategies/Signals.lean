import GnkAlgo.Market.CandleFold
import GnkAlgo.Market.CandleVolume
import GnkAlgo.Strategies.Preview

/-!
# From quotes to signals

What the feed brings is all a strategy decides on: the candles in between, with
everything that other users, other instruments and restarts of the market worker do to
their table, can be left out.

* `closedBuckets` — the stretches of a timeframe that a later quote has closed, each with
  its last price, from the quotes alone;
* `completeCandles_closedBuckets` — they are what a strategy reads of the table;
* `signals_iff_quotes` — an evaluation of one of them routes an action exactly when the
  gates are open, it follows on as many stretches as the slow average needs without a gap,
  and the prices cross.
-/

namespace GnkAlgo

open Bars StrategyExecutor

/-! ## Buckets of quotes -/

/-- The last price of a bucket. -/
def bucketClose (interval : ℕ) (quotes : List MarketQuote) (start : Time) : ℚ :=
  ((quotes.filter (bucket ·.exchangeTimestamp interval = start)).getLast?.map (·.ltp)).getD 0

/-- The buckets with a quote, and their last prices. -/
def bucketCloses (interval : ℕ) (quotes : List MarketQuote) : List (Time × ℚ) :=
  (quotes.map (bucket ·.exchangeTimestamp interval)).dedup.map fun start =>
    (start, bucketClose interval quotes start)

/-- Those that a later quote has closed. -/
def closedBuckets (interval : ℕ) (quotes : List MarketQuote) : List (Time × ℚ) :=
  (bucketCloses interval quotes).dropLast

/-- Each start is one timeframe after the one before it. -/
def Contiguous (timeframeSeconds : ℕ) (starts : List Time) : Prop :=
  starts.IsChain fun (start next : Time) => next = start + (timeframeSeconds : ℤ) * 1000000

instance (timeframeSeconds : ℕ) (starts : List Time) :
    Decidable (Contiguous timeframeSeconds starts) :=
  inferInstanceAs (Decidable (starts.IsChain fun (start next : Time) =>
    next = start + (timeframeSeconds : ℤ) * 1000000))

/-- What a strategy reads of a candle. -/
def MarketCandle.startAndClose (c : MarketCandle) : Time × ℚ := (c.startAt, c.close)

section Rows

variable {rows : List MarketCandle} {ticks : List Tick} {interval : ℕ}

/-- A row closes at the last price of its bucket. -/
theorem FoldOf.close_eq (h : FoldOf rows ticks interval) {c : MarketCandle} (hc : c ∈ rows) :
    c.close = bucketClose interval (ticks.map Tick.quote) c.startAt := by
  have hlast := (h.bars c hc).close
  rw [List.getLast?_map, Option.map_map] at hlast
  have hquotes : ((ticks.map Tick.quote).filter
      (bucket ·.exchangeTimestamp interval = c.startAt)) =
      (ticks.filter (bucket ·.time interval = c.startAt)).map Tick.quote := List.filter_map
  rw [bucketClose, hquotes, List.getLast?_map, Option.map_map]
  have hprice : (fun q : MarketQuote => q.ltp) ∘ Tick.quote = Bar.close ∘ Tick.bar := rfl
  rw [hprice, hlast, Option.getD_some]

/-- **The rows of a series**, as the quotes have them. -/
theorem FoldOf.bucketCloses (h : FoldOf rows ticks interval) (hpos : 0 < interval)
    (hsorted : ticks.Pairwise fun t t' => t.time ≤ t'.time) :
    rows.map MarketCandle.startAndClose = bucketCloses interval (ticks.map Tick.quote) := by
  have hbuckets : (ticks.map (bucket ·.time interval)).Pairwise (· ≤ ·) :=
    List.pairwise_map.2 (hsorted.imp fun hle => bucket_mono hpos hle)
  have hdedup : (ticks.map (bucket ·.time interval)).dedup.Pairwise (· < ·) :=
    ((hbuckets.sublist (List.dedup_sublist _)).and (List.nodup_dedup _)).imp
      fun hlt => lt_of_le_of_ne hlt.1 hlt.2
  have hstarts : rows.map MarketCandle.startAt = (ticks.map (bucket ·.time interval)).dedup :=
    h.ordered.eq_of_mem_iff hdedup fun start => by rw [h.buckets, List.mem_dedup]
  have htimes : (ticks.map Tick.quote).map (bucket ·.exchangeTimestamp interval) =
      ticks.map (bucket ·.time interval) := List.map_map
  rw [GnkAlgo.bucketCloses, htimes, ← hstarts, List.map_map]
  exact List.map_congr_left fun c hc => Prod.ext rfl (h.close_eq hc)

/-- The rows that are complete are all but the last. -/
theorem FoldOf.complete_eq (h : FoldOf rows ticks interval) :
    rows.filter (·.isComplete) = rows.dropLast := by
  have hordered := List.pairwise_map.1 h.ordered
  have hcomplete := h.complete
  rcases rows.eq_nil_or_concat' with rfl | ⟨earlier, last, rfl⟩
  · rfl
  · obtain ⟨-, -, hlast⟩ := List.pairwise_append.1 hordered
    have hend : last ∈ earlier ++ [last] := List.mem_append_right _ (List.mem_singleton.2 rfl)
    have hearlier : ∀ c ∈ earlier, c.isComplete := fun c hc =>
      (hcomplete c (List.mem_append_left _ hc)).2
        ⟨last, hend, hlast c hc last (List.mem_singleton.2 rfl)⟩
    have hopen : ¬ last.isComplete := by
      intro hdone
      obtain ⟨c, hc, hlt⟩ := (hcomplete last hend).1 hdone
      rcases List.mem_append.1 hc with hc | hc
      · exact lt_asymm hlt (hlast c hc last (List.mem_singleton.2 rfl))
      · rw [List.mem_singleton.1 hc] at hlt
        exact lt_irrefl _ hlt
    rw [List.filter_append, List.filter_eq_self.2 hearlier, List.filter_cons_of_neg hopen,
      List.filter_nil, List.append_nil, List.dropLast_concat]

end Rows

/-- Of a series whose rows are in order, the query for the completed candles reads the
completed rows from the last to the first. -/
theorem completeCandles_reverse {table : List MarketCandle} {series : Series}
    (hordered : ((rowsOf series table).map MarketCandle.startAt).Pairwise (· < ·)) :
    (completeCandles table series).reverse = (rowsOf series table).filter (·.isComplete) := by
  have hfilter : (table.filter fun c => c.series = series ∧ c.isComplete) =
      (rowsOf series table).filter (·.isComplete) := by
    rw [rowsOf, List.filter_filter]
    exact List.filter_congr fun c _ => by simp [and_comm]
  have hrows : ((rowsOf series table).filter (·.isComplete)).Pairwise
      fun a b => a.startAt < b.startAt :=
    (List.pairwise_map.1 hordered).sublist List.filter_sublist
  have hnodup : (((rowsOf series table).filter (·.isComplete)).map MarketCandle.startAt).Nodup :=
    List.pairwise_map.2 (hrows.imp fun hlt => hlt.ne)
  rw [completeCandles, hfilter]
  have hperm := List.perm_insertionSort (fun a b : MarketCandle => b.startAt ≤ a.startAt)
    ((rowsOf series table).filter (·.isComplete))
  have hsorted := List.pairwise_insertionSort (fun a b : MarketCandle => b.startAt ≤ a.startAt)
    ((rowsOf series table).filter (·.isComplete))
  have hleft : (((rowsOf series table).filter (·.isComplete)).insertionSort
      fun a b => b.startAt ≤ a.startAt).reverse.Pairwise fun a b => a.startAt ≤ b.startAt :=
    List.pairwise_reverse.2 hsorted
  have hright := hrows.imp fun {a b : MarketCandle} (hlt : a.startAt < b.startAt) => hlt.le
  refine List.Perm.eq_of_pairwise ?_ hleft hright ((List.reverse_perm _).trans hperm)
  intro a b ha hb hab hba
  have ha' := hperm.mem_iff.1 (List.mem_reverse.1 ha)
  exact List.inj_on_of_nodup_map hnodup ha' hb (le_antisymm hab hba)

/-! ## What a strategy reads -/

section Reads

variable {intervals : CandleIntervals} {strategy : Strategy} {earlier later : List (Time × ℚ)}
  {bar : Time × ℚ} {rows : List MarketCandle}

/-- **The completed candles are the closed buckets of the quotes.** -/
theorem completeCandles_closedBuckets (a : CandleAggregator) (events : List CandleEvent)
    (series : Series) (hinterval : series.intervalSeconds ∈ intervals.values)
    (hsorted : (quotesOf series.userId series.instrumentId events).Pairwise
      fun q q' => q.exchangeTimestamp ≤ q'.exchangeTimestamp) :
    (completeCandles (events.foldl (candleStep intervals) ⟨a, []⟩).rows series).reverse.map
        MarketCandle.startAndClose =
      closedBuckets series.intervalSeconds (quotesOf series.userId series.instrumentId events) := by
  have hfold := foldOf_run a events hsorted hinterval
  have hticks : (ticksOf series.userId series.instrumentId a events).Pairwise
      fun t t' => t.time ≤ t'.time := by
    rw [← ticksOf_quotes a, List.pairwise_map] at hsorted
    exact hsorted
  have hrows := hfold.bucketCloses (intervals.positive _ hinterval) hticks
  rw [ticksOf_quotes] at hrows
  rw [completeCandles_reverse hfold.ordered, hfold.complete_eq, List.map_dropLast, hrows]
  rfl

theorem totalSeconds_eq_iff (span : Time) (seconds : ℕ) :
    totalSeconds span = seconds ↔ span = (seconds : ℤ) * 1000000 := by
  rw [totalSeconds, div_eq_iff (by norm_num)]
  exact_mod_cast Iff.rfl

theorem hasGap_eq_false_iff (timeframeSeconds : ℕ) (candles : List MarketCandle) :
    hasGap timeframeSeconds candles = false ↔
      Contiguous timeframeSeconds (candles.map MarketCandle.startAt) := by
  induction candles with
  | nil => simp [hasGap, Contiguous]
  | cons c candles ih =>
    cases candles with
    | nil => simp [hasGap, Contiguous]
    | cons next rest =>
      have hstep : hasGap timeframeSeconds (c :: next :: rest) =
          (decide (totalSeconds (next.startAt - c.startAt) ≠ timeframeSeconds) ||
            hasGap timeframeSeconds (next :: rest)) := rfl
      have hspan : totalSeconds (next.startAt - c.startAt) = timeframeSeconds ↔
          next.startAt = c.startAt + (timeframeSeconds : ℤ) * 1000000 := by
        rw [totalSeconds_eq_iff]
        constructor <;> intro h <;> linarith
      rw [hstep, Bool.or_eq_false_iff, ih, decide_eq_false_iff_not, not_not, hspan, List.map_cons,
        List.map_cons, List.map_cons, Contiguous, Contiguous, List.isChain_cons_cons]

/-- The window of a candle, where the completed candles are known. -/
theorem candleWindow_of_reverse {past after : List MarketCandle} {candle : MarketCandle}
    (hordered : ((rowsOf (seriesOf strategy) rows).map MarketCandle.startAt).Pairwise (· < ·))
    (hsplit : (completeCandles rows (seriesOf strategy)).reverse = past ++ candle :: after) :
    candleWindow rows strategy candle.startAt =
      past.drop (past.length - strategy.slowPeriod) ++ [candle] := by
  have hfound : completeCandles rows (seriesOf strategy) =
      after.reverse ++ candle :: past.reverse := by
    rw [← List.reverse_reverse (completeCandles rows (seriesOf strategy)), hsplit]
    simp
  have hascending : (past ++ candle :: after).Pairwise fun a b => a.startAt < b.startAt := by
    rw [← hsplit, completeCandles_reverse hordered]
    exact (List.pairwise_map.1 hordered).sublist List.filter_sublist
  obtain ⟨-, hrest, hacross⟩ := List.pairwise_append.1 hascending
  have hfilter : (after.reverse ++ candle :: past.reverse).filter
      (fun c => c.startAt ≤ candle.startAt) = candle :: past.reverse := by
    rw [List.filter_append, List.filter_eq_nil_iff.2, List.nil_append, List.filter_eq_self.2]
    · intro c hc
      rcases List.mem_cons.1 hc with rfl | hc
      · exact decide_eq_true le_rfl
      · exact decide_eq_true (hacross c (List.mem_reverse.1 hc) candle (List.mem_cons_self ..)).le
    · intro c hc
      have hlt := (List.pairwise_cons.1 hrest).1 c (List.mem_reverse.1 hc)
      simpa using hlt
  rw [candleWindow, hfound, hfilter, List.take_succ_cons, List.reverse_cons, List.reverse_take,
    List.reverse_reverse, List.length_reverse]

/-- The averages reach no further back than the slow one. -/
theorem actionAfter_drop (strategy : Strategy) (earlier : List ℚ) (close : ℚ) :
    actionAfter strategy.fastPeriod strategy.slowPeriod
        (earlier.drop (earlier.length - strategy.slowPeriod) ++ [close]) =
      actionAfter strategy.fastPeriod strategy.slowPeriod (earlier ++ [close]) := by
  rcases le_total strategy.slowPeriod earlier.length with hle | hle
  · have hlength : strategy.slowPeriod + 1 ≤
        (earlier.drop (earlier.length - strategy.slowPeriod) ++ [close]).length := by
      rw [List.length_append, List.length_drop, List.length_singleton]
      omega
    conv_rhs => rw [← List.take_append_drop (earlier.length - strategy.slowPeriod) earlier,
      List.append_assoc, actionAfter, evaluateSmaCross_append strategy.inBounds.periods hlength]
    rfl
  · rw [Nat.sub_eq_zero_of_le hle, List.drop_zero]

end Reads

/-! ## Evaluations -/

section Evaluations

variable {settings : StrategySettings} {strategy : Strategy} {inputs : EvaluationInputs}

/-- The check of the candles finds an action where they have no gap and make it. -/
theorem crossCheck_iff (rows : List MarketCandle) (candleStart : Time) (action : OrderSide) :
    (∃ diagnostics, crossCheck strategy rows candleStart = .ok (action, diagnostics)) ↔
      hasGap strategy.timeframeSeconds (candleWindow rows strategy candleStart) = false ∧
      windowAction rows strategy candleStart = some action := by
  unfold crossCheck
  dsimp only
  split
  · rename_i hgap
    simp [hgap.2]
  · rename_i hgap
    -- with too few candles a gap is not looked for, and there is no action
    have hgap' : windowAction rows strategy candleStart = some action →
        hasGap strategy.timeframeSeconds (candleWindow rows strategy candleStart) = false := by
      intro haction
      by_contra hfound
      rw [Bool.not_eq_false] at hfound
      have hlength : (closesOf (candleWindow rows strategy candleStart)).length ≤
          strategy.slowPeriod := by
        rw [closesOf, List.length_map]
        by_contra hlong
        exact hgap ⟨by omega, hfound⟩
      rw [windowAction, actionAfter_eq_none hlength] at haction
      cases haction
    rw [and_iff_right_of_imp hgap', windowAction, actionAfter, closesOf]
    cases evaluateSmaCross ((candleWindow rows strategy candleStart).map fun c => c.close)
        strategy.fastPeriod strategy.slowPeriod with
    | none => simp
    | some decision => cases haction : decision.action <;> simp [haction]

/-- An evaluation routes an action when the gates are open, the clock is in time and the
candles have no gap and make it. -/
theorem routes_iff_checks (candleStart : Time) (action : OrderSide) :
    Routes settings strategy candleStart inputs action ↔
      gateCheck settings strategy inputs.user = .ok () ∧
      lagCheck settings strategy candleStart inputs.clock.lag = .ok () ∧
      hasGap strategy.timeframeSeconds (candleWindow inputs.candles strategy candleStart) = false ∧
      windowAction inputs.candles strategy candleStart = some action := by
  rw [Routes, judge, ← crossCheck_iff]
  cases gateCheck settings strategy inputs.user with
  | error e =>
    refine iff_of_false ?_ fun h => ?_
    · rintro ⟨diagnostics, h⟩
      cases h
    · cases h.1
  | ok =>
    cases lagCheck settings strategy candleStart inputs.clock.lag with
    | error e =>
      refine iff_of_false ?_ fun h => ?_
      · rintro ⟨diagnostics, h⟩
        cases h
      · cases h.2.1
    | ok => exact (and_iff_right rfl).trans (and_iff_right rfl) |>.symm

/-- **Signals are made of quotes.**  On the table a run of the market worker leaves, an
evaluation of a closed bucket routes an action exactly when the gates are open, the clock
is in time, the buckets under the slow average follow one another, and the closing prices
of the user's own quotes of the instrument cross. -/
theorem signals_iff_quotes (intervals : CandleIntervals) (a : CandleAggregator)
    (events : List CandleEvent) (settings : StrategySettings) (strategy : Strategy)
    (inputs : EvaluationInputs) {earlier later : List (Time × ℚ)} {bar : Time × ℚ}
    (hsorted : (quotesOf strategy.userId strategy.instrumentId events).Pairwise
      fun q q' => q.exchangeTimestamp ≤ q'.exchangeTimestamp)
    (hinterval : strategy.timeframeSeconds ∈ intervals.values)
    (hcandles : inputs.candles = (events.foldl (candleStep intervals) ⟨a, []⟩).rows)
    (hbar : closedBuckets strategy.timeframeSeconds
      (quotesOf strategy.userId strategy.instrumentId events) = earlier ++ bar :: later)
    (action : OrderSide) :
    Routes settings strategy bar.1 inputs action ↔
      gateCheck settings strategy inputs.user = .ok () ∧
      lagCheck settings strategy bar.1 inputs.clock.lag = .ok () ∧
      Contiguous strategy.timeframeSeconds
        ((earlier.drop (earlier.length - strategy.slowPeriod) ++ [bar]).map Prod.fst) ∧
      actionAfter strategy.fastPeriod strategy.slowPeriod ((earlier ++ [bar]).map Prod.snd) =
        some action := by
  have hread := completeCandles_closedBuckets a events (seriesOf strategy) hinterval hsorted
  have hordered := (foldOf_run a events hsorted hinterval).ordered
  rw [← hcandles] at hread hordered
  obtain ⟨past, rest, hsplit, rfl, hrest⟩ := List.map_eq_append_iff.1 (hread.trans hbar)
  obtain ⟨candle, after, rfl, rfl, rfl⟩ := List.map_eq_cons_iff.1 hrest
  have hwindow := candleWindow_of_reverse hordered hsplit
  have hstarts : ((past.map MarketCandle.startAndClose).drop
      ((past.map MarketCandle.startAndClose).length - strategy.slowPeriod) ++
        [candle.startAndClose]).map Prod.fst =
      (past.drop (past.length - strategy.slowPeriod) ++ [candle]).map MarketCandle.startAt := by
    rw [List.length_map, ← List.map_drop, List.map_append, List.map_append, List.map_map]
    rfl
  have hcloses : (past.map MarketCandle.startAndClose ++ [candle.startAndClose]).map Prod.snd =
      closesOf past ++ [candle.close] := by
    rw [List.map_append, List.map_map]
    rfl
  have haction : windowAction inputs.candles strategy candle.startAt =
      actionAfter strategy.fastPeriod strategy.slowPeriod (closesOf past ++ [candle.close]) := by
    rw [windowAction, hwindow, ← actionAfter_drop, closesOf, closesOf, List.map_append,
      List.map_drop, List.length_map]
    rfl
  rw [hstarts, hcloses, ← haction, ← hwindow, ← hasGap_eq_false_iff]
  exact routes_iff_checks candle.startAt action

theorem succ_price_pos (n : ℕ) : (0 : ℚ) < n + 1 := Nat.cast_add_one_pos n

/-- A quote at the price `n + 1`. -/
def quoteAbove (seconds : ℤ) (n : ℕ) : MarketQuote := quoteAt seconds (n + 1) (succ_price_pos n)

/-- Three falling minutes, one that rises and the quote that closes it, with a restart and
a quote of another user between them. -/
def risingMinutes : List CandleEvent :=
  [.ingest 7 (quoteAbove 65 9), .ingest 7 (quoteAbove 125 8), .restart,
    .ingest 8 (quoteAbove 130 49), .ingest 7 (quoteAbove 185 7), .ingest 7 (quoteAbove 245 6),
    .ingest 7 (quoteAbove 290 11), .ingest 7 (quoteAbove 300 10)]

/-- `twoThreeStrategy` on the instrument of these quotes. -/
def quotedStrategy : Strategy where
  __ := twoThreeStrategy
  instrumentId := 3
  inBounds := by decide +kernel

theorem signals_iff_quotes_rising :
    Routes paperStrategySettings quotedStrategy (240 * 1000000)
      (inputsAfter (risingMinutes.foldl (candleStep twoIntervals) ⟨{}, []⟩).rows) .buy := by
  have hbar : closedBuckets quotedStrategy.timeframeSeconds
      (quotesOf quotedStrategy.userId quotedStrategy.instrumentId risingMinutes) =
      [(60 * 1000000, 10), (120 * 1000000, 9), (180 * 1000000, 8)] ++
        (240 * 1000000, 12) :: [] := by
    decide +kernel
  exact (signals_iff_quotes twoIntervals {} risingMinutes paperStrategySettings quotedStrategy _
    (by decide +kernel) (by decide) rfl hbar .buy).2
    ⟨by decide +kernel, by decide +kernel, by decide +kernel, by decide +kernel⟩

end Evaluations

end GnkAlgo
