import GnkAlgo.Lib.Bars
import GnkAlgo.Lib.Rows
import GnkAlgo.Lib.Runs
import GnkAlgo.Models

/-!
# Candles

`CandleAggregator` of `backend/app/market/candles.py`.  Every quote is booked on
the candle of its bucket in each configured interval; the volume it adds is the
growth of the broker's cumulative volume since the aggregator's last quote of
that user and instrument, and nothing after a restart.

* `ingest` — one quote, one transaction;
* `OnTime` — the quote finds its candle open, or is the first of a bucket after
  all others;
* `completed_final_iff` — along a run completed candles keep their figures, and
  candles of past buckets are complete, exactly when every quote is on time.
-/

namespace GnkAlgo

open Bars Transition

/-! ## Rows -/

/-- The candles of one user, instrument and interval. -/
structure Series where
  userId : Uuid
  instrumentId : Uuid
  intervalSeconds : ℕ
  deriving DecidableEq, Repr

/-- A row of `market_candles`; its open, high, low, close and volume are the bar. -/
structure MarketCandle extends Bar ℚ where
  userId : Uuid
  instrumentId : Uuid
  intervalSeconds : ℕ
  startAt : Time
  openInterest : Option ℚ
  source : String
  isComplete : Bool := false
  deriving DecidableEq, Repr

def MarketCandle.series (c : MarketCandle) : Series :=
  ⟨c.userId, c.instrumentId, c.intervalSeconds⟩

/-- The columns of `uq_market_candle_bucket`. -/
def MarketCandle.key (c : MarketCandle) : Series × Time := (c.series, c.startAt)

/-- A `NormalizedQuote` with the fields the aggregator reads. -/
structure MarketQuote extends NormalizedQuote where
  source : String
  exchangeTimestamp : Time
  volume : Option ℚ := none
  openInterest : Option ℚ := none
  volume_nonneg : ∀ v ∈ volume, 0 ≤ v := by first | exact none_nonneg | simp
  openInterest_nonneg : ∀ v ∈ openInterest, 0 ≤ v := by first | exact none_nonneg | simp

/-- `Settings.candle_intervals`: a sorted set of positive integers. -/
structure CandleIntervals where
  values : List ℕ
  sorted : values.Pairwise (· < ·) := by decide
  positive : ∀ v ∈ values, 0 < v := by decide
  nonempty : values ≠ [] := by decide

/-! ## The aggregator -/

/-- `CandleAggregator.bucket`: `int` cuts the seconds off towards zero. -/
def bucket (timestamp : Time) (interval : ℕ) : Time :=
  let epoch := timestamp.tdiv 1000000
  (epoch - epoch % interval) * 1000000

/-- `_last_volume`, by user and instrument. -/
structure CandleAggregator where
  lastVolume : Uuid × Uuid → Option ℚ := fun _ => none

/-- The volume a quote adds. -/
def CandleAggregator.volumeDelta (a : CandleAggregator) (userId : Uuid) (quote : MarketQuote) : ℚ :=
  let cumulative := quote.volume.getD 0
  let previous := (a.lastVolume (userId, quote.instrumentId)).getD cumulative
  if previous ≤ cumulative then max 0 (cumulative - previous) else 0

def CandleAggregator.note (a : CandleAggregator) (userId : Uuid) (quote : MarketQuote) :
    CandleAggregator where
  lastVolume := Function.update a.lastVolume (userId, quote.instrumentId)
    (some (quote.volume.getD 0))

/-- The candle of the first quote of a bucket. -/
def newCandle (series : Series) (start : Time) (quote : MarketQuote) (delta : ℚ) : MarketCandle where
  toBar := .ofTrade quote.ltp delta
  userId := series.userId
  instrumentId := series.instrumentId
  intervalSeconds := series.intervalSeconds
  startAt := start
  openInterest := quote.openInterest
  source := quote.source

/-- What a later quote does to the candle. -/
def MarketCandle.update (c : MarketCandle) (quote : MarketQuote) (delta : ℚ) : MarketCandle :=
  { c with
    high := max c.high quote.ltp
    low := min c.low quote.ltp
    close := quote.ltp
    volume := c.volume + delta
    openInterest := quote.openInterest
    source := quote.source }

/-- The update that completes the candles of earlier buckets. -/
def MarketCandle.completedBefore (series : Series) (start : Time) (c : MarketCandle) : MarketCandle :=
  if c.series = series ∧ ¬ c.isComplete ∧ c.startAt < start then { c with isComplete := true } else c

/-- The body of the loop over the intervals. -/
def ingestInterval (userId : Uuid) (quote : MarketQuote) (delta : ℚ) (rows : List MarketCandle)
    (interval : ℕ) : List MarketCandle :=
  let series : Series := ⟨userId, quote.instrumentId, interval⟩
  let start := bucket quote.exchangeTimestamp interval
  match rows.find? (·.key = (series, start)) with
  | none =>
    rows.map (·.completedBefore series start) ++ [newCandle series start quote delta]
  | some candle => Rows.replaceBy MarketCandle.key (candle.update quote delta) rows

/-- The aggregator and its table. -/
structure CandleRun where
  aggregator : CandleAggregator
  rows : List MarketCandle

/-- `CandleAggregator.ingest`. -/
def ingest (intervals : CandleIntervals) (s : CandleRun) (userId : Uuid) (quote : MarketQuote) :
    CandleRun where
  aggregator := s.aggregator.note userId quote
  rows := intervals.values.foldl
    (ingestInterval userId quote (s.aggregator.volumeDelta userId quote)) s.rows

inductive CandleEvent
  | ingest (userId : Uuid) (quote : MarketQuote)
  | restart

def candleStep (intervals : CandleIntervals) (s : CandleRun) : CandleEvent → CandleRun
  | .ingest userId quote => ingest intervals s userId quote
  | .restart => { s with aggregator := {} }

/-! ## One series -/

@[simp] theorem newCandle_series (series : Series) (start : Time) (quote : MarketQuote) (delta : ℚ) :
    (newCandle series start quote delta).series = series := rfl

@[simp] theorem newCandle_key (series : Series) (start : Time) (quote : MarketQuote) (delta : ℚ) :
    (newCandle series start quote delta).key = (series, start) := rfl

@[simp] theorem MarketCandle.update_key (c : MarketCandle) (quote : MarketQuote) (delta : ℚ) :
    (c.update quote delta).key = c.key := rfl

@[simp] theorem MarketCandle.completedBefore_key (c : MarketCandle) (series : Series)
    (start : Time) : (c.completedBefore series start).key = c.key := by
  unfold MarketCandle.completedBefore
  split <;> rfl

/-- The rows of a series. -/
def rowsOf (series : Series) (rows : List MarketCandle) : List MarketCandle :=
  rows.filter (·.series = series)

theorem mem_rowsOf {series : Series} {rows : List MarketCandle} {c : MarketCandle} :
    c ∈ rowsOf series rows ↔ c ∈ rows ∧ c.series = series := by
  simp [rowsOf]

theorem MarketCandle.series_of_key {c c' : MarketCandle} (h : c.key = c'.key) :
    c.series = c'.series := (Prod.mk.inj h).1

section OneSeries

variable {userId : Uuid} {quote : MarketQuote} {delta : ℚ} {rows : List MarketCandle} {interval : ℕ}

theorem rowsOf_map {series : Series} {f : MarketCandle → MarketCandle}
    (hf : ∀ c, (f c).series = c.series) : rowsOf series (rows.map f) = (rowsOf series rows).map f := by
  unfold rowsOf
  rw [List.filter_map]
  congr 1
  exact List.filter_congr fun c _ => by simp [hf]

/-- A quote touches the series of its user, its instrument and the interval. -/
theorem rowsOf_ingestInterval_of_ne {series : Series}
    (hne : (⟨userId, quote.instrumentId, interval⟩ : Series) ≠ series) :
    rowsOf series (ingestInterval userId quote delta rows interval) = rowsOf series rows := by
  unfold ingestInterval
  dsimp only
  split
  · have hnew : rowsOf series [newCandle ⟨userId, quote.instrumentId, interval⟩
        (bucket quote.exchangeTimestamp interval) quote delta] = [] := by
      simp [rowsOf, hne]
    rw [rowsOf, List.filter_append, ← rowsOf, ← rowsOf, hnew, List.append_nil,
      rowsOf_map fun c => MarketCandle.series_of_key (c.completedBefore_key _ _)]
    refine (List.map_congr_left fun c hc => ?_).trans (List.map_id _)
    have hseries := (mem_rowsOf.1 hc).2
    unfold MarketCandle.completedBefore
    rw [if_neg fun h => hne (h.1.symm.trans hseries), id_eq]
  · rename_i candle hfind
    have hkey : candle.key = (⟨userId, quote.instrumentId, interval⟩,
        bucket quote.exchangeTimestamp interval) := by simpa using List.find?_some hfind
    unfold Rows.replaceBy
    rw [rowsOf_map fun c => ?_]
    · refine (List.map_congr_left fun c hc => ?_).trans (List.map_id _)
      rw [if_neg, id_eq]
      intro heq
      exact hne ((congrArg Prod.fst hkey).symm.trans
        ((MarketCandle.series_of_key heq).symm.trans (mem_rowsOf.1 hc).2))
    · split
      · rename_i heq
        exact (MarketCandle.series_of_key heq).symm
      · rfl

/-- In that series it finds the rows of the series. -/
theorem rowsOf_ingestInterval_self :
    rowsOf ⟨userId, quote.instrumentId, interval⟩
      (ingestInterval userId quote delta rows interval) =
    ingestInterval userId quote delta (rowsOf ⟨userId, quote.instrumentId, interval⟩ rows)
      interval := by
  have hfind : (rowsOf ⟨userId, quote.instrumentId, interval⟩ rows).find?
      (·.key = (⟨userId, quote.instrumentId, interval⟩, bucket quote.exchangeTimestamp interval)) =
      rows.find?
        (·.key = (⟨userId, quote.instrumentId, interval⟩,
          bucket quote.exchangeTimestamp interval)) := by
    rw [rowsOf, List.find?_filter]
    congr 1
    funext c
    simp only [MarketCandle.key, Prod.mk.injEq, Bool.decide_and, Bool.decide_eq_true,
      Bool.and_self_left]
  unfold ingestInterval
  dsimp only
  rw [hfind]
  split
  · have hnew : rowsOf ⟨userId, quote.instrumentId, interval⟩
        [newCandle ⟨userId, quote.instrumentId, interval⟩
          (bucket quote.exchangeTimestamp interval) quote delta] =
        [newCandle ⟨userId, quote.instrumentId, interval⟩
          (bucket quote.exchangeTimestamp interval) quote delta] := by
      simp [rowsOf]
    rw [rowsOf, List.filter_append, ← rowsOf, ← rowsOf, hnew,
      rowsOf_map fun c => MarketCandle.series_of_key (c.completedBefore_key _ _)]
  · unfold Rows.replaceBy
    rw [rowsOf_map fun c => ?_]
    split
    · rename_i heq
      exact (MarketCandle.series_of_key heq).symm
    · rfl

theorem rowsOf_foldl {intervals : List ℕ} (hnd : intervals.Nodup) (series : Series) :
    rowsOf series (intervals.foldl (ingestInterval userId quote delta) rows) =
      if series.userId = userId ∧ series.instrumentId = quote.instrumentId ∧
          series.intervalSeconds ∈ intervals then
        ingestInterval userId quote delta (rowsOf series rows) series.intervalSeconds
      else rowsOf series rows := by
  induction intervals generalizing rows with
  | nil => simp
  | cons interval intervals ih =>
    obtain ⟨hnot, hnd⟩ := List.nodup_cons.1 hnd
    rw [List.foldl_cons, ih hnd]
    by_cases hself : (⟨userId, quote.instrumentId, interval⟩ : Series) = series
    · subst hself
      rw [if_neg fun h => hnot h.2.2, if_pos ⟨rfl, rfl, List.mem_cons_self ..⟩,
        rowsOf_ingestInterval_self]
    · rw [rowsOf_ingestInterval_of_ne hself]
      refine if_congr ⟨fun h => ⟨h.1, h.2.1, List.mem_cons_of_mem _ h.2.2⟩, fun h => ⟨h.1, h.2.1, ?_⟩⟩
        rfl rfl
      rcases List.mem_cons.1 h.2.2 with heq | hmem
      · exact absurd (by rw [← h.1, ← h.2.1, ← heq]) hself
      · exact hmem

/-- **A quote, series by series.** -/
theorem rowsOf_ingest (intervals : CandleIntervals) (s : CandleRun) (userId : Uuid)
    (quote : MarketQuote) (series : Series) :
    rowsOf series (ingest intervals s userId quote).rows =
      if series.userId = userId ∧ series.instrumentId = quote.instrumentId ∧
          series.intervalSeconds ∈ intervals.values then
        ingestInterval userId quote (s.aggregator.volumeDelta userId quote) (rowsOf series s.rows)
          series.intervalSeconds
      else rowsOf series s.rows :=
  rowsOf_foldl (intervals.sorted.imp fun h => h.ne) series

end OneSeries

/-! ## Completed candles -/

/-- What a strategy reads of a candle. -/
def MarketCandle.figures (c : MarketCandle) : Bar ℚ × Option ℚ := (c.toBar, c.openInterest)

/-- The completed candles of `rows` have their figures in `rows'`. -/
def FiguresKept (rows rows' : List MarketCandle) : Prop :=
  ∀ c ∈ rows, c.isComplete → ∃ c' ∈ rows', c'.key = c.key ∧ c'.figures = c.figures ∧ c'.isComplete

/-- A candle with a newer one in its series is complete. -/
def PastComplete (rows : List MarketCandle) : Prop :=
  ∀ c ∈ rows, ∀ c' ∈ rows, c'.series = c.series → c.startAt < c'.startAt → c.isComplete

/-- The quote leaves the figures of the candle. -/
structure MarketCandle.Repeats (c : MarketCandle) (quote : MarketQuote) (delta : ℚ) : Prop where
  close : quote.ltp = c.close
  high : quote.ltp ≤ c.high
  low : c.low ≤ quote.ltp
  volume : delta = 0
  openInterest : quote.openInterest = c.openInterest

/-- In the series of an interval: the candle of the quote's bucket is not complete
yet, or the quote leaves it as it is; and where the bucket has no candle, those
there are are of earlier buckets. -/
structure OnTime (rows : List MarketCandle) (userId : Uuid) (quote : MarketQuote) (delta : ℚ)
    (interval : ℕ) : Prop where
  unfinished : ∀ c ∈ rows, c.series = ⟨userId, quote.instrumentId, interval⟩ →
    c.startAt = bucket quote.exchangeTimestamp interval → c.isComplete → c.Repeats quote delta
  latest : (∀ c ∈ rows, c.series = ⟨userId, quote.instrumentId, interval⟩ →
      c.startAt ≠ bucket quote.exchangeTimestamp interval) →
    ∀ c ∈ rows, c.series = ⟨userId, quote.instrumentId, interval⟩ →
      c.startAt < bucket quote.exchangeTimestamp interval

/-- The quote is on time in every interval. -/
def EventOnTime (intervals : CandleIntervals) (s : CandleRun) : CandleEvent → Prop
  | .ingest userId quote => ∀ interval ∈ intervals.values,
      OnTime s.rows userId quote (s.aggregator.volumeDelta userId quote) interval
  | .restart => True

section Final

variable {userId : Uuid} {quote : MarketQuote} {delta : ℚ} {rows rows' : List MarketCandle}
  {interval : ℕ}

theorem FiguresKept.refl (rows : List MarketCandle) : FiguresKept rows rows :=
  fun c hc h => ⟨c, hc, rfl, rfl, h⟩

theorem FiguresKept.trans {rows'' : List MarketCandle} (h : FiguresKept rows rows')
    (h' : FiguresKept rows' rows'') : FiguresKept rows rows'' := by
  intro c hc hcomplete
  obtain ⟨c', hc', hkey, hfigures, hcomplete'⟩ := h c hc hcomplete
  obtain ⟨c'', hc'', hkey', hfigures', hcomplete''⟩ := h' c' hc' hcomplete'
  exact ⟨c'', hc'', hkey'.trans hkey, hfigures'.trans hfigures, hcomplete''⟩

theorem figuresKept_iff_series :
    FiguresKept rows rows' ↔ ∀ series, FiguresKept (rowsOf series rows) (rowsOf series rows') := by
  constructor
  · intro h series c hc hcomplete
    obtain ⟨hmem, hseries⟩ := mem_rowsOf.1 hc
    obtain ⟨c', hc', hkey, hrest⟩ := h c hmem hcomplete
    exact ⟨c', mem_rowsOf.2 ⟨hc', (MarketCandle.series_of_key hkey).trans hseries⟩, hkey, hrest⟩
  · intro h c hc hcomplete
    obtain ⟨c', hc', hrest⟩ := h c.series c (mem_rowsOf.2 ⟨hc, rfl⟩) hcomplete
    exact ⟨c', (mem_rowsOf.1 hc').1, hrest⟩

theorem pastComplete_iff_series : PastComplete rows ↔ ∀ series, PastComplete (rowsOf series rows) := by
  constructor
  · intro h series c hc c' hc'
    exact h c (mem_rowsOf.1 hc).1 c' (mem_rowsOf.1 hc').1
  · intro h c hc c' hc' hseries
    exact h c.series c (mem_rowsOf.2 ⟨hc, rfl⟩) c' (mem_rowsOf.2 ⟨hc', hseries⟩) hseries

theorem onTime_rowsOf : OnTime (rowsOf ⟨userId, quote.instrumentId, interval⟩ rows) userId quote delta
    interval ↔ OnTime rows userId quote delta interval := by
  have hmem : ∀ c, c.series = ⟨userId, quote.instrumentId, interval⟩ →
      (c ∈ rowsOf ⟨userId, quote.instrumentId, interval⟩ rows ↔ c ∈ rows) := fun c hc => by
    simp [mem_rowsOf, hc]
  constructor
  · intro h
    exact ⟨fun c hc hs => h.unfinished c ((hmem c hs).2 hc) hs, fun hnone c hc hs =>
      h.latest (fun c hc hs => hnone c ((hmem c hs).1 hc) hs) c ((hmem c hs).2 hc) hs⟩
  · intro h
    exact ⟨fun c hc hs => h.unfinished c ((hmem c hs).1 hc) hs, fun hnone c hc hs =>
      h.latest (fun c hc hs => hnone c ((hmem c hs).2 hc) hs) c ((hmem c hs).1 hc) hs⟩

theorem MarketCandle.update_figures_iff {c : MarketCandle} :
    (c.update quote delta).figures = c.figures ↔ c.Repeats quote delta := by
  obtain ⟨⟨opening, high, low, close, volume⟩, _, _, _, _, openInterest, _, _⟩ := c
  simp only [MarketCandle.figures, MarketCandle.update, Prod.mk.injEq, Bar.mk.injEq, true_and,
    max_eq_left_iff, min_eq_left_iff, add_eq_left]
  constructor
  · rintro ⟨⟨hhigh, hlow, hclose, hvolume⟩, hinterest⟩
    exact ⟨hclose, hhigh, hlow, hvolume, hinterest⟩
  · rintro ⟨hclose, hhigh, hlow, hvolume, hinterest⟩
    exact ⟨⟨hhigh, hlow, hclose, hvolume⟩, hinterest⟩

/-- A first quote of a bucket keeps what is complete, and settles the series
exactly when the bucket is the latest. -/
theorem final_ingestInterval_new
    (hnone : ∀ c ∈ rows, c.key ≠ (⟨userId, quote.instrumentId, interval⟩,
      bucket quote.exchangeTimestamp interval))
    (hseries : ∀ c ∈ rows, c.series = ⟨userId, quote.instrumentId, interval⟩) :
    FiguresKept rows (ingestInterval userId quote delta rows interval) ∧
      (PastComplete (ingestInterval userId quote delta rows interval) ↔
        ∀ c ∈ rows, c.startAt < bucket quote.exchangeTimestamp interval) := by
  have hfind : rows.find? (·.key = (⟨userId, quote.instrumentId, interval⟩,
      bucket quote.exchangeTimestamp interval)) = none :=
    List.find?_eq_none.2 fun c hc => by simpa using hnone c hc
  unfold ingestInterval
  dsimp only
  rw [hfind]
  generalize bucket quote.exchangeTimestamp interval = start at hnone ⊢
  generalize (⟨userId, quote.instrumentId, interval⟩ : Series) = series at hnone hseries ⊢
  generalize hnew : newCandle series start quote delta = new
  have hnewSeries : new.series = series := hnew ▸ rfl
  have hnewStart : new.startAt = start := hnew ▸ rfl
  have hnewOpen : ¬ new.isComplete := by simp [← hnew, newCandle]
  dsimp only
  refine ⟨fun c hc hcomplete => ?_, ?_, ?_⟩
  · refine ⟨c, List.mem_append_left _ (List.mem_map.2 ⟨c, hc, ?_⟩), rfl, rfl, hcomplete⟩
    exact if_neg fun h => h.2.1 hcomplete
  · intro h c hc
    have hmem : c.completedBefore series start ∈
        rows.map (·.completedBefore series start) ++ [new] :=
      List.mem_append_left _ (List.mem_map_of_mem hc)
    have hkey := c.completedBefore_key series start
    rcases lt_trichotomy c.startAt start with hlt | heq | hgt
    · exact hlt
    · exact absurd (Prod.ext (hseries c hc) heq) (hnone c hc)
    · refine absurd (h new (List.mem_append_right _ (List.mem_singleton.2 rfl)) _ hmem ?_ ?_) hnewOpen
      · rw [MarketCandle.series_of_key hkey, hseries c hc, hnewSeries]
      · rw [hnewStart, (Prod.mk.inj hkey).2]
        exact hgt
  · intro h c hc c' hc' _ hlt
    have hle : ∀ c' ∈ rows.map (·.completedBefore series start) ++ [new], c'.startAt ≤ start := by
      intro c' hc'
      rcases List.mem_append.1 hc' with hc' | hc'
      · obtain ⟨x, hx, rfl⟩ := List.mem_map.1 hc'
        rw [(Prod.mk.inj (x.completedBefore_key series start)).2]
        exact (h x hx).le
      · rw [List.mem_singleton.1 hc', hnewStart]
    rcases List.mem_append.1 hc with hc | hc
    · obtain ⟨x, hx, rfl⟩ := List.mem_map.1 hc
      unfold MarketCandle.completedBefore
      split
      · rfl
      · rename_i hnot
        by_contra hopen
        exact hnot ⟨hseries x hx, hopen, h x hx⟩
    · rw [List.mem_singleton.1 hc, hnewStart] at hlt
      exact absurd (hle c' hc') (not_le.2 hlt)

theorem final_ingestInterval_iff (hkeys : (rows.map MarketCandle.key).Nodup)
    (hseries : ∀ c ∈ rows, c.series = ⟨userId, quote.instrumentId, interval⟩) (hs : PastComplete rows) :
    FiguresKept rows (ingestInterval userId quote delta rows interval) ∧
      PastComplete (ingestInterval userId quote delta rows interval) ↔
    OnTime rows userId quote delta interval := by
  cases hfind : rows.find? (·.key = (⟨userId, quote.instrumentId, interval⟩,
      bucket quote.exchangeTimestamp interval)) with
  | none =>
    have hnone : ∀ c ∈ rows, c.key ≠ (⟨userId, quote.instrumentId, interval⟩,
        bucket quote.exchangeTimestamp interval) := fun c hc => by
      simpa using List.find?_eq_none.1 hfind c hc
    have hnew : FiguresKept rows (ingestInterval userId quote delta rows interval) ∧ _ :=
      final_ingestInterval_new hnone hseries
    obtain ⟨hkept, hsettled⟩ := hnew
    rw [hsettled]
    constructor
    · rintro ⟨-, h⟩
      exact ⟨fun c hc hcs hstart => absurd (Prod.ext hcs hstart) (hnone c hc), fun _ c hc _ => h c hc⟩
    · intro h
      exact ⟨hkept, fun c hc => h.latest
        (fun c hc hcs hstart => hnone c hc (Prod.ext hcs hstart)) c hc (hseries c hc)⟩
  | some candle =>
    have hmem := List.mem_of_find?_eq_some hfind
    have hkey : candle.key = (⟨userId, quote.instrumentId, interval⟩,
        bucket quote.exchangeTimestamp interval) := by simpa using List.find?_some hfind
    have hrows : ingestInterval userId quote delta rows interval =
        Rows.replaceBy MarketCandle.key (candle.update quote delta) rows := by
      unfold ingestInterval
      dsimp only
      rw [hfind]
    rw [hrows]
    have hold : ∀ c ∈ Rows.replaceBy MarketCandle.key (candle.update quote delta) rows,
        ∃ x ∈ rows, c.key = x.key ∧ c.isComplete = x.isComplete := by
      intro c hc
      rcases Rows.mem_replaceBy hc with rfl | ⟨hc, -⟩
      · exact ⟨candle, hmem, rfl, rfl⟩
      · exact ⟨c, hc, rfl, rfl⟩
    have hsettled :
        PastComplete (Rows.replaceBy MarketCandle.key (candle.update quote delta) rows) := by
      intro c hc c' hc' hsame hlt
      obtain ⟨x, hx, hxkey, hxcomplete⟩ := hold c hc
      obtain ⟨x', hx', hxkey', -⟩ := hold c' hc'
      rw [hxcomplete]
      refine hs x hx x' hx' ?_ ?_
      · rw [← MarketCandle.series_of_key hxkey, ← MarketCandle.series_of_key hxkey', hsame]
      · rwa [← (Prod.mk.inj hxkey).2, ← (Prod.mk.inj hxkey').2]
    constructor
    · rintro ⟨hkept, -⟩
      refine ⟨fun c hc hcs hstart hcomplete => ?_, fun hnone => absurd (Prod.mk.inj hkey).2
        (hnone candle hmem (Prod.mk.inj hkey).1)⟩
      have hsame : c.key = candle.key := by
        rw [hkey]
        exact Prod.ext hcs hstart
      obtain rfl := List.inj_on_of_nodup_map hkeys hc hmem hsame
      obtain ⟨c', hc', hckey, hfigures, -⟩ := hkept c hmem hcomplete
      rcases Rows.mem_replaceBy hc' with rfl | ⟨-, hne⟩
      · exact MarketCandle.update_figures_iff.1 hfigures
      · exact absurd hckey hne
    · intro h
      refine ⟨fun c hc hcomplete => ?_, hsettled⟩
      by_cases hsame : c.key = candle.key
      · obtain rfl := List.inj_on_of_nodup_map hkeys hc hmem hsame
        have hrepeats := h.unfinished c hc (Prod.mk.inj hkey).1 (Prod.mk.inj hkey).2 hcomplete
        exact ⟨_, Rows.mem_replaceBy_self hc rfl, rfl, MarketCandle.update_figures_iff.2 hrepeats,
          hcomplete⟩
      · exact ⟨c, Rows.mem_replaceBy_of_ne hc hsame, rfl, rfl, hcomplete⟩

end Final

/-! ## Runs -/

/-- One row per bucket, and the past ones complete. -/
structure CandleRun.Orderly (s : CandleRun) : Prop where
  keys : (s.rows.map MarketCandle.key).Nodup
  settled : PastComplete s.rows

theorem keys_ingestInterval {userId : Uuid} {quote : MarketQuote} {delta : ℚ}
    {rows : List MarketCandle} {interval : ℕ} (hkeys : (rows.map MarketCandle.key).Nodup) :
    ((ingestInterval userId quote delta rows interval).map MarketCandle.key).Nodup := by
  unfold ingestInterval
  dsimp only
  split
  · rename_i hfind
    rw [List.map_append, List.map_map]
    have hsame : (rows.map (MarketCandle.key ∘ (·.completedBefore
        ⟨userId, quote.instrumentId, interval⟩ (bucket quote.exchangeTimestamp interval)))) =
        rows.map MarketCandle.key :=
      List.map_congr_left fun c _ => c.completedBefore_key _ _
    rw [hsame]
    refine List.Nodup.append hkeys (List.nodup_singleton _) ?_
    rintro key hkey hnew
    obtain ⟨c, hc, rfl⟩ := List.mem_map.1 hkey
    have hnot := List.find?_eq_none.1 hfind c hc
    exact hnot (by simpa using List.mem_singleton.1 hnew)
  · rw [Rows.map_key_replaceBy]
    exact hkeys

/-- **One quote** keeps what is complete and leaves the past complete exactly when
it is on time. -/
theorem candleStep_final_iff {intervals : CandleIntervals} {s : CandleRun} (h : s.Orderly)
    (e : CandleEvent) : (FiguresKept s.rows (candleStep intervals s e).rows ∧
      PastComplete (candleStep intervals s e).rows) ↔ EventOnTime intervals s e := by
  cases e with
  | restart => exact iff_of_true ⟨.refl _, h.settled⟩ trivial
  | ingest userId quote =>
    rw [candleStep, EventOnTime, figuresKept_iff_series, pastComplete_iff_series, ← forall_and]
    have hone : ∀ interval, (FiguresKept (rowsOf ⟨userId, quote.instrumentId, interval⟩ s.rows)
          (ingestInterval userId quote (s.aggregator.volumeDelta userId quote)
            (rowsOf ⟨userId, quote.instrumentId, interval⟩ s.rows) interval) ∧
        PastComplete (ingestInterval userId quote (s.aggregator.volumeDelta userId quote)
          (rowsOf ⟨userId, quote.instrumentId, interval⟩ s.rows) interval)) ↔
        OnTime s.rows userId quote (s.aggregator.volumeDelta userId quote) interval := by
      intro interval
      rw [← onTime_rowsOf]
      exact final_ingestInterval_iff (h.keys.sublist (List.filter_sublist.map _))
        (fun c hc => (mem_rowsOf.1 hc).2) (pastComplete_iff_series.1 h.settled _)
    constructor
    · intro hseries interval hinterval
      have hfinal := hseries ⟨userId, quote.instrumentId, interval⟩
      rw [rowsOf_ingest, if_pos ⟨rfl, rfl, hinterval⟩] at hfinal
      exact (hone interval).1 hfinal
    · intro hontime series
      rw [rowsOf_ingest]
      split
      · rename_i hthis
        obtain ⟨rfl, hinstrument, hinterval⟩ := hthis
        have hseries : series = ⟨series.userId, quote.instrumentId, series.intervalSeconds⟩ := by
          rw [← hinstrument]
        rw [hseries]
        exact (hone series.intervalSeconds).2 (hontime _ hinterval)
      · exact ⟨.refl _, pastComplete_iff_series.1 h.settled series⟩

theorem orderly_candleStep {intervals : CandleIntervals} {s : CandleRun} (h : s.Orderly)
    {e : CandleEvent} (hontime : EventOnTime intervals s e) : (candleStep intervals s e).Orderly := by
  refine ⟨?_, ((candleStep_final_iff h e).2 hontime).2⟩
  cases e with
  | restart => exact h.keys
  | ingest userId quote =>
    exact List.foldlRecOn
      (motive := fun rows : List MarketCandle => (rows.map MarketCandle.key).Nodup) _ _ h.keys
      fun rows hrows interval _ => keys_ingestInterval hrows

/-- **When completed candles are final.**  Along a run with quotes in any order
and restarts, every completed candle has its figures in all later states, and
every candle with a newer one in its series is complete, exactly when each quote
is on time. -/
theorem completed_final_iff (intervals : CandleIntervals) {s : CandleRun} (h : s.Orderly)
    (events : List CandleEvent) :
    (∀ before middle after, events = before ++ middle ++ after →
      FiguresKept (before.foldl (candleStep intervals) s).rows
          ((before ++ middle).foldl (candleStep intervals) s).rows ∧
        PastComplete ((before ++ middle).foldl (candleStep intervals) s).rows) ↔
    Run (Guarded (EventOnTime intervals) (Steps (candleStep intervals))) s events
      (events.foldl (candleStep intervals) s) :=
  (guarded_run_iff_of (R := fun s t : CandleRun => FiguresKept s.rows t.rows ∧ PastComplete t.rows) h
    (fun _ _ hs hok => orderly_candleStep hs hok) (fun _ hs => ⟨.refl _, hs.settled⟩)
    (fun _ _ _ hst htu => ⟨hst.1.trans htu.1, htu.2⟩) fun _ e hs => candleStep_final_iff hs e).symm

/-! ### Late quotes -/

def oneMinute : CandleIntervals where
  values := [60]

/-- A quote for instrument 3, `seconds` after the epoch. -/
def quoteAt (seconds : ℤ) (ltp : ℚ) (h : 0 < ltp := by norm_num) : MarketQuote where
  instrumentId := 3
  receivedAt := seconds * 1000000
  ltp := ltp
  ltp_pos := h
  source := "DHAN"
  exchangeTimestamp := seconds * 1000000

/-- A quote of the first minute after one of the second. -/
def lateQuote : List CandleEvent :=
  [.ingest 7 (quoteAt 10 100), .ingest 7 (quoteAt 70 101), .ingest 7 (quoteAt 50 102)]

/-- A quote of the second minute, which had none, after one of the third. -/
def skippedMinute : List CandleEvent :=
  [.ingest 7 (quoteAt 130 100), .ingest 7 (quoteAt 70 101)]

theorem completed_final_iff_lateQuote :
    (∀ before middle after, lateQuote = before ++ middle ++ after →
      FiguresKept (before.foldl (candleStep oneMinute) ⟨{}, []⟩).rows
          ((before ++ middle).foldl (candleStep oneMinute) ⟨{}, []⟩).rows ∧
        PastComplete ((before ++ middle).foldl (candleStep oneMinute) ⟨{}, []⟩).rows) ↔
    Run (Guarded (EventOnTime oneMinute) (Steps (candleStep oneMinute))) ⟨{}, []⟩ lateQuote
      (lateQuote.foldl (candleStep oneMinute) ⟨{}, []⟩) :=
  completed_final_iff (s := ⟨{}, []⟩) oneMinute
    ⟨List.nodup_nil, fun _ hc => absurd hc (List.not_mem_nil)⟩ lateQuote

instance (rows rows' : List MarketCandle) : Decidable (FiguresKept rows rows') := by
  unfold FiguresKept
  infer_instance

instance (rows : List MarketCandle) : Decidable (PastComplete rows) := by
  unfold PastComplete
  infer_instance

/-- **A late quote** rewrites a completed candle, or leaves a candle of a past
bucket open. -/
theorem late_quotes :
    ¬ FiguresKept ((lateQuote.take 2).foldl (candleStep oneMinute) ⟨{}, []⟩).rows
      (lateQuote.foldl (candleStep oneMinute) ⟨{}, []⟩).rows ∧
    ¬ PastComplete (skippedMinute.foldl (candleStep oneMinute) ⟨{}, []⟩).rows := by
  decide +kernel

end GnkAlgo
