import GnkAlgo.Market.Candles

/-!
# Candles as folds of the quotes

A user's quotes of an instrument, in the order of their exchange times, leave in
the table the fold of the quotes bucket by bucket, whatever the other users and
instruments do and however often the aggregator restarts.

* `ticksOf` — the quotes of a run with the volume each of them added;
* `FoldOf` — the rows are the folds of the ticks;
* `candles_fold` — they are after every run, and the candles of an interval are
  the aggregates of those of each interval that divides it.
-/

namespace GnkAlgo

open Bars Transition

/-! ## Ticks -/

/-- A quote and the volume it added. -/
structure Tick where
  quote : MarketQuote
  delta : ℚ

/-- The exchange time of a tick. -/
def Tick.time (t : Tick) : Time := t.quote.exchangeTimestamp

def Tick.bar (t : Tick) : Bar ℚ := .ofTrade t.quote.ltp t.delta

/-- The tick of an event for a user and an instrument. -/
def CandleEvent.tick? (userId instrumentId : Uuid) (a : CandleAggregator) :
    CandleEvent → Option Tick
  | .ingest user quote =>
    if user = userId ∧ quote.instrumentId = instrumentId then
      some ⟨quote, a.volumeDelta user quote⟩
    else none
  | .restart => none

/-- The aggregator after an event. -/
def CandleAggregator.after (a : CandleAggregator) : CandleEvent → CandleAggregator
  | .ingest userId quote => a.note userId quote
  | .restart => {}

/-- The ticks of a run that an aggregator begins. -/
def ticksOf (userId instrumentId : Uuid) : CandleAggregator → List CandleEvent → List Tick
  | _, [] => []
  | a, e :: es =>
    (e.tick? userId instrumentId a).toList ++ ticksOf userId instrumentId (a.after e) es

/-- The quotes of a user and an instrument in a run. -/
def quotesOf (userId instrumentId : Uuid) (events : List CandleEvent) : List MarketQuote :=
  events.filterMap fun
    | .ingest user quote =>
      if user = userId ∧ quote.instrumentId = instrumentId then some quote else none
    | .restart => none

section Ticks

variable {userId instrumentId : Uuid}

theorem ticksOf_quotes (a : CandleAggregator) (events : List CandleEvent) :
    (ticksOf userId instrumentId a events).map Tick.quote = quotesOf userId instrumentId events := by
  induction events generalizing a with
  | nil => rfl
  | cons e es ih =>
    rw [ticksOf, List.map_append, ih]
    cases e with
    | restart => rfl
    | ingest user quote =>
      rw [CandleEvent.tick?]
      by_cases h : user = userId ∧ quote.instrumentId = instrumentId
      · simp [h, quotesOf]
      · simp [h, quotesOf]

theorem ticksOf_concat (a : CandleAggregator) (events : List CandleEvent) (e : CandleEvent) :
    ticksOf userId instrumentId a (events ++ [e]) = ticksOf userId instrumentId a events ++
      (e.tick? userId instrumentId (events.foldl CandleAggregator.after a)).toList := by
  induction events generalizing a with
  | nil => simp [ticksOf]
  | cons e' es ih => rw [List.cons_append, ticksOf, ih, ticksOf, List.foldl_cons, List.append_assoc]

/-- The aggregator of a run. -/
theorem aggregator_foldl (intervals : CandleIntervals) (s : CandleRun) (events : List CandleEvent) :
    (events.foldl (candleStep intervals) s).aggregator =
      events.foldl CandleAggregator.after s.aggregator := by
  induction events generalizing s with
  | nil => rfl
  | cons e es ih =>
    rw [List.foldl_cons, List.foldl_cons, ih]
    cases e <;> rfl

end Ticks

/-! ## Buckets -/

section Buckets

variable {t t' : Time} {interval : ℕ}

/-- The seconds of a moment, cut to a multiple of the interval. -/
theorem bucket_eq (t : Time) (interval : ℕ) :
    bucket t interval = interval * (t.tdiv 1000000 / interval) * 1000000 := by
  unfold bucket
  dsimp only
  have h := Int.mul_ediv_add_emod (t.tdiv 1000000) interval
  congr 1
  omega

theorem bucket_mono (hpos : 0 < interval) (h : t ≤ t') :
    bucket t interval ≤ bucket t' interval := by
  have hepoch : t.tdiv 1000000 ≤ t'.tdiv 1000000 := Int.tdiv_le_tdiv (by norm_num) h
  have hquotient := Int.ediv_le_ediv (Int.natCast_pos.2 hpos) hepoch
  rw [bucket_eq, bucket_eq]
  exact Int.mul_le_mul_of_nonneg_right
    (Int.mul_le_mul_of_nonneg_left hquotient (Int.natCast_nonneg interval)) (by norm_num)

/-- A bucket of an interval lies in one bucket of each multiple. -/
theorem bucket_inside {a b : ℕ} (ha : 0 < a) (hb : 0 < b) (hdvd : a ∣ b) (t t0 : Time) :
    (bucket t0 b ≤ bucket t a ∧ bucket t a < bucket t0 b + b * 1000000) ↔
      bucket t b = bucket t0 b := by
  rw [bucket_eq, bucket_eq, bucket_eq]
  generalize t.tdiv 1000000 = e
  generalize t0.tdiv 1000000 = e0
  obtain ⟨k, rfl⟩ := hdvd
  generalize hq : e0 / ((a * k : ℕ) : ℤ) = q
  have hinside : (k * q ≤ e / a ∧ e / a < k * (q + 1)) ↔ e / ((a * k : ℕ) : ℤ) = q := by
    have hapos : (0 : ℤ) < a := Int.natCast_pos.2 ha
    have hbpos : (0 : ℤ) < ((a * k : ℕ) : ℤ) := Int.natCast_pos.2 hb
    rw [Int.le_ediv_iff_mul_le hapos, Int.ediv_lt_iff_lt_mul hapos]
    have hle := @Int.le_ediv_iff_mul_le q e _ hbpos
    have hlt := @Int.ediv_lt_iff_lt_mul e (q + 1) _ hbpos
    push_cast at hle hlt ⊢
    have h1 : (k : ℤ) * q * a = q * (a * k) := by ring
    have h2 : (k : ℤ) * (q + 1) * a = (q + 1) * (a * k) := by ring
    rw [h1, h2, ← hle, ← hlt]
    omega
  generalize e / ((a * k : ℕ) : ℤ) = q' at hinside ⊢
  generalize e / (a : ℤ) = r at hinside ⊢
  have hscale : (0 : ℤ) < a * 1000000 := by positivity
  have hsame : ((a * k : ℕ) : ℤ) * q' * 1000000 = ((a * k : ℕ) : ℤ) * q * 1000000 ↔ q' = q := by
    have hne : ((a * k : ℕ) : ℤ) ≠ 0 := (Int.natCast_pos.2 hb).ne'
    rw [mul_left_inj' (by norm_num), mul_right_inj' hne]
  rw [hsame, ← hinside]
  refine and_congr ?_ ?_
  · have hle : (a * 1000000 : ℤ) * (k * q) ≤ a * 1000000 * r ↔ k * q ≤ r :=
      mul_le_mul_iff_right₀ hscale
    rw [← hle]
    push_cast
    constructor <;> intro h <;> linarith
  · have hlt : (a * 1000000 : ℤ) * r < a * 1000000 * (k * (q + 1)) ↔ r < k * (q + 1) :=
      mul_lt_mul_iff_right₀ hscale
    rw [← hlt]
    push_cast
    constructor <;> intro h <;> linarith

end Buckets

/-! ## The fold -/

/-- The rows of a series are the fold of its ticks: one row for each bucket of the
ticks, the aggregate of the ticks in it, complete when a later row is there. -/
structure FoldOf (rows : List MarketCandle) (ticks : List Tick) (interval : ℕ) : Prop where
  ordered : (rows.map MarketCandle.startAt).Pairwise (· < ·)
  buckets : ∀ start, start ∈ rows.map MarketCandle.startAt ↔
    start ∈ ticks.map (bucket ·.time interval)
  bars : ∀ c ∈ rows, c.toBar.Aggregates
    ((ticks.filter (bucket ·.time interval = c.startAt)).map Tick.bar)
  complete : ∀ c ∈ rows, c.isComplete ↔ ∃ c' ∈ rows, c.startAt < c'.startAt

section Fold

variable {rows : List MarketCandle} {ticks : List Tick} {userId : Uuid} {t : Tick} {interval : ℕ}

theorem foldOf_nil (interval : ℕ) : FoldOf [] [] interval where
  ordered := List.Pairwise.nil
  buckets _ := Iff.rfl
  bars _ hc := absurd hc List.not_mem_nil
  complete _ hc := absurd hc List.not_mem_nil

/-- No row is later than the bucket of the last tick. -/
theorem FoldOf.startAt_le (h : FoldOf rows ticks interval) (hpos : 0 < interval)
    (hlast : ∀ t' ∈ ticks, t'.time ≤ t.time) {c : MarketCandle} (hc : c ∈ rows) :
    c.startAt ≤ bucket t.time interval := by
  obtain ⟨t', ht', heq⟩ := List.mem_map.1 ((h.buckets c.startAt).1 (List.mem_map_of_mem hc))
  rw [← heq]
  exact bucket_mono hpos (hlast t' ht')

theorem ticks_concat_of_ne {start : Time} (hne : bucket t.time interval ≠ start) :
    (ticks ++ [t]).filter (bucket ·.time interval = start) =
      ticks.filter (bucket ·.time interval = start) := by
  rw [List.filter_append, List.filter_cons_of_neg (by simpa using hne), List.filter_nil,
    List.append_nil]

theorem ticks_concat_self : (ticks ++ [t]).filter (bucket ·.time interval = bucket t.time interval) =
    ticks.filter (bucket ·.time interval = bucket t.time interval) ++ [t] := by
  rw [List.filter_append, List.filter_cons_of_pos (by simp), List.filter_nil]

/-- The first tick of a bucket. -/
theorem FoldOf.concat_new (h : FoldOf rows ticks interval)
    (hbefore : ∀ c ∈ rows, c.startAt < bucket t.time interval) {new : MarketCandle}
    (hstart : new.startAt = bucket t.time interval) (hbar : new.toBar = t.bar)
    (hopen : ¬ new.isComplete) :
    FoldOf (rows.map (fun c : MarketCandle => { c with isComplete := true }) ++ [new])
      (ticks ++ [t]) interval := by
  have hstarts : (rows.map (fun c : MarketCandle => { c with isComplete := true }) ++ [new]).map
      MarketCandle.startAt = rows.map MarketCandle.startAt ++ [bucket t.time interval] := by
    rw [List.map_append, List.map_map, List.map_singleton, hstart]
    rfl
  refine ⟨?_, fun start => ?_, fun c hc => ?_, fun c hc => ?_⟩
  · rw [hstarts]
    refine List.pairwise_append.2 ⟨h.ordered, List.pairwise_singleton .., fun a ha b hb => ?_⟩
    obtain ⟨c, hc, rfl⟩ := List.mem_map.1 ha
    rw [List.mem_singleton.1 hb]
    exact hbefore c hc
  · rw [hstarts, List.map_append, List.mem_append, List.mem_append, h.buckets]
    rfl
  · rcases List.mem_append.1 hc with hc | hc
    · obtain ⟨x, hx, rfl⟩ := List.mem_map.1 hc
      rw [ticks_concat_of_ne (hbefore x hx).ne']
      exact h.bars x hx
    · obtain rfl := List.mem_singleton.1 hc
      have hnone : ticks.filter (bucket ·.time interval = bucket t.time interval) = [] := by
        refine List.filter_eq_nil_iff.2 fun t' ht' heq => ?_
        obtain ⟨x, hx, hxstart⟩ := List.mem_map.1
          ((h.buckets _).2 (List.mem_map_of_mem (f := (bucket ·.time interval)) ht'))
        exact (hbefore x hx).ne (hxstart.trans (by simpa using heq))
      rw [hstart, ticks_concat_self, hnone, hbar]
      exact Bar.aggregates_singleton _
  · have hnew : new ∈ rows.map (fun c : MarketCandle => { c with isComplete := true }) ++ [new] :=
      List.mem_append_right _ (List.mem_singleton.2 rfl)
    rcases List.mem_append.1 hc with hc | hc
    · obtain ⟨x, hx, rfl⟩ := List.mem_map.1 hc
      exact iff_of_true rfl ⟨new, hnew, by rw [hstart]; exact hbefore x hx⟩
    · obtain rfl := List.mem_singleton.1 hc
      refine iff_of_false hopen ?_
      rintro ⟨c', hc', hlt⟩
      rcases List.mem_append.1 hc' with hc' | hc'
      · obtain ⟨x, hx, rfl⟩ := List.mem_map.1 hc'
        rw [hstart] at hlt
        exact lt_asymm hlt (hbefore x hx)
      · rw [List.mem_singleton.1 hc'] at hlt
        exact lt_irrefl _ hlt

/-- A later tick of the bucket of a row. -/
theorem FoldOf.concat_update (h : FoldOf rows ticks interval) {series : Series}
    (hseries : ∀ c ∈ rows, c.series = series) {candle : MarketCandle} (hcandle : candle ∈ rows)
    (hstart : candle.startAt = bucket t.time interval) :
    FoldOf (Rows.replaceBy MarketCandle.key (candle.update t.quote t.delta) rows) (ticks ++ [t])
      interval := by
  have hstarts : (Rows.replaceBy MarketCandle.key (candle.update t.quote t.delta) rows).map
      MarketCandle.startAt = rows.map MarketCandle.startAt :=
    Rows.map_replaceBy fun c _ hkey => (Prod.mk.inj hkey).2
  have hlater : ∀ start, (∃ c' ∈ Rows.replaceBy MarketCandle.key
      (candle.update t.quote t.delta) rows, start < c'.startAt) ↔
      ∃ c' ∈ rows, start < c'.startAt := by
    intro start
    have hmap : ∀ l : List MarketCandle, (∃ c' ∈ l, start < c'.startAt) ↔
        ∃ start' ∈ l.map MarketCandle.startAt, start < start' := by simp
    rw [hmap, hmap, hstarts]
  have hself : bucket t.time interval ∈ ticks.map (bucket ·.time interval) := by
    rw [← hstart, ← h.buckets]
    exact List.mem_map_of_mem hcandle
  refine ⟨?_, fun start => ?_, fun c hc => ?_, fun c hc => ?_⟩
  · rw [hstarts]
    exact h.ordered
  · rw [hstarts, List.map_append, List.mem_append, h.buckets, List.map_singleton,
      List.mem_singleton]
    exact (or_iff_left_of_imp fun heq => heq ▸ hself).symm
  · rcases Rows.mem_replaceBy hc with rfl | ⟨hc, hne⟩
    · have hbars := h.bars candle hcandle
      rw [hstart] at hbars
      change ((candle.toBar.merge t.bar).Aggregates
        (((ticks ++ [t]).filter (bucket ·.time interval = candle.startAt)).map Tick.bar))
      rw [hstart, ticks_concat_self, List.map_append]
      exact hbars.concat t.bar
    · have hother : c.startAt ≠ bucket t.time interval := fun heq =>
        hne (Prod.ext ((hseries c hc).trans (hseries candle hcandle).symm) (heq.trans hstart.symm))
      rw [ticks_concat_of_ne hother.symm]
      exact h.bars c hc
  · rw [hlater]
    rcases Rows.mem_replaceBy hc with rfl | ⟨hc, -⟩
    · exact h.complete candle hcandle
    · exact h.complete c hc

/-- **One tick** that is not before the others. -/
theorem FoldOf.ingestInterval (h : FoldOf rows ticks interval) (hpos : 0 < interval)
    (hseries : ∀ c ∈ rows, c.series = ⟨userId, t.quote.instrumentId, interval⟩)
    (hlast : ∀ t' ∈ ticks, t'.time ≤ t.time) :
    FoldOf (ingestInterval userId t.quote t.delta rows interval) (ticks ++ [t]) interval := by
  have hle := fun c hc => h.startAt_le hpos hlast (c := c) hc
  unfold GnkAlgo.ingestInterval
  dsimp only
  split
  · rename_i hfind
    have hbefore : ∀ c ∈ rows, c.startAt < bucket t.time interval := by
      refine fun c hc => lt_of_le_of_ne (hle c hc) fun heq => ?_
      exact List.find?_eq_none.1 hfind c hc (by simpa using Prod.ext (hseries c hc) heq)
    have hall : rows.map (·.completedBefore ⟨userId, t.quote.instrumentId, interval⟩
        (bucket t.quote.exchangeTimestamp interval)) =
        rows.map fun c : MarketCandle => { c with isComplete := true } := by
      refine List.map_congr_left fun c hc => ?_
      unfold MarketCandle.completedBefore
      split
      · rfl
      · rename_i hnot
        have hcomplete : c.isComplete = true := by
          by_contra hopen
          exact hnot ⟨hseries c hc, hopen, hbefore c hc⟩
        rw [← hcomplete]
    rw [hall]
    exact h.concat_new hbefore rfl rfl (by simp [newCandle])
  · rename_i candle hfind
    have hkey : candle.key = (⟨userId, t.quote.instrumentId, interval⟩,
        bucket t.quote.exchangeTimestamp interval) := by simpa using List.find?_some hfind
    exact h.concat_update hseries (List.mem_of_find?_eq_some hfind) (Prod.mk.inj hkey).2

end Fold

/-! ## Rolling up -/

/-- The candles of a series that start in a stretch. -/
def startingIn (start width : Time) (rows : List MarketCandle) : List MarketCandle :=
  rows.filter fun c => start ≤ c.startAt ∧ c.startAt < start + width

section RollUp

variable {rows rows' : List MarketCandle} {ticks : List Tick} {a b : ℕ}

/-- The ticks in a bucket of `b` are those in the buckets of `a` that start in it. -/
theorem FoldOf.mem_starts_iff (ha : FoldOf rows ticks a) (hb : FoldOf rows' ticks b)
    (hapos : 0 < a) (hbpos : 0 < b) (hdvd : a ∣ b) {c : MarketCandle} (hc : c ∈ rows') {t : Tick}
    (ht : t ∈ ticks) : bucket t.time b = c.startAt ↔
      bucket t.time a ∈ (startingIn c.startAt (b * 1000000) rows).map MarketCandle.startAt := by
  obtain ⟨t0, -, hstart⟩ := List.mem_map.1 ((hb.buckets c.startAt).1 (List.mem_map_of_mem hc))
  rw [← hstart, ← bucket_inside hapos hbpos hdvd]
  constructor
  · intro h
    obtain ⟨x, hx, hxstart⟩ := List.mem_map.1
      ((ha.buckets _).2 (List.mem_map_of_mem (f := (bucket ·.time a)) ht))
    refine List.mem_map.2 ⟨x, List.mem_filter.2 ⟨hx, ?_⟩, hxstart⟩
    rw [hxstart]
    exact decide_eq_true h
  · intro h
    obtain ⟨x, hx, hxstart⟩ := List.mem_map.1 h
    rw [← hxstart]
    exact of_decide_eq_true (List.mem_filter.1 hx).2

/-- **A candle is the aggregate of those of a finer interval.** -/
theorem FoldOf.rollUp (ha : FoldOf rows ticks a) (hb : FoldOf rows' ticks b) (hapos : 0 < a)
    (hbpos : 0 < b) (hdvd : a ∣ b) (hsorted : ticks.Pairwise fun t t' => t.time ≤ t'.time)
    {c : MarketCandle} (hc : c ∈ rows') :
    c.toBar.Aggregates ((startingIn c.startAt (b * 1000000) rows).map MarketCandle.toBar) := by
  have hbuckets : ticks.Pairwise fun t t' => bucket t.time a ≤ bucket t'.time a :=
    hsorted.imp fun h => bucket_mono hapos h
  have hstarts : ((startingIn c.startAt (b * 1000000) rows).map MarketCandle.startAt).Pairwise
      (· < ·) := ha.ordered.sublist (List.filter_sublist.map _)
  have hsame : ticks.filter (bucket ·.time b = c.startAt) =
      (((startingIn c.startAt (b * 1000000) rows).map MarketCandle.startAt).map
        fun start => ticks.filter (bucket ·.time a = start)).flatten := by
    rw [← filter_mem_eq_flatten hbuckets hstarts]
    refine List.filter_congr fun t ht => ?_
    rw [decide_eq_decide]
    exact ha.mem_starts_iff hb hapos hbpos hdvd hc ht
  have hwhole := combine_eq_some_iff.2 (hb.bars c hc)
  let parts := (startingIn c.startAt (b * 1000000) rows).map MarketCandle.toBar
  rw [hsame, List.map_flatten, List.map_map, List.map_map,
    combine_flatten (?_ : List.Forall₂ _ _ parts)] at hwhole
  · exact combine_aggregates hwhole
  · rw [List.forall₂_map_left_iff, List.forall₂_map_right_iff, List.forall₂_same]
    intro x hx
    exact combine_eq_some_iff.2 (ha.bars x (List.mem_filter.1 hx).1)

end RollUp

/-! ## Runs -/

section Runs

variable {intervals : CandleIntervals} {userId instrumentId : Uuid}

theorem quotesOf_concat (events : List CandleEvent) (e : CandleEvent) :
    quotesOf userId instrumentId (events ++ [e]) =
      quotesOf userId instrumentId events ++ quotesOf userId instrumentId [e] :=
  List.filterMap_append

/-- **The rows of a run** are the folds of its ticks. -/
theorem foldOf_run (a : CandleAggregator) (events : List CandleEvent)
    (hsorted : (quotesOf userId instrumentId events).Pairwise
      fun q q' => q.exchangeTimestamp ≤ q'.exchangeTimestamp)
    {interval : ℕ} (hinterval : interval ∈ intervals.values) :
    FoldOf (rowsOf ⟨userId, instrumentId, interval⟩
        (events.foldl (candleStep intervals) ⟨a, []⟩).rows)
      (ticksOf userId instrumentId a events) interval := by
  induction events using List.reverseRecOn with
  | nil => exact foldOf_nil interval
  | append_singleton events e ih =>
    rw [quotesOf_concat] at hsorted
    have hrest := ih (List.pairwise_append.1 hsorted).1
    rw [List.foldl_append, List.foldl_cons, List.foldl_nil, ticksOf_concat]
    cases e with
    | restart => simpa [candleStep, CandleEvent.tick?] using hrest
    | ingest user quote =>
      rw [candleStep, rowsOf_ingest, aggregator_foldl, CandleEvent.tick?]
      by_cases hthis : user = userId ∧ quote.instrumentId = instrumentId
      · obtain ⟨rfl, rfl⟩ := hthis
        rw [if_pos ⟨rfl, rfl, hinterval⟩, if_pos ⟨rfl, rfl⟩]
        refine hrest.ingestInterval (t := ⟨quote, _⟩) (intervals.positive _ hinterval)
          (fun c hc => (mem_rowsOf.1 hc).2) fun t' ht' => ?_
        have hquote : t'.quote ∈ quotesOf user quote.instrumentId events := by
          rw [← ticksOf_quotes a]
          exact List.mem_map_of_mem ht'
        exact (List.pairwise_append.1 hsorted).2.2 _ hquote quote (by simp [quotesOf])
      · rw [if_neg fun h => hthis ⟨h.1.symm, h.2.1.symm⟩, if_neg hthis, Option.toList_none,
          List.append_nil]
        exact hrest

/-- **Candles are the folds of the quotes.**  After a run on an empty table with
the quotes of the user's instrument in the order of their exchange times, and with
quotes of others and restarts anywhere between them: in every interval the rows are
the folds of the ticks, and every candle is the aggregate of the candles of each
finer interval that start in it. -/
theorem candles_fold (intervals : CandleIntervals) (a : CandleAggregator)
    (events : List CandleEvent) (userId instrumentId : Uuid)
    (hsorted : (quotesOf userId instrumentId events).Pairwise
      fun q q' => q.exchangeTimestamp ≤ q'.exchangeTimestamp) :
    (ticksOf userId instrumentId a events).map Tick.quote = quotesOf userId instrumentId events ∧
    (∀ interval ∈ intervals.values,
      FoldOf (rowsOf ⟨userId, instrumentId, interval⟩
          (events.foldl (candleStep intervals) ⟨a, []⟩).rows)
        (ticksOf userId instrumentId a events) interval) ∧
    ∀ fine ∈ intervals.values, ∀ coarse ∈ intervals.values, fine ∣ coarse →
      ∀ c ∈ rowsOf ⟨userId, instrumentId, coarse⟩
          (events.foldl (candleStep intervals) ⟨a, []⟩).rows,
        c.toBar.Aggregates ((startingIn c.startAt (coarse * 1000000)
          (rowsOf ⟨userId, instrumentId, fine⟩
            (events.foldl (candleStep intervals) ⟨a, []⟩).rows)).map MarketCandle.toBar) := by
  refine ⟨ticksOf_quotes a events, fun interval hinterval => foldOf_run a events hsorted hinterval,
    fun fine hfine coarse hcoarse hdvd c hc => ?_⟩
  have hticks : (ticksOf userId instrumentId a events).Pairwise fun t t' => t.time ≤ t'.time := by
    rw [← ticksOf_quotes a, List.pairwise_map] at hsorted
    exact hsorted
  exact (foldOf_run a events hsorted hfine).rollUp (foldOf_run a events hsorted hcoarse)
    (intervals.positive _ hfine) (intervals.positive _ hcoarse) hdvd hticks hc

/-- Minutes and pairs of minutes. -/
def twoIntervals : CandleIntervals where
  values := [60, 120]

theorem candles_fold_restart :
    ((quotesOf 7 3 [.ingest 7 (quoteAt 10 100), .restart, .ingest 7 (quoteAt 70 101)]).Pairwise
      fun q q' => q.exchangeTimestamp ≤ q'.exchangeTimestamp) ∧
    FoldOf (rowsOf ⟨7, 3, 120⟩ (([.ingest 7 (quoteAt 10 100), .restart, .ingest 7 (quoteAt 70 101)] :
        List CandleEvent).foldl (candleStep twoIntervals) ⟨{}, []⟩).rows)
      (ticksOf 7 3 {} [.ingest 7 (quoteAt 10 100), .restart, .ingest 7 (quoteAt 70 101)]) 120 := by
  have hsorted : (quotesOf 7 3 [.ingest 7 (quoteAt 10 100), .restart,
      .ingest 7 (quoteAt 70 101)]).Pairwise
      fun q q' => q.exchangeTimestamp ≤ q'.exchangeTimestamp := by decide +kernel
  exact ⟨hsorted, (candles_fold twoIntervals {} _ 7 3 hsorted).2.1 120 (by decide)⟩

end Runs

end GnkAlgo
