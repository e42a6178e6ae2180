import GnkAlgo.Market.Candles

/-!
# The volume of a series of candles

The volumes of the candles of a series add up to what the quotes of its user and
instrument have added.  A quote without a volume counts as one of 0, so that the
next one that reports its volume adds all of it.

* `volume_foldl` — the volume of a series after a run;
* `growth_eq` — what quotes add: the growth of the reported volume and `surplus`;
* `candle_volume_iff` — when the volumes add up to the growth alone.
-/

namespace GnkAlgo

/-! ## What the quotes add -/

/-- What a quote with volume `volume` adds, after one that left `last`. -/
def volumeGrowth (last volume : Option ℚ) : ℚ :=
  let cumulative := volume.getD 0
  let previous := last.getD cumulative
  if previous ≤ cumulative then max 0 (cumulative - previous) else 0

/-- What the quotes with some volumes add. -/
def growth : Option ℚ → List (Option ℚ) → ℚ
  | _, [] => 0
  | last, volume :: volumes => volumeGrowth last volume + growth (some (volume.getD 0)) volumes

theorem volumeDelta_eq (a : CandleAggregator) (userId : Uuid) (quote : MarketQuote) :
    a.volumeDelta userId quote =
      volumeGrowth (a.lastVolume (userId, quote.instrumentId)) quote.volume := rfl

/-- The volumes of the quotes of a user and an instrument. -/
def volumesOf (userId instrumentId : Uuid) (quotes : List (Uuid × MarketQuote)) :
    List (Option ℚ) :=
  (quotes.filter fun e => e.1 = userId ∧ e.2.instrumentId = instrumentId).map (·.2.volume)

/-- The volume of a series. -/
def seriesVolume (series : Series) (rows : List MarketCandle) : ℚ :=
  ((rowsOf series rows).map (·.volume)).sum

/-- The quotes of a run, by one aggregator. -/
def ingestAll (intervals : CandleIntervals) (s : CandleRun) (quotes : List (Uuid × MarketQuote)) :
    CandleRun :=
  quotes.foldl (fun s e => ingest intervals s e.1 e.2) s

section Series

variable {userId : Uuid} {quote : MarketQuote} {delta : ℚ} {rows : List MarketCandle}
  {interval : ℕ} {series : Series}

/-- A candle of the quote's series takes what the quote adds. -/
theorem sum_ingestInterval (hkeys : (rows.map MarketCandle.key).Nodup) :
    ((ingestInterval userId quote delta rows interval).map (·.volume)).sum =
      (rows.map (·.volume)).sum + delta := by
  unfold ingestInterval
  dsimp only
  split
  · have hkept : rows.map ((fun c : MarketCandle => c.volume) ∘
        (·.completedBefore ⟨userId, quote.instrumentId, interval⟩
          (bucket quote.exchangeTimestamp interval))) = rows.map (·.volume) := by
      refine List.map_congr_left fun c _ => ?_
      rw [Function.comp_apply]
      unfold MarketCandle.completedBefore
      split <;> rfl
    rw [List.map_append, List.sum_append, List.map_map, hkept]
    simp [newCandle, Bars.Bar.ofTrade]
  · rename_i candle hfind
    rw [Rows.sum_replaceBy hkeys (List.mem_of_find?_eq_some hfind)
      (candle.update_key quote delta).symm]
    unfold MarketCandle.update
    ring

/-- The series of a quote that the configuration has an interval for. -/
theorem seriesVolume_ingest {intervals : CandleIntervals} {s : CandleRun}
    (hkeys : (s.rows.map MarketCandle.key).Nodup)
    (hinterval : series.intervalSeconds ∈ intervals.values) :
    seriesVolume series (ingest intervals s userId quote).rows =
      seriesVolume series s.rows +
        if userId = series.userId ∧ quote.instrumentId = series.instrumentId then
          volumeGrowth (s.aggregator.lastVolume (series.userId, series.instrumentId)) quote.volume
        else 0 := by
  unfold seriesVolume
  rw [rowsOf_ingest]
  by_cases hseries : userId = series.userId ∧ quote.instrumentId = series.instrumentId
  · obtain ⟨rfl, hinstrument⟩ := hseries
    rw [if_pos ⟨rfl, hinstrument.symm, hinterval⟩, if_pos ⟨rfl, hinstrument⟩, ← hinstrument,
      ← volumeDelta_eq]
    exact sum_ingestInterval (hkeys.sublist (List.filter_sublist.map _))
  · rw [if_neg fun h => hseries ⟨h.1.symm, h.2.1.symm⟩, if_neg hseries, add_zero]

theorem keys_ingest {intervals : CandleIntervals} {s : CandleRun}
    (hkeys : (s.rows.map MarketCandle.key).Nodup) :
    ((ingest intervals s userId quote).rows.map MarketCandle.key).Nodup :=
  List.foldlRecOn (motive := fun rows : List MarketCandle => (rows.map MarketCandle.key).Nodup) _ _
    hkeys fun _ hrows _ _ => keys_ingestInterval hrows

theorem lastVolume_ingest {intervals : CandleIntervals} {s : CandleRun} :
    (ingest intervals s userId quote).aggregator.lastVolume (series.userId, series.instrumentId) =
      if userId = series.userId ∧ quote.instrumentId = series.instrumentId then
        some (quote.volume.getD 0)
      else s.aggregator.lastVolume (series.userId, series.instrumentId) := by
  unfold ingest CandleAggregator.note
  simp only [Function.update_apply, Prod.mk.injEq]
  exact if_congr (and_congr eq_comm eq_comm) rfl rfl

theorem volumesOf_cons (userId instrumentId : Uuid) (e : Uuid × MarketQuote)
    (quotes : List (Uuid × MarketQuote)) :
    volumesOf userId instrumentId (e :: quotes) =
      if e.1 = userId ∧ e.2.instrumentId = instrumentId then
        e.2.volume :: volumesOf userId instrumentId quotes
      else volumesOf userId instrumentId quotes := by
  unfold volumesOf
  by_cases h : e.1 = userId ∧ e.2.instrumentId = instrumentId
  · simp [h]
  · rw [if_neg h, List.filter_cons_of_neg (by simpa using h)]

/-- **The volume of a series** after a run: what the quotes of its user and
instrument add, whatever comes between them. -/
theorem seriesVolume_ingestAll {intervals : CandleIntervals} {s : CandleRun}
    (hkeys : (s.rows.map MarketCandle.key).Nodup)
    (hinterval : series.intervalSeconds ∈ intervals.values)
    (quotes : List (Uuid × MarketQuote)) :
    seriesVolume series (ingestAll intervals s quotes).rows =
      seriesVolume series s.rows +
        growth (s.aggregator.lastVolume (series.userId, series.instrumentId))
          (volumesOf series.userId series.instrumentId quotes) := by
  induction quotes generalizing s with
  | nil => simp [ingestAll, volumesOf, growth]
  | cons e quotes ih =>
    rw [ingestAll, List.foldl_cons, ← ingestAll, ih (keys_ingest hkeys),
      seriesVolume_ingest hkeys hinterval, lastVolume_ingest, volumesOf_cons]
    split
    · rw [growth, add_assoc]
    · rw [add_zero]

end Series

/-! ## The growth of the reported volume -/

/-- The last volume reported, less the first. -/
def grown (reported : List ℚ) : ℚ := reported.getLast?.getD 0 - reported.head?.getD 0

/-- Each quote that reports its volume after one that does not adds, beyond the
growth, all that was reported before it, or its own volume if nothing was. -/
def surplus : Option ℚ → Bool → List (Option ℚ) → ℚ
  | _, _, [] => 0
  | reported, _, none :: volumes => surplus reported true volumes
  | reported, gap, some volume :: volumes =>
    (if gap then reported.getD volume else 0) + surplus (some volume) false volumes

/-- A volume that comes right after a quote without one comes after no volume but
0, and is 0 itself if it is the first. -/
def Unbroken (volumes : List (Option ℚ)) : Prop :=
  ∀ before volume after, volumes = before ++ none :: some volume :: after →
    before.reduceOption.getLast?.getD volume = 0

theorem grown_cons_cons (first second : ℚ) (reported : List ℚ) :
    grown (first :: second :: reported) = (second - first) + grown (second :: reported) := by
  simp [grown]

section Volumes

variable {reported : Option ℚ} {gap : Bool} {volumes : List (Option ℚ)}

/-- What the aggregator holds. -/
def heldVolume (reported : Option ℚ) (gap : Bool) : Option ℚ := if gap then some 0 else reported

theorem volumeGrowth_none (hpos : ∀ v ∈ reported, 0 ≤ v) :
    volumeGrowth (heldVolume reported gap) none = 0 := by
  have hheld : 0 ≤ (heldVolume reported gap).getD 0 := by
    unfold heldVolume
    split
    · exact le_rfl
    · cases reported with
      | none => exact le_rfl
      | some v => exact hpos v rfl
  unfold volumeGrowth
  simp only [Option.getD_none]
  split
  · exact max_eq_left (sub_nonpos.2 hheld)
  · rfl

theorem volumeGrowth_some {volume : ℚ} (hpos : 0 ≤ volume) (hmono : ∀ v ∈ reported, v ≤ volume) :
    volumeGrowth (heldVolume reported gap) (some volume) =
      volume - reported.getD volume + if gap then reported.getD volume else 0 := by
  have hheld : (heldVolume reported gap).getD volume ≤ volume := by
    unfold heldVolume
    split
    · exact hpos
    · cases reported with
      | none => exact le_rfl
      | some v => exact hmono v rfl
  unfold volumeGrowth
  simp only [Option.getD_some]
  rw [if_pos hheld, max_eq_right (sub_nonneg.2 hheld)]
  unfold heldVolume
  split <;> simp

/-- **What quotes add**: the growth of the reported volume, and the surplus. -/
theorem growth_eq (hpos : ∀ v ∈ reported.toList ++ volumes.reduceOption, 0 ≤ v)
    (hmono : (reported.toList ++ volumes.reduceOption).Pairwise (· ≤ ·)) :
    growth (heldVolume reported gap) volumes =
      grown (reported.toList ++ volumes.reduceOption) + surplus reported gap volumes := by
  induction volumes generalizing reported gap with
  | nil => cases reported <;> simp [growth, grown, surplus]
  | cons volume volumes ih =>
    cases volume with
    | none =>
      rw [growth, volumeGrowth_none fun v hv => hpos v (by simp [Option.mem_def.1 hv])]
      rw [List.reduceOption_cons_of_none] at hpos hmono ⊢
      rw [zero_add, surplus, ← ih hpos hmono]
      rfl
    | some volume =>
      rw [List.reduceOption_cons_of_some] at hpos hmono ⊢
      obtain ⟨-, htail, hle⟩ := List.pairwise_append.1 hmono
      have hvolume : 0 ≤ volume := hpos volume (by simp)
      have hrest : growth (heldVolume (some volume) false) volumes =
          grown ((some volume).toList ++ volumes.reduceOption) +
            surplus (some volume) false volumes :=
        ih (fun v hv => hpos v (List.mem_append_right _ hv)) htail
      have hgrown : grown (reported.toList ++ volume :: volumes.reduceOption) =
          volume - reported.getD volume + grown (volume :: volumes.reduceOption) := by
        cases reported with
        | none => simp
        | some first => exact grown_cons_cons first volume _
      rw [growth, volumeGrowth_some hvolume fun v hv => hle v (by simpa using hv) volume (by simp),
        surplus, hgrown]
      calc _ = volume - reported.getD volume + (if gap then reported.getD volume else 0) +
            growth (heldVolume (some volume) false) volumes := rfl
        _ = _ := by rw [hrest, Option.toList_some, List.singleton_append]; ring

theorem surplus_nonneg (hpos : ∀ v ∈ reported.toList ++ volumes.reduceOption, 0 ≤ v) :
    0 ≤ surplus reported gap volumes := by
  induction volumes generalizing reported gap with
  | nil => exact le_rfl
  | cons volume volumes ih =>
    cases volume with
    | none => exact ih hpos
    | some volume =>
      rw [List.reduceOption_cons_of_some] at hpos
      have hheld : 0 ≤ reported.getD volume := by
        cases reported <;> exact hpos _ (by simp)
      rw [surplus]
      refine add_nonneg ?_ (ih fun v hv => hpos v (List.mem_append_right _ hv))
      split
      · exact hheld
      · exact le_rfl

/-- There is no surplus exactly when the volumes, from here on, are unbroken. -/
theorem surplus_eq_zero_iff (hpos : ∀ v ∈ reported.toList ++ volumes.reduceOption, 0 ≤ v) :
    surplus reported gap volumes = 0 ↔
      (∀ volume after, gap → volumes = some volume :: after → reported.getD volume = 0) ∧
      ∀ before volume after, volumes = before ++ none :: some volume :: after →
        ((reported.toList ++ before.reduceOption).getLast?).getD volume = 0 := by
  induction volumes generalizing reported gap with
  | nil => simp [surplus]
  | cons volume volumes ih =>
    cases volume with
    | none =>
      rw [surplus, ih hpos]
      constructor
      · rintro ⟨hnext, hlater⟩
        refine ⟨(fun _ _ _ h => nomatch h), fun before volume after hsplit => ?_⟩
        cases before with
        | nil =>
          obtain ⟨-, rfl⟩ := List.cons.inj hsplit
          have := hnext volume after rfl rfl
          cases reported <;> simpa using this
        | cons first before =>
          obtain ⟨rfl, hrest⟩ := List.cons.inj hsplit
          exact hlater before volume after hrest
      · rintro ⟨-, hlater⟩
        refine ⟨fun volume after _ hhead => ?_, fun before volume after hsplit => ?_⟩
        · have := hlater [] volume after (by rw [hhead]; rfl)
          cases reported <;> simpa using this
        · exact hlater (none :: before) volume after (by rw [hsplit]; rfl)
    | some first =>
      rw [List.reduceOption_cons_of_some] at hpos
      have hheld : 0 ≤ reported.getD first := by
        cases reported <;> exact hpos _ (by simp)
      have htail : ∀ v ∈ (some first).toList ++ volumes.reduceOption, 0 ≤ v :=
        fun v hv => hpos v (List.mem_append_right _ hv)
      rw [surplus, add_eq_zero_iff_of_nonneg (by split <;> simp [hheld]) (surplus_nonneg htail),
        ih htail]
      have hlast : ∀ before : List (Option ℚ), ∀ volume,
          ((reported.toList ++ (some first :: before).reduceOption).getLast?).getD volume =
            (((some first).toList ++ before.reduceOption).getLast?).getD volume := by
        intro before volume
        rw [List.reduceOption_cons_of_some]
        cases reported <;> simp
      constructor
      · rintro ⟨hnow, -, hlater⟩
        refine ⟨fun volume after hgap hhead => ?_, fun before volume after hsplit => ?_⟩
        · obtain ⟨hvolume, -⟩ := List.cons.inj hhead
          rw [if_pos hgap] at hnow
          rw [← Option.some.inj hvolume, hnow]
        · cases before with
          | nil => nomatch (List.cons.inj hsplit).1
          | cons second before =>
            obtain ⟨rfl, hrest⟩ := List.cons.inj hsplit
            rw [hlast]
            exact hlater before volume after hrest
      · rintro ⟨hnow, hlater⟩
        refine ⟨?_, (fun _ _ h => nomatch h), fun before volume after hsplit => ?_⟩
        · split
          · rename_i hgap
            exact hnow first volumes hgap rfl
          · rfl
        · rw [← hlast]
          exact hlater (some first :: before) volume after (by rw [hsplit]; rfl)

end Volumes

/-- **When the volumes of candles telescope.**  One aggregator, quotes of any users
and instruments, an empty table: where the volumes reported do not decrease, the
volumes of an interval's candles add up to the last less the first exactly when
no quote that reports its volume comes right after one that does not, unless
nothing but 0 was reported before it. -/
theorem candle_volume_iff (intervals : CandleIntervals) (quotes : List (Uuid × MarketQuote))
    (series : Series) (hinterval : series.intervalSeconds ∈ intervals.values)
    (hmono : (volumesOf series.userId series.instrumentId quotes).reduceOption.Pairwise (· ≤ ·)) :
    seriesVolume series (ingestAll intervals ⟨{}, []⟩ quotes).rows =
        grown (volumesOf series.userId series.instrumentId quotes).reduceOption ↔
      Unbroken (volumesOf series.userId series.instrumentId quotes) := by
  have hpos : ∀ v ∈ (none : Option ℚ).toList ++
      (volumesOf series.userId series.instrumentId quotes).reduceOption, 0 ≤ v := by
    intro v hv
    obtain ⟨e, -, hvolume⟩ := List.mem_map.1 (List.reduceOption_mem_iff.1 hv)
    exact e.2.volume_nonneg v hvolume
  have hgrowth :
      growth (heldVolume none false) (volumesOf series.userId series.instrumentId quotes) =
      grown ((none : Option ℚ).toList ++
        (volumesOf series.userId series.instrumentId quotes).reduceOption) +
        surplus none false (volumesOf series.userId series.instrumentId quotes) :=
    growth_eq hpos hmono
  have hvolume := seriesVolume_ingestAll (s := ⟨{}, []⟩) List.nodup_nil hinterval quotes
  have hempty : seriesVolume series [] = 0 := rfl
  calc _ ↔ grown (volumesOf series.userId series.instrumentId quotes).reduceOption +
        surplus none false (volumesOf series.userId series.instrumentId quotes) =
          grown (volumesOf series.userId series.instrumentId quotes).reduceOption := by
        rw [hvolume, hempty, zero_add]
        exact iff_of_eq (congrArg (· = _) hgrowth)
    _ ↔ surplus none false (volumesOf series.userId series.instrumentId quotes) = 0 := add_eq_left
    _ ↔ _ := (surplus_eq_zero_iff hpos).trans
        (and_iff_right fun _ _ h => absurd h Bool.false_ne_true)

/-- A quote with a volume or without. -/
def quoteOf (volume : Option ℚ) (h : ∀ v ∈ volume, 0 ≤ v := by simp) : Uuid × MarketQuote :=
  (7, { quoteAt 10 100 hundred_pos with volume := volume, volume_nonneg := h })

theorem candle_volume_iff_steady :
    seriesVolume ⟨7, 3, 60⟩ (ingestAll oneMinute ⟨{}, []⟩
        [quoteOf none, quoteOf (some 0), quoteOf (some 5), quoteOf none]).rows =
        grown (volumesOf 7 3
          [quoteOf none, quoteOf (some 0), quoteOf (some 5), quoteOf none]).reduceOption ↔
      Unbroken (volumesOf 7 3 [quoteOf none, quoteOf (some 0), quoteOf (some 5), quoteOf none]) :=
  candle_volume_iff oneMinute _ ⟨7, 3, 60⟩ (by decide) (by decide +kernel)

/-- **A quote without a volume** between two with one: the volume of the candle is
all that was traded in the day, 110, where the volume has grown by 10. -/
theorem candle_volume_after_gap :
    (volumesOf 7 3 [quoteOf (some 100), quoteOf none, quoteOf (some 110)]).reduceOption.Pairwise
        (· ≤ ·) ∧
      seriesVolume ⟨7, 3, 60⟩ (ingestAll oneMinute ⟨{}, []⟩
        [quoteOf (some 100), quoteOf none, quoteOf (some 110)]).rows = 110 ∧
      grown (volumesOf 7 3
        [quoteOf (some 100), quoteOf none, quoteOf (some 110)]).reduceOption = 10 := by
  decide +kernel

end GnkAlgo
