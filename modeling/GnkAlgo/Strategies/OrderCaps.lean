import GnkAlgo.Lib.Caps
import GnkAlgo.Strategies.History
import GnkAlgo.Strategies.Preview

/-!
# The order caps of strategies

An order of a strategy is placed on a count of the signals before it: those
submitted since the beginning of the day in India, and the attempts of the last
minute.  The signals change their status afterwards, and the clock moves on between
the count and the signal.

* `KeepsCaps` — the caps themselves, over every day and every minute;
* `capped_evaluate`, `capped_strategyStep` — what a step does to them;
* `order_caps_hold` — they hold after every run in which no strategy is edited.
-/

namespace GnkAlgo

open StrategyExecutor Caps

/-! ## The caps -/

namespace StrategySignal

/-- Submitted by a user's strategy on a day in India. -/
def SubmittedOn (s : StrategySignal) (userId : Uuid) (day : ℤ) : Prop :=
  s.userId = userId ∧ s.status = .orderSubmitted ∧ indianDay s.generatedAt = day

/-- An attempt of a user's strategy to order. -/
def AttemptedIn (s : StrategySignal) (userId : Uuid) (window : Set Time) : Prop :=
  s.userId = userId ∧ s.status ∈ [.created, .orderSubmitted, .rejected] ∧ s.generatedAt ∈ window

instance (s : StrategySignal) (userId : Uuid) (day : ℤ) : Decidable (s.SubmittedOn userId day) :=
  inferInstanceAs (Decidable (_ ∧ _))

instance (s : StrategySignal) (userId : Uuid) (window : Set Time)
    [Decidable (s.generatedAt ∈ window)] : Decidable (s.AttemptedIn userId window) :=
  inferInstanceAs (Decidable (_ ∧ _ ∧ _))

end StrategySignal

/-- Sixty seconds. -/
def minuteWidth : Time := 60 * 1000000

/-- On every day in India a user, and each of the strategies, has no more submitted
signals than allowed, and in every minute a user has no more attempts, whichever end
of it is left out. -/
structure KeepsCaps (settings : StrategySettings) (t : StrategyTables) : Prop where
  perUser : ∀ userId day, (t.signals.filter fun s => s.SubmittedOn userId day).length ≤
    settings.strategyMaxOrdersPerUserPerDay
  perStrategy : ∀ strategy ∈ t.strategies, ∀ day, (t.signals.filter fun s =>
    s.SubmittedOn strategy.userId day ∧ s.strategyId = strategy.id).length ≤
      strategy.maxOrdersPerDay
  perMinuteCo : ∀ userId start, (t.signals.filter fun s =>
    s.AttemptedIn userId (Set.Ico start (start + minuteWidth))).length ≤
      settings.strategyMaxOrderAttemptsPerMinute
  perMinuteOc : ∀ userId start, (t.signals.filter fun s =>
    s.AttemptedIn userId (Set.Ioc start (start + minuteWidth))).length ≤
      settings.strategyMaxOrderAttemptsPerMinute

/-! ## Days -/

theorem indianDay_mono : Monotone indianDay := by
  intro a b hab
  apply Int.ediv_le_ediv (by norm_num)
  exact Int.add_le_add_right hab _

/-- A moment is not before the beginning of a day exactly when its day is not. -/
theorem dayStartUtc_le_iff (now t : Time) : dayStartUtc now ≤ t ↔ indianDay now ≤ indianDay t := by
  unfold dayStartUtc
  generalize indianDay now = d
  rw [indianDay, Int.le_ediv_iff_mul_le (by norm_num)]
  exact sub_le_iff_le_add

/-! ## One admission -/

section Admission

variable {settings : StrategySettings} {p : Platform} {strategy : Strategy}
  {candle : MarketCandle} {inputs : EvaluationInputs} {x : StrategySignal}

/-- What has been counted where the check passes. -/
theorem orderCountCheck_eq_ok {t : StrategyTables} {day minute : Time}
    (h : orderCountCheck settings t strategy day minute = .ok ()) :
    (submittedSince t strategy.userId (dayStartUtc day)).length <
      settings.strategyMaxOrdersPerUserPerDay ∧
    ((submittedSince t strategy.userId (dayStartUtc day)).filter fun s =>
      s.strategyId = strategy.id).length < strategy.maxOrdersPerDay ∧
    (attemptsSince t strategy.userId (minute - minuteWidth)).length <
      settings.strategyMaxOrderAttemptsPerMinute := by
  unfold orderCountCheck at h
  dsimp only at h
  split_ifs at h with huser hstrategy hminute
  exact ⟨not_le.1 huser, not_le.1 hstrategy, not_le.1 hminute⟩

/-- Every signal of the day of the new one has been counted. -/
theorem counted_of_sameDay (hx : SignalOf settings p strategy candle inputs x)
    {y : StrategySignal} (hday : indianDay y.generatedAt = indianDay x.generatedAt) :
    dayStartUtc inputs.clock.day ≤ y.generatedAt := by
  rw [dayStartUtc_le_iff]
  apply covers_period indianDay_mono _ hday
  obtain ⟨-, -, hminute, hquote, hgenerated, -⟩ := inputs.clock.ordered
  rw [hx.generatedAt]
  exact hminute.trans (hquote.trans hgenerated)

/-- The reading the minute is counted back from lies before the signal. -/
theorem minute_le_generatedAt (hx : SignalOf settings p strategy candle inputs x) :
    inputs.clock.minute ≤ x.generatedAt := by
  obtain ⟨-, -, -, hquote, hgenerated, -⟩ := inputs.clock.ordered
  rw [hx.generatedAt]
  exact hquote.trans hgenerated

/-- A suppressed signal is in no window. -/
theorem not_submittedOn_of_suppressed (hx : x.status = .suppressed) (userId : Uuid) (day : ℤ) :
    ¬ x.SubmittedOn userId day := by
  rintro ⟨-, hstatus, -⟩
  cases hx.symm.trans hstatus

theorem not_attemptedIn_of_suppressed (hx : x.status = .suppressed) (userId : Uuid)
    (window : Set Time) : ¬ x.AttemptedIn userId window := by
  rintro ⟨-, hstatus, -⟩
  rw [hx] at hstatus
  simp at hstatus

/-- The day of a user, one signal on. -/
theorem perUser_concat (hx : SignalOf settings p strategy candle inputs x)
    (h : Capped settings.strategyMaxOrdersPerUserPerDay
      (fun (i : Uuid × ℤ) (s : StrategySignal) => s.SubmittedOn i.1 i.2) p.tables.signals) :
    Capped settings.strategyMaxOrdersPerUserPerDay
      (fun (i : Uuid × ℤ) (s : StrategySignal) => s.SubmittedOn i.1 i.2)
      (p.tables.signals ++ [x]) := by
  rcases hx.counted with hsuppressed | hcounted
  · apply h.pass
    intro i
    exact not_submittedOn_of_suppressed hsuppressed i.1 i.2
  · apply h.admit (orderCountCheck_eq_ok hcounted).1
    rintro ⟨userId, day⟩ ⟨huser, -, hday⟩ y - ⟨hyuser, hystatus, hyday⟩
    refine ⟨?_, hystatus, counted_of_sameDay hx (hyday.trans hday.symm)⟩
    exact hyuser.trans (huser.symm.trans hx.userId)

/-- The day of the strategy itself. -/
theorem perStrategy_concat (hx : SignalOf settings p strategy candle inputs x)
    (h : Capped strategy.maxOrdersPerDay (fun (day : ℤ) (s : StrategySignal) =>
      s.SubmittedOn strategy.userId day ∧ s.strategyId = strategy.id) p.tables.signals) :
    Capped strategy.maxOrdersPerDay (fun (day : ℤ) (s : StrategySignal) =>
      s.SubmittedOn strategy.userId day ∧ s.strategyId = strategy.id)
      (p.tables.signals ++ [x]) := by
  rcases hx.counted with hsuppressed | hcounted
  · apply h.pass
    intro day hwindow
    exact not_submittedOn_of_suppressed hsuppressed _ _ hwindow.1
  · have hcount := (orderCountCheck_eq_ok hcounted).2.1
    rw [submittedSince, List.filter_filter] at hcount
    simp only [← Bool.decide_and] at hcount
    apply h.admit hcount
    rintro day ⟨⟨-, -, hday⟩, -⟩ y - ⟨⟨hyuser, hystatus, hyday⟩, hystrategy⟩
    exact ⟨hystrategy, hyuser, hystatus, counted_of_sameDay hx (hyday.trans hday.symm)⟩

/-- A minute of a user, either end left out. -/
theorem perMinute_concat (hx : SignalOf settings p strategy candle inputs x)
    (window : Time → Set Time) [∀ start, DecidablePred (· ∈ window start)]
    (hcovers : ∀ start new earlier, inputs.clock.minute ≤ new → new ∈ window start →
      earlier ∈ window start → inputs.clock.minute - minuteWidth ≤ earlier)
    (h : Capped settings.strategyMaxOrderAttemptsPerMinute
      (fun (i : Uuid × Time) (s : StrategySignal) => s.AttemptedIn i.1 (window i.2))
      p.tables.signals) :
    Capped settings.strategyMaxOrderAttemptsPerMinute
      (fun (i : Uuid × Time) (s : StrategySignal) => s.AttemptedIn i.1 (window i.2))
      (p.tables.signals ++ [x]) := by
  rcases hx.counted with hsuppressed | hcounted
  · apply h.pass
    intro i
    exact not_attemptedIn_of_suppressed hsuppressed i.1 (window i.2)
  · apply h.admit (orderCountCheck_eq_ok hcounted).2.2
    rintro ⟨userId, start⟩ ⟨huser, -, hnew⟩ y - ⟨hyuser, hystatus, hywindow⟩
    refine ⟨?_, hystatus, hcovers start _ _ (minute_le_generatedAt hx) hnew hywindow⟩
    exact hyuser.trans (huser.symm.trans hx.userId)

end Admission

/-! ## Steps -/

variable {settings : StrategySettings} {lib : StrategyLibraries} {intervals : CandleIntervals}

/-- What is kept with the caps: identifiers that are drawn are new. -/
structure CapsSound (settings : StrategySettings) (t : StrategyTables) : Prop where
  ids : (t.strategies.map Strategy.id).Nodup
  strategyUuids : ∀ s ∈ t.strategies, s.id < t.nextUuid
  signalUuids : ∀ s ∈ t.signals, s.id < t.nextUuid
  signalStrategies : ∀ s ∈ t.signals, s.strategyId < t.nextUuid
  caps : KeepsCaps settings t

theorem keepsCaps_of_no_signals {t : StrategyTables} (h : t.signals = []) :
    KeepsCaps settings t := by
  constructor <;> simp [h]

section Kept

variable {t u : StrategyTables}

/-- The identifiers, the user and the limit of a strategy that is what it was. -/
theorem Strategy.eq_of_settled {s s' : Strategy} (h : s.settled = s'.settled) :
    s.id = s'.id ∧ s.userId = s'.userId ∧ s.maxOrdersPerDay = s'.maxOrdersPerDay := by
  simp only [Strategy.settled, Prod.mk.injEq] at h
  obtain ⟨hid, huser, -, -, hdefinition⟩ := h
  exact ⟨hid, huser, congrArg StrategyDefinition.maxOrdersPerDay hdefinition⟩

/-- Tables with the same signals, whose strategies have settled. -/
theorem CapsSound.quiet (h : CapsSound settings t) (hq : t.Quiet u)
    (hsignals : u.signals = t.signals) : CapsSound settings u where
  ids := hq.ids ▸ h.ids
  strategyUuids := by
    intro s' hs'
    obtain ⟨s, hs, hsettled⟩ := hq.exists_of_mem hs'
    rw [← (Strategy.eq_of_settled hsettled).1]
    exact (h.strategyUuids s hs).trans_le hq.nextUuid
  signalUuids s hs := (h.signalUuids s (hsignals ▸ hs)).trans_le hq.nextUuid
  signalStrategies s hs := (h.signalStrategies s (hsignals ▸ hs)).trans_le hq.nextUuid
  caps := by
    refine ⟨hsignals ▸ h.caps.perUser, ?_, hsignals ▸ h.caps.perMinuteCo,
      hsignals ▸ h.caps.perMinuteOc⟩
    intro s' hs' day
    obtain ⟨s, hs, hsettled⟩ := hq.exists_of_mem hs'
    obtain ⟨hid, huser, hmax⟩ := Strategy.eq_of_settled hsettled
    rw [hsignals, ← hid, ← huser, ← hmax]
    exact h.caps.perStrategy s hs day

/-- A new strategy has no signal yet. -/
theorem CapsSound.create (h : CapsSound settings t) {s : Strategy} {v : StrategyVersion}
    (hid : s.id = t.nextUuid) : CapsSound settings ((t.insertStrategy s).addVersion v) where
  ids := StrategyTables.nodup_ids_insertStrategy h.ids h.strategyUuids hid
  strategyUuids := by
    intro s' hs'
    rcases List.mem_append.1 hs' with hs' | hs'
    · exact (h.strategyUuids s' hs').trans (Nat.lt_succ_self _)
    · rw [List.mem_singleton.1 hs', hid]
      exact Nat.lt_succ_self _
  signalUuids x hx := (h.signalUuids x hx).trans (Nat.lt_succ_self _)
  signalStrategies x hx := (h.signalStrategies x hx).trans (Nat.lt_succ_self _)
  caps := by
    refine ⟨h.caps.perUser, ?_, h.caps.perMinuteCo, h.caps.perMinuteOc⟩
    intro s' hs' day
    rcases List.mem_append.1 hs' with hs' | hs'
    · exact h.caps.perStrategy s' hs' day
    · have hnone : t.signals.filter (fun x =>
          x.SubmittedOn s'.userId day ∧ x.strategyId = s'.id) = [] := by
        apply List.filter_eq_nil_iff.2
        intro x hx
        have hlt := h.signalStrategies x hx
        have hne : x.strategyId ≠ s'.id := by
          rw [List.mem_singleton.1 hs', hid]
          exact hlt.ne
        simp [hne]
      show (t.signals.filter _).length ≤ _
      rw [hnone]
      exact Nat.zero_le _

end Kept

section Evaluation

variable {p : Platform} {strategy : Strategy} {candle : MarketCandle} {inputs : EvaluationInputs}
  {x : StrategySignal}

/-- One signal more, on its count. -/
theorem KeepsCaps.concat (h : KeepsCaps settings p.tables)
    (hids : (p.tables.strategies.map Strategy.id).Nodup) (hstrategy : strategy ∈ p.tables.strategies)
    (hx : SignalOf settings p strategy candle inputs x) {t : StrategyTables}
    (hstrategies : t.strategies.map Strategy.settled = p.tables.strategies.map Strategy.settled)
    (hsignals : t.signals = p.tables.signals ++ [x]) : KeepsCaps settings t where
  perUser := by
    intro userId day
    rw [hsignals]
    exact perUser_concat hx (fun i => h.perUser i.1 i.2) (userId, day)
  perStrategy := by
    intro s' hs' day
    have hmem := List.mem_map_of_mem (f := Strategy.settled) hs'
    rw [hstrategies] at hmem
    obtain ⟨s, hs, hsettled⟩ := List.mem_map.1 hmem
    obtain ⟨hid, huser, hmax⟩ := Strategy.eq_of_settled hsettled
    rw [hsignals, ← hid, ← huser, ← hmax]
    by_cases hsame : s.id = strategy.id
    · obtain rfl := List.inj_on_of_nodup_map hids hs hstrategy hsame
      exact perStrategy_concat hx (h.perStrategy s hs) day
    · have hcapped : Capped s.maxOrdersPerDay (fun (day : ℤ) (y : StrategySignal) =>
          y.SubmittedOn s.userId day ∧ y.strategyId = s.id) p.tables.signals := h.perStrategy s hs
      exact hcapped.pass (fun _ hwindow => hsame (hwindow.2.symm.trans hx.strategyId)) day
  perMinuteCo := by
    intro userId start
    rw [hsignals]
    have hcapped : Capped settings.strategyMaxOrderAttemptsPerMinute
        (fun (i : Uuid × Time) (s : StrategySignal) =>
          s.AttemptedIn i.1 (Set.Ico i.2 (i.2 + minuteWidth))) p.tables.signals :=
      fun i => h.perMinuteCo i.1 i.2
    refine perMinute_concat hx (fun start => Set.Ico start (start + minuteWidth)) ?_ hcapped
      (userId, start)
    intro start new earlier hcount hnew hearlier
    exact covers_Ico hcount hnew hearlier
  perMinuteOc := by
    intro userId start
    rw [hsignals]
    have hcapped : Capped settings.strategyMaxOrderAttemptsPerMinute
        (fun (i : Uuid × Time) (s : StrategySignal) =>
          s.AttemptedIn i.1 (Set.Ioc i.2 (i.2 + minuteWidth))) p.tables.signals :=
      fun i => h.perMinuteOc i.1 i.2
    refine perMinute_concat hx (fun start => Set.Ioc start (start + minuteWidth)) ?_ hcapped
      (userId, start)
    intro start new earlier hcount hnew hearlier
    exact covers_Ioc hcount hnew hearlier

/-- **An evaluation keeps the caps**, however its placement ends. -/
theorem capped_evaluate {placing : Placer} (h : CapsSound settings p.tables)
    (hstrategy : strategy ∈ p.tables.strategies) :
    CapsSound settings (evaluate settings lib placing p strategy candle inputs).tables := by
  generalize hq : evaluate settings lib placing p strategy candle inputs = q
  rcases quiet_evaluate hq.symm with ⟨rfl, -⟩ | ⟨-, hquiet⟩
  · exact h
  have hclaimed : CapsSound settings (claimedTables p strategy candle inputs) := by
    have hinsert : ∀ run, CapsSound settings (p.tables.insertRun run) := fun run =>
      ⟨h.ids, fun s hs => (h.strategyUuids s hs).trans (Nat.lt_succ_self _),
        fun s hs => (h.signalUuids s hs).trans (Nat.lt_succ_self _),
        fun s hs => (h.signalStrategies s hs).trans (Nat.lt_succ_self _),
        ⟨h.caps.perUser, h.caps.perStrategy, h.caps.perMinuteCo, h.caps.perMinuteOc⟩⟩
    exact (hinsert _).quiet (StrategyTables.quiet_updateStrategy _ _ fun _ => rfl) rfl
  rcases evaluate_signals h.signalUuids hq.symm with hsame | ⟨x, hconcat, hx, hnew⟩
  · exact hclaimed.quiet hquiet hsame
  · have hstrategies := hquiet.strategies.trans (claimedTables_settled p strategy candle inputs)
    have hids : (q.tables.strategies.map Strategy.id).Nodup := hquiet.ids ▸ hclaimed.ids
    refine ⟨hids, ?_, ?_, ?_, h.caps.concat h.ids hstrategy hx hstrategies hconcat⟩
    · intro s' hs'
      obtain ⟨s, hs, hsettled⟩ := hquiet.exists_of_mem hs'
      rw [← (Strategy.eq_of_settled hsettled).1]
      exact (hclaimed.strategyUuids s hs).trans_le hquiet.nextUuid
    · intro s hs
      rw [hconcat] at hs
      rcases List.mem_append.1 hs with hs | hs
      · exact (hclaimed.signalUuids s hs).trans_le hquiet.nextUuid
      · rw [List.mem_singleton.1 hs]
        exact hnew
    · intro s hs
      rw [hconcat] at hs
      rcases List.mem_append.1 hs with hs | hs
      · exact (hclaimed.signalStrategies s hs).trans_le hquiet.nextUuid
      · rw [List.mem_singleton.1 hs, hx.strategyId]
        exact (h.strategyUuids strategy hstrategy).trans
          ((Nat.lt_succ_self _).trans_le hquiet.nextUuid)

end Evaluation

/-! ## Runs -/

/-- The event edits a strategy. -/
def StrategyEvent.isUpdate : StrategyEvent → Bool
  | .update .. => true
  | _ => false

/-- **Every step keeps the caps**, an edit apart. -/
theorem capped_strategyStep {p : Platform} (h : CapsSound settings p.tables) {e : StrategyEvent}
    (he : e.isUpdate = false) :
    CapsSound settings (strategyStep settings lib intervals p e).tables := by
  cases e with
  | create userId instrument payload =>
    rcases createStrategy_cases (r := createStrategy lib intervals instrument p.tables userId payload)
      rfl with ⟨hsame, -⟩ | ⟨s, hs, hnew, -⟩
    · rw [strategyStep, hsame]
      exact h
    · rw [strategyStep, hnew]
      apply h.create
      rw [hs]
      rfl
  | update userId strategyId payload => cases he
  | activate now userId strategyId mfaEnabled confirmation =>
    rcases activate_cases (r := activate settings now p userId strategyId mfaEnabled confirmation)
      rfl with hsame | ⟨s, -, -, -, hactive⟩
    · rw [strategyStep, hsame]
      exact h
    · rw [strategyStep, hactive]
      exact h.quiet (StrategyTables.quiet_updateStrategy _ _ fun _ => rfl) rfl
  | pause now userId strategyId =>
    rcases pause_cases (r := pause now p.tables userId strategyId) rfl with
      hsame | ⟨s, -, -, -, hpaused⟩
    · rw [strategyStep, hsame]
      exact h
    · rw [strategyStep, hpaused]
      exact h.quiet (StrategyTables.quiet_updateStrategy _ _ fun _ => rfl) rfl
  | evaluate strategyId candle inputs placing =>
    rw [strategyStep]
    cases hstrategy : p.tables.strategy? strategyId with
    | none => exact h
    | some strategy => exact capped_evaluate h (List.mem_of_find?_eq_some hstrategy)
  | quote now userId quote => exact h

/-- **The order caps hold.**  After any run of evaluations, whatever comes of their
placements, with strategies created, activated and paused in between but none of
them edited: on every day in India each user has no more submitted signals than
allowed, each strategy no more than its own limit, and in every minute each user no
more attempts. -/
theorem order_caps_hold (settings : StrategySettings) (lib : StrategyLibraries)
    (intervals : CandleIntervals) (p : Platform) (hvalid : p.tables.Valid)
    (hsignals : p.tables.signals = []) (events : List StrategyEvent)
    (hfixed : ∀ e ∈ events, e.isUpdate = false) :
    KeepsCaps settings (events.foldl (strategyStep settings lib intervals) p).tables := by
  have hstart : CapsSound settings p.tables := by
    refine ⟨hvalid.strategyIds, hvalid.strategyUuids, hvalid.signalUuids, ?_,
      keepsCaps_of_no_signals hsignals⟩
    intro s hs
    rw [hsignals] at hs
    cases hs
  have hrun : CapsSound settings (events.foldl (strategyStep settings lib intervals) p).tables := by
    induction events using List.reverseRecOn with
    | nil => exact hstart
    | append_singleton events e ih =>
      rw [List.foldl_append]
      apply capped_strategyStep
      · apply ih
        intro e' he'
        exact hfixed e' (List.mem_append_left _ he')
      · exact hfixed e (by simp)
  exact hrun.caps

/-- One attempt to order a minute. -/
def oneAttemptSettings : StrategySettings :=
  { paperStrategySettings with
    strategyMaxOrderAttemptsPerMinute := 1
    strategyMaxOrderAttemptsPerMinute_mem := ⟨le_rfl, Nat.one_le_ofNat⟩ }

/-- The engine with two active strategies on one instrument. -/
def twoStrategies : Platform where
  trading := .empty
  tables := {
    strategies := [twoThreeStrategy, { twoThreeStrategy with id := 6, name := "SMA again" }]
    nextUuid := 8 }

/-- An evaluation whose process dies once the order is committed. -/
def dyingEvaluation (strategyId : Uuid) : StrategyEvent :=
  .evaluate strategyId (minuteCandle 240 12)
    { inputsAfter steadyCandles with
      latest := .ok (some (quoteOfTwelve (301 * 1000000))) }
    fun s _ _ _ _ => ⟨s, true, none⟩

/-- Both strategies are evaluated in one second; the second gets no order. -/
def dyingEvaluations : List StrategyEvent := [dyingEvaluation 5, dyingEvaluation 6]

theorem order_caps_hold_dyingEvaluations :
    KeepsCaps oneAttemptSettings (dyingEvaluations.foldl
      (strategyStep oneAttemptSettings ⟨id, fun _ => "0000000000"⟩ oneMinute)
      twoStrategies).tables ∧
    (dyingEvaluations.foldl (strategyStep oneAttemptSettings ⟨id, fun _ => "0000000000"⟩ oneMinute)
      twoStrategies).tables.signals.map (fun s => (s.strategyId, s.status)) = [(5, .created)] :=
  ⟨order_caps_hold _ _ _ _ (by decide +kernel) rfl _ (by decide), by decide +kernel⟩

end GnkAlgo
