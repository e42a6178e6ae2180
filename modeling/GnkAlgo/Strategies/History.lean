import GnkAlgo.Lib.Runs
import GnkAlgo.Strategies.EvaluationSteps
import GnkAlgo.Strategies.Routes

/-!
# The history of a strategy

A strategy is edited field by field, and every accepted edit writes a version.  The
run of an evaluation names the version it was made under.

* `StrategyTables.Recorded` — the versions of every strategy are numbered from one to
  its current version, and that one is what the strategy is;
* `recorded_strategyStep` — every request and every evaluation keeps that;
* `strategy_history_faithful` — and so does every run of the engine; no version ever
  changes, and every evaluation has used the version its run names.
-/

namespace GnkAlgo

open StrategyExecutor Transition Upserts

/-! ## Versions in step with strategies -/

namespace StrategyTables

/-- The versions of a strategy, in the order in which they were written. -/
def historyOf (t : StrategyTables) (strategyId : Uuid) : List StrategyVersion :=
  t.versions.filter fun v => v.strategyId = strategyId

/-- What a strategy's versions have to say of it. -/
structure RecordedIn (versions : List StrategyVersion) (s : Strategy) : Prop where
  numbered : versions.map StrategyVersion.version = List.range' 1 s.version
  current : ∃ row ∈ versions, row.version = s.version ∧ row.definition = strategyDefinition s

structure Recorded (t : StrategyTables) : Prop where
  ids : (t.strategies.map Strategy.id).Nodup
  strategyUuids : ∀ s ∈ t.strategies, s.id < t.nextUuid
  versionUuids : ∀ v ∈ t.versions, v.strategyId < t.nextUuid
  history : ∀ s ∈ t.strategies, RecordedIn (t.historyOf s.id) s

variable {t u : StrategyTables}

theorem RecordedIn.congr {versions : List StrategyVersion} {s s' : Strategy}
    (h : RecordedIn versions s) (hs : s'.settled = s.settled) : RecordedIn versions s' := by
  simp only [Strategy.settled, Prod.mk.injEq] at hs
  obtain ⟨-, -, -, hversion, hdefinition⟩ := hs
  obtain ⟨row, hrow, hcurrent⟩ := h.current
  exact ⟨hversion ▸ h.numbered, row, hrow, by rw [hversion, hdefinition]; exact hcurrent⟩

/-- The version a strategy is at, one number up. -/
theorem RecordedIn.concat {versions : List StrategyVersion} {s edited : Strategy} {userId : Uuid}
    (h : RecordedIn versions s) (hversion : edited.version = s.version + 1) :
    RecordedIn (versions ++ [versionOf edited userId]) edited where
  numbered := by
    rw [List.map_append, h.numbered, hversion, List.range'_concat, Nat.one_mul, Nat.add_comm 1]
    simp [versionOf, hversion]
  current := ⟨versionOf edited userId, by simp, rfl, rfl⟩

theorem recordedIn_first {s : Strategy} {userId : Uuid} (hversion : s.version = 1) :
    RecordedIn [versionOf s userId] s where
  numbered := by simp [versionOf, hversion]
  current := ⟨versionOf s userId, by simp, rfl, rfl⟩

theorem Recorded.quiet (h : t.Recorded) (hq : t.Quiet u) : u.Recorded where
  ids := hq.ids ▸ h.ids
  strategyUuids := by
    intro s' hs'
    obtain ⟨s, hs, hsettled⟩ := hq.exists_of_mem hs'
    have hid : s'.id = s.id := (congrArg Prod.fst hsettled).symm
    exact hid ▸ (h.strategyUuids s hs).trans_le hq.nextUuid
  versionUuids v hv := (h.versionUuids v (hq.versions ▸ hv)).trans_le hq.nextUuid
  history := by
    intro s' hs'
    obtain ⟨s, hs, hsettled⟩ := hq.exists_of_mem hs'
    have hid : s'.id = s.id := (congrArg Prod.fst hsettled).symm
    rw [historyOf, hq.versions, hid]
    exact (h.history s hs).congr hsettled.symm

theorem Recorded.claim (h : t.Recorded) (strategy : Strategy) (candleStart now : Time) :
    (StrategyExecutor.claim t strategy candleStart now).Recorded := by
  have hinsert : ∀ run, (t.insertRun run).Recorded := fun run =>
    ⟨h.ids, fun s hs => (h.strategyUuids s hs).trans_le (Nat.le_succ _),
      fun v hv => (h.versionUuids v hv).trans_le (Nat.le_succ _), h.history⟩
  exact (hinsert _).quiet (quiet_updateStrategy _ _ fun _ => rfl)

/-- Versions of another strategy. -/
theorem historyOf_addVersion_of_ne {v : StrategyVersion} {strategyId : Uuid}
    (hne : v.strategyId ≠ strategyId) :
    (t.addVersion v).historyOf strategyId = t.historyOf strategyId :=
  Rows.filter_concat_of_neg (by simpa using hne) _

theorem historyOf_addVersion_self (v : StrategyVersion) :
    (t.addVersion v).historyOf v.strategyId = t.historyOf v.strategyId ++ [v] :=
  Rows.filter_concat_of_pos (by simp) _

/-- Identifiers with that of a new strategy. -/
theorem nodup_ids_insertStrategy (hids : (t.strategies.map Strategy.id).Nodup)
    (huuids : ∀ s ∈ t.strategies, s.id < t.nextUuid) {s : Strategy} (hid : s.id = t.nextUuid) :
    ((t.insertStrategy s).strategies.map Strategy.id).Nodup := by
  change ((t.strategies ++ [s]).map Strategy.id).Nodup
  rw [List.map_append]
  refine List.nodup_append.2 ⟨hids, List.nodup_singleton _, ?_⟩
  rintro _ hmem _ hlast rfl
  obtain ⟨s', hs', heq⟩ := List.mem_map.1 hmem
  exact (huuids s' hs').ne (heq.trans ((List.mem_singleton.1 hlast).trans hid))

theorem Recorded.create (h : t.Recorded) {s : Strategy} {userId : Uuid} (hid : s.id = t.nextUuid)
    (hversion : s.version = 1) : ((t.insertStrategy s).addVersion (versionOf s userId)).Recorded := by
  have hfresh : ∀ s' ∈ t.strategies, s'.id ≠ s.id := fun s' hs' =>
    hid ▸ (h.strategyUuids s' hs').ne
  refine ⟨nodup_ids_insertStrategy h.ids h.strategyUuids hid, ?_, ?_, ?_⟩
  · intro s' hs'
    rcases List.mem_append.1 hs' with hs' | hs'
    · exact (h.strategyUuids s' hs').trans (Nat.lt_succ_self _)
    · rw [List.mem_singleton.1 hs', hid]
      exact Nat.lt_succ_self _
  · intro v hv
    rcases List.mem_append.1 hv with hv | hv
    · exact (h.versionUuids v hv).trans (Nat.lt_succ_self _)
    · rw [List.mem_singleton.1 hv]
      exact hid.trans_lt (Nat.lt_succ_self _)
  · intro s' hs'
    rcases List.mem_append.1 hs' with hs' | hs'
    · rw [historyOf_addVersion_of_ne (hfresh s' hs').symm]
      exact h.history s' hs'
    · obtain rfl := List.mem_singleton.1 hs'
      have hnone : t.historyOf s'.id = [] := by
        refine List.filter_eq_nil_iff.2 fun v hv => ?_
        have hlt := h.versionUuids v hv
        simpa using (hid ▸ hlt.ne)
      have hhistory := (t.insertStrategy s').historyOf_addVersion_self (versionOf s' userId)
      have hbefore : (t.insertStrategy s').historyOf s'.id = [] := hnone
      change ((t.insertStrategy s').addVersion (versionOf s' userId)).historyOf s'.id =
        (t.insertStrategy s').historyOf s'.id ++ _ at hhistory
      rw [hhistory, hbefore]
      exact recordedIn_first hversion

theorem Recorded.edit (h : t.Recorded) {s edited : Strategy} {userId : Uuid}
    (hs : s ∈ t.strategies) (hid : edited.id = s.id) (hversion : edited.version = s.version + 1) :
    ((t.updateStrategy s.id fun _ => edited).addVersion (versionOf edited userId)).Recorded := by
  have hmem : ∀ s' ∈ (t.updateStrategy s.id fun _ => edited).strategies,
      s' = edited ∨ (s' ∈ t.strategies ∧ s'.id ≠ s.id) := by
    intro s' hs'
    obtain ⟨row, hrow, rfl⟩ := List.mem_map.1 hs'
    by_cases hrowId : row.id = s.id
    · exact Or.inl (if_pos hrowId)
    · rw [if_neg hrowId]
      exact Or.inr ⟨hrow, hrowId⟩
  refine ⟨?_, ?_, ?_, ?_⟩
  · have hids : (t.updateStrategy s.id fun _ => edited).strategies =
        Rows.replaceBy Strategy.id edited t.strategies :=
      updateById_eq_replaceBy (f := fun _ => edited) h.ids hs hid
    change ((t.updateStrategy s.id fun _ => edited).strategies.map Strategy.id).Nodup
    rw [hids, Rows.map_key_replaceBy]
    exact h.ids
  · intro s' hs'
    rcases hmem s' hs' with rfl | ⟨hs', -⟩
    · exact hid ▸ h.strategyUuids s hs
    · exact h.strategyUuids s' hs'
  · intro v hv
    rcases List.mem_append.1 hv with hv | hv
    · exact h.versionUuids v hv
    · rw [List.mem_singleton.1 hv]
      exact hid.trans_lt (h.strategyUuids s hs)
  · intro s' hs'
    rcases hmem s' hs' with rfl | ⟨hs', hne⟩
    · have hhistory := (t.updateStrategy s.id fun _ => s').historyOf_addVersion_self
        (versionOf s' userId)
      change ((t.updateStrategy s.id fun _ => s').addVersion (versionOf s' userId)).historyOf s'.id =
        t.historyOf s'.id ++ _ at hhistory
      rw [hhistory, hid]
      exact (h.history s hs).concat hversion
    · rw [historyOf_addVersion_of_ne fun heq => hne (heq.symm.trans hid)]
      exact h.history s' hs'

end StrategyTables

/-! ## Steps -/

section Steps

open StrategyTables

variable {settings : StrategySettings} {lib : StrategyLibraries} {intervals : CandleIntervals}
  {p : Platform}

/-- The strategies and versions of an evaluation. -/
theorem evaluate_history (settings : StrategySettings) (lib : StrategyLibraries)
    (strategy : Strategy) (candle : MarketCandle) (inputs : EvaluationInputs) (placing : Placer)
    (h : p.tables.Recorded) :
    (evaluate settings lib placing p strategy candle inputs).tables.Recorded ∧
      (evaluate settings lib placing p strategy candle inputs).tables.versions =
        p.tables.versions := by
  rcases quiet_evaluate (q := evaluate settings lib placing p strategy candle inputs) rfl with
    ⟨hsame, -⟩ | ⟨-, hquiet⟩
  · rw [hsame]
    exact ⟨h, rfl⟩
  · exact ⟨(h.claim strategy candle.startAt inputs.clock.started).quiet hquiet, hquiet.versions⟩

/-- **Every step keeps versions and strategies in step**, and only adds versions. -/
theorem recorded_strategyStep (settings : StrategySettings) (lib : StrategyLibraries)
    (intervals : CandleIntervals) (h : p.tables.Recorded) (e : StrategyEvent) :
    (strategyStep settings lib intervals p e).tables.Recorded ∧
      p.tables.versions <+: (strategyStep settings lib intervals p e).tables.versions := by
  cases e with
  | create userId instrument payload =>
    rcases createStrategy_cases (r := createStrategy lib intervals instrument p.tables userId payload)
      rfl with ⟨hsame, -⟩ | ⟨s, hs, hnew, -⟩
    · rw [strategyStep, hsame]
      exact ⟨h, List.prefix_refl _⟩
    · rw [strategyStep, hnew]
      exact ⟨h.create (hs ▸ rfl) (hs ▸ rfl), List.prefix_append ..⟩
  | update userId strategyId payload =>
    rcases updateStrategy_cases (r := updateStrategy lib intervals p.tables userId strategyId payload)
      rfl with hsame | ⟨s, hs, -, -, -, name, hbounds, -, hedit, -⟩
    · rw [strategyStep, hsame]
      exact ⟨h, List.prefix_refl _⟩
    · rw [strategyStep, hedit]
      exact ⟨h.edit hs rfl rfl, List.prefix_append ..⟩
  | activate now userId strategyId mfaEnabled confirmation =>
    rcases activate_cases (r := activate settings now p userId strategyId mfaEnabled confirmation)
      rfl with hsame | ⟨s, -, -, -, hactive⟩
    · rw [strategyStep, hsame]
      exact ⟨h, List.prefix_refl _⟩
    · rw [strategyStep, hactive]
      exact ⟨h.quiet (quiet_updateStrategy _ _ fun _ => rfl), List.prefix_refl _⟩
  | pause now userId strategyId =>
    rcases pause_cases (r := pause now p.tables userId strategyId) rfl with
      hsame | ⟨s, -, -, -, hpaused⟩
    · rw [strategyStep, hsame]
      exact ⟨h, List.prefix_refl _⟩
    · rw [strategyStep, hpaused]
      exact ⟨h.quiet (quiet_updateStrategy _ _ fun _ => rfl), List.prefix_refl _⟩
  | evaluate strategyId candle inputs placing =>
    rw [strategyStep]
    cases p.tables.strategy? strategyId with
    | none => exact ⟨h, List.prefix_refl _⟩
    | some strategy =>
      obtain ⟨hrecorded, hversions⟩ := evaluate_history settings lib strategy candle inputs
        placing h
      exact ⟨hrecorded, hversions ▸ List.prefix_refl _⟩
  | quote now userId quote => exact ⟨h, List.prefix_refl _⟩

end Steps

/-! ## Runs of the engine -/

/-- The platform, and for each run the parameters its evaluation has used. -/
structure HistoryRun where
  platform : Platform
  used : List (Uuid × StrategyDefinition) := []

/-- No strategy yet, whatever has been traded. -/
def HistoryRun.start (trading : Store) : HistoryRun where
  platform := ⟨trading, {}⟩

/-- What an event adds to the parameters used: an evaluation that claims its candle
uses those of the strategy it is called with. -/
def usedBy (p : Platform) : StrategyEvent → List (Uuid × StrategyDefinition)
  | .evaluate strategyId candle _ _ =>
    match p.tables.strategy? strategyId with
    | none => []
    | some strategy =>
      match run? p.tables strategy.id candle.startAt with
      | some _ => []
      | none => [(p.tables.nextUuid, strategyDefinition strategy)]
  | _ => []

section Runs

variable (settings : StrategySettings) (lib : StrategyLibraries) (intervals : CandleIntervals)

def historyStep (s : HistoryRun) (e : StrategyEvent) : HistoryRun where
  platform := strategyStep settings lib intervals s.platform e
  used := s.used ++ usedBy s.platform e

end Runs

/-- The version a run names holds the parameters its evaluation has used. -/
def UsesVersion (versions : List StrategyVersion) (r : StrategyRun)
    (used : Uuid × StrategyDefinition) : Prop :=
  used.1 = r.id ∧ ∃ row ∈ versions, row.strategyId = r.strategyId ∧
    row.version = r.strategyVersion ∧ row.definition = used.2

/-- **What is asked of a state**: every strategy has its versions from one to the
current one, which is what the strategy is, and every run has used its version. -/
structure HistoryRun.Faithful (s : HistoryRun) : Prop where
  numbered : ∀ strategy ∈ s.platform.tables.strategies,
    (s.platform.tables.historyOf strategy.id).map StrategyVersion.version =
      List.range' 1 strategy.version
  current : ∀ strategy ∈ s.platform.tables.strategies,
    ∃ row ∈ s.platform.tables.historyOf strategy.id, row.version = strategy.version ∧
      row.definition = strategyDefinition strategy
  used : List.Forall₂ (UsesVersion s.platform.tables.versions) s.platform.tables.runs s.used

structure HistoryRun.Sound (s : HistoryRun) : Prop where
  recorded : s.platform.tables.Recorded
  used : List.Forall₂ (UsesVersion s.platform.tables.versions) s.platform.tables.runs s.used

section RunFacts

variable {settings : StrategySettings} {lib : StrategyLibraries} {intervals : CandleIntervals}
  {s : HistoryRun}

theorem UsesVersion.congr {versions : List StrategyVersion} {r r' : StrategyRun}
    {used : Uuid × StrategyDefinition} (h : UsesVersion versions r used)
    (hr : r'.claimed = r.claimed) : UsesVersion versions r' used := by
  simp only [StrategyRun.claimed, Prod.mk.injEq] at hr
  obtain ⟨hid, hstrategy, -, hversion, -⟩ := hr
  rw [UsesVersion, hid, hstrategy, hversion]
  exact h

/-- Runs that say the same have used the same. -/
theorem forall₂_usesVersion {versions : List StrategyVersion} {runs runs' : List StrategyRun}
    {used : List (Uuid × StrategyDefinition)}
    (h : List.Forall₂ (UsesVersion versions) runs used)
    (hruns : runs'.map StrategyRun.claimed = runs.map StrategyRun.claimed) :
    List.Forall₂ (UsesVersion versions) runs' used := by
  induction h generalizing runs' with
  | nil =>
    rw [List.map_eq_nil_iff.1 hruns]
    exact .nil
  | cons hhead _ ih =>
    obtain ⟨r', rest', rfl, hr', hrest'⟩ := List.map_eq_cons_iff.1 hruns
    exact .cons (hhead.congr hr') (ih hrest')

theorem forall₂_usesVersion_mono {versions versions' : List StrategyVersion}
    {runs : List StrategyRun} {used : List (Uuid × StrategyDefinition)}
    (h : List.Forall₂ (UsesVersion versions) runs used) (hversions : versions <+: versions') :
    List.Forall₂ (UsesVersion versions') runs used :=
  h.imp fun _ _ ⟨hid, row, hrow, hrest⟩ => ⟨hid, row, hversions.subset hrow, hrest⟩

theorem sound_historyStart (trading : Store) : (HistoryRun.start trading).Sound :=
  ⟨⟨.nil, List.forall_mem_nil _, List.forall_mem_nil _, List.forall_mem_nil _⟩, .nil⟩

/-- A step that is no evaluation has only versions to add. -/
theorem HistoryRun.Sound.other (h : s.Sound) {e : StrategyEvent}
    (hruns : (strategyStep settings lib intervals s.platform e).tables.runs =
      s.platform.tables.runs) (hused : usedBy s.platform e = []) :
    (historyStep settings lib intervals s e).Sound := by
  obtain ⟨hrecorded, hversions⟩ := recorded_strategyStep settings lib intervals h.recorded e
  refine ⟨hrecorded, ?_⟩
  rw [historyStep, hused, List.append_nil]
  dsimp only
  rw [hruns]
  exact forall₂_usesVersion_mono h.used hversions

/-- An evaluation uses the parameters of the strategy it claims the candle for. -/
theorem HistoryRun.Sound.evaluate (h : s.Sound) (strategyId : Uuid) (candle : MarketCandle)
    (inputs : EvaluationInputs) (placing : Placer) :
    (historyStep settings lib intervals s (.evaluate strategyId candle inputs placing)).Sound := by
  obtain ⟨hrecorded, hversions⟩ := recorded_strategyStep settings lib intervals h.recorded
    (.evaluate strategyId candle inputs placing)
  refine ⟨hrecorded, ?_⟩
  simp only [historyStep, strategyStep, usedBy]
  cases hstrategy : s.platform.tables.strategy? strategyId with
  | none =>
    dsimp only
    rw [List.append_nil]
    exact h.used
  | some strategy =>
    dsimp only
    have hmem : strategy ∈ s.platform.tables.strategies := List.mem_of_find?_eq_some hstrategy
    rcases quiet_evaluate
      (q := StrategyExecutor.evaluate settings lib placing s.platform strategy candle inputs) rfl
      with ⟨hsame, run, hrun⟩ | ⟨hrun, hquiet⟩
    · rw [hsame, hrun]
      dsimp only
      rw [List.append_nil]
      exact h.used
    · rw [hrun]
      dsimp only
      rw [hquiet.versions]
      refine forall₂_usesVersion ?_ hquiet.runs
      obtain ⟨row, hrow, hversion, hdefinition⟩ := (h.recorded.history strategy hmem).current
      obtain ⟨hrowMem, hrowId⟩ := List.mem_filter.1 hrow
      refine List.rel_append h.used (.cons ⟨rfl, row, hrowMem, ?_⟩ .nil)
      exact ⟨of_decide_eq_true hrowId, hversion, hdefinition⟩

theorem sound_historyStep (h : s.Sound) (e : StrategyEvent) :
    (historyStep settings lib intervals s e).Sound := by
  cases e with
  | create userId instrument payload =>
    refine h.other ?_ rfl
    rw [strategyStep]
    rcases createStrategy_cases
      (r := createStrategy lib intervals instrument s.platform.tables userId payload) rfl with
      ⟨hsame, -⟩ | ⟨_, -, hnew, -⟩
    · rw [hsame]
    · rw [hnew]
      exact id rfl
  | update userId strategyId payload =>
    refine h.other ?_ rfl
    rw [strategyStep]
    rcases updateStrategy_cases
      (r := updateStrategy lib intervals s.platform.tables userId strategyId payload) rfl with
      hsame | ⟨_, -, -, -, -, _, _, -, hedit, -⟩
    · rw [hsame]
    · rw [hedit]
      exact id rfl
  | activate now userId strategyId mfaEnabled confirmation =>
    refine h.other ?_ rfl
    rw [strategyStep]
    rcases activate_cases
      (r := activate settings now s.platform userId strategyId mfaEnabled confirmation) rfl with
      hsame | ⟨_, -, -, -, hactive⟩
    · rw [hsame]
    · rw [hactive]
      exact id rfl
  | pause now userId strategyId =>
    refine h.other ?_ rfl
    rw [strategyStep]
    rcases pause_cases (r := pause now s.platform.tables userId strategyId) rfl with
      hsame | ⟨_, -, -, -, hpaused⟩
    · rw [hsame]
    · rw [hpaused]
      exact id rfl
  | evaluate strategyId candle inputs placing => exact h.evaluate strategyId candle inputs placing
  | quote now userId quote => exact h.other rfl rfl

theorem sound_history {trading : Store} {events : List StrategyEvent} :
    (events.foldl (historyStep settings lib intervals) (HistoryRun.start trading)).Sound := by
  induction events using List.reverseRecOn with
  | nil => exact sound_historyStart trading
  | append_singleton events e ih =>
    rw [List.foldl_append]
    exact sound_historyStep ih e

/-- No version changes on the way from one state of a run to a later one. -/
theorem versions_foldl_historyStep (h : s.Sound) (events : List StrategyEvent) :
    s.platform.tables.versions <+:
      (events.foldl (historyStep settings lib intervals) s).platform.tables.versions := by
  induction events generalizing s with
  | nil => exact List.prefix_refl _
  | cons e events ih =>
    have hstep := (recorded_strategyStep settings lib intervals h.recorded e).2
    exact hstep.trans (ih (sound_historyStep h e))

theorem HistoryRun.Sound.faithful (h : s.Sound) : s.Faithful where
  numbered strategy hmem := (h.recorded.history strategy hmem).numbered
  current strategy hmem := (h.recorded.history strategy hmem).current
  used := h.used

/-- A refused edit leaves everything as it was. -/
theorem historyStep_update_refused {userId strategyId : Uuid} {payload : StrategyUpdate}
    {error : HttpError}
    (h : (updateStrategy lib intervals s.platform.tables userId strategyId payload).2 =
      .error error) :
    historyStep settings lib intervals s (.update userId strategyId payload) = s := by
  have hused : usedBy s.platform (.update userId strategyId payload) = [] := rfl
  rw [historyStep, strategyStep, updateStrategy_refused h, hused, List.append_nil]

end RunFacts

/-- **The history of a strategy is faithful**: whatever requests and evaluations are
handled, one at a time, every strategy has its versions from one to the current one,
which holds what the strategy is; every run has used the version it names; a version
once written stays; and an edit that is refused changes nothing. -/
theorem strategy_history_faithful (settings : StrategySettings) (lib : StrategyLibraries)
    (intervals : CandleIntervals) (trading : Store) (events : List StrategyEvent) :
    (events.foldl (historyStep settings lib intervals) (.start trading)).Faithful ∧
    (∀ earlier later, events = earlier ++ later →
      (earlier.foldl (historyStep settings lib intervals)
          (.start trading)).platform.tables.versions <+:
        (events.foldl (historyStep settings lib intervals)
          (.start trading)).platform.tables.versions) ∧
    ∀ userId strategyId payload error,
      (updateStrategy lib intervals
          (events.foldl (historyStep settings lib intervals) (.start trading)).platform.tables
          userId strategyId payload).2 = .error error →
        historyStep settings lib intervals
            (events.foldl (historyStep settings lib intervals) (.start trading))
            (.update userId strategyId payload) =
          events.foldl (historyStep settings lib intervals) (.start trading) := by
  refine ⟨sound_history.faithful, ?_, fun _ _ _ _ => historyStep_update_refused⟩
  rintro earlier later rfl
  rw [List.foldl_append]
  exact versions_foldl_historyStep sound_history later

end GnkAlgo
