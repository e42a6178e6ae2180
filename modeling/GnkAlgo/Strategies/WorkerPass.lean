import GnkAlgo.Strategies.Constraints
import GnkAlgo.Strategies.Preview
import GnkAlgo.Strategies.Routes
import GnkAlgo.Lib.Runs

/-!
# The passes of the strategy worker

`run_once` of `backend/app/strategies/worker.py` next to the requests of the API.  A
pass loads all active strategies at once and works on these copies: no commit, its own
or another's, refreshes them.  Only a rollback has them read again, each when its turn
comes.  A pause in between is not seen.

* `LoadedStrategy` — a copy in the session of a pass;
* `workerStep` — a statement of the worker that commits or decides, or a request;
* `PausedInTime` — when a pause does not come under a copy that is still to be used;
* `pauses_hold` — where all pauses do, nothing is ordered for a strategy that was paused
  before the claim, and it stays paused.
-/

namespace GnkAlgo

open StrategyExecutor Transition Upserts

/-! ## The session of a pass -/

/-- A strategy that waits in a pass: its row as it was read, or none where it has to be
read again. -/
structure LoadedStrategy where
  id : Uuid
  row : Option Strategy
  deriving DecidableEq

/-- How far the loop has come with a strategy. -/
inductive VisitStage
  /-- It has an incomplete run, or an unresolved signal. -/
  | incomplete
  /-- It has a candle to claim. -/
  | due (candle : MarketCandle)
  /-- Its candle is claimed, perhaps while the row said PAUSED. -/
  | claimed (candle : MarketCandle) (runId : Uuid) (whilePaused : Bool)
  deriving DecidableEq

/-- The strategy that is worked on, with the copy of it. -/
structure Visit where
  strategy : Strategy
  stage : VisitStage
  deriving DecidableEq

/-- The worker and the tables. -/
structure StrategyWorker where
  platform : Platform
  queue : List LoadedStrategy := []
  visit : Option Visit := none

/-! ## The statements of `run_once` -/

/-- The status of a strategy's row. -/
def StrategyTables.statusOf (t : StrategyTables) (id : Uuid) : Option StrategyStatus :=
  (t.strategy? id).map Strategy.status

/-- `stranded or unresolved`. -/
def StrategyTables.Incomplete (t : StrategyTables) (strategyId : Uuid) : Prop :=
  (∃ r ∈ t.runs, r.strategyId = strategyId ∧ r.status = .started) ∨
    ∃ s ∈ t.signals, s.strategyId = strategyId ∧ s.status = .created

instance (t : StrategyTables) (strategyId : Uuid) : Decidable (t.Incomplete strategyId) :=
  inferInstanceAs (Decidable (_ ∨ _))

/-- What the queries of the loop find. -/
def stageOf (t : StrategyTables) (rows : List MarketCandle) (strategy : Strategy) :
    Option VisitStage :=
  if t.Incomplete strategy.id then some .incomplete
  else
    match (completeCandles rows (seriesOf strategy)).head? with
    | none => none
    | some candle =>
      if (run? t strategy.id candle.startAt).isSome then none else some (.due candle)

def incompleteSignal : String := "INCOMPLETE_SIGNAL_REQUIRES_RECONCILIATION"

/-- The error of an incomplete strategy; of its columns those are written that differ
from the copy. -/
def markIncomplete (t : StrategyTables) (copy : Strategy) : StrategyTables :=
  t.updateStrategy copy.id fun s => { s with
    status := if copy.status = .error then s.status else .error
    lastError := if copy.lastError = some incompleteSignal then s.lastError
      else some incompleteSignal }

/-- What is left of `evaluate` after the claim. -/
def evaluateClaimed (settings : StrategySettings) (lib : StrategyLibraries) (placing : Placer)
    (p : Platform) (strategy : Strategy) (candle : MarketCandle) (runId : Uuid)
    (inputs : EvaluationInputs) : Platform :=
  match judge settings strategy candle.startAt inputs with
  | .error e => { p with tables := finish p.tables strategy.id runId inputs.clock.finished e }
  | .ok (side, diagnostics) =>
    route settings lib placing p strategy candle runId side diagnostics inputs

namespace StrategyWorker

/-- A pass starts; the process may have died in the last one. -/
def start (settings : StrategySettings) (w : StrategyWorker) : StrategyWorker :=
  if ¬ settings.strategyEngineEnabled ∨ settings.tradingMode = .disabled then
    { w with queue := [], visit := none }
  else { w with
    queue := (w.platform.tables.strategies.filter fun s =>
      s.status = .active ∧ s.executionMode.tradingMode = settings.tradingMode).map fun s =>
        ⟨s.id, some s⟩
    visit := none }

/-- The queries for the next strategy; its copy is read again where it has expired. -/
def next (rows : List MarketCandle) (w : StrategyWorker) : StrategyWorker :=
  match w.visit, w.queue with
  | none, loaded :: queue =>
    match loaded.row.or (w.platform.tables.strategy? loaded.id) with
    | none => { w with queue := [] }
    | some strategy =>
      { w with
        queue := queue
        visit := (stageOf w.platform.tables rows strategy).map (Visit.mk strategy) }
  | _, _ => w

/-- The first commit of a visit: the error of an incomplete strategy, or the claim. -/
def act (now : Time) (w : StrategyWorker) : StrategyWorker :=
  match w.visit with
  | some ⟨strategy, .incomplete⟩ => { w with
      platform := ⟨w.platform.trading, markIncomplete w.platform.tables strategy⟩
      visit := none }
  | some ⟨strategy, .due candle⟩ =>
    match run? w.platform.tables strategy.id candle.startAt with
    | some _ => { w with visit := none }
    | none => { w with
        platform := ⟨w.platform.trading, claim w.platform.tables strategy candle.startAt now⟩
        visit := some ⟨strategy, .claimed candle w.platform.tables.nextUuid
          (w.platform.tables.statusOf strategy.id = some .paused)⟩ }
  | _ => w

/-- The rest of the evaluation.  What it reads no pause writes, so that its commits are
one step; where its session is rolled back on the way, the other copies expire. -/
def conclude (settings : StrategySettings) (lib : StrategyLibraries) (placing : Placer)
    (inputs : EvaluationInputs) (rolledBack : Bool) (w : StrategyWorker) : StrategyWorker :=
  match w.visit with
  | some ⟨strategy, .claimed candle runId _⟩ => { w with
      platform := evaluateClaimed settings lib placing w.platform strategy candle runId inputs
      queue := if rolledBack then w.queue.map fun loaded => { loaded with row := none } else w.queue
      visit := none }
  | _ => w

end StrategyWorker

/-- The requests of the API. -/
def StrategyEvent.isRequest : StrategyEvent → Bool
  | .create .. | .update .. | .activate .. | .pause .. => true
  | .evaluate .. | .quote .. => false

inductive WorkerEvent
  | start
  | next (rows : List MarketCandle)
  | act (now : Time)
  | conclude (placing : Placer) (inputs : EvaluationInputs) (rolledBack : Bool)
  /-- A request of the API, committed at that moment. -/
  | request (e : StrategyEvent) (isRequest : e.isRequest)

def workerStep (settings : StrategySettings) (lib : StrategyLibraries)
    (intervals : CandleIntervals) (w : StrategyWorker) : WorkerEvent → StrategyWorker
  | .start => w.start settings
  | .next rows => w.next rows
  | .act now => w.act now
  | .conclude placing inputs rolledBack => w.conclude settings lib placing inputs rolledBack
  | .request e _ => { w with platform := strategyStep settings lib intervals w.platform e }

/-! ## Pauses -/

/-- The copy is still to be used: an error is to be written over its status, or its
candle is to be claimed and judged as active. -/
def Visit.Pending (v : Visit) : Prop :=
  match v.stage with
  | .incomplete => v.strategy.status ≠ .error
  | .due _ => v.strategy.status = .active
  | .claimed .. => False

/-- The pass holds no copy of a strategy that it is still to use: one that waits has
expired, and will not be found incomplete. -/
structure StrategyWorker.Unread (w : StrategyWorker) (id : Uuid) : Prop where
  waiting : ∀ loaded ∈ w.queue, loaded.id = id →
    loaded.row = none ∧ ¬ w.platform.tables.Incomplete id
  visited : ∀ v ∈ w.visit, v.strategy.id = id → ¬ v.Pending

section Guard

variable (settings : StrategySettings) (lib : StrategyLibraries) (intervals : CandleIntervals)

/-- **When a pause comes in time**: a request that turns a strategy to PAUSED finds no
copy of it that is still to be used. -/
def PausedInTime (w : StrategyWorker) (e : WorkerEvent) : Prop :=
  ∀ v h, e = .request v h → ∀ id, w.platform.tables.statusOf id ≠ some .paused →
    (strategyStep settings lib intervals w.platform v).tables.statusOf id = some .paused →
      w.Unread id

/-- What is asked of a step of the worker: nothing is ordered for a strategy that was
paused before its candle was claimed, and no such pause is undone. -/
structure PausesHold (w w' : StrategyWorker) : Prop where
  unordered : ∀ v ∈ w.visit, ∀ candle runId, v.stage = .claimed candle runId true →
    w'.platform.trading = w.platform.trading
  paused : ∀ id, w.platform.tables.statusOf id = some .paused →
    (∀ v ∈ w.visit, ∀ candle runId, v.stage = .claimed candle runId false → v.strategy.id ≠ id) →
      w'.platform.tables.statusOf id = some .paused

end Guard

/-! ## What one strategy's evaluation leaves alone -/

namespace StrategyTables

variable {t u v : StrategyTables} {X : Uuid}

theorem strategy?_id {s : Strategy} (h : t.strategy? X = some s) : s.id = X := by
  simpa using List.find?_some h

theorem strategy?_updateStrategy {f : Strategy → Strategy} (hid : ∀ s, (f s).id = s.id)
    (id : Uuid) :
    (t.updateStrategy X f).strategy? id =
      (t.strategy? id).map fun s => if s.id = X then f s else s := by
  have hkey : ∀ s : Strategy, (if s.id = X then f s else s).id = s.id := by
    intro s
    split
    · exact hid s
    · rfl
  unfold strategy? updateStrategy updateById
  dsimp only
  rw [List.find?_map]
  simp only [Function.comp_def, hkey]

theorem statusOf_updateStrategy_of_ne {f : Strategy → Strategy} (hid : ∀ s, (f s).id = s.id)
    {id : Uuid} (hne : id ≠ X) : (t.updateStrategy X f).statusOf id = t.statusOf id := by
  rw [statusOf, statusOf, strategy?_updateStrategy hid]
  cases h : t.strategy? id with
  | none => rfl
  | some s =>
    have hX : s.id ≠ X := strategy?_id h ▸ hne
    rw [Option.map_some, if_neg hX]

/-- An update that leaves the statuses. -/
theorem statusOf_updateStrategy_of_same {f : Strategy → Strategy} (hid : ∀ s, (f s).id = s.id)
    (hstatus : ∀ s, (f s).status = s.status) (id : Uuid) :
    (t.updateStrategy X f).statusOf id = t.statusOf id := by
  rw [statusOf, statusOf, strategy?_updateStrategy hid, Option.map_map]
  congr 1
  funext s
  rw [Function.comp_apply]
  split
  · exact hstatus s
  · rfl

/-- The identifiers of runs and signals have been drawn. -/
structure Fresh (t : StrategyTables) : Prop where
  runs : ∀ r ∈ t.runs, r.id < t.nextUuid
  signals : ∀ s ∈ t.signals, s.id < t.nextUuid

/-- Only rows of the strategy `X` are written. -/
structure Confined (X : Uuid) (t u : StrategyTables) : Prop where
  ids : u.strategies.map Strategy.id = t.strategies.map Strategy.id
  status : ∀ id, id ≠ X → u.statusOf id = t.statusOf id
  runs : ∀ r ∈ u.runs, r.strategyId ≠ X → r ∈ t.runs
  signals : ∀ s ∈ u.signals, s.strategyId ≠ X → s ∈ t.signals
  fresh : t.Fresh → u.Fresh

theorem Confined.refl (t : StrategyTables) : t.Confined X t :=
  ⟨rfl, fun _ _ => rfl, fun _ h _ => h, fun _ h _ => h, id⟩

theorem Confined.trans (h : Confined X t u) (h' : Confined X u v) : Confined X t v where
  ids := h'.ids.trans h.ids
  status id hne := (h'.status id hne).trans (h.status id hne)
  runs r hr hne := h.runs r (h'.runs r hr hne) hne
  signals s hs hne := h.signals s (h'.signals s hs hne) hne
  fresh := h'.fresh ∘ h.fresh

theorem Confined.incomplete (h : Confined X t u) {id : Uuid} (hne : id ≠ X)
    (hinc : u.Incomplete id) : t.Incomplete id := by
  rcases hinc with ⟨r, hr, hid, hstarted⟩ | ⟨s, hs, hid, hcreated⟩
  · exact Or.inl ⟨r, h.runs r hr (hid ▸ hne), hid, hstarted⟩
  · exact Or.inr ⟨s, h.signals s hs (hid ▸ hne), hid, hcreated⟩

theorem confined_updateStrategy (t : StrategyTables) {f : Strategy → Strategy}
    (hid : ∀ s, (f s).id = s.id) : t.Confined X (t.updateStrategy X f) :=
  ⟨map_of_updateById hid, fun _ => statusOf_updateStrategy_of_ne hid, fun _ h _ => h,
    fun _ h _ => h, fun h => ⟨h.runs, h.signals⟩⟩

/-- A row of an updated table is an old one, or the update of one with the key. -/
theorem mem_updateById {α : Type*} {key : α → Uuid} {k : Uuid} {f : α → α} {rows : List α} {row : α}
    (h : row ∈ updateById key k f rows) :
    row ∈ rows ∨ ∃ old ∈ rows, key old = k ∧ row = f old := by
  obtain ⟨old, hold, rfl⟩ := List.mem_map.1 h
  split
  · rename_i hkey
    exact Or.inr ⟨old, hold, hkey, rfl⟩
  · exact Or.inl hold

theorem confined_updateRun {runId : Uuid} {f : StrategyRun → StrategyRun}
    (hf : ∀ r, (f r).claimed = r.claimed) (hown : ∀ r ∈ t.runs, r.id = runId → r.strategyId = X) :
    t.Confined X (t.updateRun runId f) := by
  refine ⟨rfl, fun _ _ => rfl, fun r hr hne => ?_, fun _ h _ => h, fun h =>
    ⟨fun r hr => ?_, h.signals⟩⟩
  · rcases mem_updateById hr with hold | ⟨old, hold, hid, rfl⟩
    · exact hold
    · have howner : (f old).strategyId = old.strategyId := congrArg (fun c => c.2.1) (hf old)
      exact absurd (howner.trans (hown old hold hid)) hne
  · rcases mem_updateById hr with hold | ⟨old, hold, -, rfl⟩
    · exact h.runs r hold
    · have hid : (f old).id = old.id := congrArg Prod.fst (hf old)
      exact hid ▸ h.runs old hold

theorem confined_updateSignal {signalId : Uuid} {f : StrategySignal → StrategySignal}
    (hf : ∀ s, (f s).id = s.id ∧ (f s).strategyId = s.strategyId)
    (hown : ∀ s ∈ t.signals, s.id = signalId → s.strategyId = X) :
    t.Confined X (t.updateSignal signalId f) := by
  refine ⟨rfl, fun _ _ => rfl, fun _ h _ => h, fun s hs hne => ?_, fun h =>
    ⟨h.runs, fun s hs => ?_⟩⟩
  · rcases mem_updateById hs with hold | ⟨old, hold, hid, rfl⟩
    · exact hold
    · exact absurd ((hf old).2.trans (hown old hold hid)) hne
  · rcases mem_updateById hs with hold | ⟨old, hold, -, rfl⟩
    · exact h.signals s hold
    · exact (hf old).1 ▸ h.signals old hold

theorem confined_insertRun {r : StrategyRun} (hX : r.strategyId = X) (hid : r.id = t.nextUuid) :
    t.Confined X (t.insertRun r) := by
  refine ⟨rfl, fun _ _ => rfl, fun y hy hne => ?_, fun _ h _ => h, fun h =>
    ⟨forall_lt_concat h.runs hid, fun s hs => (h.signals s hs).trans (Nat.lt_succ_self _)⟩⟩
  rcases List.mem_append.1 hy with hy | hy
  · exact hy
  · exact absurd (List.mem_singleton.1 hy ▸ hX) hne

theorem confined_insertSignal {s : StrategySignal} (hX : s.strategyId = X)
    (hid : s.id = t.nextUuid) :
    t.Confined X (t.insertSignal s) := by
  refine ⟨rfl, fun _ _ => rfl, fun _ h _ => h, fun y hy hne => ?_, fun h =>
    ⟨fun r hr => (h.runs r hr).trans (Nat.lt_succ_self _), forall_lt_concat h.signals hid⟩⟩
  rcases List.mem_append.1 hy with hy | hy
  · exact hy
  · exact absurd (List.mem_singleton.1 hy ▸ hX) hne

end StrategyTables

open StrategyTables

section Evaluation

variable {settings : StrategySettings} {lib : StrategyLibraries} {placing : Placer} {p q : Platform}
  {t : StrategyTables} {strategy : Strategy} {candle : MarketCandle} {runId : Uuid}
  {inputs : EvaluationInputs}

theorem confined_claim (t : StrategyTables) (strategy : Strategy) (candleStart now : Time) :
    t.Confined strategy.id (claim t strategy candleStart now) := by
  unfold claim
  refine .trans ?_ (confined_updateStrategy _ fun _ => rfl)
  exact confined_insertRun rfl rfl

theorem confined_markIncomplete (t : StrategyTables) (copy : Strategy) :
    t.Confined copy.id (markIncomplete t copy) := by
  unfold markIncomplete
  apply confined_updateStrategy
  exact fun _ => rfl

theorem confined_finish (hown : ∀ r ∈ t.runs, r.id = runId → r.strategyId = strategy.id)
    (finishedAt : Time) (e : RunEnd) :
    t.Confined strategy.id (finish t strategy.id runId finishedAt e) := by
  have hrun : t.Confined strategy.id (t.updateRun runId fun r => { r with
      status := e.status, diagnostics := e.diagnostics, finishedAt := some finishedAt }) :=
    confined_updateRun (fun _ => rfl) hown
  unfold finish
  dsimp only
  split
  · exact hrun
  · exact hrun.trans (confined_updateStrategy _ fun _ => rfl)

/-- The end of a run after a write to the signal and the strategy. -/
theorem confined_answered (hown : ∀ r ∈ t.runs, r.id = runId → r.strategyId = strategy.id)
    {signalId : Uuid} (hsignal : ∀ s ∈ t.signals, s.id = signalId → s.strategyId = strategy.id)
    {f : StrategySignal → StrategySignal}
    (hf : ∀ s, (f s).id = s.id ∧ (f s).strategyId = s.strategyId) {g : Strategy → Strategy}
    (hg : ∀ s, (g s).id = s.id) (finishedAt : Time) (e : RunEnd) :
    t.Confined strategy.id (finish ((t.updateSignal signalId f).updateStrategy strategy.id g)
      strategy.id runId finishedAt e) := by
  refine .trans (.trans (confined_updateSignal hf hsignal) (confined_updateStrategy _ hg)) ?_
  exact confined_finish (t := (t.updateSignal signalId f).updateStrategy strategy.id g) hown
    finishedAt e

/-- What follows a placement. -/
theorem confined_settle {placement : Placement} {created : StrategyTables} {signalId : Uuid}
    {diagnostics : Diagnostics} (hcreated : t.Confined strategy.id created)
    (hown : ∀ r ∈ t.runs, r.id = runId → r.strategyId = strategy.id)
    (hruns : created.runs = t.runs)
    (hsignal : ∀ s ∈ created.signals, s.id = signalId → s.strategyId = strategy.id) :
    t.Confined strategy.id
      (settle placement inputs t created strategy runId signalId diagnostics).tables := by
  have hown' : ∀ r ∈ created.runs, r.id = runId → r.strategyId = strategy.id := hruns ▸ hown
  have hkept : t.Confined strategy.id (if placement.committed then created else t) := by
    split
    · exact hcreated
    · exact .refl _
  have hkeptOwn : ∀ r ∈ (if placement.committed then created else t).runs, r.id = runId →
      r.strategyId = strategy.id := by
    split
    · exact hown'
    · exact hown
  have hfailed := hkept.trans
    (confined_finish hkeptOwn inputs.clock.finished (crashed inputs.exceptionName))
  unfold settle
  dsimp only
  split
  · exact hkept
  · split
    · refine hcreated.trans ?_
      unfold submitted
      dsimp only
      apply confined_answered hown' hsignal
      · exact fun _ => ⟨rfl, rfl⟩
      · exact fun _ => rfl
    · exact hfailed
  · refine hcreated.trans ?_
    unfold rejected
    dsimp only
    apply confined_answered hown' hsignal
    · exact fun _ => ⟨rfl, rfl⟩
    · exact fun _ => rfl
  · exact hfailed

theorem confined_route (hfresh : p.tables.Fresh)
    (hown : ∀ r ∈ p.tables.runs, r.id = runId → r.strategyId = strategy.id) {side : OrderSide}
    {diagnostics : Diagnostics}
    (hq : q = route settings lib placing p strategy candle runId side diagnostics inputs) :
    p.tables.Confined strategy.id q.tables := by
  have hended : ∀ e, p.tables.Confined strategy.id
      (Platform.mk p.trading (finish p.tables strategy.id runId inputs.clock.finished e)).tables :=
    fun e => confined_finish hown _ e
  have hsuppressed : ∀ reason, p.tables.Confined strategy.id
      (suppressed lib p.tables strategy candle runId side reason diagnostics inputs.clock) := by
    intro reason
    unfold suppressed
    dsimp only
    refine .trans ?_ (confined_finish (t := p.tables.insertSignal _) hown _ _)
    apply confined_insertSignal
    · rfl
    · rfl
  unfold route at hq
  dsimp only at hq
  rw [hq]
  split
  · exact hended _
  split_ifs with _ _ hsell
  · exact hsuppressed _
  · exact hsuppressed _
  · exact hsuppressed _
  split
  · exact hended _
  split
  · exact hended _
  split
  · exact hended _
  split_ifs
  · apply confined_settle
    · apply confined_insertSignal
      · rfl
      · rfl
    · exact hown
    · rfl
    · intro s hs hid
      rcases List.mem_append.1 hs with hs | hs
      · exact absurd hid (hfresh.signals s hs).ne
      · rw [List.mem_singleton.1 hs]
        rfl
  · exact hended _

/-- **An evaluation writes rows of its own strategy.** -/
theorem confined_evaluateClaimed (hfresh : p.tables.Fresh)
    (hown : ∀ r ∈ p.tables.runs, r.id = runId → r.strategyId = strategy.id) :
    p.tables.Confined strategy.id
      (evaluateClaimed settings lib placing p strategy candle runId inputs).tables := by
  unfold evaluateClaimed
  split
  · exact confined_finish hown _ _
  · exact confined_route hfresh hown rfl

/-- A copy that does not say ACTIVE is skipped. -/
theorem evaluateClaimed_of_not_active (h : strategy.status ≠ .active) :
    ∃ reason, evaluateClaimed settings lib placing p strategy candle runId inputs =
      ⟨p.trading, finish p.tables strategy.id runId inputs.clock.finished (.skipped reason)⟩ := by
  have hjudged : ∃ reason, judge settings strategy candle.startAt inputs =
      .error (.skipped reason) := by
    unfold judge gateCheck
    by_cases henabled : settings.strategyEngineEnabled
    · rw [if_neg (not_not.2 henabled), if_pos h]
      exact ⟨_, rfl⟩
    · rw [if_pos henabled]
      exact ⟨_, rfl⟩
  obtain ⟨reason, hjudged⟩ := hjudged
  unfold evaluateClaimed
  rw [hjudged]
  exact ⟨reason, rfl⟩

/-- `evaluate` is its claim and what is left after it. -/
theorem evaluate_eq_evaluateClaimed :
    evaluate settings lib placing p strategy candle inputs =
      match run? p.tables strategy.id candle.startAt with
      | some _ => p
      | none => evaluateClaimed settings lib placing
          { p with tables := claim p.tables strategy candle.startAt inputs.clock.started } strategy
          candle p.tables.nextUuid inputs := by
  unfold evaluate evaluateClaimed
  cases run? p.tables strategy.id candle.startAt with
  | none => rfl
  | some run => rfl

end Evaluation

/-! ## The invariant -/

theorem statusOf_of_mem {t : StrategyTables} (hids : (t.strategies.map Strategy.id).Nodup)
    {s : Strategy} (hs : s ∈ t.strategies) : t.statusOf s.id = some s.status := by
  have hfound : t.strategy? s.id = some s := Rows.find?_key hids hs
  rw [StrategyTables.statusOf, hfound]
  rfl

/-- What a request writes: neither runs nor signals. -/
theorem request_keeps (settings : StrategySettings) (lib : StrategyLibraries)
    (intervals : CandleIntervals) (p : Platform) {e : StrategyEvent} (he : e.isRequest)
    {q : Platform}
    (hq : q = strategyStep settings lib intervals p e) :
    q.tables.runs = p.tables.runs ∧ q.tables.signals = p.tables.signals ∧
      p.tables.nextUuid ≤ q.tables.nextUuid ∧
      ((p.tables.strategies.map Strategy.id).Nodup →
        (q.tables.strategies.map Strategy.id).Nodup) := by
  have hids : ∀ (id : Uuid) (f : Strategy → Strategy), (∀ s, (f s).id = s.id) →
      (p.tables.strategies.map Strategy.id).Nodup →
        ((p.tables.updateStrategy id f).strategies.map Strategy.id).Nodup := by
    intro id f hf hnd
    exact (map_of_updateById hf : (p.tables.updateStrategy id f).strategies.map Strategy.id =
      _) ▸ hnd
  rw [hq]
  cases e with
  | create userId instrument payload =>
    rcases createStrategy_cases
      (r := createStrategy lib intervals instrument p.tables userId payload)
      rfl with ⟨hsame, -⟩ | ⟨s, -, hnew, hvalid⟩
    · rw [strategyStep, hsame]
      exact ⟨rfl, rfl, le_rfl, id⟩
    · refine ⟨?_, ?_, ?_, fun _ => hvalid.strategyIds⟩ <;> rw [strategyStep, hnew]
      · rfl
      · rfl
      · exact Nat.le_succ _
  | update userId strategyId payload =>
    rcases updateStrategy_cases
      (r := updateStrategy lib intervals p.tables userId strategyId payload) rfl with
      hsame | ⟨s, -, -, -, -, name, hbounds, -, hnew, hvalid⟩
    · rw [strategyStep, hsame]
      exact ⟨rfl, rfl, le_rfl, id⟩
    · refine ⟨?_, ?_, ?_, fun _ => hvalid.strategyIds⟩ <;> rw [strategyStep, hnew]
      · rfl
      · rfl
      · exact le_rfl
  | activate now userId strategyId mfaEnabled confirmation =>
    rcases activate_cases (r := activate settings now p userId strategyId mfaEnabled confirmation)
      rfl with hsame | ⟨s, -, -, -, hactive⟩
    · rw [strategyStep, hsame]
      exact ⟨rfl, rfl, le_rfl, id⟩
    · rw [strategyStep, hactive]
      exact ⟨rfl, rfl, le_rfl, hids _ _ fun _ => rfl⟩
  | pause now userId strategyId =>
    rcases pause_cases (r := pause now p.tables userId strategyId) rfl with
      hsame | ⟨s, -, -, -, hpaused⟩
    · rw [strategyStep, hsame]
      exact ⟨rfl, rfl, le_rfl, id⟩
    · rw [strategyStep, hpaused]
      exact ⟨rfl, rfl, le_rfl, hids _ _ fun _ => rfl⟩
  | evaluate => cases he
  | quote => cases he

/-- What carries the result: no copy of a paused strategy is still to be used. -/
structure StrategyWorker.Sound (w : StrategyWorker) : Prop where
  ids : (w.platform.tables.strategies.map Strategy.id).Nodup
  fresh : w.platform.tables.Fresh
  queue : (w.queue.map LoadedStrategy.id).Nodup
  visited : ∀ v ∈ w.visit, v.strategy.id ∉ w.queue.map LoadedStrategy.id
  copies : ∀ loaded ∈ w.queue, ∀ s ∈ loaded.row, s.id = loaded.id
  unread : ∀ id, w.platform.tables.statusOf id = some .paused → w.Unread id
  claimed : ∀ v ∈ w.visit, ∀ candle runId whilePaused,
    v.stage = .claimed candle runId whilePaused →
      (∀ r ∈ w.platform.tables.runs, r.id = runId → r.strategyId = v.strategy.id) ∧
        (whilePaused → v.strategy.status ≠ .active)

theorem forall_none {α : Type*} {P : α → Prop} : ∀ x ∈ (none : Option α), P x :=
  fun x hx => absurd hx (Option.not_mem_none x)

section Steps

variable {settings : StrategySettings} {lib : StrategyLibraries} {intervals : CandleIntervals}
  {w : StrategyWorker}

theorem StrategyWorker.Sound.request (h : w.Sound) {v : StrategyEvent} (hv : v.isRequest)
    (hintime : PausedInTime settings lib intervals w (.request v hv)) :
    (workerStep settings lib intervals w (.request v hv)).Sound := by
  obtain ⟨hruns, hsignals, hnext, hids⟩ := request_keeps settings lib intervals w.platform hv rfl
  have hincomplete : ∀ id,
      (strategyStep settings lib intervals w.platform v).tables.Incomplete id →
        w.platform.tables.Incomplete id := by
    intro id hinc
    unfold StrategyTables.Incomplete at hinc
    rwa [hruns, hsignals] at hinc
  refine ⟨hids h.ids, ⟨?_, ?_⟩, h.queue, h.visited, h.copies, fun id hpaused => ?_, ?_⟩
  · show ∀ r ∈ (strategyStep settings lib intervals w.platform v).tables.runs, _
    rw [hruns]
    exact fun r hr => (h.fresh.runs r hr).trans_le hnext
  · show ∀ s ∈ (strategyStep settings lib intervals w.platform v).tables.signals, _
    rw [hsignals]
    exact fun s hs => (h.fresh.signals s hs).trans_le hnext
  · have hunread : w.Unread id := by
      by_cases hbefore : w.platform.tables.statusOf id = some .paused
      · exact h.unread id hbefore
      · exact hintime v hv rfl id hbefore hpaused
    exact ⟨fun loaded hloaded hid => (hunread.waiting loaded hloaded hid).imp_right
      fun hnot hinc => hnot (hincomplete id hinc), hunread.visited⟩
  · intro visit hvisit candle runId whilePaused hstage
    obtain ⟨hown, hcopy⟩ := h.claimed visit hvisit candle runId whilePaused hstage
    refine ⟨?_, hcopy⟩
    show ∀ r ∈ (strategyStep settings lib intervals w.platform v).tables.runs, _
    rw [hruns]
    exact hown

theorem StrategyWorker.Sound.start (h : w.Sound) : (w.start settings).Sound := by
  unfold StrategyWorker.start
  split
  · exact ⟨h.ids, h.fresh, List.nodup_nil, forall_none, List.forall_mem_nil _,
      fun _ _ => ⟨List.forall_mem_nil _, forall_none⟩, forall_none⟩
  · refine ⟨h.ids, h.fresh, ?_, forall_none, ?_, fun id hpaused => ⟨?_, forall_none⟩, forall_none⟩
    · rw [List.map_map]
      exact (List.filter_sublist.map _).nodup h.ids
    · intro loaded hloaded s hs
      obtain ⟨row, -, rfl⟩ := List.mem_map.1 hloaded
      cases hs
      rfl
    · intro loaded hloaded hid
      obtain ⟨row, hrow, rfl⟩ := List.mem_map.1 hloaded
      obtain ⟨hmem, hactive⟩ := List.mem_filter.1 hrow
      obtain rfl : row.id = id := hid
      have hstatus : row.status = .paused :=
        Option.some.inj ((statusOf_of_mem h.ids hmem).symm.trans hpaused)
      rw [decide_eq_true_eq, hstatus] at hactive
      exact absurd hactive.1 (by decide)

theorem stageOf_cases {t : StrategyTables} {rows : List MarketCandle} {strategy : Strategy}
    {stage : VisitStage} (h : stageOf t rows strategy = some stage) :
    (stage = .incomplete ∧ t.Incomplete strategy.id) ∨ ∃ candle, stage = .due candle := by
  unfold stageOf at h
  split at h
  · rename_i hinc
    cases h
    exact Or.inl ⟨rfl, hinc⟩
  split at h
  · cases h
  split_ifs at h
  cases h
  exact Or.inr ⟨_, rfl⟩

theorem StrategyWorker.Sound.next (h : w.Sound) (rows : List MarketCandle) :
    (w.next rows).Sound := by
  unfold StrategyWorker.next
  split
  swap
  · exact h
  rename_i loaded queue hvisit hqueue
  have hmem : loaded ∈ w.queue := hqueue ▸ List.mem_cons_self
  have htail : ∀ other ∈ queue, other ∈ w.queue := fun other hother =>
    hqueue ▸ List.mem_cons_of_mem _ hother
  have hids := h.queue
  rw [hqueue, List.map_cons, List.nodup_cons] at hids
  split
  · exact ⟨h.ids, h.fresh, List.nodup_nil, hvisit ▸ forall_none, List.forall_mem_nil _,
      fun _ _ => ⟨List.forall_mem_nil _, hvisit ▸ forall_none⟩, hvisit ▸ forall_none⟩
  rename_i strategy hrow
  have hid : strategy.id = loaded.id := by
    rcases Option.or_eq_some_iff.1 hrow with hcopy | ⟨-, hread⟩
    · exact h.copies loaded hmem strategy hcopy
    · exact StrategyTables.strategy?_id hread
  refine ⟨h.ids, h.fresh, hids.2, ?_, fun other hother => h.copies other (htail other hother),
    fun id hpaused => ⟨fun other hother => (h.unread id hpaused).waiting other (htail other hother),
      ?_⟩, ?_⟩
  · intro v hv
    obtain ⟨stage, -, rfl⟩ := Option.map_eq_some_iff.1 hv
    exact hid ▸ hids.1
  · -- a copy of a paused strategy has been read again, and says so
    intro v hv hvid
    obtain ⟨stage, hstage, rfl⟩ := Option.map_eq_some_iff.1 hv
    obtain ⟨hexpired, hcomplete⟩ := (h.unread id hpaused).waiting loaded hmem (hid.symm.trans hvid)
    rcases stageOf_cases hstage with ⟨-, hinc⟩ | ⟨candle, rfl⟩
    · exact absurd (hvid ▸ hinc) hcomplete
    · intro hactive
      rw [hexpired, Option.none_or] at hrow
      have hstatus : w.platform.tables.statusOf loaded.id = some strategy.status := by
        rw [StrategyTables.statusOf, hrow]
        rfl
      rw [← hid, hvid] at hstatus
      have hsame : StrategyStatus.paused = strategy.status :=
        Option.some.inj (hpaused.symm.trans hstatus)
      exact absurd (hsame.trans hactive) (by decide)
  · intro v hv candle runId whilePaused hclaimed
    obtain ⟨stage, hstage, rfl⟩ := Option.map_eq_some_iff.1 hv
    rcases stageOf_cases hstage with ⟨rfl, -⟩ | ⟨candle, rfl⟩
    · cases hclaimed
    · cases hclaimed

/-- A visit that is over, after writes to its strategy's rows. -/
theorem StrategyWorker.Sound.leave (h : w.Sound) {v : Visit} (hv : w.visit = some v) {p : Platform}
    (hconfined : w.platform.tables.Confined v.strategy.id p.tables) {queue : List LoadedStrategy}
    (hqueue : queue = w.queue ∨ queue = w.queue.map fun loaded => { loaded with row := none }) :
    StrategyWorker.Sound ⟨p, queue, none⟩ := by
  have hmap : queue.map LoadedStrategy.id = w.queue.map LoadedStrategy.id := by
    rcases hqueue with rfl | rfl
    · rfl
    · rw [List.map_map]
      rfl
  have hold : ∀ loaded ∈ queue, ∃ old ∈ w.queue, old.id = loaded.id ∧
      (loaded.row = old.row ∨ loaded.row = none) := by
    intro loaded hloaded
    rcases hqueue with rfl | rfl
    · exact ⟨loaded, hloaded, rfl, Or.inl rfl⟩
    · obtain ⟨old, hmem, rfl⟩ := List.mem_map.1 hloaded
      exact ⟨old, hmem, rfl, Or.inr rfl⟩
  refine ⟨hconfined.ids ▸ h.ids, hconfined.fresh h.fresh, hmap ▸ h.queue, forall_none, ?_,
    fun id hpaused => ⟨?_, forall_none⟩, forall_none⟩
  · intro loaded hloaded s hs
    obtain ⟨old, hmem, hid, hrow | hrow⟩ := hold loaded hloaded
    · exact (h.copies old hmem s (hrow ▸ hs)).trans hid
    · rw [hrow] at hs
      cases hs
  · intro loaded hloaded hid
    obtain ⟨old, hmem, holdid, hrow⟩ := hold loaded hloaded
    have hne : id ≠ v.strategy.id := by
      rintro rfl
      exact h.visited v hv (List.mem_map.2 ⟨old, hmem, holdid.trans hid⟩)
    rw [hconfined.status id hne] at hpaused
    obtain ⟨hexpired, hcomplete⟩ := (h.unread id hpaused).waiting old hmem (holdid.trans hid)
    refine ⟨?_, fun hinc => hcomplete (hconfined.incomplete hne hinc)⟩
    rcases hrow with hrow | hrow
    · rw [hrow, hexpired]
    · exact hrow

theorem statusOf_claim (t : StrategyTables) (strategy : Strategy) (candleStart now : Time)
    (id : Uuid) :
    (claim t strategy candleStart now).statusOf id = t.statusOf id := by
  unfold claim
  dsimp only
  rw [StrategyTables.statusOf_updateStrategy_of_same]
  · rfl
  · exact fun _ => rfl
  · exact fun _ => rfl

/-- The claim of a candle. -/
theorem StrategyWorker.Sound.claim (h : w.Sound) {strategy : Strategy} {candle : MarketCandle}
    (hv : w.visit = some ⟨strategy, .due candle⟩) (now : Time) :
    StrategyWorker.Sound ⟨⟨w.platform.trading,
        StrategyExecutor.claim w.platform.tables strategy candle.startAt now⟩, w.queue,
      some ⟨strategy, .claimed candle w.platform.tables.nextUuid
        (w.platform.tables.statusOf strategy.id = some .paused)⟩⟩ := by
  have hconfined := confined_claim w.platform.tables strategy candle.startAt now
  refine ⟨hconfined.ids ▸ h.ids, hconfined.fresh h.fresh, h.queue, ?_, h.copies,
    fun id hpaused => ?_, ?_⟩
  · intro v hvisit
    cases hvisit
    exact h.visited ⟨strategy, .due candle⟩ hv
  · rw [statusOf_claim] at hpaused
    refine ⟨fun loaded hloaded hid => ?_, ?_⟩
    · have hne : id ≠ strategy.id := by
        rintro rfl
        exact h.visited ⟨strategy, .due candle⟩ hv (List.mem_map.2 ⟨loaded, hloaded, hid⟩)
      exact ((h.unread id hpaused).waiting loaded hloaded hid).imp_right fun hnot hinc =>
        hnot (hconfined.incomplete hne hinc)
    · intro v hvisit _
      cases hvisit
      exact not_false
  · intro v hvisit candle' runId whilePaused hstage
    cases hvisit
    cases hstage
    refine ⟨fun r hr hid => ?_, fun hpaused => ?_⟩
    · rcases List.mem_append.1 hr with hold | hnew
      · exact absurd hid (h.fresh.runs r hold).ne
      · rw [List.mem_singleton.1 hnew]
    · exact (h.unread strategy.id (of_decide_eq_true hpaused)).visited _ hv rfl

/-- A commit of a visit. -/
theorem StrategyWorker.Sound.act (h : w.Sound) (now : Time) :
    (w.act now).Sound ∧ PausesHold w (w.act now) := by
  have hnone : PausesHold w w := ⟨fun _ _ _ _ _ => rfl, fun _ hpaused _ => hpaused⟩
  unfold StrategyWorker.act
  split
  · rename_i strategy hv
    have hconfined : w.platform.tables.Confined strategy.id
        (markIncomplete w.platform.tables strategy) := confined_markIncomplete _ strategy
    refine ⟨h.leave hv hconfined (Or.inl rfl), fun _ _ _ _ _ => rfl, fun id hpaused _ => ?_⟩
    by_cases hid : id = strategy.id
    · -- the error is in the copy already, and is not written again
      subst hid
      have herror : strategy.status = .error :=
        not_not.1 ((h.unread strategy.id hpaused).visited _ hv rfl)
      dsimp only
      rw [markIncomplete, StrategyTables.statusOf_updateStrategy_of_same]
      · exact hpaused
      · exact fun _ => rfl
      · exact fun s => if_pos herror
    · exact (hconfined.status id hid).trans hpaused
  · rename_i strategy candle hv
    split
    · exact ⟨h.leave hv (.refl _) (Or.inl rfl), fun _ _ _ _ _ => rfl, fun _ hpaused _ => hpaused⟩
    · refine ⟨h.claim hv now, fun _ _ _ _ _ => rfl, fun id hpaused _ => ?_⟩
      dsimp only
      rw [statusOf_claim]
      exact hpaused
  · exact ⟨h, hnone⟩

/-- The rest of an evaluation. -/
theorem StrategyWorker.Sound.conclude (h : w.Sound) (placing : Placer) (inputs : EvaluationInputs)
    (rolledBack : Bool) : (w.conclude settings lib placing inputs rolledBack).Sound ∧
      PausesHold w (w.conclude settings lib placing inputs rolledBack) := by
  unfold StrategyWorker.conclude
  split
  swap
  · exact ⟨h, fun _ _ _ _ _ => rfl, fun _ hpaused _ => hpaused⟩
  rename_i strategy candle runId whilePaused hv
  obtain ⟨hown, hcopy⟩ := h.claimed _ hv candle runId whilePaused rfl
  have hconfined : w.platform.tables.Confined strategy.id
      (evaluateClaimed settings lib placing w.platform strategy candle runId inputs).tables :=
    confined_evaluateClaimed h.fresh hown
  have hskipped : whilePaused → ∃ reason,
      evaluateClaimed settings lib placing w.platform strategy candle runId inputs =
        ⟨w.platform.trading, finish w.platform.tables strategy.id runId inputs.clock.finished
          (.skipped reason)⟩ :=
    fun hpaused => evaluateClaimed_of_not_active (hcopy hpaused)
  refine ⟨h.leave hv hconfined ?_, ?_, fun id hpaused hlate => ?_⟩
  · cases rolledBack with
    | false => exact Or.inl rfl
    | true => exact Or.inr rfl
  · intro v hvisit candle' runId' hstage
    obtain rfl : _ = v := Option.some.inj (hv.symm.trans hvisit)
    cases hstage
    obtain ⟨reason, hskipped⟩ := hskipped rfl
    dsimp only
    rw [hskipped]
  · by_cases hid : id = strategy.id
    · subst hid
      cases whilePaused with
      | false => exact absurd rfl (hlate _ hv candle runId rfl)
      | true =>
        obtain ⟨reason, hskipped⟩ := hskipped rfl
        dsimp only
        rw [hskipped]
        exact hpaused
    · exact (hconfined.status id hid).trans hpaused

end Steps

/-! ## Runs -/

/-- The worker between two passes. -/
structure StrategyWorker.Idle (w : StrategyWorker) : Prop where
  queue : w.queue = []
  visit : w.visit = none
  valid : w.platform.tables.Valid

theorem StrategyWorker.Idle.sound {w : StrategyWorker} (h : w.Idle) : w.Sound := by
  refine ⟨h.valid.strategyIds, ⟨h.valid.runUuids, h.valid.signalUuids⟩, ?_, ?_, ?_,
    fun id _ => ⟨?_, ?_⟩, ?_⟩
  · rw [h.queue]
    exact List.nodup_nil
  · rw [h.visit]
    exact forall_none
  · rw [h.queue]
    exact List.forall_mem_nil _
  · rw [h.queue]
    exact List.forall_mem_nil _
  · rw [h.visit]
    exact forall_none
  · rw [h.visit]
    exact forall_none

/-- A statement of the worker's. -/
def WorkerEvent.OfWorker : WorkerEvent → Prop
  | .request .. => False
  | _ => True

section Runs

variable {settings : StrategySettings} {lib : StrategyLibraries} {intervals : CandleIntervals}
  {w w' : StrategyWorker}

theorem pausedInTime_ofWorker {e : WorkerEvent} (he : e.OfWorker) :
    PausedInTime settings lib intervals w e := by
  rintro v hv rfl
  exact he.elim

theorem StrategyWorker.Sound.step (h : w.Sound) {e : WorkerEvent}
    (hintime : PausedInTime settings lib intervals w e) :
    (workerStep settings lib intervals w e).Sound := by
  cases e with
  | start => exact h.start
  | next rows => exact h.next rows
  | act now => exact (h.act now).1
  | conclude placing inputs rolledBack => exact (h.conclude placing inputs rolledBack).1
  | request v hv => exact h.request hv hintime

theorem StrategyWorker.Sound.pausesHold (h : w.Sound) {e : WorkerEvent} (he : e.OfWorker) :
    PausesHold w (workerStep settings lib intervals w e) := by
  have hsame : ∀ w' : StrategyWorker, w'.platform = w.platform → PausesHold w w' :=
    fun w' hw' => ⟨fun _ _ _ _ _ => by rw [hw'], fun _ hpaused _ => by rw [hw']; exact hpaused⟩
  cases e with
  | start =>
    apply hsame
    rw [workerStep, StrategyWorker.start]
    split <;> rfl
  | next rows =>
    apply hsame
    rw [workerStep, StrategyWorker.next]
    split
    · split <;> rfl
    · rfl
  | act now => exact (h.act now).2
  | conclude placing inputs rolledBack => exact (h.conclude placing inputs rolledBack).2
  | request v hv => exact he.elim

/-- **A pause takes effect before the next order**, as long as each comes in time: in
any run of passes and requests, no step of the worker orders for a strategy that was
paused before the claim of its candle, or makes such a strategy anything else. -/
theorem pauses_hold {events : List WorkerEvent} (hidle : w.Idle)
    (hrun : Run (Guarded (PausedInTime settings lib intervals)
      (Steps (workerStep settings lib intervals))) w events w') {e : WorkerEvent}
        (he : e.OfWorker) :
    PausesHold w' (workerStep settings lib intervals w' e) := by
  have hsound : w'.Sound := hrun.invariant (P := StrategyWorker.Sound) hidle.sound
    fun _ _ _ hs ⟨hintime, hstep⟩ => hstep ▸ hs.step hintime
  exact hsound.pausesHold he

end Runs

/-! ### A pause while the strategy waits -/

/-- One active strategy. -/
def idleWorker : StrategyWorker where
  platform := ⟨.empty, { strategies := [twoThreeStrategy], nextUuid := 8 }⟩

abbrev paperWorkerStep : StrategyWorker → WorkerEvent → StrategyWorker :=
  workerStep paperStrategySettings ⟨id, fun _ => "0000000000"⟩ oneMinute

def pauseIt : WorkerEvent := .request (.pause 0 7 5) rfl

/-- The evaluation buys. -/
def buyIt : WorkerEvent :=
  .conclude (orderManagerPlace paperStrategySettings.toSettings (301 * 1000000) (301 * 1000000) true
      (.network true))
    { inputsAfter steadyCandles with
      latest := .ok (some (quoteOfTwelve (301 * 1000000))) } false

/-- A pause between the load and the claim, before an order. -/
theorem order_after_pause : ¬ ∀ (settings : StrategySettings) (lib : StrategyLibraries)
    (intervals : CandleIntervals) (w w' : StrategyWorker) (events : List WorkerEvent), w.Idle →
      Run (Steps (workerStep settings lib intervals)) w events w' → ∀ e : WorkerEvent, e.OfWorker →
        PausesHold w' (workerStep settings lib intervals w' e) := by
  intro h
  have hidle : idleWorker.Idle := ⟨rfl, rfl, by decide +kernel⟩
  have hheld := h _ _ _ _ _ _ hidle
    (run_foldl paperWorkerStep idleWorker [.start, pauseIt, .next steadyCandles, .act 0]) buyIt
    trivial
  have hvisit : ([.start, pauseIt, .next steadyCandles, .act 0].foldl paperWorkerStep
      idleWorker).visit = some ⟨twoThreeStrategy, .claimed (minuteCandle 240 12) 8 true⟩ := by
    decide +kernel
  have htrading := congrArg (fun s => s.orders.length) (hheld.unordered _ hvisit _ _ rfl)
  exact absurd htrading (by decide +kernel)

/-- A pause after the claim. -/
theorem pauses_hold_claimed :
    PausesHold ([.start, .next steadyCandles, .act 0, pauseIt].foldl paperWorkerStep idleWorker)
      ([.start, .next steadyCandles, .act 0, pauseIt, buyIt].foldl paperWorkerStep idleWorker) := by
  have hidle : idleWorker.Idle := ⟨rfl, rfl, by decide +kernel⟩
  have hclaimed : ∀ id, ([.start, .next steadyCandles, .act 0].foldl paperWorkerStep
      idleWorker).Unread id := by
    have hqueue : ([.start, .next steadyCandles, .act 0].foldl paperWorkerStep idleWorker).queue =
        [] := by decide +kernel
    have hvisit : ([.start, .next steadyCandles, .act 0].foldl paperWorkerStep idleWorker).visit =
        some ⟨twoThreeStrategy, .claimed (minuteCandle 240 12) 8 false⟩ := by decide +kernel
    intro id
    refine ⟨?_, ?_⟩
    · rw [hqueue]
      exact List.forall_mem_nil _
    · rw [hvisit]
      intro v hv _
      cases hv
      exact not_false
  have hrun : Run (Guarded
    (PausedInTime paperStrategySettings ⟨id, fun _ => "0000000000"⟩ oneMinute)
      (Steps paperWorkerStep)) idleWorker [.start, .next steadyCandles, .act 0, pauseIt]
      ([.start, .next steadyCandles, .act 0, pauseIt].foldl paperWorkerStep idleWorker) := by
    refine .cons ⟨pausedInTime_ofWorker trivial, rfl⟩ (.cons ⟨pausedInTime_ofWorker trivial, rfl⟩
      (.cons ⟨pausedInTime_ofWorker trivial, rfl⟩ (.single ⟨?_, rfl⟩)))
    exact fun _ _ _ id _ _ => hclaimed id
  exact pauses_hold hidle hrun (e := buyIt) trivial

end GnkAlgo
