import GnkAlgo.Strategies.EvaluationSteps

/-!
# The constraints of the strategy tables

Only creating and editing a strategy, and flushing a signal, can meet a violated
constraint.  Everything else an evaluation writes keeps the constraints, since the
columns under a key stay and the identifiers are new.

* `Valid.updateStrategy`, `Valid.updateRun` — columns under no key;
* `Valid.claimed`, `Valid.insertSignal` — the run that claims a candle, and a signal;
* `Valid.finish` — the end of a run.
-/

namespace GnkAlgo

open StrategyExecutor Upserts

namespace StrategyTables

variable {t : StrategyTables}

/-- A bound on a column carries over to rows with the same column. -/
theorem forall_lt_of_map_eq {α : Type*} {f : α → Uuid} {l l' : List α} {n : Uuid}
    (hmap : l'.map f = l.map f) (h : ∀ x ∈ l, f x < n) : ∀ x ∈ l', f x < n := by
  intro x hx
  have hmem : f x ∈ l.map f := hmap ▸ List.mem_map_of_mem hx
  obtain ⟨y, hy, heq⟩ := List.mem_map.1 hmem
  exact heq ▸ h y hy

theorem Valid.updateStrategy (h : t.Valid) (id : Uuid) {f : Strategy → Strategy}
    (hid : ∀ s, (f s).id = s.id) (hname : ∀ s, ((f s).userId, (f s).name) = (s.userId, s.name)) :
    (t.updateStrategy id f).Valid := by
  have hids : (t.updateStrategy id f).strategies.map Strategy.id = t.strategies.map Strategy.id :=
    map_of_updateById hid
  have hnames : (t.updateStrategy id f).strategies.map (fun s => (s.userId, s.name)) =
      t.strategies.map fun s => (s.userId, s.name) := map_of_updateById hname
  exact ⟨hids ▸ h.strategyIds, hnames ▸ h.names, h.versions, h.runIds, h.candleRuns, h.signalIds,
    h.signalRuns, h.signalOrders, forall_lt_of_map_eq hids h.strategyUuids, h.runUuids,
    h.signalUuids⟩

theorem Valid.updateRun (h : t.Valid) (id : Uuid) {f : StrategyRun → StrategyRun}
    (hid : ∀ r, (f r).id = r.id)
    (hcandle : ∀ r, ((f r).strategyId, (f r).candleStartAt) = (r.strategyId, r.candleStartAt)) :
    (t.updateRun id f).Valid := by
  have hids : (t.updateRun id f).runs.map StrategyRun.id = t.runs.map StrategyRun.id :=
    map_of_updateById hid
  have hcandles : (t.updateRun id f).runs.map (fun r => (r.strategyId, r.candleStartAt)) =
      t.runs.map fun r => (r.strategyId, r.candleStartAt) := map_of_updateById hcandle
  exact ⟨h.strategyIds, h.names, h.versions, hids ▸ h.runIds, hcandles ▸ h.candleRuns, h.signalIds,
    h.signalRuns, h.signalOrders, h.strategyUuids, forall_lt_of_map_eq hids h.runUuids,
    h.signalUuids⟩

/-- A new row under a key that no row has. -/
theorem nodup_map_concat {α κ : Type*} {key : α → κ} {l : List α} {x : α}
    (h : (l.map key).Nodup) (hx : ∀ y ∈ l, key y ≠ key x) : ((l ++ [x]).map key).Nodup := by
  rw [List.map_append]
  refine List.nodup_append.2 ⟨h, List.nodup_singleton _, ?_⟩
  rintro _ hmem _ hlast rfl
  obtain ⟨y, hy, heq⟩ := List.mem_map.1 hmem
  exact hx y hy (heq.trans (List.mem_singleton.1 hlast))

theorem forall_lt_concat {α : Type*} {f : α → Uuid} {l : List α} {x : α} {n : Uuid}
    (h : ∀ y ∈ l, f y < n) (hx : f x = n) : ∀ y ∈ l ++ [x], f y < n + 1 := by
  intro y hy
  rcases List.mem_append.1 hy with hy | hy
  · exact (h y hy).trans (Nat.lt_succ_self _)
  · rw [List.mem_singleton.1 hy, hx]
    exact Nat.lt_succ_self _

/-- The run for a candle that has none. -/
theorem Valid.insertRun (h : t.Valid) {r : StrategyRun} (hid : r.id = t.nextUuid)
    (hnew : run? t r.strategyId r.candleStartAt = none) : (t.insertRun r).Valid := by
  have hcandle : ∀ y ∈ t.runs,
      (y.strategyId, y.candleStartAt) ≠ (r.strategyId, r.candleStartAt) := by
    intro y hy heq
    have hnone := List.find?_eq_none.1 hnew y hy
    simp only [Prod.mk.injEq] at heq
    exact hnone (by simpa using heq)
  exact ⟨h.strategyIds, h.names, h.versions,
    nodup_map_concat h.runIds fun y hy => hid ▸ (h.runUuids y hy).ne,
    nodup_map_concat h.candleRuns hcandle, h.signalIds, h.signalRuns, h.signalOrders,
    fun s hs => (h.strategyUuids s hs).trans (Nat.lt_succ_self _),
    forall_lt_concat h.runUuids hid,
    fun s hs => (h.signalUuids s hs).trans (Nat.lt_succ_self _)⟩

/-- A signal of a run that has none, of an order that has none. -/
theorem Valid.insertSignal (h : t.Valid) {x : StrategySignal} (hid : x.id = t.nextUuid)
    (hrun : ∀ y ∈ t.signals, y.runId ≠ x.runId)
    (horder : ∀ id ∈ x.orderId, ∀ y ∈ t.signals, y.orderId ≠ some id) :
    (t.insertSignal x).Valid := by
  have horders : ((t.signals ++ [x]).filterMap StrategySignal.orderId).Nodup := by
    rw [List.filterMap_append]
    refine List.nodup_append.2 ⟨h.signalOrders, ?_, ?_⟩
    · cases hx : x.orderId <;> simp [hx]
    · rintro id hold _ hnew rfl
      obtain ⟨y, hy, hyid⟩ := List.mem_filterMap.1 hold
      obtain ⟨x', hx', hxid⟩ := List.mem_filterMap.1 hnew
      obtain rfl := List.mem_singleton.1 hx'
      exact horder id hxid y hy hyid
  exact ⟨h.strategyIds, h.names, h.versions, h.runIds, h.candleRuns,
    nodup_map_concat h.signalIds fun y hy => hid ▸ (h.signalUuids y hy).ne,
    nodup_map_concat h.signalRuns hrun, horders,
    fun s hs => (h.strategyUuids s hs).trans (Nat.lt_succ_self _),
    fun r hr => (h.runUuids r hr).trans (Nat.lt_succ_self _),
    forall_lt_concat h.signalUuids hid⟩

end StrategyTables

/-- The end of a run. -/
theorem valid_finish {t : StrategyTables} (h : t.Valid) (strategyId runId : Uuid)
    (finishedAt : Time) (e : RunEnd) : (finish t strategyId runId finishedAt e).Valid := by
  have hrun := h.updateRun runId (f := fun r => { r with
      status := e.status, diagnostics := e.diagnostics, finishedAt := some finishedAt })
    (fun _ => rfl) (fun _ => rfl)
  unfold finish
  dsimp only
  split
  · exact hrun
  · exact hrun.updateStrategy strategyId (fun _ => rfl) (fun _ => rfl)

/-- The candle is claimed once. -/
theorem valid_claimedTables {p : Platform} (h : p.tables.Valid) {strategy : Strategy}
    {candle : MarketCandle} (hnew : run? p.tables strategy.id candle.startAt = none)
    (inputs : EvaluationInputs) : (claimedTables p strategy candle inputs).Valid := by
  unfold claimedTables claim
  apply StrategyTables.Valid.updateStrategy
  · apply h.insertRun
    · rfl
    · exact hnew
  · intro s
    rfl
  · intro s
    rfl

end GnkAlgo
