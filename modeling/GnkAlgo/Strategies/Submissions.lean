import GnkAlgo.Strategies.EvaluationStages
import GnkAlgo.Strategies.WorkerPass
import GnkAlgo.Trading.OrderRuns

/-!
# Order requests of many processes

Calls of `place` and of `evaluate` and passes of the strategy worker, in any number of
processes.  Between any two statements of one, the others go on; each may be killed at
any point, and a worker that was killed starts its next pass.

* `Fleet` — the platform, the processes, and the requests that went to the broker;
* `fleetStep` — a call or a pass begins, a process executes a statement, or is killed;
* `Fleet.Once` — the invariant: what a process has taken and not used up, nobody has sent;
* `submitted_once` — one request at most for each client id, and for each candle.
-/

namespace GnkAlgo

open SingleUse Transition StrategyExecutor

/-! ## Processes -/

/-- What runs. -/
inductive Process
  | placing (call : PlaceCall) (stage : PlaceStage)
  | evaluating (call : EvaluationCall) (stage : EvaluationStage)
  /-- A pass: the strategies that wait, the one that is looked at, and the number of the
  evaluation it awaits. -/
  | passing (queue : List LoadedStrategy) (visit : Option Visit) (evaluation : Option ℕ)
  | killed

/-- A `POST /orders`: the client id it carries, and the candle it comes from. -/
structure OrderRequest where
  client : Uuid × String
  candle : Option (Uuid × Time)
  deriving DecidableEq

namespace Process

/-- The client id that is taken for the next request. -/
def client : Process → Option (Uuid × String)
  | .placing _ stage => stage.held
  | .evaluating _ stage => stage.held
  | _ => none

/-- The candle that is claimed for the request that may come. -/
def candle : Process → Option (Uuid × Time)
  | .evaluating call stage => call.held stage
  | _ => none

/-- The requests that the next statement sends. -/
def sends (subscribed : Bool) : Process → List OrderRequest
  | .placing _ stage => (stage.sends subscribed).map fun k => ⟨k, none⟩
  | .evaluating call stage => (stage.sends subscribed).map fun k => ⟨k, some call.candleKey⟩
  | _ => []

/-- The next statement of a call. -/
def advance (settings : StrategySettings) (lib : StrategyLibraries) (now : Time)
    (subscribed : Bool) (outcome : HttpOutcome) (p : Platform) : Process → Platform × Process
  | .placing call stage =>
    let (s, stage) := call.advance settings.toSettings now subscribed outcome p.trading stage
    (⟨s, p.tables⟩, .placing call stage)
  | .evaluating call stage =>
    let (p, stage) := call.advance settings lib now subscribed outcome p stage
    (p, .evaluating call stage)
  | process => (p, process)

/-- The call has returned or raised. -/
def isOver : Process → Bool
  | .placing _ stage => stage.result?.isSome
  | .evaluating _ .ended => true
  | .evaluating _ _ => false
  | .passing queue visit evaluation => queue.isEmpty && visit.isNone && evaluation.isNone
  | .killed => true

end Process

/-! ## Runs -/

structure Fleet where
  platform : Platform
  processes : ℕ → Option Process
  requests : List OrderRequest := []

inductive FleetEvent
  | place (number : ℕ) (call : PlaceCall)
  | evaluate (number : ℕ) (call : EvaluationCall)
  | pass (number : ℕ)
  /-- A statement of a call, at a reading of the clock; the broker's answer to a request
  that is awaited. -/
  | advance (number : ℕ) (now : Time) (subscribed : Bool) (outcome : HttpOutcome)
  /-- The queries of a pass for its next strategy. -/
  | next (number : ℕ) (rows : List MarketCandle)
  /-- The commit of a pass for an incomplete strategy. -/
  | mark (number : ℕ) (now : Time)
  /-- A pass calls `evaluate`, which is a process of its own that it awaits. -/
  | visit (number evaluation : ℕ) (inputs : EvaluationInputs)
  | resume (number : ℕ) (rolledBack : Bool)
  | kill (number : ℕ)

namespace Fleet

variable (settings : StrategySettings) (lib : StrategyLibraries) (fleet : Fleet)

def set (number : ℕ) (process : Process) : Fleet :=
  { fleet with processes := Function.update fleet.processes number (some process) }

/-- A process begins, where the number is free. -/
def begin (number : ℕ) (process : Process) : Fleet :=
  match fleet.processes number with
  | none => fleet.set number process
  | some _ => fleet

def advance (number : ℕ) (now : Time) (subscribed : Bool) (outcome : HttpOutcome) : Fleet :=
  match fleet.processes number with
  | none => fleet
  | some process =>
    let (p, next) := process.advance settings lib now subscribed outcome fleet.platform
    { platform := p
      processes := Function.update fleet.processes number (some next)
      requests := fleet.requests ++ process.sends subscribed }

def next (number : ℕ) (rows : List MarketCandle) : Fleet :=
  match fleet.processes number with
  | some (.passing queue none none) =>
    let w := StrategyWorker.next rows ⟨fleet.platform, queue, none⟩
    fleet.set number (.passing w.queue w.visit none)
  | _ => fleet

def mark (number : ℕ) (now : Time) : Fleet :=
  match fleet.processes number with
  | some (.passing queue (some ⟨strategy, .incomplete⟩) none) =>
    let w := StrategyWorker.act now ⟨fleet.platform, queue, some ⟨strategy, .incomplete⟩⟩
    { fleet with platform := w.platform }.set number (.passing w.queue w.visit none)
  | _ => fleet

def visit (number evaluation : ℕ) (inputs : EvaluationInputs) : Fleet :=
  match fleet.processes number, fleet.processes evaluation with
  | some (.passing queue (some ⟨strategy, .due candle⟩) none), none =>
    (fleet.set number (.passing queue none (some evaluation))).set evaluation
      (.evaluating ⟨strategy, candle, inputs⟩ .called)
  | _, _ => fleet

/-- The awaited evaluation is over.  Where it has rolled the session back, or the pass
does so for an exception, the copies that wait expire. -/
def resume (number : ℕ) (rolledBack : Bool) : Fleet :=
  match fleet.processes number with
  | some (.passing queue none (some evaluation)) =>
    if (fleet.processes evaluation).all Process.isOver then
      let queue := if rolledBack then queue.map fun loaded => { loaded with row := none } else queue
      fleet.set number (.passing queue none none)
    else fleet
  | _ => fleet

end Fleet

def Fleet.kill (fleet : Fleet) (number : ℕ) : Fleet :=
  match fleet.processes number with
  | none => fleet
  | some _ => fleet.set number .killed

def fleetStep (settings : StrategySettings) (lib : StrategyLibraries) (fleet : Fleet) :
    FleetEvent → Fleet
  | .place number call => fleet.begin number (.placing call .called)
  | .evaluate number call => fleet.begin number (.evaluating call .called)
  | .pass number =>
    fleet.begin number
      (.passing (StrategyWorker.start settings ⟨fleet.platform, [], none⟩).queue none none)
  | .advance number now subscribed outcome =>
    fleet.advance settings lib number now subscribed outcome
  | .next number rows => fleet.next number rows
  | .mark number now => fleet.mark number now
  | .visit number evaluation inputs => fleet.visit number evaluation inputs
  | .resume number rolledBack => fleet.resume number rolledBack
  | .kill number => fleet.kill number

/-! ## The invariant -/

/-- The client ids that have an order. -/
def Platform.clientKeys (p : Platform) : List (Uuid × String) :=
  p.trading.orders.map TradingOrder.clientKey

/-- Nobody holds what was sent, and nothing was sent twice: neither a client id nor a
candle. -/
structure Fleet.Once (fleet : Fleet) : Prop where
  clients : SentOnce (· ∈ fleet.platform.clientKeys)
    (fun i => (fleet.processes i).bind Process.client) (fleet.requests.map OrderRequest.client)
  candles : SentOnce (· ∈ fleet.platform.tables.candleKeys)
    (fun i => (fleet.processes i).bind Process.candle)
    (fleet.requests.filterMap OrderRequest.candle)

/-- What one process does, for the client ids and for the candles. -/
structure Process.Moves (p q : Platform) (held : Option Process) (next : Process)
    (sent : List OrderRequest) : Prop where
  clientKeys : ∀ k ∈ p.clientKeys, k ∈ q.clientKeys
  client : Move (· ∈ p.clientKeys) (· ∈ q.clientKeys) (held.bind Process.client) next.client
    (sent.map OrderRequest.client)
  candleKeys : ∀ k ∈ p.tables.candleKeys, k ∈ q.tables.candleKeys
  candle : Move (· ∈ p.tables.candleKeys) (· ∈ q.tables.candleKeys) (held.bind Process.candle)
    next.candle (sent.filterMap OrderRequest.candle)

/-- What the processes hold, after a change of one. -/
theorem bind_update {κ : Type*} (processes : ℕ → Option Process) (i : ℕ) (x : Process)
    (f : Process → Option κ) :
    (fun j => (Function.update processes i (some x) j).bind f) =
      Function.update (fun j => (processes j).bind f) i (f x) :=
  Function.comp_update (fun y : Option Process => y.bind f) processes i (some x)

section Steps

variable {settings : StrategySettings} {lib : StrategyLibraries} {fleet : Fleet}

/-- **A move of one process** keeps the invariant. -/
theorem Fleet.Once.move (h : fleet.Once) {i : ℕ} {x : Process} {q : Platform}
    {sent : List OrderRequest}
    (hmove : Process.Moves fleet.platform q (fleet.processes i) x sent) :
    Fleet.Once ⟨q, Function.update fleet.processes i (some x), fleet.requests ++ sent⟩ where
  clients := by
    rw [bind_update, List.map_append]
    exact h.clients.move hmove.clientKeys hmove.client
  candles := by
    rw [bind_update, List.filterMap_append]
    exact h.candles.move hmove.candleKeys hmove.candle

/-- A process that stands where it holds nothing, with no request and no new order or
run. -/
theorem Fleet.Once.set (h : fleet.Once) (i : ℕ) {x : Process} (hclient : x.client = none)
    (hcandle : x.candle = none) : (fleet.set i x).Once := by
  have hset : fleet.set i x = ⟨fleet.platform, Function.update fleet.processes i (some x),
      fleet.requests ++ []⟩ := by
    rw [List.append_nil]
    rfl
  rw [hset]
  refine h.move ⟨fun _ hk => hk, ?_, fun _ hk => hk, ?_⟩
  · rw [hclient]
    exact .drop
  · rw [hcandle]
    exact .drop

theorem Fleet.Once.begin (h : fleet.Once) (i : ℕ) {x : Process} (hclient : x.client = none)
    (hcandle : x.candle = none) : (fleet.begin i x).Once := by
  unfold Fleet.begin
  split
  · exact h.set i hclient hcandle
  · exact h

/-- A statement of a call. -/
theorem moves_advance (hlive : settings.tradingMode = .live) (now : Time) (subscribed : Bool)
    (outcome : HttpOutcome) (p : Platform) (process : Process) :
    Process.Moves p (process.advance settings lib now subscribed outcome p).1 (some process)
      (process.advance settings lib now subscribed outcome p).2 (process.sends subscribed) := by
  cases process with
  | placing call stage =>
    obtain ⟨hkeys, hclient⟩ := PlaceCall.advance_move (r := call.advance settings.toSettings now
      subscribed outcome p.trading stage) hlive rfl
    refine ⟨hkeys, ?_, fun _ hk => hk, ?_⟩
    · rw [Process.sends, List.map_map]
      exact (List.map_id (stage.sends subscribed)).symm ▸ hclient
    · rw [Process.sends, List.filterMap_map]
      exact (List.filterMap_eq_nil_iff.2 fun _ _ => rfl : List.filterMap _ _ = []) ▸ .drop
  | evaluating call stage =>
    obtain ⟨hkeys, hclient⟩ := EvaluationCall.advance_clients (r := call.advance settings lib now
      subscribed outcome p stage) hlive rfl
    obtain ⟨hruns, hcandle⟩ := EvaluationCall.advance_candles (r := call.advance settings lib now
      subscribed outcome p stage) rfl
    refine ⟨hkeys, ?_, hruns, ?_⟩
    · rw [Process.sends, List.map_map]
      exact (List.map_id (stage.sends subscribed)).symm ▸ hclient
    · have hsends : (Process.sends subscribed (.evaluating call stage)).filterMap
          OrderRequest.candle = (stage.sends subscribed).map fun _ => call.candleKey := by
        rw [Process.sends, List.filterMap_map, ← List.filterMap_eq_map]
        rfl
      rw [hsends]
      exact hcandle
  | passing queue visit evaluation => exact ⟨fun _ hk => hk, .drop, fun _ hk => hk, .drop⟩
  | killed => exact ⟨fun _ hk => hk, .drop, fun _ hk => hk, .drop⟩

/-- The error of an incomplete strategy takes no key. -/
theorem quiet_markIncomplete (t : StrategyTables) (copy : Strategy) :
    t.Quiet (markIncomplete t copy) :=
  t.quiet_updateStrategy copy.id fun _ => rfl

theorem once_fleetStep (hlive : settings.tradingMode = .live) (h : fleet.Once) (e : FleetEvent) :
    (fleetStep settings lib fleet e).Once := by
  cases e with
  | place number call => exact h.begin number rfl rfl
  | evaluate number call => exact h.begin number rfl rfl
  | pass number => exact h.begin number rfl rfl
  | advance number now subscribed outcome =>
    rw [fleetStep, Fleet.advance]
    split
    · exact h
    · rename_i process hprocess
      exact h.move (hprocess ▸ moves_advance hlive now subscribed outcome fleet.platform process)
  | next number rows =>
    rw [fleetStep, Fleet.next]
    split
    · exact h.set number rfl rfl
    · exact h
  | mark number now =>
    rw [fleetStep, Fleet.mark]
    split
    · rename_i queue strategy hprocess
      have hquiet := quiet_markIncomplete fleet.platform.tables strategy
      have hplatform : Fleet.Once
          { fleet with platform := ⟨fleet.platform.trading,
              markIncomplete fleet.platform.tables strategy⟩ } :=
        ⟨h.clients, by rw [hquiet.candleKeys]; exact h.candles⟩
      exact hplatform.set number rfl rfl
    · exact h
  | visit number evaluation inputs =>
    rw [fleetStep, Fleet.visit]
    split
    · refine Fleet.Once.set (h.set number rfl rfl) evaluation rfl rfl
    · exact h
  | resume number rolledBack =>
    rw [fleetStep, Fleet.resume]
    split
    · split
      · exact h.set number rfl rfl
      · exact h
    · exact h
  | kill number =>
    rw [fleetStep, Fleet.kill]
    split
    · exact h
    · exact h.set number rfl rfl

/-- Nothing runs and nothing has been sent. -/
structure Fleet.Idle (fleet : Fleet) : Prop where
  processes : ∀ i, fleet.processes i = none
  requests : fleet.requests = []

theorem Fleet.Idle.once (h : fleet.Idle) : fleet.Once := by
  have hprocesses : fleet.processes = fun _ => none := funext h.processes
  refine ⟨?_, ?_⟩
  · rw [hprocesses, h.requests]
    exact sentOnce_none _
  · rw [hprocesses, h.requests]
    exact sentOnce_none _

variable (lib) in
/-- **One request at most** for each client id of a user, and for each candle of a
strategy, in every run of placements, evaluations and passes, whatever is killed where
and whatever the broker answers. -/
theorem submitted_once (hlive : settings.tradingMode = .live) (hidle : fleet.Idle)
    (es : List FleetEvent) :
    ((es.foldl (fleetStep settings lib) fleet).requests.map OrderRequest.client).Nodup ∧
    ((es.foldl (fleetStep settings lib) fleet).requests.filterMap OrderRequest.candle).Nodup := by
  have honce : (es.foldl (fleetStep settings lib) fleet).Once :=
    (run_foldl (fleetStep settings lib) fleet es).invariant hidle.once
      fun s e t hs ht => ht ▸ once_fleetStep hlive hs e
  exact ⟨honce.clients.nodup, honce.candles.nodup⟩

end Steps

/-! ### Two calls under one client id -/

def liveStrategySettings : StrategySettings :=
  { paperStrategySettings with toSettings := liveSettings }

/-- Nothing has been sent for the account. -/
def idleFleet : Fleet where
  platform := ⟨connectedStore, {}⟩
  processes _ := none

/-- Both calls find no order; the first commits one and sends it, the second meets the
constraint. -/
def racingCalls : List FleetEvent :=
  let call : PlaceCall := ⟨7, 3, marketValues, some quoteAtHundred⟩
  let advance (number : ℕ) : FleetEvent := .advance number 0 true (.network true)
  [.place 0 call, .place 1 call] ++ (List.replicate 7 [advance 0, advance 1]).flatten

abbrev racedFleet : Fleet :=
  racingCalls.foldl (fleetStep liveStrategySettings ⟨id, fun _ => "0000000000"⟩) idleFleet

/-- One request comes of the two. -/
theorem submitted_once_raced : racedFleet.requests = [⟨(7, "a"), none⟩] ∧
    (racedFleet.requests.map OrderRequest.client).Nodup ∧
    (racedFleet.requests.filterMap OrderRequest.candle).Nodup :=
  ⟨by decide +kernel, submitted_once _ rfl ⟨fun _ => rfl, rfl⟩ racingCalls⟩

end GnkAlgo
