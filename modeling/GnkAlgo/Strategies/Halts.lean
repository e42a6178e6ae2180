import GnkAlgo.Strategies.Submissions
import GnkAlgo.Trading.RiskGate

/-!
# A halt among calls in flight

The kill switch of `backend/app/routers/trading.py` next to the calls and passes of many
processes.  `place` asks for the controls once, in its risk check: a call that is past
this query commits its order and sends its request whatever is halted by then, even where
the other two queries of the check are still to come.

* `PlaceStage.vetted`, `PlaceStage.cleared` — the query is behind the call; its order, or
  its request, is not;
* `haltStep` — a statement of the fleet, or a kill switch;
* `PlaceCall.advance_curbed` — under a halt a statement has a call neither vetted nor
  cleared anew;
* `halt_kept` — the orders and requests of a halted user are those of calls that were in
  flight.
-/

namespace GnkAlgo

open SingleUse StrategyExecutor Transition

/-! ## In flight -/

/-- The client id of a call. -/
def PlaceCall.clientKey (c : PlaceCall) : Uuid × String := (c.userId, c.values.clientOrderId)

/-- The client id of a call for the user that is past the query for the controls, and whose
order is not committed. -/
def PlaceStage.vetted (userId : Uuid) (key : Uuid × String) : PlaceStage → Option (Uuid × String)
  | .controlled _ | .counted | .checked | .connected _ => if key.1 = userId then some key else none
  | _ => none

/-- The client id of a call for the user that is past the query for the controls, and whose
request is not sent. -/
def PlaceStage.cleared (userId : Uuid) (key : Uuid × String) : PlaceStage → Option (Uuid × String)
  | .controlled _ | .counted | .checked | .connected _ => if key.1 = userId then some key else none
  | .committed o => if o.userId = userId then some o.clientKey else none
  | _ => none

/-- The client ids of the orders of a user. -/
def Store.clientKeysOf (s : Store) (userId : Uuid) : List (Uuid × String) :=
  (s.orders.map TradingOrder.clientKey).filter fun k => k.1 = userId

/-! ## A statement under a halt -/

/-- What a statement may do: the call is neither vetted nor cleared anew; it commits an
order of the user only where it was vetted, and sends a request only where it was cleared,
and then it is that no more. -/
structure Curbed {κ : Type*} (client : κ → Uuid × String) (userId : Uuid) (s t : Store)
    (vetted vetted' cleared cleared' : Option κ) (sent : List κ) : Prop where
  orders : ∃ made, Spend vetted vetted' made ∧
    t.clientKeysOf userId = s.clientKeysOf userId ++ made.map client
  requests : Spend cleared cleared' (sent.filter fun k => (client k).1 = userId)

section Curbed

variable {κ κ' : Type*} {client : κ → Uuid × String} {client' : κ' → Uuid × String} {userId : Uuid}
  {s t : Store} {vetted vetted' cleared cleared' : Option κ} {sent : List κ}

/-- Nothing is committed and nothing is sent. -/
theorem Curbed.quiet (hkeys : t.clientKeysOf userId = s.clientKeysOf userId)
    (hvetted : vetted' = vetted ∨ vetted' = none)
    (hcleared : cleared' = cleared ∨ cleared' = none) :
    Curbed client userId s t vetted vetted' cleared cleared' [] where
  orders := by
    refine ⟨[], ?_, hkeys.trans (List.append_nil _).symm⟩
    rcases hvetted with rfl | rfl
    · exact .keep
    · exact .drop
  requests := by
    rcases hcleared with rfl | rfl
    · exact .keep
    · exact .drop

theorem Curbed.refl (s : Store) (vetted cleared : Option κ) :
    Curbed client userId s s vetted vetted cleared cleared [] :=
  .quiet rfl (Or.inl rfl) (Or.inl rfl)

theorem Curbed.map (f : κ → κ') (hf : ∀ k, client' (f k) = client k)
    (h : Curbed client userId s t vetted vetted' cleared cleared' sent) :
    Curbed client' userId s t (vetted.map f) (vetted'.map f) (cleared.map f) (cleared'.map f)
      (sent.map f) where
  orders := by
    obtain ⟨made, hmove, hkeys⟩ := h.orders
    refine ⟨made.map f, hmove.map f, ?_⟩
    rw [hkeys, List.map_map, List.map_congr_left fun k _ => (hf k).symm]
    rfl
  requests := by
    have hfilter : (sent.map f).filter (fun k => (client' k).1 = userId) =
        (sent.filter fun k => (client k).1 = userId).map f := by
      rw [List.filter_map]
      refine congrArg (List.map f) (List.filter_congr fun k _ => ?_)
      rw [Function.comp_apply, hf]
    rw [hfilter]
    exact h.requests.map f

end Curbed

section Place

variable {settings : Settings} {now : Time} {subscribed : Bool} {outcome : HttpOutcome} {s : Store}
  {c : PlaceCall} {userId : Uuid}

theorem filter_own {k : Uuid × String} (h : k.1 = userId) :
    ([k].filter fun k => k.1 = userId) = [k] := by simp [h]

theorem filter_other {k : Uuid × String} (h : k.1 ≠ userId) :
    ([k].filter fun k => k.1 = userId) = [] := by simp [h]

theorem clientKeysOf_finish (s : Store) (o : TradingOrder) (result : Outcome) :
    (s.finish o result).1.clientKeysOf userId = s.clientKeysOf userId :=
  congrArg (List.filter _) (clientKeys_finish s o result)

/-- **A statement of a placement under a halt.** -/
theorem PlaceCall.advance_curbed (hlive : settings.tradingMode = .live)
    (hhalted : isHalted s.toDatabase userId = true) (stage : PlaceStage) {r : Store × PlaceStage}
    (hr : r = c.advance settings now subscribed outcome s stage) :
    Curbed id userId s r.1 (stage.vetted userId c.clientKey) (r.2.vetted userId c.clientKey)
      (stage.cleared userId c.clientKey) (r.2.cleared userId c.clientKey)
      (stage.sends subscribed) := by
  -- a statement that ends the call, whoever it is for
  have hends : ∀ (t : Store) (result : Except Raised TradingOrder),
      t.clientKeysOf userId = s.clientKeysOf userId → stage.sends subscribed = [] →
      r = (t, .returned result) → Curbed id userId s r.1 (stage.vetted userId c.clientKey)
        (r.2.vetted userId c.clientKey) (stage.cleared userId c.clientKey)
        (r.2.cleared userId c.clientKey) (stage.sends subscribed) := by
    rintro t result hkeys hsends rfl
    rw [hsends]
    exact .quiet hkeys (Or.inr rfl) (Or.inr rfl)
  cases stage with
  | called =>
    rw [PlaceCall.advance, hlive] at hr
    dsimp only at hr
    split at hr
    · exact hends _ _ rfl rfl hr
    · split at hr
      · exact hends _ _ rfl rfl hr
      · rw [hr]
        exact .refl ..
  | absent =>
    rw [PlaceCall.advance] at hr
    split at hr
    · exact hends _ _ rfl rfl hr
    · rename_i hchecks
      -- the query has seen no halt, so the call is another user's
      have hother : c.clientKey.1 ≠ userId := by
        rintro rfl
        have hfree := PlaceCall.not_isHalted_of_controlChecks hchecks
        exact Bool.false_ne_true (hfree.symm.trans hhalted)
      rw [hr]
      exact .quiet rfl (Or.inr (if_neg hother)) (Or.inr (if_neg hother))
  | controlled quote =>
    rw [PlaceCall.advance] at hr
    split at hr
    · exact hends _ _ rfl rfl hr
    · rw [hr]
      exact .refl ..
  | counted =>
    rw [PlaceCall.advance] at hr
    split at hr
    · exact hends _ _ rfl rfl hr
    · rw [hr]
      exact .refl ..
  | checked =>
    rw [PlaceCall.advance] at hr
    rcases liveConnection_cases now s c.userId with ⟨t, e, hconn, hsame⟩ | ⟨⟨connection, _⟩, hconn⟩
    · rw [hconn] at hr
      refine hends t _ ?_ rfl hr
      rw [Store.clientKeysOf, hsame.orders]
      rfl
    · rw [hconn] at hr
      rw [hr]
      exact .refl ..
  | connected connectionId =>
    rw [PlaceCall.advance] at hr
    cases hcommit : Session.commit ⟨s.toDatabase, s.toDatabase.insertOrder
        (liveOrder s.nextUuid c.userId c.instrumentId connectionId c.values now)⟩ with
    | error e =>
      rw [hcommit] at hr
      exact hends _ _ rfl rfl hr
    | ok t =>
      rw [hcommit] at hr
      have hwork : s.toDatabase.insertOrder _ = t.toDatabase := Session.commit_eq_ok.1 hcommit
      have hkeys : t.clientKeysOf userId =
          s.clientKeysOf userId ++ ([c.clientKey].filter fun k => k.1 = userId) := by
        rw [Store.clientKeysOf, ← hwork, Database.insertOrder, Database.addOrder, List.map_append,
          List.filter_append]
        rfl
      rw [hr]
      by_cases hown : c.clientKey.1 = userId
      · have hvetted : (PlaceStage.connected connectionId).vetted userId c.clientKey =
            some c.clientKey := if_pos hown
        have hcleared : (PlaceStage.connected connectionId).cleared userId c.clientKey =
            some c.clientKey := if_pos hown
        have hcleared' : (PlaceStage.committed (liveOrder s.nextUuid c.userId c.instrumentId
            connectionId c.values now)).cleared userId c.clientKey = some c.clientKey := if_pos hown
        rw [filter_own hown] at hkeys
        refine ⟨⟨[c.clientKey], ?_, hkeys⟩, ?_⟩
        · rw [hvetted]
          exact .send
        · rw [hcleared, hcleared']
          exact .keep
      · rw [filter_other hown, List.append_nil] at hkeys
        exact .quiet hkeys (Or.inr rfl) (Or.inr (if_neg hown))
  | committed o =>
    rw [PlaceCall.advance] at hr
    cases subscribed with
    | true =>
      rw [hr]
      refine ⟨⟨[], .keep, (List.append_nil _).symm⟩, ?_⟩
      change Spend _ _ ([o.clientKey].filter fun k => k.1 = userId)
      by_cases hown : o.userId = userId
      · have hcleared : (PlaceStage.committed o).cleared userId c.clientKey = some o.clientKey :=
          if_pos hown
        rw [hcleared, filter_own hown]
        exact .send
      · rw [filter_other hown]
        exact .drop
    | false =>
      exact hends (s.finish o (placeFinish now o (dhanPlace false outcome))).1 _
        (clientKeysOf_finish ..) rfl hr
  | awaiting o => exact hends _ _ (clientKeysOf_finish ..) rfl hr
  | returned result => exact hends _ _ rfl rfl hr

end Place

/-- The same of an evaluation, by the placement in it. -/
def EvaluationStage.vetted (userId owner : Uuid) : EvaluationStage → Option (Uuid × String)
  | .placing _ order stage => stage.vetted userId (owner, order.values.clientOrderId)
  | _ => none

def EvaluationStage.cleared (userId owner : Uuid) : EvaluationStage → Option (Uuid × String)
  | .placing _ order stage => stage.cleared userId (owner, order.values.clientOrderId)
  | _ => none

theorem EvaluationStage.not_vetted_of_not_begun {stage : EvaluationStage} (userId owner : Uuid)
    (h : stage.begun = false) :
    stage.vetted userId owner = none ∧ stage.cleared userId owner = none := by
  cases stage with
  | placing action order at' =>
    cases at' with
    | called => exact ⟨rfl, rfl⟩
    | _ => cases h
  | _ => exact ⟨rfl, rfl⟩

namespace Process

/-- The order that the process is past the query for, and has not committed. -/
def vetted (userId : Uuid) : Process → Option OrderRequest
  | .placing call stage => (stage.vetted userId call.clientKey).map fun k => ⟨k, none⟩
  | .evaluating call stage =>
    (stage.vetted userId call.strategy.userId).map fun k => ⟨k, some call.candleKey⟩
  | _ => none

/-- The request that the process is past the query for, and has not sent. -/
def cleared (userId : Uuid) : Process → Option OrderRequest
  | .placing call stage => (stage.cleared userId call.clientKey).map fun k => ⟨k, none⟩
  | .evaluating call stage =>
    (stage.cleared userId call.strategy.userId).map fun k => ⟨k, some call.candleKey⟩
  | _ => none

end Process

section Statements

variable {settings : StrategySettings} {lib : StrategyLibraries} {now : Time} {subscribed : Bool}
  {outcome : HttpOutcome} {p : Platform} {userId : Uuid}

/-- **A statement of an evaluation under a halt.** -/
theorem EvaluationCall.advance_curbed (hlive : settings.tradingMode = .live)
    (hhalted : isHalted p.trading.toDatabase userId = true) (c : EvaluationCall)
    (stage : EvaluationStage) {r : Platform × EvaluationStage}
    (hr : r = c.advance settings lib now subscribed outcome p stage) :
    Curbed id userId p.trading r.1.trading (stage.vetted userId c.strategy.userId)
      (r.2.vetted userId c.strategy.userId) (stage.cleared userId c.strategy.userId)
      (r.2.cleared userId c.strategy.userId) (stage.sends subscribed) := by
  rcases EvaluationCall.advance_cases hr with
    ⟨rfl, -, rfl⟩ | ⟨action, order, order', at', rfl, hvalues, -, hs, hstage⟩ | h
  · exact .quiet rfl (Or.inl rfl) (Or.inl rfl)
  · rw [hs, hstage]
    unfold EvaluationStage.vetted EvaluationStage.cleared
    dsimp only
    rw [hvalues]
    exact PlaceCall.advance_curbed (c := c.placeCall order) hlive hhalted at' rfl
  · obtain ⟨hvetted, hcleared⟩ :=
      EvaluationStage.not_vetted_of_not_begun userId c.strategy.userId h.begun
    rw [h.trading, h.sends]
    exact .quiet rfl (Or.inr hvetted) (Or.inr hcleared)

variable (lib now subscribed outcome) in
/-- **A statement of a process under a halt.** -/
theorem Process.advance_curbed (hlive : settings.tradingMode = .live)
    (hhalted : isHalted p.trading.toDatabase userId = true) (process : Process) :
    Curbed OrderRequest.client userId p.trading
      (process.advance settings lib now subscribed outcome p).1.trading (process.vetted userId)
      ((process.advance settings lib now subscribed outcome p).2.vetted userId)
      (process.cleared userId)
      ((process.advance settings lib now subscribed outcome p).2.cleared userId)
      (process.sends subscribed) := by
  cases process with
  | placing call stage =>
    exact (PlaceCall.advance_curbed (c := call) hlive hhalted stage rfl).map _ fun _ => rfl
  | evaluating call stage =>
    exact (EvaluationCall.advance_curbed hlive hhalted call stage rfl).map _ fun _ => rfl
  | passing queue visit evaluation => exact .refl ..
  | killed => exact .refl ..

end Statements

/-! ## Only the kill switch writes the controls -/

section Controls

variable {settings : StrategySettings} {lib : StrategyLibraries} {now : Time} {subscribed : Bool}
  {outcome : HttpOutcome} {userId : Uuid}

theorem controls_finish (s : Store) (o : TradingOrder) (result : Outcome) :
    (s.finish o result).1.controls = s.controls := by
  obtain ⟨write, value⟩ := result
  cases write with
  | none => rfl
  | some new =>
    change (s.toDatabase.writeOrder o new).controls = _
    unfold Database.writeOrder
    split <;> rfl

theorem PlaceCall.advance_controls {settings : Settings} (hlive : settings.tradingMode = .live)
    (c : PlaceCall) (s : Store) (stage : PlaceStage) :
    (c.advance settings now subscribed outcome s stage).1.controls = s.controls := by
  cases stage with
  | called =>
    rw [PlaceCall.advance, hlive]
    dsimp only
    split
    · rfl
    · split <;> rfl
  | absent =>
    rw [PlaceCall.advance]
    split <;> rfl
  | controlled quote =>
    rw [PlaceCall.advance]
    split <;> rfl
  | counted =>
    rw [PlaceCall.advance]
    split <;> rfl
  | checked =>
    rw [PlaceCall.advance]
    rcases liveConnection_cases now s c.userId with ⟨t, e, hconn, hsame⟩ | ⟨⟨connection, _⟩, hconn⟩
    · rw [hconn]
      exact hsame.controls
    · rw [hconn]
  | connected connectionId =>
    rw [PlaceCall.advance]
    cases hcommit : Session.commit ⟨s.toDatabase, s.toDatabase.insertOrder
        (liveOrder s.nextUuid c.userId c.instrumentId connectionId c.values now)⟩ with
    | error e => rfl
    | ok t =>
      have hcontrols := congrArg Database.controls (Session.commit_eq_ok.1 hcommit)
      exact hcontrols.symm
  | committed o =>
    rw [PlaceCall.advance]
    split
    · rfl
    · exact controls_finish ..
  | awaiting o => exact controls_finish ..
  | returned result => rfl

theorem Process.advance_controls (hlive : settings.tradingMode = .live) (p : Platform)
    (process : Process) :
    (process.advance settings lib now subscribed outcome p).1.trading.controls =
      p.trading.controls := by
  cases process with
  | placing call stage => exact PlaceCall.advance_controls hlive call p.trading stage
  | evaluating call stage =>
    rcases EvaluationCall.advance_cases (r := call.advance settings lib now subscribed outcome p
      stage) rfl with ⟨-, -, h⟩ | ⟨action, order, order', at', -, -, -, hs, -⟩ | h
    · exact congrArg (fun r : Platform × EvaluationStage => r.1.trading.controls) h
    · exact (congrArg (fun s : Store => s.controls) hs).trans (PlaceCall.advance_controls hlive ..)
    · exact congrArg (fun s : Store => s.controls) h.trading
  | passing queue visit evaluation => rfl
  | killed => rfl

end Controls

/-! ## A step of the fleet -/

/-- The process is a call of the order manager that has executed a statement. -/
def Process.begun : Process → Bool
  | .placing _ .called => false
  | .placing _ _ => true
  | .evaluating _ stage => stage.begun
  | _ => false

theorem Process.not_vetted_of_not_begun {process : Process} (userId : Uuid)
    (h : process.begun = false) :
    process.vetted userId = none ∧ process.cleared userId = none := by
  cases process with
  | placing call stage =>
    cases stage with
    | called => exact ⟨rfl, rfl⟩
    | _ => cases h
  | evaluating call stage =>
    obtain ⟨hvetted, hcleared⟩ :=
      EvaluationStage.not_vetted_of_not_begun userId call.strategy.userId h
    unfold Process.vetted Process.cleared
    dsimp only
    rw [hvetted, hcleared]
    exact ⟨rfl, rfl⟩
  | passing queue visit evaluation => exact ⟨rfl, rfl⟩
  | killed => exact ⟨rfl, rfl⟩

/-- Calls begin or are killed, and passes go on; nothing is committed to the trading
tables, and nothing is sent. -/
structure Fleet.Aside (fleet fleet' : Fleet) : Prop where
  trading : fleet'.platform.trading = fleet.platform.trading
  requests : fleet'.requests = fleet.requests
  processes : ∀ i, fleet'.processes i = fleet.processes i ∨
    ∃ process, fleet'.processes i = some process ∧ process.begun = false

theorem Fleet.Aside.refl (fleet : Fleet) : fleet.Aside fleet := ⟨rfl, rfl, fun _ => Or.inl rfl⟩

theorem Fleet.Aside.set {fleet fleet' : Fleet} (h : fleet.Aside fleet') (number : ℕ)
    {process : Process} (hbegun : process.begun = false) :
    fleet.Aside (fleet'.set number process) where
  trading := h.trading
  requests := h.requests
  processes i := by
    by_cases hi : i = number
    · subst hi
      exact Or.inr ⟨process, Function.update_self .., hbegun⟩
    · rw [Fleet.set]
      dsimp only
      rw [Function.update_of_ne hi]
      exact h.processes i

/-- **What a step of the fleet is**: a statement of a process, or an aside. -/
theorem fleetStep_cases (settings : StrategySettings) (lib : StrategyLibraries) (fleet : Fleet)
    (e : FleetEvent) :
    (∃ number process now subscribed outcome, fleet.processes number = some process ∧
      fleetStep settings lib fleet e =
        ⟨(process.advance settings lib now subscribed outcome fleet.platform).1,
          Function.update fleet.processes number
            (some (process.advance settings lib now subscribed outcome fleet.platform).2),
          fleet.requests ++ process.sends subscribed⟩) ∨
    fleet.Aside (fleetStep settings lib fleet e) := by
  have hbegin : ∀ number (process : Process), process.begun = false →
      fleet.Aside (fleet.begin number process) := by
    intro number process hbegun
    rw [Fleet.begin]
    split
    · exact (Fleet.Aside.refl fleet).set number hbegun
    · exact .refl fleet
  cases e with
  | place number call => exact Or.inr (hbegin number _ rfl)
  | evaluate number call => exact Or.inr (hbegin number _ rfl)
  | pass number => exact Or.inr (hbegin number _ rfl)
  | advance number now subscribed outcome =>
    rw [fleetStep, Fleet.advance]
    cases hprocess : fleet.processes number with
    | none => exact Or.inr (.refl fleet)
    | some process => exact Or.inl ⟨number, process, now, subscribed, outcome, hprocess, rfl⟩
  | next number rows =>
    rw [fleetStep, Fleet.next]
    split
    · exact Or.inr ((Fleet.Aside.refl fleet).set number rfl)
    · exact Or.inr (.refl fleet)
  | mark number now =>
    rw [fleetStep, Fleet.mark]
    split
    · rename_i queue strategy hprocess
      have hmarked : fleet.Aside { fleet with platform := ⟨fleet.platform.trading,
          markIncomplete fleet.platform.tables strategy⟩ } := ⟨rfl, rfl, fun _ => Or.inl rfl⟩
      exact Or.inr (hmarked.set number rfl)
    · exact Or.inr (.refl fleet)
  | visit number evaluation inputs =>
    rw [fleetStep, Fleet.visit]
    split
    · exact Or.inr (((Fleet.Aside.refl fleet).set number rfl).set evaluation rfl)
    · exact Or.inr (.refl fleet)
  | resume number rolledBack =>
    rw [fleetStep, Fleet.resume]
    split
    · split
      · exact Or.inr ((Fleet.Aside.refl fleet).set number rfl)
      · exact Or.inr (.refl fleet)
    · exact Or.inr (.refl fleet)
  | kill number =>
    rw [fleetStep, Fleet.kill]
    split
    · exact Or.inr (.refl fleet)
    · exact Or.inr ((Fleet.Aside.refl fleet).set number rfl)

/-! ## Runs -/

inductive HaltEvent
  | fleet (e : FleetEvent)
  /-- `kill_switch` of a user, or `global_kill_switch`. -/
  | killSwitch (scope : ControlScope) (halted : Bool)

def haltStep (settings : StrategySettings) (lib : StrategyLibraries) (fleet : Fleet) :
    HaltEvent → Fleet
  | .fleet e => fleetStep settings lib fleet e
  | .killSwitch scope halted =>
    { fleet with
      platform := ⟨killSwitch fleet.platform.trading scope halted, fleet.platform.tables⟩ }

def haltRun (settings : StrategySettings) (lib : StrategyLibraries) (fleet : Fleet)
    (es : List HaltEvent) : Fleet := es.foldl (haltStep settings lib) fleet

/-- The event lifts a halt that concerns the user. -/
def HaltEvent.Lifts (userId : Uuid) : HaltEvent → Prop
  | .fleet _ => False
  | .killSwitch scope halted => halted = false ∧ (scope = .global ∨ scope = .user userId)

namespace Fleet

/-- What the processes have of `f`, under their numbers. -/
def held (f : Process → Option OrderRequest) (fleet : Fleet) (number : ℕ) :
    Option (ℕ × OrderRequest) :=
  ((fleet.processes number).bind f).map (Prod.mk number)

/-- The order for the user that a process is past the query for, and has not committed. -/
def vetted (fleet : Fleet) (userId : Uuid) (number : ℕ) : Option OrderRequest :=
  (fleet.processes number).bind (Process.vetted userId)

/-- The request for the user that a process is past the query for, and has not sent. -/
def cleared (fleet : Fleet) (userId : Uuid) (number : ℕ) : Option OrderRequest :=
  (fleet.processes number).bind (Process.cleared userId)

/-- The requests of a user. -/
def requestsOf (fleet : Fleet) (userId : Uuid) : List OrderRequest :=
  fleet.requests.filter fun r => r.client.1 = userId

/-- Since `start` the user has been halted: each new order is what a process was vetted for
then, and each new request what one was cleared for, and no two are of the same process. -/
structure Stopped (userId : Uuid) (start fleet : Fleet) : Prop where
  halted : isHalted fleet.platform.trading.toDatabase userId = true
  orders : ∃ makers : List (ℕ × OrderRequest),
    SentOnce (fun m => start.vetted userId m.1 = some m.2) (fleet.held (Process.vetted userId))
      makers ∧
    fleet.platform.trading.clientKeysOf userId =
      start.platform.trading.clientKeysOf userId ++ makers.map (·.2.client)
  requests : ∃ senders : List (ℕ × OrderRequest),
    SentOnce (fun m => start.cleared userId m.1 = some m.2) (fleet.held (Process.cleared userId))
      senders ∧
    fleet.requestsOf userId = start.requestsOf userId ++ senders.map Prod.snd

end Fleet

section Runs

variable {settings : StrategySettings} {lib : StrategyLibraries} {userId : Uuid}
  {start fleet fleet' : Fleet}

/-- A halt stands where it is not lifted. -/
theorem isHalted_killSwitch {s : Store} (h : isHalted s.toDatabase userId = true)
    {scope : ControlScope} {halted : Bool}
    (hkept : ¬ (halted = false ∧ (scope = .global ∨ scope = .user userId))) :
    isHalted (killSwitch s scope halted).toDatabase userId = true := by
  obtain ⟨c, hc, hhalts⟩ := List.any_eq_true.1 h
  obtain ⟨hconcerns, hon⟩ := of_decide_eq_true hhalts
  have hcontrols : (killSwitch s scope halted).controls =
      if s.controls.any (·.scopeKey = scope) then
        Rows.replaceBy TradingControl.scopeKey ⟨scope, halted⟩ s.controls
      else s.controls ++ [⟨scope, halted⟩] := rfl
  rw [isHalted, hcontrols, List.any_eq_true]
  by_cases hscope : c.scopeKey = scope
  · -- the row is written again, and as halted
    have hhalted : halted = true := by
      by_contra hoff
      exact hkept ⟨Bool.eq_false_of_not_eq_true hoff, hscope ▸ hconcerns⟩
    have hfound : s.controls.any (·.scopeKey = scope) = true :=
      List.any_eq_true.2 ⟨c, hc, decide_eq_true hscope⟩
    rw [if_pos hfound]
    exact ⟨⟨scope, halted⟩, Rows.mem_replaceBy_self hc hscope,
      decide_eq_true ⟨hscope ▸ hconcerns, hhalted⟩⟩
  · refine ⟨c, ?_, decide_eq_true ⟨hconcerns, hon⟩⟩
    split
    · exact Rows.mem_replaceBy_of_ne hc hscope
    · exact List.mem_append_left _ hc

namespace Fleet

/-- What the processes hold, after a statement of one. -/
theorem held_update (f : Process → Option OrderRequest) (p : Platform)
    (requests : List OrderRequest) (i : ℕ) (x : Process) :
    (Fleet.mk p (Function.update fleet.processes i (some x)) requests).held f =
      Function.update (fleet.held f) i ((f x).map (Prod.mk i)) := by
  funext j
  change ((Function.update fleet.processes i (some x) j).bind f).map (Prod.mk j) = _
  by_cases h : j = i
  · subst h
    rw [Function.update_self, Function.update_self, Option.bind_some]
  · rw [Function.update_of_ne h, Function.update_of_ne h]
    rfl

theorem Stopped.refl (h : isHalted start.platform.trading.toDatabase userId = true) :
    Stopped userId start start where
  halted := h
  orders := ⟨[], sentOnce_given _, (List.append_nil _).symm⟩
  requests := ⟨[], sentOnce_given _, (List.append_nil _).symm⟩

/-- **A statement of a process** while the user is halted. -/
theorem Stopped.advance (hlive : settings.tradingMode = .live) (h : Stopped userId start fleet)
    {number : ℕ} {process : Process}
    (hprocess : fleet.processes number = some process) {now : Time} {subscribed : Bool}
    {outcome : HttpOutcome} :
    Stopped userId start
      ⟨(process.advance settings lib now subscribed outcome fleet.platform).1,
        Function.update fleet.processes number
          (some (process.advance settings lib now subscribed outcome fleet.platform).2),
        fleet.requests ++ process.sends subscribed⟩ where
  halted := by
    rw [isHalted, Process.advance_controls hlive]
    exact h.halted
  orders := by
    obtain ⟨makers, hmakers, hkeys⟩ := h.orders
    obtain ⟨made, hspend, hmade⟩ :=
      (Process.advance_curbed lib now subscribed outcome hlive h.halted process).orders
    have hheld : fleet.held (Process.vetted userId) number =
        (process.vetted userId).map (Prod.mk number) := by
      rw [held, hprocess, Option.bind_some]
    refine ⟨makers ++ made.map (Prod.mk number), ?_, ?_⟩
    · rw [held_update]
      exact hmakers.move (fun _ hk => hk) (hheld ▸ (hspend.map (Prod.mk number)).move)
    · rw [hmade, hkeys, List.map_append, List.append_assoc, List.map_map]
      rfl
  requests := by
    obtain ⟨senders, hsenders, hsent⟩ := h.requests
    have hspend :=
      (Process.advance_curbed lib now subscribed outcome hlive h.halted process).requests
    have hheld : fleet.held (Process.cleared userId) number =
        (process.cleared userId).map (Prod.mk number) := by
      rw [held, hprocess, Option.bind_some]
    refine ⟨senders ++ ((process.sends subscribed).filter fun r => r.client.1 = userId).map
      (Prod.mk number), ?_, ?_⟩
    · rw [held_update]
      exact hsenders.move (fun _ hk => hk) (hheld ▸ (hspend.map (Prod.mk number)).move)
    · rw [requestsOf, List.filter_append, ← requestsOf, hsent, List.map_append, List.append_assoc,
        List.map_map]
      exact congrArg _ (congrArg _ (List.map_id _).symm)

/-- What a process holds that stands where it stood, or has not begun. -/
theorem mem_held_of_aside (h : fleet.Aside fleet') {f : Process → Option OrderRequest}
    (hf : ∀ process : Process, process.begun = false → f process = none) (i : ℕ) :
    ∀ m ∈ fleet'.held f i, m ∈ fleet.held f i := by
  intro m hm
  unfold held at hm ⊢
  rcases h.processes i with heq | ⟨process, hprocess, hbegun⟩
  · rwa [← heq]
  · rw [hprocess, Option.bind_some, hf process hbegun] at hm
    cases hm

theorem Stopped.aside (h : Stopped userId start fleet) (haside : fleet.Aside fleet') :
    Stopped userId start fleet' where
  halted := by
    rw [haside.trading]
    exact h.halted
  orders := by
    obtain ⟨makers, hmakers, hkeys⟩ := h.orders
    refine ⟨makers, hmakers.sub ?_, ?_⟩
    · exact mem_held_of_aside haside fun _ hb => (Process.not_vetted_of_not_begun userId hb).1
    · rw [haside.trading, hkeys]
  requests := by
    obtain ⟨senders, hsenders, hsent⟩ := h.requests
    refine ⟨senders, hsenders.sub ?_, ?_⟩
    · exact mem_held_of_aside haside fun _ hb => (Process.not_vetted_of_not_begun userId hb).2
    · rw [← hsent, requestsOf, haside.requests, requestsOf]

theorem Stopped.haltStep (hlive : settings.tradingMode = .live) (h : Stopped userId start fleet)
    (e : HaltEvent) (hkept : ¬ e.Lifts userId) :
    Stopped userId start (haltStep settings lib fleet e) := by
  cases e with
  | fleet e =>
    rw [GnkAlgo.haltStep]
    rcases fleetStep_cases settings lib fleet e with
      ⟨number, process, now, subscribed, outcome, hprocess, hstep⟩ | haside
    · rw [hstep]
      exact h.advance hlive hprocess
    · exact h.aside haside
  | killSwitch scope halted => exact ⟨isHalted_killSwitch h.halted hkept, h.orders, h.requests⟩

end Fleet

/-- **A halt stands, and lets through what was in flight.**  In live mode, while nobody
lifts it, the new orders of the user are those of calls that were past the query for the
controls when the halt came, with the client ids of these calls, and the new requests are
the requests of such calls, one at most of each. -/
theorem halt_kept {settings : StrategySettings} (hlive : settings.tradingMode = .live)
    (lib : StrategyLibraries) {fleet : Fleet} {userId : Uuid}
    (hhalted : isHalted fleet.platform.trading.toDatabase userId = true)
    (es : List HaltEvent) (hkept : ∀ e ∈ es, ¬ e.Lifts userId) :
    isHalted (haltRun settings lib fleet es).platform.trading.toDatabase userId = true ∧
    (∃ makers : List (ℕ × OrderRequest), (makers.map Prod.fst).Nodup ∧
      (∀ m ∈ makers, fleet.vetted userId m.1 = some m.2) ∧
      (haltRun settings lib fleet es).platform.trading.clientKeysOf userId =
        fleet.platform.trading.clientKeysOf userId ++ makers.map (·.2.client)) ∧
    ∃ senders : List (ℕ × OrderRequest), (senders.map Prod.fst).Nodup ∧
      (∀ m ∈ senders, fleet.cleared userId m.1 = some m.2) ∧
      (haltRun settings lib fleet es).requestsOf userId =
        fleet.requestsOf userId ++ senders.map Prod.snd := by
  have hstopped : Fleet.Stopped userId fleet (haltRun settings lib fleet es) :=
    ((run_foldl (haltStep settings lib) fleet es).guarded_of_forall hkept).invariant
      (Fleet.Stopped.refl hhalted) fun s e t hs ht => ht.2 ▸ hs.haltStep hlive e ht.1
  obtain ⟨makers, hmakers, hkeys⟩ := hstopped.orders
  obtain ⟨senders, hsenders, hsent⟩ := hstopped.requests
  exact ⟨hstopped.halted, ⟨makers, hmakers.nodup_users, hmakers.spent, hkeys⟩,
    senders, hsenders.nodup_users, hsenders.spent, hsent⟩

end Runs

/-! ### A call that was in flight -/

def lateLibraries : StrategyLibraries := ⟨id, fun _ => "0000000000"⟩

/-- The user is halted between the query for the controls and that for the open orders. -/
def lateFleet : Fleet :=
  haltRun liveStrategySettings lateLibraries idleFleet
    [.fleet (.place 0 ⟨7, 3, marketValues, some quoteAtHundred⟩),
      .fleet (.advance 0 0 true (.network true)), .fleet (.advance 0 0 true (.network true)),
      .killSwitch (.user 7) true]

/-- The call goes on, and a second one begins. -/
def lateCalls : List HaltEvent :=
  List.replicate 6 (.fleet (.advance 0 0 true (.network true))) ++
  [.killSwitch (.user 8) false,
    .fleet (.place 1 ⟨7, 3, { marketValues with clientOrderId := "b" }, some quoteAtHundred⟩),
    .fleet (.advance 1 0 true (.network true)), .fleet (.advance 1 0 true (.network true))]

/-- Its order is committed and its request sent, and no other. -/
theorem halt_kept_late :
    (haltRun liveStrategySettings lateLibraries lateFleet lateCalls).requestsOf 7 =
      [⟨(7, "a"), none⟩] ∧
    (∃ makers : List (ℕ × OrderRequest), (makers.map Prod.fst).Nodup ∧
      (∀ m ∈ makers, lateFleet.vetted 7 m.1 = some m.2) ∧
      (haltRun liveStrategySettings lateLibraries lateFleet
        lateCalls).platform.trading.clientKeysOf 7 =
        lateFleet.platform.trading.clientKeysOf 7 ++ makers.map (·.2.client)) ∧
    ∃ senders : List (ℕ × OrderRequest), (senders.map Prod.fst).Nodup ∧
      (∀ m ∈ senders, lateFleet.cleared 7 m.1 = some m.2) ∧
      (haltRun liveStrategySettings lateLibraries lateFleet lateCalls).requestsOf 7 =
        lateFleet.requestsOf 7 ++ senders.map Prod.snd := by
  have hkept : ∀ e ∈ lateCalls, ¬ e.Lifts 7 := by
    simp [lateCalls, HaltEvent.Lifts]
  exact ⟨by decide +kernel, (halt_kept rfl lateLibraries (by decide +kernel) lateCalls hkept).2⟩

end GnkAlgo
