import GnkAlgo.Market.Frames
import GnkAlgo.Trading.Dhan
import GnkAlgo.Lib.Runs

/-!
# Feed sessions

`DhanFeedSession.run` and `DhanFeedSupervisor.reconcile` of
`backend/app/market/dhan.py` as tasks of one event loop.  A session announces
itself, connects, receives until something ends that, closes its socket and starts
over; a fatal disconnect code is recorded on the broker connection first, and ends
the session.  The supervisor polls the subscriptions: a pass drops, keeps, starts
or replaces the session of each user, and never waits for a task it has cancelled.

* `dhanSubscription`, `loadUser` — what a pass reads;
* `FeedTask.step` — what a task does when its await returns or raises;
* `FeedRun.passMove` — what a pass does with a user;
* `feedStep` — one step of the worker, or a commit of another process.
-/

namespace GnkAlgo

open Transition

/-! ## Instruments -/

/-- A value of a JSON object other than `null`: its text, and whether Python takes
it for true. -/
structure JsonScalar where
  text : String
  isTrue : Bool
  deriving DecidableEq, Repr

/-- The value of `broker_tokens` for DHAN. -/
inductive BrokerToken
  | none
  | object (fields : List (String × JsonScalar))
  | scalar (value : JsonScalar)
  deriving DecidableEq, Repr

/-- An instrument as the feed reads it. -/
structure FeedInstrument where
  id : Uuid
  exchange : String
  segment : String
  token : BrokerToken := .none
  isActive : Bool := true
  deriving DecidableEq, Repr

structure DhanSubscription where
  instrumentId : Uuid
  exchangeSegment : String
  exchangeCode : ℕ
  securityId : String
  deriving DecidableEq, Repr

/-- What the feed takes from libraries. -/
structure FeedLibraries where
  upper : String → String
  strip : String → String
  /-- The digest of the client id and the access token, with a zero in between. -/
  sha256 : String × String → String

/-- `SEGMENT_CODES`. -/
def segmentCodes : List (String × ℕ) := [
  ("IDX_I", 0), ("NSE_EQ", 1), ("NSE_FNO", 2), ("NSE_CURRENCY", 3), ("BSE_EQ", 4),
  ("MCX_COMM", 5), ("BSE_CURRENCY", 7), ("BSE_FNO", 8)]

def derivativeSegments : List String := ["FNO", "FO", "FUT", "OPT", "FUTURES", "OPTIONS"]

def currencySegments : List String := ["CUR", "CDS", "CURRENCY"]

def equitySegments : List String := ["EQ", "EQUITY", "CASH"]

section Load

variable (lib : FeedLibraries)

/-- `_derived_segment`. -/
def derivedSegment (instrument : FeedInstrument) : Except FeedError String :=
  let exchange := lib.upper instrument.exchange
  let segment := lib.upper instrument.segment
  if exchange ∈ ["IDX", "INDEX"] ∨ segment ∈ ["IDX", "INDEX", "INDICES"] then .ok "IDX_I"
  else if exchange = "NFO" ∨ exchange = "NSE" ∧ segment ∈ derivativeSegments then .ok "NSE_FNO"
  else if exchange = "NSE" ∧ segment ∈ currencySegments then .ok "NSE_CURRENCY"
  else if exchange = "NSE" ∧ segment ∈ equitySegments then .ok "NSE_EQ"
  else if exchange = "BFO" ∨ exchange = "BSE" ∧ segment ∈ derivativeSegments then .ok "BSE_FNO"
  else if exchange = "BSE" ∧ segment ∈ currencySegments then .ok "BSE_CURRENCY"
  else if exchange = "BSE" ∧ segment ∈ equitySegments then .ok "BSE_EQ"
  else if exchange = "MCX" then .ok "MCX_COMM"
  else .error (.protocol s!"Unsupported Dhan exchange/segment: {exchange}/{segment}")

/-- The first of these fields with a true value. -/
def firstTrue (fields : List (String × JsonScalar)) (names : List String) : Option String :=
  names.findSome? fun name => ((fields.lookup name).filter JsonScalar.isTrue).map JsonScalar.text

/-- The last of these fields, where none has a true value. -/
def lastField (fields : List (String × JsonScalar)) (names : List String) (last : String) :
    Option String :=
  (firstTrue fields names).or ((fields.lookup last).map JsonScalar.text)

/-- `dhan_subscription`. -/
def dhanSubscription (instrument : FeedInstrument) : Except FeedError DhanSubscription := do
  let (securityId, segment) ← match instrument.token with
    | .object fields => do
      let segment ← match firstTrue fields ["exchange_segment", "exchangeSegment"] with
        | some segment => pure segment
        | none => derivedSegment lib instrument
      pure (lastField fields ["security_id", "securityId"] "token", lib.upper segment)
    | .scalar value => do pure (some value.text, ← derivedSegment lib instrument)
    | .none => do pure (none, ← derivedSegment lib instrument)
  match securityId.filter fun text => lib.strip text ≠ "" with
  | none => throw (.protocol s!"Instrument {instrument.id} has no Dhan security ID")
  | some securityId =>
    match segmentCodes.lookup segment with
    | none => throw (.protocol s!"Unsupported Dhan exchange segment: {segment}")
    | some code => pure ⟨instrument.id, segment, code, securityId⟩

/-! ## Broker connections -/

/-- What `_load_user` returns. -/
structure LoadedUser where
  fingerprint : String
  clientId : String
  accessToken : String
  subscriptions : List DhanSubscription
  deriving DecidableEq, Repr

/-- `_expired`. -/
def BrokerConnection.isExpired (connection : BrokerConnection) (now : Time) : Bool :=
  connection.tokenExpiresAt.any (· ≤ now)

/-- `_load_user`, on the Dhan connection of the user: the connection it leaves, and
what it returns. -/
def loadUser (now : Time) (connection : Option BrokerConnection)
    (instruments : List FeedInstrument) (instrumentIds : List Uuid) :
    Option BrokerConnection × Option LoadedUser :=
  match connection.filter (·.status = .connected) with
  | none => (connection, none)
  | some connected =>
    if connected.isExpired now then
      (some { connected with
        status := .reauthRequired, errorCode := some "DHAN_TOKEN_EXPIRED" }, none)
    else
      let clientId :=
        (orMissing connected.credentials.clientId).or (orMissing connected.brokerClientId)
      match orMissing connected.credentials.accessToken, clientId with
      | some accessToken, some clientId =>
        let rows := instruments.filter fun row => row.id ∈ instrumentIds ∧ row.isActive
        (connection, some {
          fingerprint := lib.sha256 (clientId, accessToken)
          clientId := clientId
          accessToken := accessToken
          -- an instrument the feed has no key for is skipped
          subscriptions := rows.filterMap fun row => (dhanSubscription lib row).toOption })
      | _, _ => (connection, none)

end Load

/-! ## Session tasks -/

/-- How the socket of a session comes to be closed. -/
inductive FeedExit
  /-- `DhanDisconnectError`. -/
  | disconnected (code : ℕ)
  /-- Any other exception. -/
  | failed
  /-- `_connected` returned. -/
  | returned
  | cancelled
  deriving DecidableEq, Repr

/-- What the task of a session awaits. -/
inductive FeedPhase
  | created
  /-- The health update `connecting`. -/
  | announcing
  | connecting
  /-- The socket is open: the health update `connected`, and `_connected`. -/
  | opened
  /-- The socket is being closed at the end of `async with`. -/
  | closing (exit : FeedExit)
  /-- `_fatal` has committed; its health update. -/
  | recorded
  /-- The health update `reconnecting`. -/
  | reconnecting
  | sleeping
  /-- The task was cancelled while it closed its socket, and has ended before that
  was closed. -/
  | lingering
  | ended
  deriving DecidableEq, Repr

/-- The socket is open. -/
def FeedPhase.isOpen : FeedPhase → Bool
  | .opened => true
  | .closing _ => true
  | .lingering => true
  | _ => false

/-- `task.done()`. -/
def FeedPhase.isDone : FeedPhase → Bool
  | .lingering => true
  | .ended => true
  | _ => false

/-- A `DhanFeedSession` and its task. -/
structure FeedTask where
  userId : Uuid
  clientId : String
  accessToken : String
  desired : List DhanSubscription := []
  phase : FeedPhase := .created
  stopping : Bool := false
  /-- A `CancelledError` is to be raised at the await of the task. -/
  cancelled : Bool := false
  deriving DecidableEq, Repr

/-- How an await ends. -/
inductive FeedAction
  /-- It returns; at `_connected`, with anything but a disconnect packet. -/
  | go
  /-- It raises an exception. -/
  | fail
  /-- `_connected` receives a disconnect packet. -/
  | disconnect (code : ℕ)
  deriving DecidableEq, Repr

/-- The codes `run` does not reconnect after. -/
def fatalCodes : List ℕ := [806, 807, 808, 809]

namespace FeedTask

/-- It goes on to another await. -/
def into (t : FeedTask) (phase : FeedPhase) : FeedTask := { t with phase := phase }

/-- The head of the loop of `run`. -/
def again (t : FeedTask) : FeedTask :=
  if t.stopping then t.into .ended else t.into .announcing

/-- `stop` and `cancel`; neither does anything to a task that is done. -/
def cancel (t : FeedTask) : FeedTask :=
  if t.phase.isDone then t else { t with stopping := true, cancelled := true }

/-- The `CancelledError` is raised. -/
def interrupted (t : FeedTask) : FeedTask :=
  match t.phase with
  | .opened => { t with phase := .closing .cancelled, cancelled := false }
  | .closing _ => { t with phase := .lingering, cancelled := false }
  | _ => { t with phase := .ended, cancelled := false }

/-- `run` from the end of one await to the next. -/
def step (t : FeedTask) (a : FeedAction) : FeedTask :=
  if t.cancelled then t.interrupted
  else match t.phase, a with
  | .created, .go => t.again
  | .announcing, .go => t.into .connecting
  | .announcing, .fail => t.into .reconnecting
  | .connecting, .go => t.into .opened
  | .connecting, .fail => t.into .reconnecting
  | .opened, .go => if t.stopping then t.into (.closing .returned) else t
  | .opened, .fail => t.into (.closing .failed)
  | .opened, .disconnect code => t.into (.closing (.disconnected code))
  | .closing (.disconnected code), .go =>
    if code ∈ fatalCodes then t.into .recorded else t.into .reconnecting
  -- the commit of `_fatal` raises out of `run`
  | .closing (.disconnected code), .fail =>
    if code ∈ fatalCodes then t.into .ended else t
  | .closing .failed, .go => t.into .reconnecting
  | .closing .returned, .go => if t.stopping then t.into .ended else t.into .sleeping
  | .closing .cancelled, .go => t.into .ended
  | .recorded, .go => t.into .ended
  | .recorded, .fail => t.into .ended
  | .reconnecting, .go => if t.stopping then t.into .ended else t.into .sleeping
  | .reconnecting, .fail => t.into .ended
  | .sleeping, .go => t.again
  | .lingering, .go => t.into .ended
  | _, _ => t

/-- The fatal code the task is about to record. -/
def due (t : FeedTask) : Option ℕ :=
  match t.phase with
  | .closing (.disconnected code) => if code ∈ fatalCodes ∧ ¬ t.cancelled then some code else none
  | _ => none

end FeedTask

/-! ## The supervisor -/

/-- An entry of `_sessions`. -/
structure FeedEntry where
  userId : Uuid
  fingerprint : String
  task : ℕ
  deriving DecidableEq, Repr

/-- What is left of a pass of `reconcile`. -/
structure FeedPass where
  /-- Users with a session and no subscription. -/
  drops : List Uuid := []
  visits : List (Uuid × List Uuid) := []
  /-- The user whose session is dropped after the health update. -/
  refused : Option Uuid := none
  deriving DecidableEq, Repr

/-- What is kept of the past. -/
inductive FeedNote
  /-- A connection is attempted. -/
  | attempted (userId : Uuid)
  /-- A fatal disconnect packet was received. -/
  | fatal (userId : Uuid) (code : ℕ)
  /-- The connection row was written `CONNECTED`. -/
  | connected (userId : Uuid)
  deriving DecidableEq, Repr

/-- The tables, the supervisor and its tasks; the notes are in order, the newest
first. -/
structure FeedRun where
  /-- The Dhan connection of each user. -/
  connections : Uuid → Option BrokerConnection := fun _ => none
  instruments : List FeedInstrument := []
  sessions : List FeedEntry := []
  tasks : ℕ → Option FeedTask := fun _ => none
  made : ℕ := 0
  pass : FeedPass := {}
  notes : List FeedNote := []

namespace FeedRun

/-- `self._sessions.get(user_id)`. -/
def sessionOf (s : FeedRun) (userId : Uuid) : Option FeedEntry :=
  s.sessions.find? (·.userId = userId)

def setTask (s : FeedRun) (i : ℕ) (t : FeedTask) : FeedRun :=
  { s with tasks := Function.update s.tasks i (some t) }

def setConnection (s : FeedRun) (userId : Uuid) (row : Option BrokerConnection) : FeedRun :=
  { s with connections := Function.update s.connections userId row }

def note (s : FeedRun) (n : FeedNote) : FeedRun := { s with notes := n :: s.notes }

/-- The row of the user is `CONNECTED`. -/
def isConnected (s : FeedRun) (userId : Uuid) : Bool :=
  (s.connections userId).any (·.status = .connected)

/-- `self._sessions.pop(user_id, None)`, and `stop` and `cancel` of what it returns. -/
def drop (s : FeedRun) (userId : Uuid) : FeedRun :=
  match s.sessionOf userId with
  | none => s
  | some entry =>
    { s with
      sessions := s.sessions.filter (·.userId ≠ userId)
      tasks := Function.update s.tasks entry.task ((s.tasks entry.task).map FeedTask.cancel) }

/-- A new session, and its task. -/
def start (s : FeedRun) (userId : Uuid) (loaded : LoadedUser) : FeedRun :=
  let task : FeedTask := {
    userId := userId
    clientId := loaded.clientId
    accessToken := loaded.accessToken
    desired := loaded.subscriptions }
  { s with
    sessions := s.sessions ++ [⟨userId, loaded.fingerprint, s.made⟩]
    tasks := Function.update s.tasks s.made (some task)
    made := s.made + 1 }

/-- `replace_subscriptions`. -/
def replaceSubscriptions (s : FeedRun) (i : ℕ) (subscriptions : List DhanSubscription) : FeedRun :=
  let task := (s.tasks i).map fun t => { t with desired := subscriptions }
  { s with tasks := Function.update s.tasks i task }

/-- `_fatal`. -/
def record (s : FeedRun) (userId : Uuid) (code : ℕ) : FeedRun :=
  s.setConnection userId ((s.connections userId).map fun connection =>
    { connection with
      status := if code ∈ [807, 808, 809] then .reauthRequired else .error
      errorCode := some s!"DHAN_FEED_{code}" })

end FeedRun

/-- What a pass does next with a user. -/
inductive PassMove
  /-- The pass is not at this user. -/
  | skip
  | drop
  /-- There is nothing to run a session with. -/
  | refuse
  /-- A session is started, in the place of the one there may be. -/
  | start (loaded : LoadedUser)
  | keep (entry : FeedEntry) (loaded : LoadedUser)
  deriving DecidableEq, Repr

section Steps

variable (lib : FeedLibraries)

/-- `reconcile`, from one await to the next: users without subscriptions, then the
others one by one. -/
def FeedRun.passMove (s : FeedRun) (userId : Uuid) (now : Time) : PassMove :=
  if s.pass.refused = some userId then .drop
  else if s.pass.refused ≠ none then .skip
  else if userId ∈ s.pass.drops then .drop
  else if s.pass.drops ≠ [] then .skip
  else match s.pass.visits.lookup userId with
    | none => .skip
    | some instrumentIds =>
      match (loadUser lib now (s.connections userId) s.instruments instrumentIds).2 with
      | none => .refuse
      | some loaded =>
        if loaded.subscriptions = [] then .refuse
        else match s.sessionOf userId with
          | none => .start loaded
          | some entry =>
            if entry.fingerprint ≠ loaded.fingerprint ∨
                (s.tasks entry.task).any (·.phase.isDone) then .start loaded
            else .keep entry loaded

/-- The part of the pass for this user is over. -/
def FeedPass.leave (pass : FeedPass) (userId : Uuid) (refused : Option Uuid) : FeedPass :=
  { drops := pass.drops.filter (· ≠ userId)
    visits := pass.visits.filter (·.1 ≠ userId)
    refused := refused }

/-- `reconcile` with a user. -/
def FeedRun.visit (s : FeedRun) (userId : Uuid) (now : Time) : FeedRun :=
  match s.passMove lib userId now with
  | .skip => s
  | .drop => { s.drop userId with pass := s.pass.leave userId none }
  | .refuse =>
    let instrumentIds := (s.pass.visits.lookup userId).getD []
    let row := (loadUser lib now (s.connections userId) s.instruments instrumentIds).1
    { s.setConnection userId row with pass := s.pass.leave userId (some userId) }
  | .start loaded => { (s.drop userId).start userId loaded with pass := s.pass.leave userId none }
  | .keep entry loaded =>
    { s.replaceSubscriptions entry.task loaded.subscriptions with
      pass := s.pass.leave userId none }

inductive FeedEvent
  /-- `active_subscriptions`, grouped by user, at the start of a pass. -/
  | poll (grouped : List (Uuid × List Uuid))
  | pass (userId : Uuid) (now : Time)
  /-- An exception ends the pass. -/
  | abandon
  | task (i : ℕ) (a : FeedAction)
  /-- The row of a user is written by another process. -/
  | write (userId : Uuid) (row : Option BrokerConnection)
  | writeInstruments (rows : List FeedInstrument)
  deriving DecidableEq, Repr

/-- A task goes on. -/
def FeedRun.resume (s : FeedRun) (i : ℕ) (t : FeedTask) (a : FeedAction) : FeedRun :=
  let next := s.setTask i (t.step a)
  if t.cancelled then next
  else match t.phase, a with
  | .announcing, .go => next.note (.attempted t.userId)
  | .opened, .disconnect code =>
    if code ∈ fatalCodes then next.note (.fatal t.userId code) else next
  | .closing (.disconnected code), .go =>
    if code ∈ fatalCodes then next.record t.userId code else next
  | _, _ => next

/-- One step of the worker, or of another process. -/
def feedStep (s : FeedRun) : FeedEvent → FeedRun
  | .poll grouped =>
    if s.pass = {} then
      { s with pass := {
        drops := (s.sessions.map FeedEntry.userId).filter (· ∉ grouped.map Prod.fst)
        visits := grouped } }
    else s
  | .pass userId now => s.visit lib userId now
  | .abandon => { s with pass := {} }
  | .task i a =>
    match s.tasks i with
    | none => s
    | some t => s.resume i t a
  | .write userId row =>
    if row.any (·.status = .connected) then
      (s.setConnection userId row).note (.connected userId)
    else s.setConnection userId row
  | .writeInstruments rows => { s with instruments := rows }

end Steps

end GnkAlgo
