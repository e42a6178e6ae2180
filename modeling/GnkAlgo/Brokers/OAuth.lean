import GnkAlgo.Auth.Requests
import GnkAlgo.Lib.Runs

/-!
# Broker authorization

`connect`, `reconnect` and `callback` of `backend/app/routers/brokers.py`, with the
browsers that call them.  `connect` stores the digest of a random state and hands
the state out twice, in the broker's URL and in the cookie `gnk_oauth_state`;
`callback` is sent to the browser by the broker and looks the state up again.

Both await the broker, and other requests run in between.  A browser is a cookie
jar; what a callback carries in its query is chosen by anybody.

* `checkCallback`, `storeConnection` — `callback` before and after the broker is
  asked;
* `brokerStep` — one step of one request;
* `BrokerMove` — what a step can do.
-/

namespace GnkAlgo

open Transition

/-! ## Tables -/

/-- What the requests take from libraries. -/
structure BrokerLibraries extends AuthLibraries where
  /-- `datetime.fromisoformat`, with `Z` for the offset. -/
  fromIsoformat : String → Option Time

/-- A row of `oauth_states`. -/
structure OAuthState where
  id : Uuid
  userId : Uuid
  broker : BrokerName
  stateHash : String
  expiresAt : Time
  usedAt : Option Time := none
  deriving DecidableEq, Repr

structure BrokerDatabase where
  states : List OAuthState := []
  connections : List BrokerConnection := []
  nextUuid : Uuid := 0
  drawn : ℕ := 0
  deriving DecidableEq, Repr

namespace BrokerDatabase

def setConnection (d : BrokerDatabase) (c : BrokerConnection) : BrokerDatabase :=
  { d with connections := Rows.replaceBy BrokerConnection.id c d.connections }

/-- The state of this digest and broker. -/
def state? (d : BrokerDatabase) (stateHash : String) (broker : BrokerName) : Option OAuthState :=
  d.states.find? fun o => o.stateHash = stateHash ∧ o.broker = broker

/-- The connection of this user and broker. -/
def connection? (d : BrokerDatabase) (userId : Uuid) (broker : BrokerName) :
    Option BrokerConnection :=
  d.connections.find? fun c => c.userId = userId ∧ c.broker = broker

end BrokerDatabase

/-! ## Calls -/

/-- Who `get_principal` says a request is from. -/
structure BrokerPrincipal where
  userId : Uuid
  /-- The scopes of the API key, where there is one. -/
  apiKeyScopes : Option (List String) := none
  deriving DecidableEq, Repr

/-- `_scope`. -/
def BrokerPrincipal.allowed (principal : BrokerPrincipal) (required : String) : Bool :=
  principal.apiKeyScopes.all (required ∈ ·)

structure ConnectCall where
  browser : ℕ
  principal : BrokerPrincipal
  broker : BrokerName
  deriving DecidableEq, Repr

/-- A callback, and whether the browser adds its cookie: it does not where another
site has it fetched as a part of a page. -/
structure CallbackCall where
  browser : ℕ
  broker : BrokerName
  state : Option String := none
  code : Option String := none
  authCode : Option String := none
  tokenId : Option String := none
  attaches : Bool := true
  deriving DecidableEq, Repr

/-- What `exchange` returns. -/
structure ExchangedCredentials extends Credentials where
  expiresAt : Option String := none
  deriving DecidableEq, Repr

/-- How `exchange` and `test` of an adapter end. -/
inductive AdapterOutcome
  | credentials (c : ExchangedCredentials)
  | brokerError (code : String)
  /-- Any other exception. -/
  | exception
  deriving DecidableEq, Repr

/-- `value` where it is true in Python: given and not empty. -/
def given (value : Option String) : Option String := value.filter (· ≠ "")

/-- `_callback_code`. -/
def callbackCode (broker : BrokerName) (code authCode tokenId : Option String) : Option String :=
  match broker with
  | .fyers => authCode
  | .dhan => tokenId
  | .upstox => code

/-- `state or gnk_oauth_state`. -/
def CallbackCall.rawState (call : CallbackCall) (cookie : Option String) : Option String :=
  (given call.state).or (given cookie)

/-- `callback` up to the broker: the state, or the error of `_callback_failure`. -/
def checkCallback (lib : BrokerLibraries) (now : Time) (d : BrokerDatabase) (call : CallbackCall)
    (cookie : Option String) : Except String OAuthState :=
  match call.rawState cookie,
      given (callbackCode call.broker call.code call.authCode call.tokenId) with
  | some raw, some _ =>
    match d.state? (lib.hashToken raw) call.broker with
    | none => .error "invalid_state"
    | some saved =>
      if saved.usedAt ≠ none ∨ saved.expiresAt ≤ now then .error "invalid_state" else .ok saved
  | _, _ => .error "invalid_callback"

/-- `saved.used_at = utcnow()`, at the commit. -/
def markUsed (d : BrokerDatabase) (saved : OAuthState) (usedAt : Time) : BrokerDatabase :=
  let states := d.states.map fun o =>
    if o.id = saved.id then { o with usedAt := some usedAt } else o
  { d with states := states }

/-- `callback` after the broker has given credentials. -/
def storeConnection (lib : BrokerLibraries) (d : BrokerDatabase) (saved : OAuthState)
    (broker : BrokerName) (credentials : ExchangedCredentials) : BrokerDatabase :=
  let (d, existing) : BrokerDatabase × BrokerConnection :=
    match d.connection? saved.userId broker with
    | some existing => (d, existing)
    | none =>
      let new : BrokerConnection := {
        id := d.nextUuid
        userId := saved.userId
        broker := broker
        brokerClientId := none
        credentials := credentials.toCredentials
        status := .pending
        tokenExpiresAt := none }
      ({ d with connections := d.connections ++ [new], nextUuid := d.nextUuid + 1 }, new)
  d.setConnection { existing with
    credentials := credentials.toCredentials
    brokerClientId := credentials.clientId
    status := .connected
    errorCode := none
    tokenExpiresAt :=
      match given credentials.expiresAt with
      | none => existing.tokenExpiresAt
      | some text => lib.fromIsoformat text }

theorem storeConnection_states (lib : BrokerLibraries) (d : BrokerDatabase) (saved : OAuthState)
    (broker : BrokerName) (c : ExchangedCredentials) :
    (storeConnection lib d saved broker c).states = d.states ∧
      (storeConnection lib d saved broker c).drawn = d.drawn ∧
      d.nextUuid ≤ (storeConnection lib d saved broker c).nextUuid := by
  unfold storeConnection
  split
  rename_i heq
  split at heq
  · cases heq
    exact ⟨rfl, rfl, le_rfl⟩
  · cases heq
    exact ⟨rfl, rfl, Nat.le_succ _⟩

/-! ## Steps -/

/-- How far a request is. -/
inductive BrokerPhase
  | idle
  /-- `connect` has drawn its state and awaits `authorization_url`. -/
  | connecting (call : ConnectCall) (raw : String)
  /-- The state is stored, and the response with the cookie on its way. -/
  | connected (call : ConnectCall) (raw : String)
  /-- The browser has the response. -/
  | cookieSet (call : ConnectCall) (raw : String)
  | connectFailed (e : HttpError)
  /-- The callback is on its way, with this cookie. -/
  | sent (call : CallbackCall) (cookie : Option String)
  /-- The state, as read, passed the check, and the broker is asked. -/
  | exchanging (call : CallbackCall) (cookie : Option String) (saved : OAuthState) (usedAt : Time)
  /-- The credentials are stored. -/
  | stored (call : CallbackCall) (cookie : Option String) (saved : OAuthState) (usedAt : Time)
  /-- The browser has the response to that. -/
  | finished (call : CallbackCall) (cookie : Option String) (saved : OAuthState) (usedAt : Time)
  /-- `_callback_failure`. -/
  | refused (call : CallbackCall) (error : String)
  | failed
  deriving DecidableEq, Repr

inductive BrokerAction
  | connect (call : ConnectCall)
  | reconnect (browser : ℕ) (principal : BrokerPrincipal) (connectionId : Uuid)
  /-- `authorization_url` ends, with a `BrokerError` where a code is given. -/
  | authorized (error : Option String) (now : Time)
  /-- The response arrives at the browser. -/
  | deliver (now : Time)
  | send (call : CallbackCall) (now : Time)
  | check (now : Time)
  /-- `exchange` and `test` end. -/
  | exchanged (outcome : AdapterOutcome)
  deriving DecidableEq, Repr

structure BrokerEvent where
  request : ℕ
  action : BrokerAction
  deriving DecidableEq, Repr

structure OAuthCookie where
  value : String
  expiresAt : Time
  deriving DecidableEq, Repr

/-- The committed tables, the browsers and the requests. -/
structure BrokerRun where
  db : BrokerDatabase := {}
  jars : ℕ → Option OAuthCookie := fun _ => none
  requests : ℕ → BrokerPhase := fun _ => .idle

namespace BrokerRun

def become (s : BrokerRun) (r : ℕ) (phase : BrokerPhase) : BrokerRun :=
  { s with requests := Function.update s.requests r phase }

def setJar (s : BrokerRun) (browser : ℕ) (cookie : Option OAuthCookie) : BrokerRun :=
  { s with jars := Function.update s.jars browser cookie }

/-- The cookie a browser adds to a callback. -/
def cookie (s : BrokerRun) (call : CallbackCall) (now : Time) : Option String :=
  if call.attaches then ((s.jars call.browser).filter (now < ·.expiresAt)).map OAuthCookie.value
  else none

end BrokerRun

/-- `connect` up to the broker. -/
def startConnect (lib : BrokerLibraries) (s : BrokerRun) (r : ℕ) (call : ConnectCall) : BrokerRun :=
  if ¬ call.principal.allowed "broker:write" then
    s.become r (.connectFailed ⟨403, "Insufficient API key scope"⟩)
  else { s with db := { s.db with drawn := s.db.drawn + 1 } }.become r
    (.connecting call (lib.secretAt s.db.drawn))

/-- One step of one request; a step it is not at changes nothing. -/
def brokerStep (lib : BrokerLibraries) (s : BrokerRun) (e : BrokerEvent) : BrokerRun :=
  let r := e.request
  match e.action, s.requests r with
  | .connect call, .idle => startConnect lib s r call
  | .reconnect browser principal connectionId, .idle =>
    if ¬ principal.allowed "broker:write" then
      s.become r (.connectFailed ⟨403, "Insufficient API key scope"⟩)
    else match s.db.connections.find? (·.id = connectionId) with
      | none => s.become r (.connectFailed ⟨404, "Broker connection not found"⟩)
      | some connection =>
        if connection.userId ≠ principal.userId then
          s.become r (.connectFailed ⟨404, "Broker connection not found"⟩)
        else startConnect lib s r ⟨browser, principal, connection.broker⟩
  | .authorized (some code) _, .connecting _ _ => s.become r (.connectFailed ⟨503, code⟩)
  | .authorized none now, .connecting call raw =>
    let state : OAuthState := {
      id := s.db.nextUuid
      userId := call.principal.userId
      broker := call.broker
      stateHash := lib.hashToken raw
      expiresAt := now + minutes 10 }
    { s with db := { s.db with
        states := s.db.states ++ [state], nextUuid := s.db.nextUuid + 1 } }.become r
      (.connected call raw)
  | .deliver now, .connected call raw =>
    (s.setJar call.browser (some ⟨raw, now + minutes 10⟩)).become r (.cookieSet call raw)
  | .deliver _, .stored call cookie saved usedAt =>
    (s.setJar call.browser none).become r (.finished call cookie saved usedAt)
  | .deliver _, .refused call _ => (s.setJar call.browser none).become r .failed
  | .send call now, .idle => s.become r (.sent call (s.cookie call now))
  | .check now, .sent call cookie =>
    match checkCallback lib now s.db call cookie with
    | .error e => s.become r (.refused call e)
    | .ok saved => s.become r (.exchanging call cookie saved now)
  | .exchanged (.credentials c), .exchanging call cookie saved usedAt =>
    { s with db := storeConnection lib (markUsed s.db saved usedAt) saved call.broker c }.become r
      (.stored call cookie saved usedAt)
  | .exchanged (.brokerError _), .exchanging call _ saved usedAt =>
    { s with db := markUsed s.db saved usedAt }.become r (.refused call "authentication_failed")
  | .exchanged .exception, .exchanging _ _ _ _ => s.become r .failed
  | _, _ => s

/-! ## What a step can do -/

namespace BrokerPhase

/-- The state `connect` has drawn, until it fails. -/
def drew : BrokerPhase → Option (ConnectCall × String)
  | .connecting call raw => some (call, raw)
  | .connected call raw => some (call, raw)
  | .cookieSet call raw => some (call, raw)
  | _ => none

/-- The state it has stored. -/
def issued : BrokerPhase → Option (ConnectCall × String)
  | .connected call raw => some (call, raw)
  | .cookieSet call raw => some (call, raw)
  | _ => none

/-- A callback and its cookie, until it is refused. -/
def callback : BrokerPhase → Option (CallbackCall × Option String)
  | .sent call cookie => some (call, cookie)
  | .exchanging call cookie _ _ => some (call, cookie)
  | .stored call cookie _ _ => some (call, cookie)
  | .finished call cookie _ _ => some (call, cookie)
  | _ => none

/-- The state a callback passed the check with. -/
def passed : BrokerPhase → Option (CallbackCall × Option String × OAuthState × Time)
  | .exchanging call cookie saved usedAt => some (call, cookie, saved, usedAt)
  | .stored call cookie saved usedAt => some (call, cookie, saved, usedAt)
  | .finished call cookie saved usedAt => some (call, cookie, saved, usedAt)
  | _ => none

/-- The state it stored credentials with. -/
def accepted : BrokerPhase → Option (CallbackCall × Option String × OAuthState × Time)
  | .stored call cookie saved usedAt => some (call, cookie, saved, usedAt)
  | .finished call cookie saved usedAt => some (call, cookie, saved, usedAt)
  | _ => none

end BrokerPhase

/-- What a step of the request `e.request` does, other than nothing. -/
inductive BrokerMove (lib : BrokerLibraries) (s : BrokerRun) (e : BrokerEvent) : BrokerRun → Prop
  | stay : BrokerMove lib s e s
  | start (call : ConnectCall) (hidle : s.requests e.request = .idle) :
      BrokerMove lib s e ({ s with db := { s.db with drawn := s.db.drawn + 1 } }.become e.request
        (.connecting call (lib.secretAt s.db.drawn)))
  | issue (call : ConnectCall) (raw : String) (state : OAuthState)
      (hconnecting : s.requests e.request = .connecting call raw)
      (huser : state.userId = call.principal.userId) (hbroker : state.broker = call.broker)
      (hhash : state.stateHash = lib.hashToken raw) (hid : state.id = s.db.nextUuid) :
      BrokerMove lib s e ({ s with db := { s.db with
        states := s.db.states ++ [state], nextUuid := s.db.nextUuid + 1 } }.become e.request
        (.connected call raw))
  | setCookie (call : ConnectCall) (raw : String) (expiresAt : Time)
      (hconnected : s.requests e.request = .connected call raw) :
      BrokerMove lib s e ((s.setJar call.browser (some ⟨raw, expiresAt⟩)).become e.request
        (.cookieSet call raw))
  | send (call : CallbackCall) (now : Time) (hidle : s.requests e.request = .idle) :
      BrokerMove lib s e (s.become e.request (.sent call (s.cookie call now)))
  | pass (call : CallbackCall) (cookie : Option String) (saved : OAuthState) (now : Time)
      (hcheck : e.action = .check now) (hsent : s.requests e.request = .sent call cookie)
      (hsaved : checkCallback lib now s.db call cookie = .ok saved) :
      BrokerMove lib s e (s.become e.request (.exchanging call cookie saved now))
  | store (call : CallbackCall) (cookie : Option String) (saved : OAuthState) (usedAt : Time)
      (c : ExchangedCredentials)
      (hexchanging : s.requests e.request = .exchanging call cookie saved usedAt) :
      BrokerMove lib s e ({ s with
        db := storeConnection lib (markUsed s.db saved usedAt) saved call.broker c
        }.become e.request
        (.stored call cookie saved usedAt))
  | finish (call : CallbackCall) (cookie : Option String) (saved : OAuthState) (usedAt : Time)
      (hstored : s.requests e.request = .stored call cookie saved usedAt) :
      BrokerMove lib s e ((s.setJar call.browser none).become e.request
        (.finished call cookie saved usedAt))
  /-- The broker refused: the state is used up. -/
  | spend (call : CallbackCall) (cookie : Option String) (saved : OAuthState) (usedAt : Time)
      (error : String) (hexchanging : s.requests e.request = .exchanging call cookie saved usedAt) :
      BrokerMove lib s e ({ s with db := markUsed s.db saved usedAt }.become e.request
        (.refused call error))
  /-- It fails; the browser may lose its cookie. -/
  | drop (phase : BrokerPhase) (jars : ℕ → Option OAuthCookie) (hdrew : phase.drew = none)
      (hcallback : phase.callback = none) (hpassed : phase.passed = none)
      (hissued : (s.requests e.request).issued = none)
      (haccepted : (s.requests e.request).accepted = none)
      (hjars : ∀ b cookie, jars b = some cookie → s.jars b = some cookie) :
      BrokerMove lib s e ({ s with jars := jars }.become e.request phase)

theorem setJar_none (s : BrokerRun) (browser b : ℕ) (cookie : OAuthCookie)
    (h : Function.update s.jars browser none b = some cookie) : s.jars b = some cookie := by
  rw [Function.update_apply] at h
  split at h
  · cases h
  · exact h

theorem startConnect_move {lib : BrokerLibraries} {s : BrokerRun} {e : BrokerEvent}
    (hidle : s.requests e.request = .idle) (call : ConnectCall) :
    BrokerMove lib s e (startConnect lib s e.request call) := by
  unfold startConnect
  split
  · exact .drop _ s.jars rfl rfl rfl (by rw [hidle]; rfl) (by rw [hidle]; rfl) fun _ _ h => h
  · exact .start call hidle

theorem brokerStep_move (lib : BrokerLibraries) (s : BrokerRun) (e : BrokerEvent) :
    BrokerMove lib s e (brokerStep lib s e) := by
  obtain ⟨r, action⟩ := e
  unfold brokerStep
  dsimp only
  split
  · rename_i call hidle
    exact startConnect_move hidle call
  · rename_i browser principal connectionId hidle
    split
    · exact .drop _ s.jars rfl rfl rfl (by rw [hidle]; rfl) (by rw [hidle]; rfl) fun _ _ h => h
    split
    · exact .drop _ s.jars rfl rfl rfl (by rw [hidle]; rfl) (by rw [hidle]; rfl) fun _ _ h => h
    split
    · exact .drop _ s.jars rfl rfl rfl (by rw [hidle]; rfl) (by rw [hidle]; rfl) fun _ _ h => h
    · exact startConnect_move hidle _
  · rename_i hconnecting
    exact .drop _ s.jars rfl rfl rfl (by rw [hconnecting]; rfl) (by rw [hconnecting]; rfl)
      fun _ _ h => h
  · rename_i now call raw hconnecting
    exact .issue call raw _ hconnecting rfl rfl rfl rfl
  · rename_i now call raw hconnected
    exact .setCookie call raw _ hconnected
  · rename_i call cookie saved usedAt hstored
    exact .finish call cookie saved usedAt hstored
  · rename_i call error hrefused
    exact .drop _ _ rfl rfl rfl (by rw [hrefused]; rfl) (by rw [hrefused]; rfl)
      fun b cookie h => setJar_none s call.browser b cookie h
  · rename_i call now hidle
    exact .send call now hidle
  · rename_i now call cookie hsent
    split
    · exact .drop _ s.jars rfl rfl rfl (by rw [hsent]; rfl) (by rw [hsent]; rfl) fun _ _ h => h
    · rename_i saved hsaved
      exact .pass call cookie saved now rfl hsent hsaved
  · rename_i c call cookie saved usedAt hexchanging
    exact .store call cookie saved usedAt c hexchanging
  · rename_i code call cookie saved usedAt hexchanging
    exact .spend call cookie saved usedAt _ hexchanging
  · rename_i hexchanging
    exact .drop _ s.jars rfl rfl rfl (by rw [hexchanging]; rfl) (by rw [hexchanging]; rfl)
      fun _ _ h => h
  · exact .stay

namespace BrokerRun

variable {s t : BrokerRun} {r r' : ℕ} {phase : BrokerPhase}

theorem become_requests_self : (s.become r phase).requests r = phase := Function.update_self ..

end BrokerRun

/-- **A callback that passes** uses the state it carries, or else its cookie. -/
theorem checkCallback_ok {lib : BrokerLibraries} {now : Time} {d : BrokerDatabase}
    {call : CallbackCall} {cookie : Option String} {saved : OAuthState}
    (h : checkCallback lib now d call cookie = .ok saved) :
    ∃ raw, call.rawState cookie = some raw ∧ saved ∈ d.states ∧
      saved.stateHash = lib.hashToken raw ∧ saved.broker = call.broker ∧ saved.usedAt = none ∧
      now < saved.expiresAt := by
  unfold checkCallback at h
  split at h
  · rename_i raw code hraw hcode
    split at h
    · cases h
    · rename_i found hfound
      split at h
      · cases h
      · rename_i hopen
        obtain rfl := Except.ok.inj h
        simp only [ne_eq, not_or, not_not, not_le] at hopen
        have hfind := List.find?_some hfound
        simp only [Bool.decide_and, Bool.and_eq_true, decide_eq_true_eq] at hfind
        exact ⟨raw, hraw, List.mem_of_find?_eq_some hfound, hfind.1, hfind.2, hopen.1, hopen.2⟩
  · cases h

end GnkAlgo
