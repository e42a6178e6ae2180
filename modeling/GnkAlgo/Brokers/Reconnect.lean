import GnkAlgo.Brokers.Binding
import GnkAlgo.Market.FeedSessions
import GnkAlgo.Trading.Service

/-!
# The expiry of a broker token

The rows of `broker_connections` over time: `callback`, `test_connection` and
`disconnect` of `backend/app/routers/brokers.py`, `OrderManager._connection` of
`backend/app/trading/service.py`, and `_load_user` and `_fatal` of
`backend/app/market/dhan.py`.  `callback` writes `token_expires_at` where the new
credentials have an expiry.  Where they have none, the expiry of the token before
stays in the row, and whoever reads it next moves the new connection to
REAUTH_REQUIRED.

* `reconnectStep` — one step of any of these;
* `BrokerDatabase.Renewed` — a connection as the last credentials have it;
* `BringsExpiry` — the credentials have an expiry, or none is stored;
* `callback_renews_iff` — the callbacks of a run renew the connection exactly where
  each brings an expiry.
-/

namespace GnkAlgo

open Transition

/-! ## Requests -/

/-- `_owned`. -/
def ownedConnection (d : BrokerDatabase) (connectionId : Uuid) (principal : BrokerPrincipal) :
    Except HttpError BrokerConnection :=
  match d.connections.find? (·.id = connectionId) with
  | none => .error ⟨404, "Broker connection not found"⟩
  | some connection =>
    if connection.userId ≠ principal.userId then .error ⟨404, "Broker connection not found"⟩
    else .ok connection

/-- `test_connection` up to the broker: the row it has loaded. -/
def testConnection (d : BrokerDatabase) (principal : BrokerPrincipal) (connectionId : Uuid) :
    Except HttpError BrokerConnection :=
  if ¬ principal.allowed "broker:read" then .error ⟨403, "Insufficient API key scope"⟩
  else match ownedConnection d connectionId principal with
    | .error e => .error e
    | .ok connection =>
      if connection.status = .disconnected then .error ⟨409, "Broker is disconnected"⟩
      else .ok connection

/-- The row after the test, with the code of a `BrokerError`: of the columns those
that differ from what was loaded are written. -/
def BrokerConnection.tested (loaded row : BrokerConnection) (error : Option String) :
    BrokerConnection :=
  let status : BrokerStatus := if error = none then .connected else .reauthRequired
  { row with
    status := if status = loaded.status then row.status else status
    errorCode := if error = loaded.errorCode then row.errorCode else error }

/-- `test_connection` after the broker has answered. -/
def storeTest (d : BrokerDatabase) (loaded : BrokerConnection) (error : Option String) :
    BrokerDatabase :=
  { d with connections := d.connections.map fun row =>
      if row.id = loaded.id then loaded.tested row error else row }

/-- `disconnect`. -/
def disconnectBroker (d : BrokerDatabase) (principal : BrokerPrincipal) (connectionId : Uuid) :
    BrokerDatabase × Except HttpError String :=
  if ¬ principal.allowed "broker:write" then (d, .error ⟨403, "Insufficient API key scope"⟩)
  else match ownedConnection d connectionId principal with
    | .error e => (d, .error e)
    | .ok connection =>
      (d.setConnection { connection with
        status := .disconnected, credentials := ⟨none, none⟩, tokenExpiresAt := none },
        .ok "Broker disconnected")

/-- The tables of the order manager, of which `_connection` reads the connections. -/
def BrokerDatabase.orderStore (d : BrokerDatabase) : Store where
  toDatabase := { Store.empty.toDatabase with connections := d.connections }
  valid := ⟨Store.empty.valid.orderIds, Store.empty.valid.clientKeys, Store.empty.valid.positionKeys,
    Store.empty.valid.brokerKeys, Store.empty.valid.executionOrders, Store.empty.valid.orderUuids,
    Store.empty.valid.paperUuids⟩

/-- `OrderManager._connection`. -/
def orderConnection (now : Time) (d : BrokerDatabase) (userId : Uuid) : BrokerDatabase :=
  { d with connections := (liveConnection now d.orderStore userId).1.connections }

/-- `_load_user`. -/
def loadConnection (feed : FeedLibraries) (now : Time) (d : BrokerDatabase) (userId : Uuid)
    (instruments : List FeedInstrument) (instrumentIds : List Uuid) : BrokerDatabase :=
  match (loadUser feed now (d.connection? userId .dhan) instruments instrumentIds).1 with
  | none => d
  | some row => d.setConnection row

/-- `_fatal`. -/
def feedFatal (d : BrokerDatabase) (userId : Uuid) (code : ℕ) : BrokerDatabase :=
  match d.connection? userId .dhan with
  | none => d
  | some connection => d.setConnection { connection with
      status := if code ∈ [807, 808, 809] then .reauthRequired else .error
      errorCode := some s!"DHAN_FEED_{code}" }

/-! ## Steps -/

/-- The tables and callbacks, and the rows that tests under way have loaded. -/
structure ReconnectRun where
  oauth : BrokerRun := {}
  tests : ℕ → Option BrokerConnection := fun _ => none

inductive ReconnectEvent
  /-- A step of `connect`, `reconnect` or `callback`. -/
  | oauth (e : BrokerEvent)
  | test (request : ℕ) (principal : BrokerPrincipal) (connectionId : Uuid)
  /-- The broker answers, with a `BrokerError` where a code is given. -/
  | tested (request : ℕ) (error : Option String)
  | disconnect (principal : BrokerPrincipal) (connectionId : Uuid)
  /-- A live order of the user is placed, changed or withdrawn. -/
  | order (userId : Uuid) (now : Time)
  /-- The feed supervisor comes to the user. -/
  | feed (userId : Uuid) (now : Time) (instruments : List FeedInstrument) (instrumentIds : List Uuid)
  | fatal (userId : Uuid) (code : ℕ)

def ReconnectRun.store (s : ReconnectRun) (d : BrokerDatabase) : ReconnectRun :=
  { s with oauth := { s.oauth with db := d } }

def reconnectStep (lib : BrokerLibraries) (feed : FeedLibraries) (s : ReconnectRun) :
    ReconnectEvent → ReconnectRun
  | .oauth e => { s with oauth := brokerStep lib s.oauth e }
  | .test r principal connectionId =>
    match s.tests r, testConnection s.oauth.db principal connectionId with
    | none, .ok loaded => { s with tests := Function.update s.tests r (some loaded) }
    | _, _ => s
  | .tested r error =>
    match s.tests r with
    | none => s
    | some loaded =>
      { s.store (storeTest s.oauth.db loaded error) with tests := Function.update s.tests r none }
  | .disconnect principal connectionId =>
    s.store (disconnectBroker s.oauth.db principal connectionId).1
  | .order userId now => s.store (orderConnection now s.oauth.db userId)
  | .feed userId now instruments instrumentIds =>
    s.store (loadConnection feed now s.oauth.db userId instruments instrumentIds)
  | .fatal userId code => s.store (feedFatal s.oauth.db userId code)

/-! ## What is asked -/

/-- The expiry of new credentials; one that does not parse counts as none. -/
def ExchangedCredentials.expiry (lib : BrokerLibraries) (c : ExchangedCredentials) : Option Time :=
  (given c.expiresAt).bind lib.fromIsoformat

/-- They name an access token and a client. -/
def Credentials.Complete (c : Credentials) : Prop :=
  orMissing c.accessToken ≠ none ∧ orMissing c.clientId ≠ none

/-- The Dhan connection of the user is as these credentials have it.  At a time they
are good, orders and feed leave it as it is, and take it if the credentials are complete. -/
structure BrokerDatabase.Renewed (lib : BrokerLibraries) (feed : FeedLibraries) (d : BrokerDatabase)
    (userId : Uuid) (c : ExchangedCredentials) : Prop where
  expiry : ∃ row, d.connection? userId .dhan = some row ∧ row.tokenExpiresAt = c.expiry lib
  orders : ∀ t, (c.expiry lib).all (t < ·) → ∀ s : Store, s.connections = d.connections →
    (liveConnection t s userId).1 = s ∧
      ((∃ found, (liveConnection t s userId).2 = .ok found) ↔ c.Complete)
  feed : ∀ t, (c.expiry lib).all (t < ·) → ∀ instruments instrumentIds,
    (loadUser feed t (d.connection? userId .dhan) instruments instrumentIds).1 =
        d.connection? userId .dhan ∧
      ((loadUser feed t (d.connection? userId .dhan) instruments instrumentIds).2 ≠ none ↔
        c.Complete)

/-- `callback` succeeds with these credentials for the Dhan connection of the user. -/
def ReconnectRun.CallsBack (s : ReconnectRun) (e : ReconnectEvent) (userId : Uuid)
    (c : ExchangedCredentials) : Prop :=
  ∃ r call cookie saved usedAt, e = .oauth ⟨r, .exchanged (.credentials c)⟩ ∧
    s.oauth.requests r = .exchanging call cookie saved usedAt ∧ call.broker = .dhan ∧
    saved.userId = userId

/-- The credentials have an expiry, or none is stored. -/
def BringsExpiry (d : BrokerDatabase) (userId : Uuid) (c : ExchangedCredentials) : Prop :=
  given c.expiresAt ≠ none ∨
    ∀ row, d.connection? userId .dhan = some row → row.tokenExpiresAt = none

/-! ## One connection for a user and a broker -/

/-- Ids and owners are unique, and no row has the id of the next. -/
structure BrokerDatabase.OneEach (d : BrokerDatabase) : Prop where
  ids : (d.connections.map BrokerConnection.id).Nodup
  owners : (d.connections.map fun c => (c.userId, c.broker)).Nodup
  fresh : ∀ c ∈ d.connections, c.id < d.nextUuid

/-- The rows later: the same ids and owners. -/
def BrokerConnection.SameRow (c c' : BrokerConnection) : Prop :=
  c'.id = c.id ∧ c'.userId = c.userId ∧ c'.broker = c.broker

section OneEach

variable {lib : BrokerLibraries} {feed : FeedLibraries} {d d' : BrokerDatabase}
  {c c' : BrokerConnection} {userId : Uuid} {broker : BrokerName}

theorem BrokerConnection.SameRow.refl (c : BrokerConnection) : c.SameRow c := ⟨rfl, rfl, rfl⟩

theorem BrokerDatabase.connection?_mem (h : d.connection? userId broker = some c) :
    c ∈ d.connections ∧ c.userId = userId ∧ c.broker = broker :=
  ⟨List.mem_of_find?_eq_some h, by simpa using List.find?_some h⟩

namespace BrokerDatabase.OneEach

theorem connection?_eq (h : d.OneEach) (hc : c ∈ d.connections) :
    d.connection? c.userId c.broker = some c := by
  rw [← Rows.find?_key h.owners hc]
  exact List.find?_congr fun x _ => decide_eq_decide.2 Prod.mk_inj.symm

/-- **Rows rewritten one by one.** -/
theorem map (h : d.OneEach) {f : BrokerConnection → BrokerConnection}
    (hf : ∀ x ∈ d.connections, x.SameRow (f x)) (hrows : d'.connections = d.connections.map f)
    (hnext : d.nextUuid ≤ d'.nextUuid) : d'.OneEach where
  ids := by
    rw [hrows, List.map_map]
    exact List.map_congr_left (fun x hx => (hf x hx).1) ▸ h.ids
  owners := by
    have howners : d.connections.map (fun x => ((f x).userId, (f x).broker)) =
        d.connections.map fun x => (x.userId, x.broker) :=
      List.map_congr_left fun x hx => Prod.mk_inj.2 (hf x hx).2
    rw [hrows, List.map_map]
    exact howners ▸ h.owners
  fresh x hx := by
    rw [hrows] at hx
    obtain ⟨y, hy, rfl⟩ := List.mem_map.1 hx
    exact (hf y hy).1 ▸ (h.fresh y hy).trans_le hnext

theorem of_rows (h : d.OneEach) (hrows : d'.connections = d.connections)
    (hnext : d.nextUuid ≤ d'.nextUuid) : d'.OneEach :=
  h.map (f := id) (fun x _ => .refl x) (by rw [hrows, List.map_id]) hnext

theorem replaced (h : d.OneEach) (hc : c ∈ d.connections) (hsame : c.SameRow c')
    (hrows : d'.connections = Rows.replaceBy BrokerConnection.id c' d.connections)
    (hnext : d.nextUuid ≤ d'.nextUuid) : d'.OneEach := by
  refine h.map (fun x hx => ?_) hrows hnext
  split
  · rename_i hid
    rw [List.inj_on_of_nodup_map h.ids hx hc (hid.trans hsame.1)]
    exact hsame
  · exact .refl x

theorem setConnection (h : d.OneEach) (hc : c ∈ d.connections) (hsame : c.SameRow c') :
    (d.setConnection c').OneEach :=
  h.replaced hc hsame rfl le_rfl

/-- A connection is added where there is none of its owner. -/
theorem add (h : d.OneEach) (hnone : d.connection? c.userId c.broker = none)
    (hid : c.id = d.nextUuid) (hrows : d'.connections = d.connections ++ [c])
    (hnext : d'.nextUuid = d.nextUuid + 1) : d'.OneEach where
  ids := by
    rw [hrows, List.map_append]
    refine h.ids.append (List.nodup_singleton _) (List.disjoint_singleton.2 fun hmem => ?_)
    obtain ⟨x, hx, hsame⟩ := List.mem_map.1 hmem
    exact absurd (h.fresh x hx) (by rw [hsame, hid]; exact lt_irrefl _)
  owners := by
    rw [hrows, List.map_append]
    refine h.owners.append (List.nodup_singleton _) (List.disjoint_singleton.2 fun hmem => ?_)
    obtain ⟨x, hx, hsame⟩ := List.mem_map.1 hmem
    exact List.find?_eq_none.1 hnone x hx (decide_eq_true (Prod.mk_inj.1 hsame))
  fresh x hx := by
    rw [hnext]
    rw [hrows] at hx
    rcases List.mem_append.1 hx with hold | hnew
    · exact (h.fresh x hold).trans (Nat.lt_succ_self _)
    · rw [List.mem_singleton.1 hnew, hid]
      exact Nat.lt_succ_self _

end BrokerDatabase.OneEach

/-- The row `callback` writes with these credentials. -/
structure BrokerConnection.Stores (lib : BrokerLibraries) (d : BrokerDatabase) (userId : Uuid)
    (broker : BrokerName) (c : ExchangedCredentials) (row : BrokerConnection) : Prop where
  owner : row.userId = userId ∧ row.broker = broker
  status : row.status = .connected
  credentials : row.credentials = c.toCredentials
  brokerClientId : row.brokerClientId = c.clientId
  tokenExpiresAt : row.tokenExpiresAt = match given c.expiresAt with
    | none => (d.connection? userId broker).bind BrokerConnection.tokenExpiresAt
    | some text => lib.fromIsoformat text

theorem storeConnection_row (h : d.OneEach) (saved : OAuthState) (c : ExchangedCredentials) :
    (storeConnection lib d saved broker c).OneEach ∧
      ∃ row ∈ (storeConnection lib d saved broker c).connections,
        row.Stores lib d saved.userId broker c := by
  cases hfound : d.connection? saved.userId broker with
  | some existing =>
    obtain ⟨hmem, huser, hbroker⟩ := BrokerDatabase.connection?_mem hfound
    unfold storeConnection
    rw [hfound]
    dsimp only
    refine ⟨h.setConnection hmem ⟨rfl, rfl, rfl⟩, _, Rows.mem_replaceBy_self hmem rfl, ?_⟩
    exact ⟨⟨huser, hbroker⟩, rfl, rfl, rfl, by rw [hfound]; rfl⟩
  | none =>
    unfold storeConnection
    rw [hfound]
    generalize hnew : ({
      id := d.nextUuid
      userId := saved.userId
      broker := broker
      brokerClientId := none
      credentials := c.toCredentials
      status := .pending
      tokenExpiresAt := none } : BrokerConnection) = new
    have hadded : ({ d with
        connections := d.connections ++ [new], nextUuid := d.nextUuid + 1 } : BrokerDatabase).OneEach :=
      h.add (by rw [← hnew]; exact hfound) (by rw [← hnew]) rfl rfl
    dsimp only
    have hmem : new ∈ d.connections ++ [new] :=
      List.mem_append_right _ (List.mem_singleton_self _)
    refine ⟨hadded.setConnection hmem ⟨rfl, rfl, rfl⟩, _, Rows.mem_replaceBy_self hmem rfl, ?_⟩
    exact ⟨⟨by rw [← hnew], by rw [← hnew]⟩, rfl, rfl, rfl, by rw [hfound, ← hnew]; rfl⟩

theorem oneEach_brokerStep {s : BrokerRun} (h : s.db.OneEach) (e : BrokerEvent) :
    (brokerStep lib s e).db.OneEach := by
  have hmove := brokerStep_move lib s e
  generalize brokerStep lib s e = t at hmove ⊢
  cases hmove with
  | stay => exact h
  | start call hidle => exact h.of_rows rfl le_rfl
  | issue call raw state hconnecting => exact h.of_rows rfl (Nat.le_succ _)
  | setCookie call raw expiresAt hconnected => exact h
  | send call now hidle => exact h
  | pass call cookie saved now hcheck hsent => exact h
  | store call cookie saved usedAt c hexchanging =>
    have hused : (markUsed s.db saved usedAt).OneEach := h.of_rows rfl le_rfl
    exact (storeConnection_row hused saved c).1
  | finish call cookie saved usedAt hstored => exact h
  | spend call cookie saved usedAt error hexchanging => exact h.of_rows rfl le_rfl
  | drop phase jars hdrew => exact h

theorem ownedConnection_mem {principal : BrokerPrincipal} {connectionId : Uuid}
    (h : ownedConnection d connectionId principal = .ok c) : c ∈ d.connections := by
  unfold ownedConnection at h
  split at h
  · cases h
  rename_i connection hfound
  split at h
  · cases h
  · cases h
    exact List.mem_of_find?_eq_some hfound

theorem oneEach_storeTest (h : d.OneEach) (loaded : BrokerConnection) (error : Option String) :
    (storeTest d loaded error).OneEach := by
  refine h.map (fun x _ => ?_) rfl le_rfl
  split
  · exact ⟨rfl, rfl, rfl⟩
  · exact .refl x

theorem oneEach_disconnectBroker (h : d.OneEach) (principal : BrokerPrincipal)
    (connectionId : Uuid) : (disconnectBroker d principal connectionId).1.OneEach := by
  unfold disconnectBroker
  split
  · exact h
  split
  · exact h
  · rename_i connection howned
    exact h.setConnection (ownedConnection_mem howned) ⟨rfl, rfl, rfl⟩

theorem oneEach_orderConnection (h : d.OneEach) (now : Time) (userId : Uuid) :
    (orderConnection now d userId).OneEach := by
  unfold orderConnection liveConnection
  split
  · exact h.of_rows rfl le_rfl
  rename_i connection hfound
  split
  · have hsame : connection.SameRow { connection with
        status := .reauthRequired, errorCode := some "TOKEN_EXPIRED" } := ⟨rfl, rfl, rfl⟩
    exact h.replaced (List.mem_of_find?_eq_some hfound) hsame rfl le_rfl
  dsimp only
  split
  · exact h.of_rows rfl le_rfl
  · exact h.of_rows rfl le_rfl

/-- `_load_user` changes the row only where its token is over. -/
theorem loadUser_row (feed : FeedLibraries) (now : Time) (connection : Option BrokerConnection)
    (instruments : List FeedInstrument) (instrumentIds : List Uuid) :
    (loadUser feed now connection instruments instrumentIds).1 = connection ∨
      ∃ c, connection = some c ∧
        (loadUser feed now connection instruments instrumentIds).1 = some { c with
          status := .reauthRequired, errorCode := some "DHAN_TOKEN_EXPIRED" } := by
  unfold loadUser
  split
  · exact Or.inl rfl
  rename_i c hfilter
  split
  · exact Or.inr ⟨c, (Option.filter_eq_some_iff.1 hfilter).1, rfl⟩
  dsimp only
  split
  · exact Or.inl rfl
  · exact Or.inl rfl

theorem oneEach_loadConnection (h : d.OneEach) (now : Time) (userId : Uuid)
    (instruments : List FeedInstrument) (instrumentIds : List Uuid) :
    (loadConnection feed now d userId instruments instrumentIds).OneEach := by
  unfold loadConnection
  rcases loadUser_row feed now (d.connection? userId .dhan) instruments instrumentIds with
    hsame | ⟨c, hfound, hrow⟩
  · rw [hsame]
    split
    · exact h
    · rename_i row hfound
      exact h.setConnection (BrokerDatabase.connection?_mem hfound).1 (.refl row)
  · rw [hrow]
    exact h.setConnection (BrokerDatabase.connection?_mem hfound).1 ⟨rfl, rfl, rfl⟩

theorem oneEach_feedFatal (h : d.OneEach) (userId : Uuid) (code : ℕ) :
    (feedFatal d userId code).OneEach := by
  unfold feedFatal
  split
  · exact h
  · rename_i connection hfound
    exact h.setConnection (BrokerDatabase.connection?_mem hfound).1 ⟨rfl, rfl, rfl⟩

theorem oneEach_reconnectStep {s : ReconnectRun} (h : s.oauth.db.OneEach) (e : ReconnectEvent) :
    (reconnectStep lib feed s e).oauth.db.OneEach := by
  cases e with
  | oauth e => exact oneEach_brokerStep h e
  | test request principal connectionId =>
    unfold reconnectStep
    dsimp only
    split <;> exact h
  | tested request error =>
    unfold reconnectStep
    dsimp only
    split
    · exact h
    · exact oneEach_storeTest h _ error
  | disconnect principal connectionId => exact oneEach_disconnectBroker h principal connectionId
  | order userId now => exact oneEach_orderConnection h now userId
  | feed userId now instruments ids => exact oneEach_loadConnection h now userId instruments ids
  | fatal userId code => exact oneEach_feedFatal h userId code

end OneEach

/-! ## After a callback -/

section Renewed

variable {lib : BrokerLibraries} {feed : FeedLibraries} {d : BrokerDatabase}
  {row : BrokerConnection} {userId : Uuid} {c : ExchangedCredentials} {now : Time}

/-- A connected row whose token is good is left as it is by `_connection`, and taken if
it names an access token and a client. -/
theorem liveConnection_of_row {s : Store} (hrow : s.connections.find? (fun x =>
    x.userId = userId ∧ x.broker = .dhan ∧ x.status = .connected) = some row)
    (hcurrent : row.tokenExpiresAt.all (now < ·)) :
    (liveConnection now s userId).1 = s ∧ ((∃ found, (liveConnection now s userId).2 = .ok found) ↔
      orMissing row.credentials.accessToken ≠ none ∧
        (orMissing row.credentials.clientId).or (orMissing row.brokerClientId) ≠ none) := by
  have hgood : ¬ ∃ expiresAt ∈ row.tokenExpiresAt, expiresAt ≤ now := fun ⟨expiresAt, hmem, hle⟩ =>
    not_lt.2 hle (of_decide_eq_true (Option.all_eq_true _ _ |>.1 hcurrent expiresAt hmem))
  unfold liveConnection
  rw [hrow]
  dsimp only
  rw [if_neg hgood]
  generalize (orMissing row.credentials.clientId).or (orMissing row.brokerClientId) = client
  cases orMissing row.credentials.accessToken with
  | none => exact ⟨rfl, fun ⟨_, h⟩ => (nomatch h), fun h => absurd rfl h.1⟩
  | some token =>
    cases client with
    | none => exact ⟨rfl, fun ⟨_, h⟩ => (nomatch h), fun h => absurd rfl h.2⟩
    | some client => exact ⟨rfl, fun _ => ⟨nofun, nofun⟩, fun _ => ⟨_, rfl⟩⟩

/-- So it is by `_load_user`. -/
theorem loadUser_of_row (hstatus : row.status = .connected)
    (hcurrent : row.tokenExpiresAt.all (now < ·)) (instruments : List FeedInstrument)
    (instrumentIds : List Uuid) :
    (loadUser feed now (some row) instruments instrumentIds).1 = some row ∧
      ((loadUser feed now (some row) instruments instrumentIds).2 ≠ none ↔
        orMissing row.credentials.accessToken ≠ none ∧
          (orMissing row.credentials.clientId).or (orMissing row.brokerClientId) ≠ none) := by
  have hgood : ¬ row.isExpired now := fun hexpired => by
    obtain ⟨expiresAt, hmem, hle⟩ := (Option.any_eq_true _ _).1 hexpired
    exact not_lt.2 (of_decide_eq_true hle)
      (of_decide_eq_true (Option.all_eq_true _ _ |>.1 hcurrent expiresAt hmem))
  have hfilter : (some row).filter (fun x => x.status = .connected) = some row := by
    rw [Option.filter_some, if_pos (decide_eq_true hstatus)]
  unfold loadUser
  rw [hfilter]
  dsimp only
  rw [if_neg hgood]
  generalize (orMissing row.credentials.clientId).or (orMissing row.brokerClientId) = client
  cases orMissing row.credentials.accessToken with
  | none => exact ⟨rfl, fun h => absurd rfl h, fun h => absurd rfl h.1⟩
  | some token =>
    cases client with
    | none => exact ⟨rfl, fun h => absurd rfl h, fun h => absurd rfl h.2⟩
    | some client => exact ⟨rfl, fun _ => ⟨nofun, nofun⟩, fun _ => nofun⟩

/-- The expiry in the row is that of the credentials, unless they have none and one
was stored. -/
theorem BrokerConnection.Stores.expiry_iff (h : row.Stores lib d userId .dhan c) :
    row.tokenExpiresAt = c.expiry lib ↔ BringsExpiry d userId c := by
  have hexpires := h.tokenExpiresAt
  unfold BringsExpiry ExchangedCredentials.expiry
  cases hgiven : given c.expiresAt with
  | some text =>
    rw [hgiven] at hexpires
    exact ⟨fun _ => Or.inl nofun, fun _ => hexpires⟩
  | none =>
    rw [hgiven] at hexpires
    dsimp only at hexpires
    rw [hexpires]
    cases hfound : d.connection? userId .dhan with
    | none => exact ⟨fun _ => Or.inr nofun, fun _ => rfl⟩
    | some existing =>
      refine ⟨fun hnone => Or.inr fun x hx => Option.some.inj hx ▸ hnone, fun h => ?_⟩
      rcases h with hnot | hall
      · exact absurd rfl hnot
      · exact hall existing rfl

/-- **One callback.**  It renews the connection exactly if it brings an expiry. -/
theorem renewed_iff (h : d.OneEach) (saved : OAuthState) (c : ExchangedCredentials) :
    (storeConnection lib d saved .dhan c).Renewed lib feed saved.userId c ↔
      BringsExpiry d saved.userId c := by
  have hstored : (storeConnection lib d saved .dhan c).OneEach ∧
      ∃ row ∈ (storeConnection lib d saved .dhan c).connections,
        row.Stores lib d saved.userId .dhan c := storeConnection_row h saved c
  obtain ⟨hone, row, hmem, hrow⟩ := hstored
  obtain ⟨huser, hbroker⟩ := hrow.owner
  have hfound : (storeConnection lib d saved .dhan c).connection? saved.userId .dhan = some row := by
    have hself := hone.connection?_eq hmem
    rwa [huser, hbroker] at hself
  have hcomplete : orMissing row.credentials.accessToken ≠ none ∧
      (orMissing row.credentials.clientId).or (orMissing row.brokerClientId) ≠ none ↔
        c.Complete := by
    rw [hrow.credentials, hrow.brokerClientId, Option.or_self]
    rfl
  rw [← hrow.expiry_iff]
  constructor
  · intro hrenewed
    obtain ⟨x, hx, hexpiry⟩ := hrenewed.expiry
    rwa [Option.some.inj (hfound.symm.trans hx)]
  · intro hexpiry
    refine ⟨⟨row, hfound, hexpiry⟩, fun t hcurrent s hs => ?_, fun t hcurrent _ _ => ?_⟩
    · rw [← hexpiry] at hcurrent
      rw [← hcomplete]
      refine liveConnection_of_row ?_ hcurrent
      rw [hs, ← hfound]
      refine List.find?_congr fun x hx => decide_eq_decide.2 ⟨fun hx => ⟨hx.1, hx.2.1⟩, ?_⟩
      rintro ⟨hxuser, hxbroker⟩
      have hsame := hone.connection?_eq hx
      rw [hxuser, hxbroker, hfound] at hsame
      exact ⟨hxuser, hxbroker, Option.some.inj hsame ▸ hrow.status⟩
    · rw [← hexpiry] at hcurrent
      rw [← hcomplete, hfound]
      exact loadUser_of_row hrow.status hcurrent _ _

end Renewed

/-- **Expiries over a run.**  Right after every callback that succeeds the connection is
as its credentials have it, exactly when each of them brings an expiry. -/
theorem callback_renews_iff {lib : BrokerLibraries} {feed : FeedLibraries} {s : ReconnectRun}
    (h0 : s.oauth.db.OneEach) (events : List ReconnectEvent) :
    (∀ before e after, events = before ++ e :: after → ∀ userId c,
      (before.foldl (reconnectStep lib feed) s).CallsBack e userId c →
        (reconnectStep lib feed (before.foldl (reconnectStep lib feed) s) e).oauth.db.Renewed
          lib feed userId c) ↔
    ∀ before e after, events = before ++ e :: after → ∀ userId c,
      (before.foldl (reconnectStep lib feed) s).CallsBack e userId c →
        BringsExpiry (before.foldl (reconnectStep lib feed) s).oauth.db userId c := by
  refine forall_congr' fun before => forall_congr' fun e => forall_congr' fun after =>
    forall_congr' fun _ => forall_congr' fun userId => forall_congr' fun c =>
    forall_congr' fun hcalls => ?_
  have hone : (before.foldl (reconnectStep lib feed) s).oauth.db.OneEach :=
    (run_foldl (reconnectStep lib feed) s before).invariant
      (P := fun s => s.oauth.db.OneEach) h0 fun _ e _ hs h => h ▸ oneEach_reconnectStep hs e
  generalize before.foldl (reconnectStep lib feed) s = t at hone hcalls ⊢
  obtain ⟨r, call, cookie, saved, usedAt, rfl, hexchanging, hbroker, rfl⟩ := hcalls
  have hused : (markUsed t.oauth.db saved usedAt).OneEach := hone.of_rows rfl le_rfl
  have hstep : (reconnectStep lib feed t (.oauth ⟨r, .exchanged (.credentials c)⟩)).oauth.db =
      storeConnection lib (markUsed t.oauth.db saved usedAt) saved .dhan c := by
    unfold reconnectStep brokerStep
    dsimp only
    rw [hexchanging, ← hbroker]
    rfl
  rw [hstep]
  exact renewed_iff hused saved c

/-! ### Two callbacks -/

def expiringLibraries : BrokerLibraries where
  toAuthLibraries := sampleBrokerLibraries.toAuthLibraries
  fromIsoformat text := if text = "1970-01-01T00:00:10+00:00" then some 10000000 else none

def plainFeed : FeedLibraries where
  upper text := text
  strip text := text
  sha256 text := text.1 ++ text.2

def dhanCallback : CallbackCall := { browser := 1, broker := .dhan, tokenId := some "code" }

/-- Credentials with, or without, an expiry. -/
def dhanCredentials (expiresAt : Option String) : ExchangedCredentials :=
  ⟨⟨some "client", some "token"⟩, expiresAt⟩

/-- The user connects by the request `r`, and calls back by the next. -/
def callBackDhan (r : ℕ) (now : Time) : List ReconnectEvent := [
  .oauth ⟨r, .connect ⟨1, ⟨7, none⟩, .dhan⟩⟩, .oauth ⟨r, .authorized none now⟩,
  .oauth ⟨r, .deliver now⟩, .oauth ⟨r + 1, .send dhanCallback now⟩, .oauth ⟨r + 1, .check now⟩]

/-- A token for ten seconds, which an order finds over after twenty, and a new one
whose expiry is not known. -/
def reconnectLater : List ReconnectEvent :=
  callBackDhan 0 0 ++ [.oauth ⟨1, .exchanged (.credentials (dhanCredentials
    (some "1970-01-01T00:00:10+00:00")))⟩, .order 7 20000000] ++ callBackDhan 2 20000000

theorem oneEach_start : ({} : ReconnectRun).oauth.db.OneEach :=
  ⟨List.nodup_nil, List.nodup_nil, List.forall_mem_nil _⟩

/-- The new connection has the expiry of the old token. -/
theorem expiry_of_old_token : ¬ ∀ (lib : BrokerLibraries) (feed : FeedLibraries) (s : ReconnectRun),
    s.oauth.db.OneEach → ∀ events : List ReconnectEvent,
      ∀ before e after, events = before ++ e :: after → ∀ userId c,
        (before.foldl (reconnectStep lib feed) s).CallsBack e userId c →
          (reconnectStep lib feed (before.foldl (reconnectStep lib feed) s) e).oauth.db.Renewed
            lib feed userId c := by
  intro h
  have hcalls : (reconnectLater.foldl (reconnectStep expiringLibraries plainFeed) {}).CallsBack
      (.oauth ⟨3, .exchanged (.credentials (dhanCredentials none))⟩) 7 (dhanCredentials none) :=
    ⟨3, dhanCallback, some "aa", ⟨2, 7, .dhan, "#aa", 20000000 + minutes 10, none⟩, 20000000, rfl,
      by decide +kernel, rfl, rfl⟩
  obtain ⟨row, hrow, hexpiry⟩ :=
    (h expiringLibraries plainFeed {} oneEach_start _ reconnectLater _ [] rfl 7 _ hcalls).expiry
  have hstale : (((reconnectStep expiringLibraries plainFeed (reconnectLater.foldl
      (reconnectStep expiringLibraries plainFeed) {}) (.oauth ⟨3, .exchanged (.credentials
        (dhanCredentials none))⟩)).oauth.db.connection? 7 .dhan).bind
          BrokerConnection.tokenExpiresAt) = some 10000000 := by decide +kernel
  rw [hrow] at hstale
  exact nomatch hexpiry.symm.trans hstale

/-- The first of the two callbacks renews the connection. -/
theorem callback_renews_iff_first : (reconnectStep expiringLibraries plainFeed
    ((callBackDhan 0 0).foldl (reconnectStep expiringLibraries plainFeed) {})
    (.oauth ⟨1, .exchanged (.credentials (dhanCredentials (some "1970-01-01T00:00:10+00:00")))⟩)
      ).oauth.db.Renewed expiringLibraries plainFeed 7
        (dhanCredentials (some "1970-01-01T00:00:10+00:00")) := by
  refine (callback_renews_iff oneEach_start (callBackDhan 0 0 ++ [.oauth ⟨1, .exchanged
    (.credentials (dhanCredentials (some "1970-01-01T00:00:10+00:00")))⟩])).2 ?_ (callBackDhan 0 0)
    _ [] rfl 7 _ ?_
  · rintro before e after hsplit userId c ⟨r, call, cookie, saved, usedAt, rfl, -, -, -⟩
    have hmem : ReconnectEvent.oauth ⟨r, .exchanged (.credentials c)⟩ ∈ callBackDhan 0 0 ++
        [.oauth ⟨1, .exchanged (.credentials (dhanCredentials
          (some "1970-01-01T00:00:10+00:00")))⟩] := by
      rw [hsplit]
      exact List.mem_append_right _ List.mem_cons_self
    have hsame : r = 1 ∧ c = dhanCredentials (some "1970-01-01T00:00:10+00:00") := by
      simpa [callBackDhan] using hmem
    exact Or.inl (by rw [hsame.2]; decide)
  · exact ⟨1, dhanCallback, some "a", ⟨0, 7, .dhan, sampleDigest "a", minutes 10, none⟩, 0, rfl,
      by decide +kernel, rfl, rfl⟩

end GnkAlgo
