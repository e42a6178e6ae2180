import GnkAlgo.Brokers.OAuth
import GnkAlgo.Lib.SingleUse
import GnkAlgo.Lib.Upserts

/-!
# One-time credentials

Five requests take a credential that is good for one use: `verify_email`, `reset`
and `login` with a recovery code in `backend/app/routers/auth.py`, `callback` in
`brokers.py`, and `stream` in `market.py`.  Each looks its credential up, checks
it, and writes later that it is used; what other requests do in between is seen by
none, but for `stream`, whose query takes the lock of the row.

* `redeemStep` — one step of one request: a query, the call of the broker, or the
  updates with their commit, which a row that is locked delays;
* `RedeemPhase.use` — the effect a request has had, and whether its credential is
  marked as used;
* `RedeemMove` — what a step can do.
-/

namespace GnkAlgo

open Transition SingleUse Upserts

/-! ## Credentials -/

/-- A row of `market_ws_tickets`. -/
structure MarketWsTicket where
  id : Uuid
  tokenHash : String
  userId : Uuid
  sessionId : Option Uuid := none
  apiKeyId : Option Uuid := none
  expiresAt : Time
  usedAt : Option Time := none
  deriving DecidableEq, Repr

/-- What is good for one use, by the digest it is looked up with. -/
inductive Credential
  | oneTime (purpose : TokenPurpose) (tokenHash : String)
  | oauthState (broker : BrokerName) (stateHash : String)
  | recoveryCode (email digest : String)
  | ticket (tokenHash : String)
  deriving DecidableEq, Repr

def OneTimeToken.credential (t : OneTimeToken) : Credential := .oneTime t.purpose t.tokenHash

def OAuthState.credential (o : OAuthState) : Credential := .oauthState o.broker o.stateHash

def MarketWsTicket.credential (t : MarketWsTicket) : Credential := .ticket t.tokenHash

/-! ## Checks -/

/-- The query and check of `verify_email` and `reset`. -/
def checkToken (lib : AuthLibraries) (now : Time) (d : AuthDatabase) (token : String)
    (purpose : TokenPurpose) : Option OneTimeToken :=
  match d.oneTimeTokens.find? fun t => t.tokenHash = lib.hashToken token ∧ t.purpose = purpose with
  | none => none
  | some t => if t.usedAt ≠ none ∨ t.expiresAt ≤ now then none else some t

inductive LoginCheck
  | refused
  /-- A wrong password, which is counted. -/
  | wrong (user : User)
  /-- Let in; with the digest of the recovery code and the codes that are left, if
  it was one. -/
  | granted (user : User) (consumed : Option (String × List String))
  deriving DecidableEq, Repr

/-- `login` up to `_issue`. -/
def checkLogin (lib : AuthLibraries) (now : Time) (d : AuthDatabase) (email password : String)
    (totpCode : Option String) : LoginCheck :=
  match d.users.find? (·.email = email) with
  | none => .refused
  | some user =>
    if user.lockedUntil.any (now < ·) then .refused
    else if ¬ lib.verifyPassword password user.passwordHash then .wrong user
    else if ¬ user.isActive ∨ ¬ user.isVerified then .refused
    else if ¬ user.mfaEnabled then .granted user none
    else match totpCode, user.mfaSecretEncrypted with
      | some code, some encrypted =>
        if lib.verifyTotp (lib.decryptText encrypted) code now then .granted user none
        else match consumeRecoveryCode lib code user.recoveryCodeHashes with
          | none => .refused
          | some remaining => .granted user (some (lib.hashToken (lib.upper code), remaining))
      | _, _ => .refused

/-- The part of `_consume_ticket` on the owner of the ticket. -/
def ticketOwner (now : Time) (d : AuthDatabase) (t : MarketWsTicket) : Bool :=
  (d.user? t.userId).any User.isActive &&
    match t.sessionId, t.apiKeyId with
    | some sessionId, _ =>
      (d.session? sessionId).any fun session => session.revokedAt = none ∧ now < session.expiresAt
    | none, some apiKeyId =>
      (d.apiKeys.find? (·.id = apiKeyId)).any fun key =>
        key.status = .active ∧ "market:read" ∈ key.scopes
    | none, none => false

/-! ## Steps -/

/-- A request with a credential. -/
inductive Redeem
  | verifyEmail (token : String)
  | reset (token password : String)
  | login (email password : String) (totpCode : Option String)
  | callback (call : CallbackCall) (cookie : Option String)
  | stream (ticket : String)
  deriving DecidableEq, Repr

/-- How far a request is. -/
inductive RedeemPhase
  | idle
  /-- The token passed; a reset has the new password. -/
  | tokenChecked (t : OneTimeToken) (password : Option String)
  | loginWrong (user : User)
  | loginChecked (user : User) (consumed : Option (String × List String))
  | stateChecked (call : CallbackCall) (saved : OAuthState) (usedAt : Time)
  /-- The broker is asked to exchange the code. -/
  | exchanging (call : CallbackCall) (saved : OAuthState) (usedAt : Time)
  /-- It was asked, and the request ended by an exception. -/
  | exchangeLost (credential : Credential)
  /-- The row of the ticket is locked, and passed. -/
  | ticketHeld (t : MarketWsTicket)
  /-- It is locked until the connection is closed. -/
  | ticketRefused (t : MarketWsTicket)
  /-- Verified, changed, exchanged, let in or streaming, and committed. -/
  | performed (credential : Option Credential)
  | ended
  deriving DecidableEq, Repr

inductive RedeemAction
  /-- The query for the credential, and the check. -/
  | read (request : Redeem) (now : Time)
  | exchange
  /-- `exchange` and `test` end. -/
  | answered (outcome : AdapterOutcome)
  /-- The updates are sent and committed. -/
  | commit (now : Time)
  /-- An exception ends the request, or its connection is closed. -/
  | abort
  deriving DecidableEq, Repr

structure RedeemEvent where
  request : ℕ
  action : RedeemAction
  deriving DecidableEq, Repr

/-- The committed tables, the rows of tickets that are locked, and the requests. -/
structure RedeemRun where
  auth : AuthDatabase := {}
  broker : BrokerDatabase := {}
  tickets : List MarketWsTicket := []
  locks : Uuid → Option ℕ := fun _ => none
  requests : ℕ → RedeemPhase := fun _ => .idle

namespace RedeemRun

def become (s : RedeemRun) (r : ℕ) (phase : RedeemPhase) : RedeemRun :=
  { s with requests := Function.update s.requests r phase }

def setLock (s : RedeemRun) (id : Uuid) (holder : Option ℕ) : RedeemRun :=
  { s with locks := Function.update s.locks id holder }

/-- `ticket.used_at = utcnow()`. -/
def useTicket (s : RedeemRun) (now : Time) (t : MarketWsTicket) : RedeemRun :=
  let f := fun row : MarketWsTicket => { row with usedAt := some now }
  { s with tickets := updateById MarketWsTicket.id t.id f s.tickets }

end RedeemRun

/-- `UPDATE users` by primary key. -/
def AuthDatabase.rewriteUser (d : AuthDatabase) (id : Uuid) (f : User → User) : AuthDatabase :=
  { d with users := updateById User.id id f d.users }

/-- `UPDATE one_time_tokens` by primary key. -/
def AuthDatabase.rewriteToken (d : AuthDatabase) (id : Uuid) (f : OneTimeToken → OneTimeToken) :
    AuthDatabase :=
  { d with oneTimeTokens := updateById OneTimeToken.id id f d.oneTimeTokens }

/-- The updates of `verify_email` and of `reset`. -/
def useToken (lib : AuthLibraries) (now : Time) (d : AuthDatabase) (t : OneTimeToken)
    (password : Option String) : AuthDatabase :=
  let d := d.rewriteToken t.id fun row => { row with usedAt := some now }
  match password with
  | none => d.rewriteUser t.userId fun row => { row with isVerified := true }
  | some password =>
    (d.rewriteUser t.userId fun row => { row with
      passwordHash := lib.hashPassword password }).revokeWhere (·.userId = t.userId) now

/-- The updates of a wrong password: the columns that changed. -/
def countWrong (now : Time) (d : AuthDatabase) (user : User) : AuthDatabase :=
  let failed := user.loginFailed now
  d.rewriteUser user.id fun row => { row with
    failedLoginCount := failed.failedLoginCount
    lockedUntil :=
      if failed.lockedUntil = user.lockedUntil then row.lockedUntil else failed.lockedUntil }

/-- The updates of a login: the columns that changed, and the new session. -/
def letIn (lib : AuthLibraries) (settings : AuthSettings) (now : Time) (d : AuthDatabase)
    (user : User) (consumed : Option (String × List String)) : AuthDatabase :=
  let d := d.rewriteUser user.id fun row => { row with
    recoveryCodeHashes := (consumed.map Prod.snd).getD row.recoveryCodeHashes
    failedLoginCount := if user.failedLoginCount = 0 then row.failedLoginCount else 0
    lockedUntil := if user.lockedUntil = none then row.lockedUntil else none }
  (issue lib settings now d user).1

/-- One step of one request; a step it is not at, or that waits for a row, changes
nothing. -/
def redeemStep (lib : BrokerLibraries) (settings : AuthSettings) (s : RedeemRun)
    (e : RedeemEvent) : RedeemRun :=
  let r := e.request
  match e.action, s.requests r with
  | .read (.verifyEmail token) now, .idle =>
    match checkToken lib.toAuthLibraries now s.auth token .verifyEmail with
    | none => s.become r .ended
    | some t => s.become r (.tokenChecked t none)
  | .read (.reset token password) now, .idle =>
    if ¬ validPassword lib.toAuthLibraries password then s.become r .ended
    else match checkToken lib.toAuthLibraries now s.auth token .resetPassword with
      | none => s.become r .ended
      | some t => s.become r (.tokenChecked t (some password))
  | .read (.login email password totpCode) now, .idle =>
    match checkLogin lib.toAuthLibraries now s.auth email password totpCode with
    | .refused => s.become r .ended
    | .wrong user => s.become r (.loginWrong user)
    | .granted user consumed => s.become r (.loginChecked user consumed)
  | .read (.callback call cookie) now, .idle =>
    match checkCallback lib now s.broker call cookie with
    | .error _ => s.become r .ended
    | .ok saved => s.become r (.stateChecked call saved now)
  | .read (.stream ticket) now, .idle =>
    match s.tickets.find? (·.tokenHash = lib.hashToken ticket) with
    | none => s.become r .ended
    | some t =>
      if s.locks t.id ≠ none then s
      else if t.usedAt ≠ none ∨ t.expiresAt ≤ now then
        (s.setLock t.id (some r)).become r (.ticketRefused t)
      else (s.setLock t.id (some r)).become r (.ticketHeld t)
  | .exchange, .stateChecked call saved usedAt => s.become r (.exchanging call saved usedAt)
  | .answered (.credentials c), .exchanging call saved usedAt =>
    { s with broker := storeConnection lib (markUsed s.broker saved usedAt) saved call.broker c
      }.become r (.performed (some saved.credential))
  | .answered (.brokerError _), .exchanging _ saved usedAt =>
    { s with broker := markUsed s.broker saved usedAt }.become r
      (.performed (some saved.credential))
  | .answered .exception, .exchanging _ saved _ => s.become r (.exchangeLost saved.credential)
  | .commit now, .tokenChecked t password =>
    if s.auth.user? t.userId = none then s.become r .ended
    else { s with auth := useToken lib.toAuthLibraries now s.auth t password }.become r
      (.performed (some t.credential))
  | .commit now, .loginWrong user => { s with auth := countWrong now s.auth user }.become r .ended
  | .commit now, .loginChecked user consumed =>
    { s with auth := letIn lib.toAuthLibraries settings now s.auth user consumed }.become r
      (.performed (consumed.map fun c : String × List String => .recoveryCode user.email c.1))
  | .commit now, .ticketHeld t =>
    if ticketOwner now s.auth t then
      ((s.useTicket now t).setLock t.id none).become r (.performed (some t.credential))
    else s.become r (.ticketRefused t)
  | .abort, .tokenChecked _ _ => s.become r .ended
  | .abort, .loginWrong _ => s.become r .ended
  | .abort, .loginChecked _ _ => s.become r .ended
  | .abort, .stateChecked _ _ _ => s.become r .ended
  | .abort, .exchanging _ saved _ => s.become r (.exchangeLost saved.credential)
  | .abort, .ticketHeld t => (s.setLock t.id none).become r .ended
  | .abort, .ticketRefused t => (s.setLock t.id none).become r .ended
  | _, _ => s

/-! ## What is asked -/

/-- The credential a request has had its effect with, and whether it is marked. -/
def RedeemPhase.use : RedeemPhase → Option (Credential × Bool)
  | .exchanging _ saved _ => some (saved.credential, false)
  | .exchangeLost credential => some (credential, false)
  | .performed (some credential) => some (credential, true)
  | _ => none

/-- Of the requests with one credential at most one has had its effect. -/
def RedeemRun.EffectOnce (s : RedeemRun) : Prop :=
  ∀ r r' credential marked marked', (s.requests r).use = some (credential, marked) →
    (s.requests r').use = some (credential, marked') → r = r'

/-- Nothing has come between the check of a request and its effect: a token is
still unused, the recovery codes are those that were read, a state is unused and
with no other exchange, and no exception ends a request in its exchange. -/
structure Uninterrupted (s : RedeemRun) (e : RedeemEvent) : Prop where
  token : ∀ now t password, e.action = .commit now →
    s.requests e.request = .tokenChecked t password →
    ∀ row ∈ s.auth.oneTimeTokens, row.id = t.id → row.usedAt = none
  codes : ∀ now user digest remaining, e.action = .commit now →
    s.requests e.request = .loginChecked user (some (digest, remaining)) →
    ∀ row ∈ s.auth.users, row.id = user.id → row.recoveryCodeHashes = user.recoveryCodeHashes
  exchange : ∀ call saved usedAt, e.action = .exchange →
    s.requests e.request = .stateChecked call saved usedAt →
    (∀ row ∈ s.broker.states, row.id = saved.id → row.usedAt = none) ∧
    ∀ r call' saved' usedAt', s.requests r = .exchanging call' saved' usedAt' →
      saved'.id ≠ saved.id
  answer : e.action = .abort ∨ e.action = .answered .exception → ∀ call saved usedAt,
    s.requests e.request ≠ .exchanging call saved usedAt

/-! ## What a step can do -/

/-- A ticket whose row the request has locked. -/
def RedeemPhase.locked : RedeemPhase → Option MarketWsTicket
  | .ticketHeld t => some t
  | .ticketRefused t => some t
  | _ => none

/-- A request that has passed no check and holds nothing. -/
def RedeemPhase.empty : RedeemPhase → Bool
  | .idle => true
  | .loginWrong _ => true
  | .performed none => true
  | .ended => true
  | _ => false

/-- What a step of the request `e.request` does. -/
inductive RedeemMove (lib : BrokerLibraries) (settings : AuthSettings) (s : RedeemRun)
    (e : RedeemEvent) : RedeemRun → Prop
  | stay : RedeemMove lib settings s e s
  | drop (phase : RedeemPhase) (hempty : phase.empty) (huse : (s.requests e.request).use = none)
      (hlocked : (s.requests e.request).locked = none) :
      RedeemMove lib settings s e (s.become e.request phase)
  | checkToken (t : OneTimeToken) (password : Option String) (hidle : s.requests e.request = .idle)
      (hrow : t ∈ s.auth.oneTimeTokens) :
      RedeemMove lib settings s e (s.become e.request (.tokenChecked t password))
  | checkLogin (user : User) (consumed : Option (String × List String))
      (hidle : s.requests e.request = .idle) (hrow : user ∈ s.auth.users)
      (hconsumed : ∀ digest remaining, consumed = some (digest, remaining) →
        digest ∈ user.recoveryCodeHashes ∧
          remaining = user.recoveryCodeHashes.filter (· ≠ digest)) :
      RedeemMove lib settings s e (s.become e.request (.loginChecked user consumed))
  | checkState (call : CallbackCall) (saved : OAuthState) (usedAt : Time)
      (hidle : s.requests e.request = .idle) (hrow : saved ∈ s.broker.states) :
      RedeemMove lib settings s e (s.become e.request (.stateChecked call saved usedAt))
  | lockTicket (t : MarketWsTicket) (phase : RedeemPhase) (hidle : s.requests e.request = .idle)
      (hrow : t ∈ s.tickets) (hfree : s.locks t.id = none)
      (hphase : phase = .ticketRefused t ∨ phase = .ticketHeld t ∧ t.usedAt = none) :
      RedeemMove lib settings s e ((s.setLock t.id (some e.request)).become e.request phase)
  | exchange (call : CallbackCall) (saved : OAuthState) (usedAt : Time)
      (haction : e.action = .exchange)
      (hchecked : s.requests e.request = .stateChecked call saved usedAt) :
      RedeemMove lib settings s e (s.become e.request (.exchanging call saved usedAt))
  | answer (call : CallbackCall) (saved : OAuthState) (usedAt : Time) (d : BrokerDatabase)
      (hexchanging : s.requests e.request = .exchanging call saved usedAt)
      (hstates : d.states = (markUsed s.broker saved usedAt).states) :
      RedeemMove lib settings s e ({ s with broker := d }.become e.request
        (.performed (some saved.credential)))
  | lose (call : CallbackCall) (saved : OAuthState) (usedAt : Time)
      (haction : e.action = .abort ∨ e.action = .answered .exception)
      (hexchanging : s.requests e.request = .exchanging call saved usedAt) :
      RedeemMove lib settings s e (s.become e.request (.exchangeLost saved.credential))
  | useToken (now : Time) (t : OneTimeToken) (password : Option String)
      (haction : e.action = .commit now)
      (hchecked : s.requests e.request = .tokenChecked t password) :
      RedeemMove lib settings s e ({ s with
        auth := GnkAlgo.useToken lib.toAuthLibraries now s.auth t password }.become e.request
        (.performed (some t.credential)))
  | countWrong (now : Time) (user : User) (hwrong : s.requests e.request = .loginWrong user) :
      RedeemMove lib settings s e ({ s with
        auth := GnkAlgo.countWrong now s.auth user }.become e.request .ended)
  | letIn (now : Time) (user : User) (consumed : Option (String × List String))
      (haction : e.action = .commit now)
      (hchecked : s.requests e.request = .loginChecked user consumed) :
      RedeemMove lib settings s e ({ s with
        auth := GnkAlgo.letIn lib.toAuthLibraries settings now s.auth user consumed }.become
        e.request (.performed (consumed.map fun c : String × List String =>
          .recoveryCode user.email c.1)))
  | useTicket (now : Time) (t : MarketWsTicket) (hheld : s.requests e.request = .ticketHeld t) :
      RedeemMove lib settings s e (((s.useTicket now t).setLock t.id none).become e.request
        (.performed (some t.credential)))
  | refuseTicket (t : MarketWsTicket) (hheld : s.requests e.request = .ticketHeld t) :
      RedeemMove lib settings s e (s.become e.request (.ticketRefused t))
  | unlock (t : MarketWsTicket) (hlocked : (s.requests e.request).locked = some t) :
      RedeemMove lib settings s e ((s.setLock t.id none).become e.request .ended)

section Moves

variable {lib : BrokerLibraries} {settings : AuthSettings} {s : RedeemRun} {e : RedeemEvent}

theorem mem_of_checkToken {lib : AuthLibraries} {now : Time} {d : AuthDatabase} {token : String}
    {purpose : TokenPurpose} {t : OneTimeToken} (h : checkToken lib now d token purpose = some t) :
    t ∈ d.oneTimeTokens := by
  unfold checkToken at h
  split at h
  · cases h
  · rename_i found hfound
    split at h
    · cases h
    · obtain rfl := Option.some_inj.1 h
      exact List.mem_of_find?_eq_some hfound

theorem checkLogin_granted {lib : AuthLibraries} {now : Time} {d : AuthDatabase}
    {email password : String} {totpCode : Option String} {user : User}
    {consumed : Option (String × List String)}
    (h : checkLogin lib now d email password totpCode = .granted user consumed) :
    user ∈ d.users ∧ ∀ digest remaining, consumed = some (digest, remaining) →
      digest ∈ user.recoveryCodeHashes ∧
        remaining = user.recoveryCodeHashes.filter (· ≠ digest) := by
  unfold checkLogin at h
  split at h
  · cases h
  rename_i found hfound
  have hmem := List.mem_of_find?_eq_some hfound
  split at h
  · cases h
  split at h
  · cases h
  split at h
  · cases h
  split at h
  · cases h
    exact ⟨hmem, fun _ _ heq => nomatch heq⟩
  split at h
  · rename_i code encrypted _ _
    split at h
    · cases h
      exact ⟨hmem, fun _ _ heq => nomatch heq⟩
    split at h
    · cases h
    · rename_i remaining hconsume
      cases h
      refine ⟨hmem, ?_⟩
      rintro _ _ ⟨⟩
      unfold consumeRecoveryCode at hconsume
      dsimp only at hconsume
      split at hconsume
      · cases hconsume
      · rename_i hknown
        exact ⟨not_not.1 hknown, (Option.some_inj.1 hconsume).symm⟩
  · cases h

theorem redeemStep_move (lib : BrokerLibraries) (settings : AuthSettings) (s : RedeemRun)
    (e : RedeemEvent) : RedeemMove lib settings s e (redeemStep lib settings s e) := by
  obtain ⟨r, action⟩ := e
  unfold redeemStep
  dsimp only
  split
  · rename_i token now hidle
    split
    · exact .drop _ rfl (by rw [hidle]; rfl) (by rw [hidle]; rfl)
    · rename_i t ht
      exact .checkToken t none hidle (mem_of_checkToken ht)
  · rename_i token password now hidle
    split
    · exact .drop _ rfl (by rw [hidle]; rfl) (by rw [hidle]; rfl)
    split
    · exact .drop _ rfl (by rw [hidle]; rfl) (by rw [hidle]; rfl)
    · rename_i t ht
      exact .checkToken t _ hidle (mem_of_checkToken ht)
  · rename_i email password totpCode now hidle
    split
    · exact .drop _ rfl (by rw [hidle]; rfl) (by rw [hidle]; rfl)
    · exact .drop _ rfl (by rw [hidle]; rfl) (by rw [hidle]; rfl)
    · rename_i user consumed hgranted
      obtain ⟨hrow, hconsumed⟩ := checkLogin_granted hgranted
      exact .checkLogin user consumed hidle hrow hconsumed
  · rename_i call cookie now hidle
    split
    · exact .drop _ rfl (by rw [hidle]; rfl) (by rw [hidle]; rfl)
    · rename_i saved hsaved
      obtain ⟨raw, -, hrow, -⟩ := checkCallback_ok hsaved
      exact .checkState call saved now hidle hrow
  · rename_i ticket now hidle
    split
    · exact .drop _ rfl (by rw [hidle]; rfl) (by rw [hidle]; rfl)
    rename_i t ht
    have hrow := List.mem_of_find?_eq_some ht
    split
    · exact .stay
    rename_i hfree
    rw [ne_eq, not_not] at hfree
    split
    · exact .lockTicket t _ hidle hrow hfree (Or.inl rfl)
    · rename_i hopen
      rw [not_or, ne_eq, not_not] at hopen
      exact .lockTicket t _ hidle hrow hfree (Or.inr ⟨rfl, hopen.1⟩)
  · rename_i call saved usedAt hchecked
    exact .exchange call saved usedAt rfl hchecked
  · rename_i c call saved usedAt hexchanging
    exact .answer call saved usedAt _ hexchanging (storeConnection_states ..).1
  · rename_i code call saved usedAt hexchanging
    exact .answer call saved usedAt _ hexchanging rfl
  · rename_i call saved usedAt hexchanging
    exact .lose call saved usedAt (Or.inr rfl) hexchanging
  · rename_i now t password hchecked
    split
    · exact .drop _ rfl (by rw [hchecked]; rfl) (by rw [hchecked]; rfl)
    · exact .useToken now t password rfl hchecked
  · rename_i now user hwrong
    exact .countWrong now user hwrong
  · rename_i now user consumed hchecked
    exact .letIn now user consumed rfl hchecked
  · rename_i now t hheld
    split
    · exact .useTicket now t hheld
    · exact .refuseTicket t hheld
  · rename_i hchecked
    exact .drop _ rfl (by rw [hchecked]; rfl) (by rw [hchecked]; rfl)
  · rename_i hwrong
    exact .drop _ rfl (by rw [hwrong]; rfl) (by rw [hwrong]; rfl)
  · rename_i hchecked
    exact .drop _ rfl (by rw [hchecked]; rfl) (by rw [hchecked]; rfl)
  · rename_i hchecked
    exact .drop _ rfl (by rw [hchecked]; rfl) (by rw [hchecked]; rfl)
  · rename_i call saved usedAt hexchanging
    exact .lose call saved usedAt (Or.inl rfl) hexchanging
  · rename_i t hheld
    exact .unlock t (by rw [hheld]; rfl)
  · rename_i t hrefused
    exact .unlock t (by rw [hrefused]; rfl)
  · exact .stay

end Moves

/-! ### A request on its own -/

section Alone

variable {lib : BrokerLibraries} {settings : AuthSettings} {s : RedeemRun} {r : ℕ} {now : Time}

theorem rewriteUser_eq_setUser {d : AuthDatabase} (hids : (d.users.map User.id).Nodup) {user : User}
    (hrow : user ∈ d.users) {id : Uuid} (hid : user.id = id) (f : User → User)
    (hf : (f user).id = user.id) : d.rewriteUser id f = d.setUser (f user) := by
  subst hid
  unfold AuthDatabase.rewriteUser AuthDatabase.setUser
  rw [updateById_eq_replaceBy hids hrow hf]

theorem rewriteToken_eq_setOneTimeToken {d : AuthDatabase}
    (hids : (d.oneTimeTokens.map OneTimeToken.id).Nodup) {t : OneTimeToken}
    (hrow : t ∈ d.oneTimeTokens) {f : OneTimeToken → OneTimeToken} (hf : (f t).id = t.id) :
    d.rewriteToken t.id f = d.setOneTimeToken (f t) := by
  unfold AuthDatabase.rewriteToken AuthDatabase.setOneTimeToken
  rw [updateById_eq_replaceBy hids hrow hf]

theorem resetPassword_eq {lib : AuthLibraries} {d : AuthDatabase} {token password : String}
    (hvalid : validPassword lib password) : (resetPassword lib now d token password).1 =
      match checkToken lib now d token .resetPassword with
      | none => d
      | some t => match d.user? t.userId with
        | none => d
        | some user =>
          ((d.setUser { user with passwordHash := lib.hashPassword password }).setOneTimeToken
            { t with usedAt := some now }).revokeWhere (·.userId = user.id) now := by
  unfold resetPassword checkToken
  rw [if_neg (not_not.2 hvalid)]
  cases d.oneTimeTokens.find? fun t =>
      t.tokenHash = lib.hashToken token ∧ t.purpose = .resetPassword with
  | none => rfl
  | some t =>
    dsimp only
    by_cases hclosed : t.usedAt ≠ none ∨ t.expiresAt ≤ now
    · rw [if_pos hclosed, if_pos hclosed]
    · rw [if_neg hclosed, if_neg hclosed]
      dsimp only
      cases d.user? t.userId <;> rfl

/-- **No interleaving**: a reset whose steps follow one another is `resetPassword`. -/
theorem redeemStep_reset (hidle : s.requests r = .idle)
    (husers : (s.auth.users.map User.id).Nodup)
    (htokens : (s.auth.oneTimeTokens.map OneTimeToken.id).Nodup) (token password : String) :
    ([⟨r, .read (.reset token password) now⟩, ⟨r, .commit now⟩].foldl
      (redeemStep lib settings) s).auth =
        (resetPassword lib.toAuthLibraries now s.auth token password).1 := by
  simp only [List.foldl_cons, List.foldl_nil]
  by_cases hvalid : validPassword lib.toAuthLibraries password = true
  · rw [resetPassword_eq hvalid]
    cases hcheck : checkToken lib.toAuthLibraries now s.auth token .resetPassword with
    | none => simp [redeemStep, RedeemRun.become, hidle, hvalid, hcheck]
    | some t =>
      dsimp only
      cases huser : s.auth.user? t.userId with
      | none => simp [redeemStep, RedeemRun.become, hidle, hvalid, hcheck, huser]
      | some user =>
        have hmem : user ∈ s.auth.users := List.mem_of_find?_eq_some huser
        have hid : user.id = t.userId := by simpa using List.find?_some huser
        have hstep : (redeemStep lib settings (redeemStep lib settings s
            ⟨r, .read (.reset token password) now⟩) ⟨r, .commit now⟩).auth =
              useToken lib.toAuthLibraries now s.auth t (some password) := by
          simp [redeemStep, RedeemRun.become, hidle, hvalid, hcheck, huser]
        rw [hstep, useToken]
        dsimp only
        rw [rewriteToken_eq_setOneTimeToken htokens (mem_of_checkToken hcheck) rfl,
          rewriteUser_eq_setUser (d := s.auth.setOneTimeToken _) husers hmem hid _ rfl, hid]
        rfl
  · simp [redeemStep, RedeemRun.become, hidle, hvalid, resetPassword]

/-- The row of a user who is let in. -/
def User.letIn (user : User) (consumed : Option (String × List String)) : User :=
  { user with
    recoveryCodeHashes := (consumed.map Prod.snd).getD user.recoveryCodeHashes
    failedLoginCount := 0
    lockedUntil := none }

theorem login_eq (lib : AuthLibraries) (settings : AuthSettings) (now : Time) (d : AuthDatabase)
    (email password : String) (totpCode : Option String) :
    (login lib settings now d email password totpCode).1 =
      match checkLogin lib now d email password totpCode with
      | .refused => d
      | .wrong user => d.setUser (user.loginFailed now)
      | .granted user consumed =>
        (issue lib settings now (d.setUser (user.letIn consumed)) (user.letIn consumed)).1 := by
  unfold login checkLogin secondFactor
  cases d.users.find? (·.email = email) with
  | none => rfl
  | some user =>
    dsimp only
    split
    · rfl
    split
    · rfl
    by_cases hclosed : ¬ user.isActive ∨ ¬ user.isVerified
    · rw [if_pos hclosed]
      rcases hclosed with hinactive | hunverified
      · rw [if_pos hinactive]
      · rw [if_pos hunverified]
        split <;> rfl
    rw [if_neg hclosed]
    rw [not_or] at hclosed
    rw [if_neg hclosed.1, if_neg hclosed.2]
    by_cases hmfa : ¬ user.mfaEnabled
    · rw [if_pos hmfa, if_pos hmfa]
      rfl
    rw [if_neg hmfa, if_neg hmfa]
    cases totpCode with
    | none => rfl
    | some code =>
      cases hsecret : user.mfaSecretEncrypted with
      | none => rfl
      | some encrypted =>
        by_cases htotp : lib.verifyTotp (lib.decryptText encrypted) code now
        · simp [htotp, hsecret, User.letIn]
        · cases hcodes : consumeRecoveryCode lib code user.recoveryCodeHashes <;>
            simp [htotp, hcodes, hsecret, User.letIn]

theorem checkLogin_wrong {lib : AuthLibraries} {d : AuthDatabase} {email password : String}
    {totpCode : Option String} {user : User}
    (h : checkLogin lib now d email password totpCode = .wrong user) : user ∈ d.users := by
  unfold checkLogin at h
  split at h
  · cases h
  rename_i found hfound
  split at h
  · cases h
  split at h
  · cases h
    exact List.mem_of_find?_eq_some hfound
  split at h
  · cases h
  split at h
  · cases h
  split at h
  · split at h
    · cases h
    split at h
    · cases h
    · cases h
  · cases h

/-- **No interleaving**: so is a login. -/
theorem redeemStep_login (hidle : s.requests r = .idle)
    (husers : (s.auth.users.map User.id).Nodup) (email password : String)
    (totpCode : Option String) :
    ([⟨r, .read (.login email password totpCode) now⟩, ⟨r, .commit now⟩].foldl
      (redeemStep lib settings) s).auth =
        (login lib.toAuthLibraries settings now s.auth email password totpCode).1 := by
  simp only [List.foldl_cons, List.foldl_nil]
  rw [login_eq]
  cases hcheck : checkLogin lib.toAuthLibraries now s.auth email password totpCode with
  | refused => simp [redeemStep, RedeemRun.become, hidle, hcheck]
  | wrong user =>
    have hstep : (redeemStep lib settings (redeemStep lib settings s
        ⟨r, .read (.login email password totpCode) now⟩) ⟨r, .commit now⟩).auth =
          countWrong now s.auth user := by
      simp [redeemStep, RedeemRun.become, hidle, hcheck]
    rw [hstep, countWrong]
    dsimp only
    rw [rewriteUser_eq_setUser husers (checkLogin_wrong hcheck) rfl _ rfl]
    congr 1
    unfold User.loginFailed
    split <;> split <;> simp_all
  | granted user consumed =>
    have hstep : (redeemStep lib settings (redeemStep lib settings s
        ⟨r, .read (.login email password totpCode) now⟩) ⟨r, .commit now⟩).auth =
          letIn lib.toAuthLibraries settings now s.auth user consumed := by
      simp [redeemStep, RedeemRun.become, hidle, hcheck]
    rw [hstep, GnkAlgo.letIn]
    dsimp only
    have hcount : (if user.failedLoginCount = 0 then user.failedLoginCount else 0) = 0 := by
      split <;> simp_all
    have hunlocked : (if user.lockedUntil = none then user.lockedUntil else none) = none := by
      split <;> simp_all
    rw [rewriteUser_eq_setUser husers (checkLogin_granted hcheck).1 rfl _ rfl, hcount, hunlocked]
    rfl

end Alone

end GnkAlgo
