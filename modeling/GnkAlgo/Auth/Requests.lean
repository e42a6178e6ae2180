import GnkAlgo.Lib.Rows
import GnkAlgo.Models

/-!
# Authentication requests

The rows behind authentication and the handlers of `backend/app/routers/auth.py`,
`sessions.py` and `users.py` that issue, check or revoke a session, with
`get_principal` of `backend/app/dependencies.py` and what they use of
`backend/app/security.py`.

A handler is given the moment it runs at and the content of the tables; it
returns the committed content and its response or `HTTPException`.  A refresh
token `f"{session_id}.{secret}"` is the pair of its parts, and a bearer token the
claims it carries; one that does not parse, or whose signature is wrong, is
`none`.  The audit log, which no handler reads, is left out.
-/

namespace GnkAlgo

/-! ## Libraries -/

/-- What `security.py` takes from hashing, random and password libraries. -/
structure AuthLibraries where
  /-- `hash_token`: a SHA-256 digest. -/
  hashToken : String → String
  /-- The values `secrets.token_urlsafe` returns, in the order they are drawn. -/
  secretAt : ℕ → String
  hashPassword : String → String
  verifyPassword : String → String → Bool
  verifyTotp : String → String → Time → Bool
  decryptText : String → String
  /-- The keyed digest an API secret is stored as. -/
  apiDigest : String → String
  /-- `str.upper`. -/
  upper : String → String
  /-- `\d` of a regular expression. -/
  isDigit : Char → Bool

/-- The times of `backend/app/config.py`. -/
structure AuthSettings where
  accessTokenMinutes : ℤ := 15
  refreshTokenDays : ℤ := 30
  resetTokenMinutes : ℤ := 30

/-! ## Rows -/

inductive Role
  | admin
  | retail
  deriving DecidableEq, Repr

inductive ApiKeyStatus
  | active
  | revoked
  | expired
  deriving DecidableEq, Repr

/-- The `purpose` column of a one-time token. -/
inductive TokenPurpose
  | verifyEmail
  | resetPassword
  deriving DecidableEq, Repr

structure User where
  id : Uuid
  email : String
  passwordHash : String
  role : Role := .retail
  isVerified : Bool := false
  isActive : Bool := true
  mfaEnabled : Bool := false
  mfaSecretEncrypted : Option String := none
  recoveryCodeHashes : List String := []
  failedLoginCount : ℕ := 0
  lockedUntil : Option Time := none
  deriving DecidableEq, Repr

structure UserSession where
  id : Uuid
  userId : Uuid
  refreshTokenHash : String
  expiresAt : Time
  lastSeenAt : Time
  revokedAt : Option Time := none
  deriving DecidableEq, Repr

structure OneTimeToken where
  id : Uuid
  userId : Uuid
  purpose : TokenPurpose
  tokenHash : String
  expiresAt : Time
  usedAt : Option Time := none
  deriving DecidableEq, Repr

structure ApiKey where
  id : Uuid
  userId : Uuid
  publicId : String
  secretHash : String
  scopes : List String := []
  status : ApiKeyStatus := .active
  expiresAt : Option Time := none
  lastUsedAt : Option Time := none
  rotatedFromId : Option Uuid := none
  deriving DecidableEq, Repr

/-- The tables, the next `uuid4` and the number of secrets drawn. -/
structure AuthDatabase where
  users : List User := []
  sessions : List UserSession := []
  oneTimeTokens : List OneTimeToken := []
  apiKeys : List ApiKey := []
  nextUuid : Uuid := 0
  drawn : ℕ := 0
  deriving DecidableEq, Repr

namespace AuthDatabase

/-- `db.get(User, id)`. -/
def user? (d : AuthDatabase) (id : Uuid) : Option User := d.users.find? (·.id = id)

/-- `db.get(UserSession, id)`. -/
def session? (d : AuthDatabase) (id : Uuid) : Option UserSession := d.sessions.find? (·.id = id)

def setUser (d : AuthDatabase) (u : User) : AuthDatabase :=
  { d with users := Rows.replaceBy User.id u d.users }

def setSession (d : AuthDatabase) (s : UserSession) : AuthDatabase :=
  { d with sessions := Rows.replaceBy UserSession.id s d.sessions }

def setApiKey (d : AuthDatabase) (k : ApiKey) : AuthDatabase :=
  { d with apiKeys := Rows.replaceBy ApiKey.id k d.apiKeys }

def setOneTimeToken (d : AuthDatabase) (t : OneTimeToken) : AuthDatabase :=
  { d with oneTimeTokens := Rows.replaceBy OneTimeToken.id t d.oneTimeTokens }

/-- `update(UserSession).where(…, revoked_at.is_(None)).values(revoked_at=utcnow())`. -/
def revokeWhere (d : AuthDatabase) (p : UserSession → Bool) (now : Time) : AuthDatabase :=
  let sessions := d.sessions.map fun s =>
    if p s ∧ s.revokedAt = none then { s with revokedAt := some now } else s
  { d with sessions := sessions }

end AuthDatabase

/-! ## Errors and tokens -/

structure HttpError where
  statusCode : ℕ
  detail : String
  deriving DecidableEq, Repr

/-- `HTTPException(status_code=401, detail="Invalid credentials")`. -/
def invalidCredentials : HttpError := ⟨401, "Invalid credentials"⟩

/-- The claims of an access token; `iat` and `exp` are whole seconds. -/
structure AccessToken where
  sub : Uuid
  sid : Uuid
  role : Role
  issuedAt : Time
  expiresAt : Time
  deriving DecidableEq, Repr

/-- A refresh token: the session and the secret. -/
structure RefreshToken where
  sessionId : Uuid
  secret : String
  deriving DecidableEq, Repr

structure TokenPair where
  accessToken : AccessToken
  refreshToken : RefreshToken
  expiresIn : ℤ
  deriving DecidableEq, Repr

def minutes (n : ℤ) : Time := n * 60 * 1000000

def days (n : ℤ) : Time := n * 24 * 60 * 60 * 1000000

/-- A moment cut to whole seconds. -/
def wholeSeconds (t : Time) : Time := t - t % 1000000

/-- `create_access_token`. -/
def createAccessToken (settings : AuthSettings) (now : Time) (userId sessionId : Uuid)
    (role : Role) : AccessToken where
  sub := userId
  sid := sessionId
  role := role
  issuedAt := wholeSeconds now
  expiresAt := wholeSeconds (now + minutes settings.accessTokenMinutes)

/-- `decode_access_token` on a token with a good signature. -/
def decodeAccessToken (now : Time) (token : AccessToken) : Option AccessToken :=
  if token.expiresAt ≤ now ∨ now < token.issuedAt then none else some token

/-- `validate_password`. -/
def validPassword (lib : AuthLibraries) (password : String) : Bool :=
  12 ≤ password.length ∧ password.toList.any Char.isUpper ∧ password.toList.any Char.isLower ∧
  password.toList.any lib.isDigit ∧ password.toList.any (! Char.isAlphanum ·)

/-- `consume_recovery_code`. -/
def consumeRecoveryCode (lib : AuthLibraries) (code : String) (hashes : List String) :
    Option (List String) :=
  let digest := lib.hashToken (lib.upper code)
  if digest ∉ hashes then none else some (hashes.filter (· ≠ digest))

/-! ## Principals -/

/-- The `X-GnK-API-Key` header: `gnk_live_{public_id}.{secret}`. -/
inductive ApiHeader
  | absent
  | malformed
  | key (publicId secret : String)
  deriving DecidableEq, Repr

/-- What a request shows to be let in. -/
structure RequestCredentials where
  bearer : Option AccessToken := none
  apiKey : ApiHeader := .absent
  deriving DecidableEq, Repr

structure Principal where
  user : User
  sessionId : Option Uuid := none
  apiKeyId : Option Uuid := none
  deriving DecidableEq, Repr

/-- An active key whose time is over expires when it is used. -/
def ApiKey.expireIfDue (key : ApiKey) (now : Time) : ApiKey :=
  if key.expiresAt.any (· ≤ now) ∧ key.status = .active then { key with status := .expired } else key

/-- The branch of `get_principal` for an API key. -/
def apiKeyPrincipal (lib : AuthLibraries) (now : Time) (d : AuthDatabase) (scopes : List String)
    (publicId secret : String) : AuthDatabase × Except HttpError Principal :=
  match d.apiKeys.find? (·.publicId = publicId) with
  | none => (d, .error invalidCredentials)
  | some key =>
    let key := key.expireIfDue now
    let d := d.setApiKey key
    if key.status ≠ .active ∨ lib.apiDigest secret ≠ key.secretHash then
      (d, .error invalidCredentials)
    else if ∃ scope ∈ scopes, scope ∉ key.scopes then
      (d, .error ⟨403, "Insufficient API key scope"⟩)
    else match d.user? key.userId with
      | none => (d, .error invalidCredentials)
      | some user =>
        if ¬ user.isActive then (d, .error invalidCredentials)
        else (d.setApiKey { key with lastUsedAt := some now },
          .ok { user := user, apiKeyId := some key.id })

/-- The branch of `get_principal` for a bearer token. -/
def bearerPrincipal (now : Time) (d : AuthDatabase) (token : AccessToken) :
    AuthDatabase × Except HttpError Principal :=
  match decodeAccessToken now token with
  | none => (d, .error ⟨401, "Invalid or expired credentials"⟩)
  | some payload =>
    let refused : HttpError := ⟨401, "Session is expired or revoked"⟩
    match d.session? payload.sid, d.user? payload.sub with
    | some session, some user =>
      if session.userId ≠ payload.sub ∨ session.revokedAt ≠ none ∨ session.expiresAt ≤ now ∨
          ¬ user.isActive then (d, .error refused)
      else (d.setSession { session with lastSeenAt := now },
        .ok { user := user, sessionId := some session.id })
    | _, _ => (d, .error refused)

/-- `get_principal`. -/
def getPrincipal (lib : AuthLibraries) (now : Time) (d : AuthDatabase) (scopes : List String)
    (credentials : RequestCredentials) : AuthDatabase × Except HttpError Principal :=
  match credentials.apiKey with
  | .malformed => (d, .error invalidCredentials)
  | .key publicId secret => apiKeyPrincipal lib now d scopes publicId secret
  | .absent =>
    match credentials.bearer with
    | none => (d, .error ⟨401, "Authentication required"⟩)
    | some token => bearerPrincipal now d token

/-- `require_session`: the principal and the session it came with. -/
def requireSession (lib : AuthLibraries) (now : Time) (d : AuthDatabase)
    (credentials : RequestCredentials) : AuthDatabase × Except HttpError (User × Uuid) :=
  match getPrincipal lib now d [] credentials with
  | (d, .error e) => (d, .error e)
  | (d, .ok principal) =>
    match principal.sessionId with
    | none => (d, .error ⟨403, "An interactive session is required"⟩)
    | some sessionId => (d, .ok (principal.user, sessionId))

/-! ## Handlers -/

/-- `_issue`: a new session of the user, with its first tokens. -/
def issue (lib : AuthLibraries) (settings : AuthSettings) (now : Time) (d : AuthDatabase)
    (user : User) : AuthDatabase × TokenPair :=
  let secret := lib.secretAt d.drawn
  let session : UserSession := {
    id := d.nextUuid
    userId := user.id
    refreshTokenHash := lib.hashToken secret
    expiresAt := now + days settings.refreshTokenDays
    lastSeenAt := now }
  ({ d with
      sessions := d.sessions ++ [session]
      nextUuid := d.nextUuid + 1
      drawn := d.drawn + 1 },
    { accessToken := createAccessToken settings now user.id session.id user.role
      refreshToken := ⟨session.id, secret⟩
      expiresIn := settings.accessTokenMinutes * 60 })

/-- A wrong password: the count, and the lock after five of them. -/
def User.loginFailed (user : User) (now : Time) : User :=
  if 5 ≤ user.failedLoginCount + 1 then
    { user with lockedUntil := some (now + minutes 15), failedLoginCount := 0 }
  else { user with failedLoginCount := user.failedLoginCount + 1 }

/-- The second factor of `login`: the recovery codes that are left. -/
def secondFactor (lib : AuthLibraries) (now : Time) (user : User) (totpCode : Option String) :
    Except HttpError (List String) :=
  if ¬ user.mfaEnabled then .ok user.recoveryCodeHashes
  else match totpCode, user.mfaSecretEncrypted with
    | none, _ => .error ⟨401, "MFA_REQUIRED"⟩
    | some _, none => .error ⟨500, "Internal Server Error"⟩
    | some code, some encrypted =>
      if lib.verifyTotp (lib.decryptText encrypted) code now then .ok user.recoveryCodeHashes
      else match consumeRecoveryCode lib code user.recoveryCodeHashes with
        | none => .error invalidCredentials
        | some remaining => .ok remaining

/-- `login`; the address is given in lower case and stripped. -/
def login (lib : AuthLibraries) (settings : AuthSettings) (now : Time) (d : AuthDatabase)
    (email password : String) (totpCode : Option String) :
    AuthDatabase × Except HttpError TokenPair :=
  match d.users.find? (·.email = email) with
  | none => (d, .error invalidCredentials)
  | some user =>
    if user.lockedUntil.any (now < ·) then (d, .error ⟨423, "Account is temporarily locked"⟩)
    else if ¬ lib.verifyPassword password user.passwordHash then
      (d.setUser (user.loginFailed now), .error invalidCredentials)
    else if ¬ user.isActive then (d, .error ⟨403, "Account is unavailable"⟩)
    else if ¬ user.isVerified then (d, .error ⟨403, "Email verification required"⟩)
    else match secondFactor lib now user totpCode with
      | .error e => (d, .error e)
      | .ok remaining =>
        let user := { user with
          recoveryCodeHashes := remaining, failedLoginCount := 0, lockedUntil := none }
        let (d, tokens) := issue lib settings now (d.setUser user) user
        (d, .ok tokens)

/-- `refresh`. -/
def refresh (lib : AuthLibraries) (settings : AuthSettings) (now : Time) (d : AuthDatabase)
    (token : Option RefreshToken) : AuthDatabase × Except HttpError TokenPair :=
  match token with
  | none => (d, .error invalidCredentials)
  | some token =>
    match d.session? token.sessionId with
    | none => (d, .error invalidCredentials)
    | some session =>
      if session.revokedAt ≠ none ∨ session.expiresAt ≤ now ∨
          lib.hashToken token.secret ≠ session.refreshTokenHash then
        -- REFRESH_TOKEN_REUSE_DETECTED, also for a session that has only expired
        if session.revokedAt = none then
          (d.setSession { session with revokedAt := some now }, .error invalidCredentials)
        else (d, .error invalidCredentials)
      else match d.user? session.userId with
        | none => (d, .error invalidCredentials)
        | some user =>
          if ¬ user.isActive then (d, .error invalidCredentials)
          else
            let secret := lib.secretAt d.drawn
            let d' := d.setSession { session with
              refreshTokenHash := lib.hashToken secret, lastSeenAt := now }
            ({ d' with drawn := d.drawn + 1 },
              .ok { accessToken := createAccessToken settings now user.id session.id user.role
                    refreshToken := ⟨session.id, secret⟩
                    expiresIn := settings.accessTokenMinutes * 60 })

/-- `logout`. -/
def logout (lib : AuthLibraries) (now : Time) (d : AuthDatabase) (credentials : RequestCredentials) :
    AuthDatabase × Except HttpError Unit :=
  match requireSession lib now d credentials with
  | (d, .error e) => (d, .error e)
  | (d, .ok (_, sessionId)) =>
    match d.session? sessionId with
    | none => (d, .error ⟨500, "Internal Server Error"⟩)
    | some session => (d.setSession { session with revokedAt := some now }, .ok ())

/-- `logout_all`. -/
def logoutAll (lib : AuthLibraries) (now : Time) (d : AuthDatabase) (credentials : RequestCredentials) :
    AuthDatabase × Except HttpError Unit :=
  match requireSession lib now d credentials with
  | (d, .error e) => (d, .error e)
  | (d, .ok (user, _)) => (d.revokeWhere (·.userId = user.id) now, .ok ())

/-- `revoke` of the sessions router. -/
def revokeSession (lib : AuthLibraries) (now : Time) (d : AuthDatabase)
    (credentials : RequestCredentials) (sessionId : Uuid) : AuthDatabase × Except HttpError Unit :=
  match requireSession lib now d credentials with
  | (d, .error e) => (d, .error e)
  | (d, .ok (user, _)) =>
    match d.session? sessionId with
    | none => (d, .error ⟨404, "Session not found"⟩)
    | some session =>
      if session.userId ≠ user.id then (d, .error ⟨404, "Session not found"⟩)
      else if session.revokedAt = none then
        (d.setSession { session with revokedAt := some now }, .ok ())
      else (d, .ok ())

/-- The text of `validate_password`. -/
def weakPassword : HttpError :=
  ⟨422, "Password must be 12+ characters and include upper, lower, number, and symbol"⟩

/-- `change_password`. -/
def changePassword (lib : AuthLibraries) (now : Time) (d : AuthDatabase)
    (credentials : RequestCredentials) (currentPassword newPassword : String) :
    AuthDatabase × Except HttpError Unit :=
  match requireSession lib now d credentials with
  | (d, .error e) => (d, .error e)
  | (d, .ok (user, sessionId)) =>
    if ¬ lib.verifyPassword currentPassword user.passwordHash then (d, .error invalidCredentials)
    else if ¬ validPassword lib newPassword then (d, .error weakPassword)
    else ((d.setUser { user with passwordHash := lib.hashPassword newPassword }).revokeWhere
      (fun s => s.userId = user.id ∧ s.id ≠ sessionId) now, .ok ())

/-- `forgot`: a token to reset the password with, where the mail can be sent. -/
def forgotPassword (lib : AuthLibraries) (settings : AuthSettings) (now : Time) (d : AuthDatabase)
    (email : String) (delivered : Bool) : AuthDatabase × Option String :=
  match d.users.find? (·.email = email) with
  | none => (d, none)
  | some user =>
    let secret := lib.secretAt d.drawn
    let d := { d with drawn := d.drawn + 1 }
    if ¬ delivered then (d, none)
    else ({ d with
        oneTimeTokens := d.oneTimeTokens ++ [{
          id := d.nextUuid
          userId := user.id
          purpose := .resetPassword
          tokenHash := lib.hashToken secret
          expiresAt := now + minutes settings.resetTokenMinutes }]
        nextUuid := d.nextUuid + 1 }, some secret)

/-- `reset`. -/
def resetPassword (lib : AuthLibraries) (now : Time) (d : AuthDatabase) (token password : String) :
    AuthDatabase × Except HttpError Unit :=
  if ¬ validPassword lib password then (d, .error weakPassword)
  else
    let invalid : HttpError := ⟨400, "Invalid or expired reset link"⟩
    match d.oneTimeTokens.find? fun t =>
      t.tokenHash = lib.hashToken token ∧ t.purpose = .resetPassword with
    | none => (d, .error invalid)
    | some t =>
      if t.usedAt ≠ none ∨ t.expiresAt ≤ now then (d, .error invalid)
      else match d.user? t.userId with
        | none => (d, .error ⟨500, "Internal Server Error"⟩)
        | some user =>
          (((d.setUser { user with passwordHash := lib.hashPassword password }).setOneTimeToken
            { t with usedAt := some now }).revokeWhere (·.userId = user.id) now, .ok ())

end GnkAlgo
