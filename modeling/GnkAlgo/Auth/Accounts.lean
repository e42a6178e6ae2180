import GnkAlgo.Auth.Owners
import GnkAlgo.Auth.OneTime
import GnkAlgo.Lib.Enrolment

/-!
# Accounts

The handlers of `backend/app/routers/auth.py` that make an account and change its
second factor, with `create_admin` of `backend/app/cli.py`, and runs of these and
of all the requests of the other handlers of accounts, sessions and API keys, one
request at a time.

* `register`, `verifyEmail`, `createAdmin`, `mfaSetup`, `mfaVerify`, `mfaDisable`;
* `accountStep` — one request, with what it entered in the log of the second
  factors.
-/

namespace GnkAlgo

open Enrolment

/-! ## Libraries and requests -/

/-- What accounts take from random and encryption libraries besides; the values
are numbered as they are drawn. -/
structure AccountLibraries extends AuthLibraries where
  /-- `encrypt_text`, with the random bytes of a draw. -/
  encryptText : ℕ → String → String
  decrypt_encryptText : ∀ n text, decryptText (encryptText n text) = text
  /-- `pyotp.random_base32`. -/
  totpSecretAt : ℕ → String
  /-- `secrets.token_hex(5)`. -/
  tokenHexAt : ℕ → String

/-- The times of `backend/app/config.py`, with that of the verification of an account. -/
structure AccountSettings extends AuthSettings where
  verificationTokenHours : ℤ := 24

/-- `RegisterRequest`; the address is given in lower case and stripped. -/
structure RegisterRequest where
  email : String
  password : String
  passwordConfirmation : String
  length : 12 ≤ password.length ∧ password.length ≤ 128
  confirmed : password = passwordConfirmation

/-! ## Handlers -/

/-- `db.add(user)` with the columns that have no default. -/
def AuthDatabase.addUser (d : AuthDatabase) (user : User) : AuthDatabase :=
  { d with users := d.users ++ [user], nextUuid := d.nextUuid + 1 }

/-- `register`, with the token that is sent. -/
def register (lib : AuthLibraries) (settings : AccountSettings) (now : Time) (d : AuthDatabase)
    (payload : RegisterRequest) (delivered : Bool) : AuthDatabase × Except HttpError String :=
  if d.users.any (·.email = payload.email) then
    (d, .error ⟨409, "An account with this email already exists"⟩)
  else if ¬ validPassword lib payload.password then (d, .error weakPassword)
  else
    let raw := lib.secretAt d.drawn
    let user : User := {
      id := d.nextUuid
      email := payload.email
      passwordHash := lib.hashPassword payload.password }
    if ¬ delivered then
      ({ d with nextUuid := d.nextUuid + 2, drawn := d.drawn + 1 },
        .error ⟨503, "Verification email is temporarily unavailable. Please try again shortly."⟩)
    else
      let added := d.addUser user
      ({ added with
          oneTimeTokens := added.oneTimeTokens ++ [{
            id := added.nextUuid
            userId := user.id
            purpose := .verifyEmail
            tokenHash := lib.hashToken raw
            expiresAt := now + minutes (60 * settings.verificationTokenHours) }]
          nextUuid := added.nextUuid + 1
          drawn := added.drawn + 1 }, .ok raw)

/-- `verify_email`. -/
def verifyEmail (lib : AuthLibraries) (now : Time) (d : AuthDatabase) (token : String) :
    AuthDatabase × Except HttpError Unit :=
  match checkToken lib now d token .verifyEmail with
  | none => (d, .error ⟨400, "Invalid or expired verification link"⟩)
  | some t =>
    match d.user? t.userId with
    | none => (d, .error ⟨500, "Internal Server Error"⟩)
    | some user =>
      ((d.setUser { user with isVerified := true }).setOneTimeToken { t with usedAt := some now },
        .ok ())

/-- `create_admin` of the command line; the address is given in lower case. -/
def createAdmin (lib : AuthLibraries) (d : AuthDatabase)
    (email password confirmation : String) : AuthDatabase × Except String Unit :=
  if password ≠ confirmation then (d, .error "Passwords do not match")
  else if ¬ validPassword lib password then (d, .error weakPassword.detail)
  else if d.users.any (·.email = email) then (d, .error "User already exists")
  else
    (d.addUser {
      id := d.nextUuid
      email := email
      passwordHash := lib.hashPassword password
      role := .admin
      isVerified := true }, .ok ())

/-- `mfa_setup`, with the secret that is shown. -/
def mfaSetup (lib : AccountLibraries) (now : Time) (d : AuthDatabase)
    (credentials : RequestCredentials) : AuthDatabase × Except HttpError String :=
  match requireSession lib.toAuthLibraries now d credentials with
  | (d, .error e) => (d, .error e)
  | (d, .ok (user, _)) =>
    if user.mfaEnabled then (d, .error ⟨409, "MFA is already enabled"⟩)
    else
      let secret := lib.totpSecretAt d.drawn
      let encrypted := lib.encryptText d.drawn secret
      ({ d.setUser { user with mfaSecretEncrypted := some encrypted } with drawn := d.drawn + 1 },
        .ok secret)

/-- `new_recovery_codes` with the codes drawn from `n` on. -/
def newRecoveryCodes (lib : AccountLibraries) (n : ℕ) : List String × List String :=
  let codes := (List.range 8).map fun i => lib.upper (lib.tokenHexAt (n + i))
  (codes, codes.map lib.hashToken)

/-- The code is what the authenticator of the user shows. -/
def User.passesTotp (lib : AuthLibraries) (now : Time) (user : User) (code : String) : Bool :=
  user.mfaSecretEncrypted.any fun encrypted => lib.verifyTotp (lib.decryptText encrypted) code now

/-- `mfa_verify`, with the recovery codes that are shown. -/
def mfaVerify (lib : AccountLibraries) (now : Time) (d : AuthDatabase)
    (credentials : RequestCredentials) (code : String) :
    AuthDatabase × Except HttpError (List String) :=
  match requireSession lib.toAuthLibraries now d credentials with
  | (d, .error e) => (d, .error e)
  | (d, .ok (user, _)) =>
    if ¬ user.passesTotp lib.toAuthLibraries now code then (d, .error ⟨400, "Invalid MFA code"⟩)
    else
      let (codes, hashes) := newRecoveryCodes lib d.drawn
      ({ d.setUser { user with mfaEnabled := true, recoveryCodeHashes := hashes } with
          drawn := d.drawn + 8 }, .ok codes)

/-- `mfa_disable`. -/
def mfaDisable (lib : AccountLibraries) (now : Time) (d : AuthDatabase)
    (credentials : RequestCredentials) (password code : String) :
    AuthDatabase × Except HttpError Unit :=
  match requireSession lib.toAuthLibraries now d credentials with
  | (d, .error e) => (d, .error e)
  | (d, .ok (user, _)) =>
    if ¬ lib.verifyPassword password user.passwordHash then (d, .error invalidCredentials)
    else if ¬ user.passesTotp lib.toAuthLibraries now code ∧
        consumeRecoveryCode lib.toAuthLibraries code user.recoveryCodeHashes = none then
      (d, .error invalidCredentials)
    else
      (d.setUser { user with
        mfaEnabled := false, mfaSecretEncrypted := none, recoveryCodeHashes := [] }, .ok ())

/-! ## Runs -/

inductive AccountRequest
  | auth (request : AuthRequest)
  | apiKey (request : ApiKeyRequest)
  | register (payload : RegisterRequest) (delivered : Bool)
  | verifyEmail (token : String)
  | createAdmin (email password confirmation : String)
  | mfaSetup (credentials : RequestCredentials)
  | mfaVerify (credentials : RequestCredentials) (code : String)
  | mfaDisable (credentials : RequestCredentials) (password code : String)

/-- A request and the moment it is handled at. -/
structure AccountEvent where
  now : Time
  request : AccountRequest

abbrev FactorEntry := Entry String String

/-- The tables, and the log of the second factors, the latest entry first. -/
structure AccountRun where
  db : AuthDatabase
  log : List (Uuid × FactorEntry) := []

/-- The log of one user. -/
def AccountRun.logOf (s : AccountRun) (userId : Uuid) : List FactorEntry :=
  (s.log.filter (·.1 = userId)).map Prod.snd

/-- The user a bearer token is for, as the dependency of a route finds it. -/
def sessionUser (lib : AuthLibraries) (now : Time) (d : AuthDatabase)
    (credentials : RequestCredentials) : Option User :=
  (requireSession lib now d credentials).2.toOption.map Prod.fst

/-- A recovery code that is accepted in the place of what the authenticator shows. -/
def User.spends (lib : AuthLibraries) (now : Time) (user : User) (code : String) :
    List FactorEntry :=
  if user.passesTotp lib now code then [] else [.spend (lib.upper code)]

/-- Entries of the log of a user. -/
def User.enters (user : User) (entries : List FactorEntry) : List (Uuid × FactorEntry) :=
  entries.map (user.id, ·)

/-- What a user who is let in with the code spends. -/
def User.loginSpends (lib : AuthLibraries) (now : Time) (user : User) :
    Option String → List FactorEntry
  | none => []
  | some code => if user.mfaEnabled then user.spends lib now code else []

/-- What a login enters in the log. -/
def loginEntries (lib : AuthLibraries) (settings : AuthSettings) (now : Time) (d : AuthDatabase)
    (email password : String) (totpCode : Option String) : List (Uuid × FactorEntry) :=
  match (login lib settings now d email password totpCode).2, d.users.find? (·.email = email) with
  | .ok _, some user => user.enters (user.loginSpends lib now totpCode)
  | _, _ => []

/-- What a request that was accepted enters in the log. -/
def entriesOf (lib : AccountLibraries) (settings : AccountSettings) (now : Time) (d : AuthDatabase) :
    AccountRequest → List (Uuid × FactorEntry)
  | .auth (.login email password totpCode) =>
    loginEntries lib.toAuthLibraries settings.toAuthSettings now d email password totpCode
  | .mfaSetup credentials =>
    match (mfaSetup lib now d credentials).2, sessionUser lib.toAuthLibraries now d credentials with
    | .ok secret, some user => user.enters [.setUp secret]
    | _, _ => []
  | .mfaVerify credentials code =>
    match (mfaVerify lib now d credentials code).2,
      sessionUser lib.toAuthLibraries now d credentials with
    | .ok codes, some user => user.enters [.switchOn codes]
    | _, _ => []
  | .mfaDisable credentials password code =>
    match (mfaDisable lib now d credentials password code).2,
      sessionUser lib.toAuthLibraries now d credentials with
    | .ok _, some user => user.enters (.switchOff :: user.spends lib.toAuthLibraries now code)
    | _, _ => []
  | _ => []

/-- The tables after a request. -/
def AccountRequest.handle (lib : AccountLibraries) (settings : AccountSettings) (now : Time)
    (d : AuthDatabase) : AccountRequest → AuthDatabase
  | .auth request => (authStep lib.toAuthLibraries settings.toAuthSettings ⟨d, []⟩ ⟨now, request⟩).db
  | .apiKey request => request.handle lib.toAuthLibraries now d
  | .register payload delivered =>
    (GnkAlgo.register lib.toAuthLibraries settings now d payload delivered).1
  | .verifyEmail token => (GnkAlgo.verifyEmail lib.toAuthLibraries now d token).1
  | .createAdmin email password confirmation =>
    (GnkAlgo.createAdmin lib.toAuthLibraries d email password confirmation).1
  | .mfaSetup credentials => (GnkAlgo.mfaSetup lib now d credentials).1
  | .mfaVerify credentials code => (GnkAlgo.mfaVerify lib now d credentials code).1
  | .mfaDisable credentials password code =>
    (GnkAlgo.mfaDisable lib now d credentials password code).1

def accountStep (lib : AccountLibraries) (settings : AccountSettings) (s : AccountRun)
    (e : AccountEvent) : AccountRun where
  db := e.request.handle lib settings e.now s.db
  log := entriesOf lib settings e.now s.db e.request ++ s.log

end GnkAlgo
