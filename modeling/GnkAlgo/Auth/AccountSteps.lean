import GnkAlgo.Auth.Accounts

/-!
# What a request does to the accounts

The requests of `Auth.Accounts` by what they do to the users and to the log of the
second factors.  Most do nothing to either.

* `User.account` — the columns that passwords and failed logins leave alone;
* `AccountMove`, `accountMove_accountStep` — what a request can do to them;
* `grows_accountStep`, `userTable_accountStep` — the ids of the rows.
-/

namespace GnkAlgo

open Enrolment

/-! ## Moves -/

/-- The columns that are no part of a password or of failed logins. -/
def User.account (user : User) : User :=
  { user with passwordHash := "", failedLoginCount := 0, lockedUntil := none }

def AuthDatabase.accounts (d : AuthDatabase) : List User := d.users.map User.account

/-- The user after a login. -/
def User.loggedIn (user : User) (remaining : List String) : User :=
  { user with recoveryCodeHashes := remaining, failedLoginCount := 0, lockedUntil := none }

/-- What `e` can do to the accounts and the log of `s`. -/
inductive AccountMove (lib : AccountLibraries) (s : AccountRun) (e : AccountEvent)
    (t : AccountRun) : Prop
  | kept (haccounts : t.db.accounts = s.db.accounts) (hlog : t.log = s.log)
  | letIn (email password : String) (totpCode : Option String) (user : User)
      (remaining : List String) (he : e.request = .auth (.login email password totpCode))
      (hrow : s.db.users.find? (·.email = email) = some user) (hactive : user.isActive)
      (hverified : user.isVerified)
      (hfactor : secondFactor lib.toAuthLibraries e.now user totpCode = .ok remaining)
      (husers : t.db.users = (s.db.setUser (user.loggedIn remaining)).users)
      (hlog : t.log = user.enters (user.loginSpends lib.toAuthLibraries e.now totpCode) ++ s.log)
  | added (user : User) (hid : user.id = s.db.nextUuid) (hnext : user.id < t.db.nextUuid)
      (hoff : user.mfaEnabled = false ∧ user.mfaSecretEncrypted = none ∧
        user.recoveryCodeHashes = [])
      (hnew : ∀ x ∈ s.db.users, x.email ≠ user.email)
      (hmade : user.role = .admin ∨ user.isVerified →
        ∃ password confirmation, e.request = .createAdmin user.email password confirmation ∧
          (createAdmin lib.toAuthLibraries s.db user.email password confirmation).2 = .ok ())
      (husers : t.db.users = s.db.users ++ [user]) (hlog : t.log = s.log)
  | verified (token : String) (row : OneTimeToken) (user : User)
      (he : e.request = .verifyEmail token)
      (hcheck : checkToken lib.toAuthLibraries e.now s.db token .verifyEmail = some row)
      (hrow : s.db.user? row.userId = some user)
      (husers : t.db.users = (s.db.setUser { user with isVerified := true }).users)
      (hlog : t.log = s.log)
  | administered (credentials : RequestCredentials) (userId : Uuid) (changes : AdminUserUpdate)
      (admin user : User) (he : e.request = .apiKey (.updateUser credentials userId changes))
      (hadmin : (requireAdmin lib.toAuthLibraries e.now s.db credentials).2 = .ok admin)
      (hrow : s.db.user? userId = some user)
      (hother : ¬ (user.id = admin.id ∧ changes.isActive = some false))
      (husers : t.db.users = (s.db.setUser (changes.apply user)).users) (hlog : t.log = s.log)
  | setUp (credentials : RequestCredentials) (user : User) (sessionId : Uuid) (n : ℕ)
      (he : e.request = .mfaSetup credentials)
      (hsession : (requireSession lib.toAuthLibraries e.now s.db credentials).2 =
        .ok (user, sessionId))
      (hoff : user.mfaEnabled = false)
      (husers : t.db.users = (s.db.setUser { user with
        mfaSecretEncrypted := some (lib.encryptText n (lib.totpSecretAt n)) }).users)
      (hlog : t.log = user.enters [.setUp (lib.totpSecretAt n)] ++ s.log)
  | switchedOn (credentials : RequestCredentials) (code : String) (user : User) (sessionId : Uuid)
      (n : ℕ) (he : e.request = .mfaVerify credentials code)
      (hsession : (requireSession lib.toAuthLibraries e.now s.db credentials).2 =
        .ok (user, sessionId))
      (hpasses : user.passesTotp lib.toAuthLibraries e.now code)
      (husers : t.db.users = (s.db.setUser { user with
        mfaEnabled := true
        recoveryCodeHashes := (newRecoveryCodes lib n).2 }).users)
      (hlog : t.log = user.enters [.switchOn (newRecoveryCodes lib n).1] ++ s.log)
  | switchedOff (credentials : RequestCredentials) (password code : String) (user : User)
      (sessionId : Uuid) (he : e.request = .mfaDisable credentials password code)
      (hsession : (requireSession lib.toAuthLibraries e.now s.db credentials).2 =
        .ok (user, sessionId))
      (hcode : user.passesTotp lib.toAuthLibraries e.now code ∨
        consumeRecoveryCode lib.toAuthLibraries code user.recoveryCodeHashes ≠ none)
      (husers : t.db.users = (s.db.setUser { user with
        mfaEnabled := false, mfaSecretEncrypted := none, recoveryCodeHashes := [] }).users)
      (hlog : t.log = user.enters (.switchOff ::
        user.spends lib.toAuthLibraries e.now code) ++ s.log)

/-! ## Requests that keep the accounts -/

section Moves

variable {lib : AccountLibraries} {settings : AccountSettings} {now : Time} {d d' : AuthDatabase}
  {s : AccountRun} {e : AccountEvent}

theorem AuthDatabase.user?_mem {id : Uuid} {user : User} (h : d.user? id = some user) :
    user ∈ d.users :=
  List.mem_of_find?_eq_some h

/-- A row is rewritten in columns that are no part of the account. -/
theorem accounts_setUser (hids : (d.users.map User.id).Nodup) {user new : User}
    (hrow : user ∈ d.users) (h : new.account = user.account) :
    (d.setUser new).accounts = d.accounts := by
  have hid : new.account.id = user.account.id := by rw [h]
  refine Rows.map_replaceBy fun y hy hkey => ?_
  rw [List.inj_on_of_nodup_map hids hy hrow (hkey.trans hid), h]

/-- What a request with a session starts from: the users there were, one of them it. -/
theorem users_requireSession (lib : AuthLibraries) (now : Time) (d : AuthDatabase)
    (credentials : RequestCredentials) : (requireSession lib now d credentials).1.users = d.users :=
  (requireSession_cases lib now d credentials).1.users

theorem requireSession_row {lib : AuthLibraries} {credentials : RequestCredentials} {user : User}
    {sessionId : Uuid} (h : (requireSession lib now d credentials).2 = .ok (user, sessionId)) :
    user ∈ d.users :=
  AuthDatabase.user?_mem ((requireSession_cases lib now d credentials).2 user sessionId h)

theorem exists_account (haccounts : d'.accounts = d.accounts) {x : User} (hx : x ∈ d'.users) :
    ∃ y ∈ d.users, y.account = x.account := by
  have hmem : x.account ∈ d.accounts := haccounts ▸ List.mem_map_of_mem hx
  exact List.mem_map.1 hmem

theorem accounts_of_users (h : d'.users = d.users) : d'.accounts = d.accounts :=
  congrArg (List.map User.account) h

theorem accounts_refresh (lib : AuthLibraries) (settings : AuthSettings)
    (token : Option RefreshToken) : (refresh lib settings now d token).1.accounts = d.accounts := by
  cases token with
  | none => rfl
  | some token =>
    rcases refresh_cases lib settings now d token with
      ⟨_, -, -, -, h⟩ | ⟨-, h⟩ | ⟨_, _, -, -, -, -, h⟩
    · rw [h]; rfl
    · rw [h]
    · rw [h]; rfl

theorem accounts_logout (lib : AuthLibraries) (credentials : RequestCredentials) :
    (logout lib now d credentials).1.accounts = d.accounts := by
  have husers := users_requireSession lib now d credentials
  unfold logout
  generalize requireSession lib now d credentials = r at husers ⊢
  obtain ⟨d', _ | ⟨user, sessionId⟩⟩ := r
  · exact accounts_of_users husers
  dsimp only
  split
  · exact accounts_of_users husers
  · exact accounts_of_users husers

theorem accounts_logoutAll (lib : AuthLibraries) (credentials : RequestCredentials) :
    (logoutAll lib now d credentials).1.accounts = d.accounts := by
  have husers := users_requireSession lib now d credentials
  unfold logoutAll
  generalize requireSession lib now d credentials = r at husers ⊢
  obtain ⟨d', _ | ⟨user, sessionId⟩⟩ := r
  · exact accounts_of_users husers
  · exact accounts_of_users husers

theorem accounts_revokeSession (lib : AuthLibraries) (credentials : RequestCredentials)
    (sessionId : Uuid) :
    (revokeSession lib now d credentials sessionId).1.accounts = d.accounts := by
  have husers := users_requireSession lib now d credentials
  unfold revokeSession
  generalize requireSession lib now d credentials = r at husers ⊢
  obtain ⟨d', _ | ⟨user, own⟩⟩ := r
  · exact accounts_of_users husers
  dsimp only
  split
  · exact accounts_of_users husers
  split
  · exact accounts_of_users husers
  split
  · exact accounts_of_users husers
  · exact accounts_of_users husers

theorem accounts_changePassword (lib : AuthLibraries) (hids : (d.users.map User.id).Nodup)
    (credentials : RequestCredentials) (currentPassword newPassword : String) :
    (changePassword lib now d credentials currentPassword newPassword).1.accounts =
      d.accounts := by
  have husers := users_requireSession lib now d credentials
  have hrow := @requireSession_row now d lib credentials
  unfold changePassword
  generalize requireSession lib now d credentials = r at husers hrow ⊢
  obtain ⟨d', _ | ⟨user, sessionId⟩⟩ := r
  · exact accounts_of_users husers
  dsimp only at husers hrow ⊢
  split
  · exact accounts_of_users husers
  split
  · exact accounts_of_users husers
  · rw [← accounts_of_users husers]
    have hmem : user ∈ d'.users := husers ▸ hrow rfl
    exact accounts_setUser (husers ▸ hids) hmem rfl

theorem accounts_forgotPassword (lib : AuthLibraries) (settings : AuthSettings) (email : String)
    (delivered : Bool) :
    (forgotPassword lib settings now d email delivered).1.accounts = d.accounts := by
  unfold forgotPassword
  split
  · rfl
  dsimp only
  split
  · rfl
  · rfl

theorem accounts_resetPassword (lib : AuthLibraries) (hids : (d.users.map User.id).Nodup)
    (token password : String) :
    (resetPassword lib now d token password).1.accounts = d.accounts := by
  unfold resetPassword
  split
  · rfl
  dsimp only
  split
  · rfl
  split
  · rfl
  split
  · rfl
  · rename_i user huser
    exact accounts_setUser hids (AuthDatabase.user?_mem huser) rfl

/-- **A login** is refused and leaves the accounts, or has passed every check. -/
theorem login_account_cases (lib : AuthLibraries) (settings : AuthSettings) (now : Time)
    (hids : (d.users.map User.id).Nodup) (email password : String) (totpCode : Option String) :
    ((∃ e, (login lib settings now d email password totpCode).2 = .error e) ∧
      (login lib settings now d email password totpCode).1.accounts = d.accounts) ∨
    ∃ user remaining tokens, d.users.find? (·.email = email) = some user ∧ user.isActive ∧
      user.isVerified ∧ secondFactor lib now user totpCode = .ok remaining ∧
      (login lib settings now d email password totpCode).2 = .ok tokens ∧
      (login lib settings now d email password totpCode).1.users =
        (d.setUser (user.loggedIn remaining)).users := by
  unfold login
  split
  · exact Or.inl ⟨⟨_, rfl⟩, rfl⟩
  rename_i user hfind
  split
  · exact Or.inl ⟨⟨_, rfl⟩, rfl⟩
  split
  · have hfailed : (user.loginFailed now).account = user.account := by
      unfold User.loginFailed
      split
      · rfl
      · rfl
    exact Or.inl ⟨⟨_, rfl⟩, accounts_setUser hids (List.mem_of_find?_eq_some hfind) hfailed⟩
  split
  · exact Or.inl ⟨⟨_, rfl⟩, rfl⟩
  rename_i hactive
  split
  · exact Or.inl ⟨⟨_, rfl⟩, rfl⟩
  rename_i hverified
  split
  · exact Or.inl ⟨⟨_, rfl⟩, rfl⟩
  · rename_i remaining hfactor
    exact Or.inr ⟨user, remaining, _, hfind, not_not.1 hactive, not_not.1 hverified, hfactor, rfl, rfl⟩

theorem answered_db (s : AuthRun) (r : AuthDatabase × Except HttpError TokenPair) :
    (s.answered r).db = r.1 := by
  obtain ⟨d, _ | tokens⟩ := r
  · rfl
  · rfl

theorem users_addApiKey (key : ApiKey) : (d.addApiKey key).1.users = d.users := by
  unfold AuthDatabase.addApiKey
  split
  · rfl
  · rfl

theorem users_createKey (lib : AuthLibraries) (credentials : RequestCredentials)
    (scopes : List String) (expiresAt : Option Time) (drawn : NewApiKey) :
    (createKey lib now d credentials scopes expiresAt drawn).1.users = d.users := by
  have husers := users_requireSession lib now d credentials
  unfold createKey
  generalize requireSession lib now d credentials = r at husers ⊢
  obtain ⟨d', _ | ⟨user, sessionId⟩⟩ := r
  · exact husers
  dsimp only at husers ⊢
  split
  · exact husers
  split
  · exact husers
  · rw [users_addApiKey]
    exact husers

theorem users_rotateKey (lib : AuthLibraries) (credentials : RequestCredentials) (keyId : Uuid)
    (drawn : NewApiKey) : (rotateKey lib now d credentials keyId drawn).1.users = d.users := by
  have husers := users_requireSession lib now d credentials
  unfold rotateKey
  generalize requireSession lib now d credentials = r at husers ⊢
  obtain ⟨d', _ | ⟨user, sessionId⟩⟩ := r
  · exact husers
  dsimp only at husers ⊢
  split
  · exact husers
  split
  · exact husers
  split
  · exact husers
  · rename_i heq
    have hadded := congrArg (fun r => r.1.users) heq
    dsimp only at hadded
    rw [users_addApiKey] at hadded
    exact hadded.symm.trans husers

theorem users_requireAdmin (lib : AuthLibraries) (now : Time) (d : AuthDatabase)
    (credentials : RequestCredentials) : (requireAdmin lib now d credentials).1.users = d.users :=
  (keysNarrow_requireAdmin lib now d credentials).users

/-- **A change by an administrator** leaves the users, or is made to one of them. -/
theorem updateUser_cases (lib : AuthLibraries) (now : Time) (d : AuthDatabase)
    (credentials : RequestCredentials) (userId : Uuid) (changes : AdminUserUpdate) :
    (updateUser lib now d credentials userId changes).1.users = d.users ∨
    ∃ admin user, (requireAdmin lib now d credentials).2 = .ok admin ∧
      d.user? userId = some user ∧ ¬ (user.id = admin.id ∧ changes.isActive = some false) ∧
      (updateUser lib now d credentials userId changes).1.users =
        (d.setUser (changes.apply user)).users := by
  have husers := users_requireAdmin lib now d credentials
  unfold updateUser
  generalize requireAdmin lib now d credentials = r at husers ⊢
  obtain ⟨d', _ | admin⟩ := r
  · exact Or.inl husers
  dsimp only at husers ⊢
  split
  · exact Or.inl husers
  rename_i user huser
  split
  · exact Or.inl husers
  · rename_i hother
    refine Or.inr ⟨admin, user, rfl, ?_, hother, ?_⟩
    · rw [← huser, AuthDatabase.user?, AuthDatabase.user?, husers]
    · rw [AuthDatabase.setUser, AuthDatabase.setUser, husers]

theorem users_handle (lib : AuthLibraries) (request : ApiKeyRequest)
    (h : ∀ credentials userId changes, request ≠ .updateUser credentials userId changes) :
    (request.handle lib now d).users = d.users := by
  cases request with
  | wait elapsed => rfl
  | call scopes credentials => exact (keysNarrow_getPrincipal scopes credentials).users
  | create credentials scopes expiresAt drawn => exact users_createKey ..
  | rotate credentials keyId drawn => exact users_rotateKey ..
  | revoke credentials keyId => exact (keysNarrow_revokeKey ..).users
  | delete credentials keyId => exact (keysNarrow_deleteKey ..).users
  | updateUser credentials userId changes => exact absurd rfl (h credentials userId changes)

theorem email_ne {email : String} (h : ¬ d.users.any (·.email = email)) :
    ∀ x ∈ d.users, x.email ≠ email := by
  intro x hx hsame
  exact h (List.any_eq_true.2 ⟨x, hx, decide_eq_true hsame⟩)

theorem accountMove_register (payload : RegisterRequest) (delivered : Bool) :
    AccountMove lib s ⟨now, .register payload delivered⟩
      (accountStep lib settings s ⟨now, .register payload delivered⟩) := by
  have hcases : (register lib.toAuthLibraries settings now s.db payload delivered).1.users =
      s.db.users ∨
      ∃ user : User, user.id = s.db.nextUuid ∧ user.role = .retail ∧ user.isVerified = false ∧
        (∀ x ∈ s.db.users, x.email ≠ user.email) ∧ user.mfaEnabled = false ∧
        user.mfaSecretEncrypted = none ∧ user.recoveryCodeHashes = [] ∧
        user.id < (register lib.toAuthLibraries settings now s.db payload delivered).1.nextUuid ∧
        (register lib.toAuthLibraries settings now s.db payload delivered).1.users =
          s.db.users ++ [user] := by
    unfold register
    split
    · exact Or.inl rfl
    rename_i hemail
    split
    · exact Or.inl rfl
    dsimp only
    split
    · exact Or.inl rfl
    · exact Or.inr ⟨_, rfl, rfl, rfl, email_ne hemail, rfl, rfl, rfl,
        by simp [AuthDatabase.addUser], rfl⟩
  rcases hcases with hsame |
    ⟨user, hid, hrole, hverified, hnew, hoff, hsecret, hcodes, hnext, husers⟩
  · exact .kept (accounts_of_users hsame) rfl
  · refine .added user hid hnext ⟨hoff, hsecret, hcodes⟩ hnew ?_ husers rfl
    rintro (hadmin | hdone)
    · rw [hrole] at hadmin; cases hadmin
    · rw [hverified] at hdone; cases hdone

theorem accountMove_createAdmin (email password confirmation : String) :
    AccountMove lib s ⟨now, .createAdmin email password confirmation⟩
      (accountStep lib settings s ⟨now, .createAdmin email password confirmation⟩) := by
  have hcases : (createAdmin lib.toAuthLibraries s.db email password confirmation).1 = s.db ∨
      ∃ user : User, user.id = s.db.nextUuid ∧ user.email = email ∧
        (∀ x ∈ s.db.users, x.email ≠ user.email) ∧ user.mfaEnabled = false ∧
        user.mfaSecretEncrypted = none ∧ user.recoveryCodeHashes = [] ∧
        (createAdmin lib.toAuthLibraries s.db email password confirmation) =
          (s.db.addUser user, .ok ()) := by
    unfold createAdmin
    split
    · exact Or.inl rfl
    split
    · exact Or.inl rfl
    split
    · exact Or.inl rfl
    · rename_i hemail
      exact Or.inr ⟨_, rfl, rfl, email_ne hemail, rfl, rfl, rfl, rfl⟩
  rcases hcases with hsame | ⟨user, hid, hemail, hnew, hoff, hsecret, hcodes, hadded⟩
  · exact .kept (congrArg AuthDatabase.accounts hsame) rfl
  · refine .added user hid ?_ ⟨hoff, hsecret, hcodes⟩ hnew ?_
      (congrArg (fun r => r.1.users) hadded) rfl
    · change user.id < (createAdmin ..).1.nextUuid
      rw [hadded, hid]
      exact Nat.lt_succ_self _
    · intro _
      rw [hemail]
      exact ⟨password, confirmation, rfl, congrArg Prod.snd hadded⟩

theorem accountMove_verifyEmail (token : String) :
    AccountMove lib s ⟨now, .verifyEmail token⟩
      (accountStep lib settings s ⟨now, .verifyEmail token⟩) := by
  have hcases : (verifyEmail lib.toAuthLibraries now s.db token).1 = s.db ∨
      ∃ row user, checkToken lib.toAuthLibraries now s.db token .verifyEmail = some row ∧
        s.db.user? row.userId = some user ∧
        (verifyEmail lib.toAuthLibraries now s.db token).1.users =
          (s.db.setUser { user with isVerified := true }).users := by
    unfold verifyEmail
    split
    · exact Or.inl rfl
    rename_i row hcheck
    split
    · exact Or.inl rfl
    · rename_i user huser
      exact Or.inr ⟨row, user, hcheck, huser, rfl⟩
  rcases hcases with hsame | ⟨row, user, hcheck, hrow, husers⟩
  · exact .kept (congrArg AuthDatabase.accounts hsame) rfl
  · exact .verified token row user rfl hcheck hrow husers rfl

theorem accountMove_mfaSetup (credentials : RequestCredentials) :
    AccountMove lib s ⟨now, .mfaSetup credentials⟩
      (accountStep lib settings s ⟨now, .mfaSetup credentials⟩) := by
  have husers := users_requireSession lib.toAuthLibraries now s.db credentials
  cases hsession : requireSession lib.toAuthLibraries now s.db credentials with
  | mk d' r =>
    rw [hsession] at husers
    dsimp only at husers
    cases r with
    | error e =>
      refine .kept (accounts_of_users ?_) ?_
      · simp only [accountStep, AccountRequest.handle, mfaSetup, hsession, husers]
      · simp only [accountStep, entriesOf, mfaSetup, hsession, List.nil_append]
    | ok found =>
      obtain ⟨user, sessionId⟩ := found
      by_cases hon : user.mfaEnabled
      · refine .kept (accounts_of_users ?_) ?_
        · simp only [accountStep, AccountRequest.handle, mfaSetup, hsession, hon, if_true, husers]
        · simp only [accountStep, entriesOf, mfaSetup, hsession, hon, if_true, List.nil_append]
      · refine .setUp credentials user sessionId d'.drawn rfl (congrArg Prod.snd hsession)
          (Bool.not_eq_true _ ▸ hon) ?_ ?_
        · simp only [accountStep, AccountRequest.handle, mfaSetup, hsession, hon,
            AuthDatabase.setUser, husers]
          rfl
        · simp only [accountStep, entriesOf, mfaSetup, sessionUser, hsession, hon]
          rfl

theorem accountMove_mfaVerify (credentials : RequestCredentials) (code : String) :
    AccountMove lib s ⟨now, .mfaVerify credentials code⟩
      (accountStep lib settings s ⟨now, .mfaVerify credentials code⟩) := by
  have husers := users_requireSession lib.toAuthLibraries now s.db credentials
  cases hsession : requireSession lib.toAuthLibraries now s.db credentials with
  | mk d' r =>
    rw [hsession] at husers
    dsimp only at husers
    cases r with
    | error e =>
      refine .kept (accounts_of_users ?_) ?_
      · simp only [accountStep, AccountRequest.handle, mfaVerify, hsession, husers]
      · simp only [accountStep, entriesOf, mfaVerify, hsession, List.nil_append]
    | ok found =>
      obtain ⟨user, sessionId⟩ := found
      by_cases hpasses : user.passesTotp lib.toAuthLibraries now code
      · refine .switchedOn credentials code user sessionId d'.drawn rfl (congrArg Prod.snd hsession)
          hpasses ?_ ?_
        · simp only [accountStep, AccountRequest.handle, mfaVerify, hsession, hpasses,
            AuthDatabase.setUser, husers]
          rfl
        · simp only [accountStep, entriesOf, mfaVerify, sessionUser, hsession, hpasses]
          rfl
      · refine .kept (accounts_of_users ?_) ?_
        · simp only [accountStep, AccountRequest.handle, mfaVerify, hsession, if_pos hpasses, husers]
        · simp only [accountStep, entriesOf, mfaVerify, hsession, if_pos hpasses, List.nil_append]

theorem accountMove_mfaDisable (credentials : RequestCredentials) (password code : String) :
    AccountMove lib s ⟨now, .mfaDisable credentials password code⟩
      (accountStep lib settings s ⟨now, .mfaDisable credentials password code⟩) := by
  have husers := users_requireSession lib.toAuthLibraries now s.db credentials
  cases hsession : requireSession lib.toAuthLibraries now s.db credentials with
  | mk d' r =>
    rw [hsession] at husers
    dsimp only at husers
    cases r with
    | error e =>
      refine .kept (accounts_of_users ?_) ?_
      · simp only [accountStep, AccountRequest.handle, mfaDisable, hsession, husers]
      · simp only [accountStep, entriesOf, mfaDisable, hsession, List.nil_append]
    | ok found =>
      obtain ⟨user, sessionId⟩ := found
      by_cases hpassword : lib.verifyPassword password user.passwordHash
      · by_cases hcode : ¬ user.passesTotp lib.toAuthLibraries now code ∧
            consumeRecoveryCode lib.toAuthLibraries code user.recoveryCodeHashes = none
        · refine .kept (accounts_of_users ?_) ?_
          · simp only [accountStep, AccountRequest.handle, mfaDisable, hsession, hpassword,
              not_true, if_false, if_pos hcode, husers]
          · simp only [accountStep, entriesOf, mfaDisable, hsession, hpassword, not_true, if_false,
              if_pos hcode, List.nil_append]
        · refine .switchedOff credentials password code user sessionId rfl
            (congrArg Prod.snd hsession) ?_ ?_ ?_
          · by_contra hneither
            exact hcode ⟨fun h => hneither (Or.inl h), not_not.1 fun h => hneither (Or.inr h)⟩
          · simp only [accountStep, AccountRequest.handle, mfaDisable, hsession, hpassword,
              not_true, if_false, if_neg hcode, AuthDatabase.setUser, husers]
          · simp only [accountStep, entriesOf, mfaDisable, sessionUser, hsession, hpassword,
              not_true, if_false, if_neg hcode]
            rfl
      · refine .kept (accounts_of_users ?_) ?_
        · simp only [accountStep, AccountRequest.handle, mfaDisable, hsession, if_pos hpassword,
            husers]
        · simp only [accountStep, entriesOf, mfaDisable, hsession, if_pos hpassword,
            List.nil_append]

/-- **What a request does**: nothing to the accounts, or one of eight things. -/
theorem accountMove_accountStep (hids : (s.db.users.map User.id).Nodup) (e : AccountEvent) :
    AccountMove lib s e (accountStep lib settings s e) := by
  obtain ⟨now, request⟩ := e
  cases request with
  | auth request =>
    cases request with
    | login email password totpCode =>
      rcases login_account_cases lib.toAuthLibraries settings.toAuthSettings now hids email
        password totpCode with ⟨⟨e, herror⟩, haccounts⟩ |
          ⟨user, remaining, tokens, hrow, hactive, hverified, hfactor, hok, husers⟩
      · refine .kept ((congrArg AuthDatabase.accounts (answered_db ..)).trans haccounts) ?_
        change loginEntries lib.toAuthLibraries settings.toAuthSettings now s.db email password
          totpCode ++ s.log = s.log
        unfold loginEntries
        rw [herror]
        rfl
      · refine .letIn email password totpCode user remaining rfl hrow hactive hverified hfactor
          ((congrArg AuthDatabase.users (answered_db ..)).trans husers) ?_
        change loginEntries lib.toAuthLibraries settings.toAuthSettings now s.db email password
          totpCode ++ s.log = _
        unfold loginEntries
        rw [hok, hrow]
    | refresh token =>
      exact .kept ((congrArg AuthDatabase.accounts (answered_db ..)).trans (accounts_refresh ..)) rfl
    | logout credentials => exact .kept (accounts_logout ..) rfl
    | logoutAll credentials => exact .kept (accounts_logoutAll ..) rfl
    | revokeSession credentials sessionId => exact .kept (accounts_revokeSession ..) rfl
    | changePassword credentials currentPassword newPassword =>
      exact .kept (accounts_changePassword lib.toAuthLibraries hids ..) rfl
    | forgotPassword email delivered => exact .kept (accounts_forgotPassword ..) rfl
    | resetPassword token password =>
      exact .kept (accounts_resetPassword lib.toAuthLibraries hids ..) rfl
  | apiKey request =>
    cases request with
    | updateUser credentials userId changes =>
      rcases updateUser_cases lib.toAuthLibraries now s.db credentials userId changes with
        hsame | ⟨admin, user, hadmin, hrow, hother, husers⟩
      · exact .kept (accounts_of_users hsame) rfl
      · exact .administered credentials userId changes admin user rfl hadmin hrow hother husers rfl
    | _ =>
      exact .kept (accounts_of_users (users_handle _ _ fun _ _ _ h => by cases h)) rfl
  | register payload delivered => exact accountMove_register ..
  | verifyEmail token => exact accountMove_verifyEmail ..
  | createAdmin email password confirmation => exact accountMove_createAdmin ..
  | mfaSetup credentials => exact accountMove_mfaSetup ..
  | mfaVerify credentials code => exact accountMove_mfaVerify ..
  | mfaDisable credentials password code => exact accountMove_mfaDisable ..

/-! ## Rows of sessions and keys -/

/-- **Every request** gives rows the ids they had, or new ones. -/
theorem grows_accountStep (lib : AccountLibraries) (settings : AccountSettings) (s : AccountRun)
    (e : AccountEvent) : s.db.Grows lib.toAuthLibraries (accountStep lib settings s e).db := by
  obtain ⟨now, request⟩ := e
  cases request with
  | auth request => exact grows_authStep lib.toAuthLibraries settings.toAuthSettings ⟨s.db, []⟩ _
  | apiKey request => exact grows_handle ..
  | register payload delivered =>
    change s.db.Grows _ (register ..).1
    unfold register
    split
    · exact .refl _
    split
    · exact .refl _
    dsimp only
    split
    · exact .of_rows rfl rfl (Nat.le_add_right _ _)
    · exact .of_rows rfl rfl (Nat.le_add_right _ 2)
  | verifyEmail token =>
    change s.db.Grows _ (verifyEmail ..).1
    unfold verifyEmail
    split
    · exact .refl _
    split
    · exact .refl _
    · exact .of_rows rfl rfl le_rfl
  | createAdmin email password confirmation =>
    change s.db.Grows _ (createAdmin ..).1
    unfold createAdmin
    split
    · exact .refl _
    split
    · exact .refl _
    split
    · exact .refl _
    · exact .of_rows rfl rfl (Nat.le_succ _)
  | mfaSetup credentials =>
    have h := grows_requireSession lib.toAuthLibraries now s.db credentials
    change s.db.Grows _ (mfaSetup lib now s.db credentials).1
    unfold mfaSetup
    generalize requireSession lib.toAuthLibraries now s.db credentials = r at h ⊢
    obtain ⟨d', _ | ⟨user, sessionId⟩⟩ := r
    · exact h
    dsimp only
    split
    · exact h
    · exact h.trans (.of_rows rfl rfl le_rfl)
  | mfaVerify credentials code =>
    have h := grows_requireSession lib.toAuthLibraries now s.db credentials
    change s.db.Grows _ (mfaVerify lib now s.db credentials code).1
    unfold mfaVerify
    generalize requireSession lib.toAuthLibraries now s.db credentials = r at h ⊢
    obtain ⟨d', _ | ⟨user, sessionId⟩⟩ := r
    · exact h
    dsimp only
    split
    · exact h
    · exact h.trans (.of_rows rfl rfl le_rfl)
  | mfaDisable credentials password code =>
    have h := grows_requireSession lib.toAuthLibraries now s.db credentials
    change s.db.Grows _ (mfaDisable lib now s.db credentials password code).1
    unfold mfaDisable
    generalize requireSession lib.toAuthLibraries now s.db credentials = r at h ⊢
    obtain ⟨d', _ | ⟨user, sessionId⟩⟩ := r
    · exact h
    dsimp only
    split
    · exact h
    split
    · exact h
    · exact h.trans (.of_rows rfl rfl le_rfl)

/-! ## The table of users -/

/-- The users can be told apart by their ids, which are below the next. -/
structure AuthDatabase.UserTable (d : AuthDatabase) : Prop where
  ids : (d.users.map User.id).Nodup
  fresh : ∀ user ∈ d.users, user.id < d.nextUuid

theorem AuthDatabase.UserTable.setUser (h : d.UserTable) {user new : User} (hrow : user ∈ d.users)
    (husers : d'.users = (d.setUser new).users) (hid : new.id = user.id)
    (hnext : d.nextUuid ≤ d'.nextUuid) : d'.UserTable where
  ids := by
    rw [husers, AuthDatabase.setUser, Rows.map_key_replaceBy]
    exact h.ids
  fresh x hx := by
    rw [husers] at hx
    rcases Rows.mem_replaceBy hx with rfl | ⟨hx, -⟩
    · rw [hid]; exact (h.fresh user hrow).trans_le hnext
    · exact (h.fresh x hx).trans_le hnext

theorem AuthDatabase.UserTable.of_accounts (h : d.UserTable) (haccounts : d'.accounts = d.accounts)
    (hnext : d.nextUuid ≤ d'.nextUuid) : d'.UserTable where
  ids := by
    have hids : d'.accounts.map User.id = d.accounts.map User.id := by rw [haccounts]
    unfold AuthDatabase.accounts at hids
    rw [List.map_map, List.map_map] at hids
    exact (congrArg List.Nodup hids).mpr h.ids
  fresh x hx := by
    obtain ⟨y, hy, heq⟩ := exists_account haccounts hx
    have hid : y.account.id = x.account.id := by rw [heq]
    exact (hid.symm.trans_lt (h.fresh y hy)).trans_le hnext

theorem AuthDatabase.UserTable.append (h : d.UserTable) {user : User} (hid : user.id = d.nextUuid)
    (husers : d'.users = d.users ++ [user]) (hnext : d.nextUuid ≤ d'.nextUuid)
    (hbelow : user.id < d'.nextUuid) : d'.UserTable where
  ids := by
    rw [husers, List.map_append, List.map_singleton]
    refine h.ids.append (List.nodup_singleton _) (List.disjoint_singleton.2 fun hmem => ?_)
    obtain ⟨x, hx, hsame⟩ := List.mem_map.1 hmem
    exact (h.fresh x hx).ne (hsame.trans hid)
  fresh x hx := by
    rw [husers] at hx
    rcases List.mem_append.1 hx with hold | hnew
    · exact (h.fresh x hold).trans_le hnext
    · rw [List.mem_singleton.1 hnew]; exact hbelow

theorem userTable_accountStep (h : s.db.UserTable) (e : AccountEvent) :
    (accountStep lib settings s e).db.UserTable := by
  have hnext := (grows_accountStep lib settings s e).nextUuid
  cases accountMove_accountStep h.ids e with
  | kept haccounts hlog => exact h.of_accounts haccounts hnext
  | added user hid hbelow hoff hnew hmade husers hlog => exact h.append hid husers hnext hbelow
  | letIn email password totpCode user remaining he hrow hactive hverified hfactor husers hlog =>
    exact h.setUser (List.mem_of_find?_eq_some hrow) husers rfl hnext
  | verified token row user he hcheck hrow husers hlog =>
    exact h.setUser (AuthDatabase.user?_mem hrow) husers rfl hnext
  | administered credentials userId changes admin user he hadmin hrow hother husers hlog =>
    exact h.setUser (AuthDatabase.user?_mem hrow) husers rfl hnext
  | setUp credentials user sessionId n he hsession hoff husers hlog =>
    exact h.setUser (requireSession_row hsession) husers rfl hnext
  | switchedOn credentials code user sessionId n he hsession hpasses husers hlog =>
    exact h.setUser (requireSession_row hsession) husers rfl hnext
  | switchedOff credentials password code user sessionId he hsession hcode husers hlog =>
    exact h.setUser (requireSession_row hsession) husers rfl hnext

end Moves

end GnkAlgo
