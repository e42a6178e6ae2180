import GnkAlgo.Auth.AccountSteps
import GnkAlgo.Auth.Tickets

/-!
# The standing of accounts

What a user may do hangs on a few columns of the row and on the sessions there are.
Request by request:

* `User.Becomes`, `rows_accountStep` — a request keeps the id and the address of every
  row, verifies one only by a token, and changes its role or activation only for an
  administrator;
* `AuthDatabase.Quiet`, `enters_accountStep` — a session comes in only by a login, a
  verification token only by a registration.
-/

namespace GnkAlgo

open Transition

/-! ## Rows of users -/

/-- A change of a user that the administrator may make. -/
structure AccountEvent.Administers (lib : AuthLibraries) (e : AccountEvent) (d : AuthDatabase)
    (userId : Uuid) (changes : AdminUserUpdate) (admin : User) : Prop where
  asked : ∃ credentials, e.request = .apiKey (.updateUser credentials userId changes) ∧
    (requireAdmin lib e.now d credentials).2 = .ok admin
  other : ¬ (userId = admin.id ∧ changes.isActive = some false)

/-- The command line makes an administrator of the address. -/
def AccountEvent.CreatesAdmin (lib : AuthLibraries) (e : AccountEvent) (d : AuthDatabase)
    (email : String) : Prop :=
  ∃ password confirmation, e.request = .createAdmin email password confirmation ∧
    (createAdmin lib d email password confirmation).2 = .ok ()

/-- A verification that passes for the user. -/
def AccountEvent.Verifies (lib : AuthLibraries) (e : AccountEvent) (d : AuthDatabase)
    (userId : Uuid) : Prop :=
  ∃ token row, e.request = .verifyEmail token ∧
    checkToken lib e.now d token .verifyEmail = some row ∧ row.userId = userId

/-- A row before and after the request `e`. -/
structure User.Becomes (lib : AuthLibraries) (d : AuthDatabase) (e : AccountEvent)
    (user new : User) : Prop where
  id : new.id = user.id
  email : new.email = user.email
  verified : user.isVerified → new.isVerified
  answered : new.isVerified → user.isVerified ∨ e.Verifies lib d user.id
  columns : (new.role = user.role ∧ new.isActive = user.isActive) ∨
    ∃ changes admin, e.Administers lib d user.id changes admin ∧ new = changes.apply user

section Rows

variable {lib : AccountLibraries} {settings : AccountSettings} {s t : AccountRun}
  {e : AccountEvent} {d : AuthDatabase} {row new user : User}

theorem User.Becomes.of_columns {lib : AuthLibraries} (hid : new.id = user.id)
    (hemail : new.email = user.email) (hverified : new.isVerified = user.isVerified)
    (hrole : new.role = user.role) (hactive : new.isActive = user.isActive) : user.Becomes lib d e new where
  id := hid
  email := hemail
  verified h := hverified.trans h
  answered h := Or.inl (hverified.symm.trans h)
  columns := Or.inl ⟨hrole, hactive⟩

theorem User.Becomes.of_account {lib : AuthLibraries} (h : user.account = new.account) :
    user.Becomes lib d e new := by
  have hid : new.account.id = user.account.id := by rw [h]
  have hemail : new.account.email = user.account.email := by rw [h]
  have hverified : new.account.isVerified = user.account.isVerified := by rw [h]
  have hrole : new.account.role = user.account.role := by rw [h]
  have hactive : new.account.isActive = user.account.isActive := by rw [h]
  exact .of_columns hid hemail hverified hrole hactive

/-- Where one row is rewritten, every row is the row that was or has become it. -/
theorem rows_setUser {R : User → User → Prop} (hids : (d.users.map User.id).Nodup)
    (hrow : row ∈ d.users) (hid : new.id = row.id) (hrefl : ∀ user, R user user)
    (hnew : R row new) :
    (∀ user ∈ d.users, ∃ user' ∈ (d.setUser new).users, R user user') ∧
      ∀ user' ∈ (d.setUser new).users, ∃ user ∈ d.users, R user user' := by
  constructor
  · intro user huser
    by_cases hsame : user.id = new.id
    · obtain rfl := List.inj_on_of_nodup_map hids huser hrow (hsame.trans hid)
      exact ⟨new, Rows.mem_replaceBy_self huser hsame, hnew⟩
    · exact ⟨user, Rows.mem_replaceBy_of_ne huser hsame, hrefl user⟩
  · intro user' huser'
    rcases Rows.mem_replaceBy huser' with rfl | ⟨hmem, -⟩
    · exact ⟨row, hrow, hnew⟩
    · exact ⟨user', hmem, hrefl user'⟩

/-- What a request does to the rows: none is lost, and a new one is neither verified
nor an administrator's, but where it is created so. -/
structure RowsBecome (lib : AuthLibraries) (s t : AccountRun) (e : AccountEvent) : Prop where
  forward : ∀ user ∈ s.db.users, ∃ new ∈ t.db.users, user.Becomes lib s.db e new
  back : ∀ new ∈ t.db.users, (∃ user ∈ s.db.users, user.Becomes lib s.db e new) ∨
    (new.id = s.db.nextUuid ∧
      (new.role = .admin ∨ new.isVerified → e.CreatesAdmin lib s.db new.email))

theorem RowsBecome.write {lib : AuthLibraries} (hids : (s.db.users.map User.id).Nodup)
    (hrow : row ∈ s.db.users) (husers : t.db.users = (s.db.setUser new).users)
    (h : row.Becomes lib s.db e new) : RowsBecome lib s t e := by
  have hrows := rows_setUser (R := User.Becomes lib s.db e) hids hrow h.id
    (fun user => .of_columns rfl rfl rfl rfl rfl) h
  rw [← husers] at hrows
  exact ⟨hrows.1, fun new hnew => Or.inl (hrows.2 new hnew)⟩

/-- **Every row** after a request. -/
theorem rows_accountStep (lib : AccountLibraries) (settings : AccountSettings)
    (hids : (s.db.users.map User.id).Nodup) (e : AccountEvent) :
    RowsBecome lib.toAuthLibraries s (accountStep lib settings s e) e := by
  cases accountMove_accountStep hids e with
  | kept haccounts hlog =>
    constructor
    · intro user huser
      obtain ⟨new, hnew, heq⟩ := exists_account haccounts.symm huser
      exact ⟨new, hnew, .of_account heq.symm⟩
    · intro new hnew
      obtain ⟨user, huser, heq⟩ := exists_account haccounts hnew
      exact Or.inl ⟨user, huser, .of_account heq⟩
  | letIn email password totpCode user remaining he hrow hactive hverified hfactor husers hlog =>
    exact .write hids (List.mem_of_find?_eq_some hrow) husers (.of_columns rfl rfl rfl rfl rfl)
  | added user hid hbelow hoff hnew hmade husers hlog =>
    constructor
    · intro x hx
      exact ⟨x, husers ▸ List.mem_append_left _ hx, .of_columns rfl rfl rfl rfl rfl⟩
    · intro x hx
      rw [husers] at hx
      rcases List.mem_append.1 hx with hold | hlast
      · exact Or.inl ⟨x, hold, .of_columns rfl rfl rfl rfl rfl⟩
      · obtain rfl := List.mem_singleton.1 hlast
        exact Or.inr ⟨hid, hmade⟩
  | verified token row user he hcheck hrow husers hlog =>
    refine .write hids (AuthDatabase.user?_mem hrow) husers ?_
    exact ⟨rfl, rfl, fun _ => rfl, fun _ => Or.inr ⟨token, row, he, hcheck,
      (AuthDatabase.user?_id hrow).symm⟩, Or.inl ⟨rfl, rfl⟩⟩
  | administered credentials userId changes admin user he hadmin hrow hother husers hlog =>
    refine .write hids (AuthDatabase.user?_mem hrow) husers ?_
    obtain rfl := AuthDatabase.user?_id hrow
    exact ⟨rfl, rfl, fun h => h, fun h => Or.inl h,
      Or.inr ⟨changes, admin, ⟨⟨credentials, he, hadmin⟩, hother⟩, rfl⟩⟩
  | setUp credentials user sessionId n he hsession hoff husers hlog =>
    exact .write hids (requireSession_row hsession) husers (.of_columns rfl rfl rfl rfl rfl)
  | switchedOn credentials code user sessionId n he hsession hpasses husers hlog =>
    exact .write hids (requireSession_row hsession) husers (.of_columns rfl rfl rfl rfl rfl)
  | switchedOff credentials password code user sessionId he hsession hcode husers hlog =>
    exact .write hids (requireSession_row hsession) husers (.of_columns rfl rfl rfl rfl rfl)

end Rows

/-! ## Sessions and verification tokens -/

/-- A one-time token as it was issued. -/
def OneTimeToken.issued (row : OneTimeToken) : OneTimeToken := { row with usedAt := none }

/-- No session and no verification token comes in. -/
structure AuthDatabase.Quiet (d d' : AuthDatabase) : Prop where
  sessions : ∀ x ∈ d'.sessions, ∃ y ∈ d.sessions, x.id = y.id ∧ x.userId = y.userId
  tokens : ∀ row ∈ d'.oneTimeTokens, row.purpose = .verifyEmail →
    ∃ old ∈ d.oneTimeTokens, old.issued = row.issued

namespace AuthDatabase

variable {d d' d'' : AuthDatabase}

theorem Quiet.of_rows (hsessions : d'.sessions = d.sessions)
    (htokens : d'.oneTimeTokens = d.oneTimeTokens) : d.Quiet d' where
  sessions x hx := ⟨x, hsessions ▸ hx, rfl, rfl⟩
  tokens row hrow _ := ⟨row, htokens ▸ hrow, rfl⟩

theorem Quiet.refl (d : AuthDatabase) : d.Quiet d := .of_rows rfl rfl

theorem Quiet.trans (h : d.Quiet d') (h' : d'.Quiet d'') : d.Quiet d'' where
  sessions x hx := by
    obtain ⟨y, hy, hid, huser⟩ := h'.sessions x hx
    obtain ⟨z, hz, hid', huser'⟩ := h.sessions y hy
    exact ⟨z, hz, hid.trans hid', huser.trans huser'⟩
  tokens row hrow hpurpose := by
    obtain ⟨old, hold, hsame⟩ := h'.tokens row hrow hpurpose
    have hsamePurpose : old.issued.purpose = row.issued.purpose := by rw [hsame]
    obtain ⟨older, holder, hsame'⟩ := h.tokens old hold (hsamePurpose.trans hpurpose)
    exact ⟨older, holder, hsame'.trans hsame⟩

theorem Quiet.of_kept (h : d.Kept d') (htokens : d'.oneTimeTokens = d.oneTimeTokens) :
    d.Quiet d' where
  sessions x hx := by
    obtain ⟨y, hy, htight⟩ := h.exists_of_mem hx
    exact ⟨y, hy, htight.id, htight.userId⟩
  tokens row hrow _ := ⟨row, htokens ▸ hrow, rfl⟩

theorem Quiet.setUser (user : User) : d.Quiet (d.setUser user) := .of_rows rfl rfl

theorem Quiet.setSession {session : UserSession} {id : Uuid} (new : UserSession)
    (hsession : d.session? id = some session) (hid : new.id = session.id)
    (huser : new.userId = session.userId) : d.Quiet (d.setSession new) where
  sessions x hx := by
    rcases Rows.mem_replaceBy hx with rfl | ⟨hold, -⟩
    · exact ⟨session, (session?_mem hsession).1, hid, huser⟩
    · exact ⟨x, hold, rfl, rfl⟩
  tokens row hrow _ := ⟨row, hrow, rfl⟩

theorem Quiet.setOneTimeToken {row : OneTimeToken} (new : OneTimeToken)
    (hrow : row ∈ d.oneTimeTokens) (hissued : row.issued = new.issued) :
    d.Quiet (d.setOneTimeToken new) where
  sessions x hx := ⟨x, hx, rfl, rfl⟩
  tokens x hx _ := by
    rcases Rows.mem_replaceBy hx with rfl | ⟨hold, -⟩
    · exact ⟨row, hrow, hissued⟩
    · exact ⟨x, hold, rfl⟩

end AuthDatabase

section Quiet

variable {lib : AuthLibraries} {settings : AuthSettings} {now : Time} {d : AuthDatabase}

theorem quiet_apiKeyPrincipal (scopes : List String) (publicId secret : String) :
    d.Quiet (apiKeyPrincipal lib now d scopes publicId secret).1 := by
  unfold apiKeyPrincipal
  split
  · exact .refl d
  dsimp only
  split
  · exact .of_rows rfl rfl
  split
  · exact .of_rows rfl rfl
  split
  · exact .of_rows rfl rfl
  split
  · exact .of_rows rfl rfl
  · exact .of_rows rfl rfl

theorem quiet_bearerPrincipal (token : AccessToken) : d.Quiet (bearerPrincipal now d token).1 := by
  unfold bearerPrincipal
  split
  · exact .refl d
  dsimp only
  split
  · rename_i session user hsession _
    split
    · exact .refl d
    · exact .setSession _ hsession rfl rfl
  · exact .refl d

theorem quiet_getPrincipal (lib : AuthLibraries) (now : Time) (d : AuthDatabase)
    (scopes : List String) (credentials : RequestCredentials) :
    d.Quiet (getPrincipal lib now d scopes credentials).1 := by
  unfold getPrincipal
  split
  · exact .refl d
  · exact quiet_apiKeyPrincipal ..
  split
  · exact .refl d
  · exact quiet_bearerPrincipal _

theorem quiet_requireSession (lib : AuthLibraries) (now : Time) (d : AuthDatabase)
    (credentials : RequestCredentials) : d.Quiet (requireSession lib now d credentials).1 := by
  have h := quiet_getPrincipal lib now d [] credentials
  unfold requireSession
  generalize getPrincipal lib now d [] credentials = r at h ⊢
  obtain ⟨d', _ | principal⟩ := r
  · exact h
  dsimp only
  split
  · exact h
  · exact h

theorem quiet_requireAdmin (lib : AuthLibraries) (now : Time) (d : AuthDatabase)
    (credentials : RequestCredentials) : d.Quiet (requireAdmin lib now d credentials).1 := by
  have h := quiet_getPrincipal lib now d [] credentials
  unfold requireAdmin
  generalize getPrincipal lib now d [] credentials = r at h ⊢
  obtain ⟨d', _ | principal⟩ := r
  · exact h
  dsimp only
  split
  · exact h
  split
  · exact h
  · exact h

theorem quiet_refresh (token : Option RefreshToken) :
    d.Quiet (refresh lib settings now d token).1 := by
  cases token with
  | none => exact .refl d
  | some token =>
    rcases refresh_cases lib settings now d token with
      ⟨session, hsession, -, -, h⟩ | ⟨-, h⟩ | ⟨session, user, hsession, -, -, -, h⟩
    · rw [h]
      exact .setSession _ hsession rfl rfl
    · rw [h]
      exact .refl d
    · rw [h]
      have hrotated := AuthDatabase.Quiet.setSession { session with
        refreshTokenHash := lib.hashToken (lib.secretAt d.drawn), lastSeenAt := now }
        hsession rfl rfl
      exact hrotated.trans (.of_rows rfl rfl)

theorem quiet_logout (credentials : RequestCredentials) :
    d.Quiet (logout lib now d credentials).1 := by
  have h := quiet_requireSession lib now d credentials
  unfold logout
  generalize requireSession lib now d credentials = r at h ⊢
  obtain ⟨d', _ | ⟨user, sessionId⟩⟩ := r
  · exact h
  dsimp only at h ⊢
  split
  · exact h
  · rename_i session hsession
    exact h.trans (.setSession _ hsession rfl rfl)

theorem quiet_logoutAll (credentials : RequestCredentials) :
    d.Quiet (logoutAll lib now d credentials).1 := by
  have h := quiet_requireSession lib now d credentials
  unfold logoutAll
  generalize requireSession lib now d credentials = r at h ⊢
  obtain ⟨d', _ | ⟨user, sessionId⟩⟩ := r
  · exact h
  · exact h.trans (.of_kept (.revokeWhere _ now) rfl)

theorem quiet_revokeSession (credentials : RequestCredentials) (sessionId : Uuid) :
    d.Quiet (revokeSession lib now d credentials sessionId).1 := by
  have h := quiet_requireSession lib now d credentials
  unfold revokeSession
  generalize requireSession lib now d credentials = r at h ⊢
  obtain ⟨d', _ | ⟨user, own⟩⟩ := r
  · exact h
  dsimp only at h ⊢
  split
  · exact h
  rename_i session hsession
  split
  · exact h
  split
  · exact h.trans (.setSession _ hsession rfl rfl)
  · exact h

theorem quiet_changePassword (credentials : RequestCredentials)
    (currentPassword newPassword : String) :
    d.Quiet (changePassword lib now d credentials currentPassword newPassword).1 := by
  have h := quiet_requireSession lib now d credentials
  unfold changePassword
  generalize requireSession lib now d credentials = r at h ⊢
  obtain ⟨d', _ | ⟨user, sessionId⟩⟩ := r
  · exact h
  dsimp only at h ⊢
  split
  · exact h
  split
  · exact h
  · exact h.trans (.trans (.setUser _) (.of_kept (.revokeWhere _ now) rfl))

/-- A token to reset a password with is none to verify an account with. -/
theorem quiet_forgotPassword (email : String) (delivered : Bool) :
    d.Quiet (forgotPassword lib settings now d email delivered).1 := by
  unfold forgotPassword
  split
  · exact .refl d
  dsimp only
  split
  · exact .of_rows rfl rfl
  · refine ⟨fun x hx => ⟨x, hx, rfl, rfl⟩, fun row hrow hpurpose => ?_⟩
    rcases List.mem_append.1 hrow with hold | hnew
    · exact ⟨row, hold, rfl⟩
    · obtain rfl := List.mem_singleton.1 hnew
      cases hpurpose

theorem quiet_resetPassword (token password : String) :
    d.Quiet (resetPassword lib now d token password).1 := by
  unfold resetPassword
  split
  · exact .refl d
  dsimp only
  split
  · exact .refl d
  rename_i row hfind
  split
  · exact .refl d
  split
  · exact .refl d
  · rename_i user _
    have hset := AuthDatabase.Quiet.setUser (d := d)
      { user with passwordHash := lib.hashPassword password }
    have hused := hset.trans (.setOneTimeToken { row with usedAt := some now }
      (List.mem_of_find?_eq_some hfind) rfl)
    exact hused.trans (.of_kept (.revokeWhere _ now) rfl)

theorem quiet_verifyEmail (token : String) : d.Quiet (verifyEmail lib now d token).1 := by
  unfold verifyEmail
  split
  · exact .refl d
  rename_i row hcheck
  split
  · exact .refl d
  · rename_i user _
    have hset := AuthDatabase.Quiet.setUser (d := d) { user with isVerified := true }
    exact hset.trans (.setOneTimeToken _ (mem_of_checkToken hcheck) rfl)

theorem quiet_createAdmin (email password confirmation : String) :
    d.Quiet (createAdmin lib d email password confirmation).1 := by
  unfold createAdmin
  split
  · exact .refl d
  split
  · exact .refl d
  split
  · exact .refl d
  · exact .of_rows rfl rfl

theorem quiet_addApiKey (key : ApiKey) : d.Quiet (d.addApiKey key).1 := by
  unfold AuthDatabase.addApiKey
  split
  · exact .refl d
  · exact .of_rows rfl rfl

end Quiet

section QuietSteps

variable {lib : AccountLibraries} {settings : AccountSettings} {now : Time} {d : AuthDatabase}
  {s : AccountRun} {e : AccountEvent}

/-- **Requests of the routers of keys and users.** -/
theorem quiet_handle (lib : AuthLibraries) (request : ApiKeyRequest) :
    d.Quiet (request.handle lib now d) := by
  cases request with
  | wait elapsed => exact .refl d
  | call scopes credentials => exact quiet_getPrincipal lib now d scopes credentials
  | create credentials scopes expiresAt drawn =>
    have h := quiet_requireSession lib now d credentials
    change d.Quiet (createKey lib now d credentials scopes expiresAt drawn).1
    unfold createKey
    generalize requireSession lib now d credentials = r at h ⊢
    obtain ⟨d', _ | ⟨user, sessionId⟩⟩ := r
    · exact h
    dsimp only at h ⊢
    split
    · exact h
    split
    · exact h
    · exact h.trans (quiet_addApiKey _)
  | rotate credentials keyId drawn =>
    have h := quiet_requireSession lib now d credentials
    change d.Quiet (rotateKey lib now d credentials keyId drawn).1
    unfold rotateKey
    generalize requireSession lib now d credentials = r at h ⊢
    obtain ⟨d', _ | ⟨user, sessionId⟩⟩ := r
    · exact h
    dsimp only at h ⊢
    split
    · exact h
    rename_i old _
    split
    · exact h
    split
    · exact h
    · rename_i hadd
      have hadded := congrArg Prod.fst hadd
      dsimp only at hadded ⊢
      rw [← hadded]
      have hset : d'.Quiet (d'.setApiKey { old with status := .revoked }) := .of_rows rfl rfl
      exact h.trans (hset.trans (quiet_addApiKey _))
  | revoke credentials keyId =>
    have h := quiet_requireSession lib now d credentials
    change d.Quiet (revokeKey lib now d credentials keyId).1
    unfold revokeKey
    generalize requireSession lib now d credentials = r at h ⊢
    obtain ⟨d', _ | ⟨user, sessionId⟩⟩ := r
    · exact h
    dsimp only at h ⊢
    split
    · exact h
    split
    · exact h.trans (.of_rows rfl rfl)
    · exact h
  | delete credentials keyId =>
    have h := quiet_requireSession lib now d credentials
    change d.Quiet (deleteKey lib now d credentials keyId).1
    unfold deleteKey
    generalize requireSession lib now d credentials = r at h ⊢
    obtain ⟨d', _ | ⟨user, sessionId⟩⟩ := r
    · exact h
    dsimp only at h ⊢
    split
    · exact h
    split
    · exact h
    split
    · exact h
    · exact h.trans (.of_rows rfl rfl)
  | updateUser credentials userId changes =>
    have h := quiet_requireAdmin lib now d credentials
    change d.Quiet (updateUser lib now d credentials userId changes).1
    unfold updateUser
    generalize requireAdmin lib now d credentials = r at h ⊢
    obtain ⟨d', _ | admin⟩ := r
    · exact h
    dsimp only at h ⊢
    split
    · exact h
    split
    · exact h
    · exact h.trans (.of_rows rfl rfl)

theorem quiet_mfaSetup (credentials : RequestCredentials) :
    d.Quiet (mfaSetup lib now d credentials).1 := by
  have h := quiet_requireSession lib.toAuthLibraries now d credentials
  unfold mfaSetup
  generalize requireSession lib.toAuthLibraries now d credentials = r at h ⊢
  obtain ⟨d', _ | ⟨user, sessionId⟩⟩ := r
  · exact h
  dsimp only at h ⊢
  split
  · exact h
  · exact h.trans (.of_rows rfl rfl)

theorem quiet_mfaVerify (credentials : RequestCredentials) (code : String) :
    d.Quiet (mfaVerify lib now d credentials code).1 := by
  have h := quiet_requireSession lib.toAuthLibraries now d credentials
  unfold mfaVerify
  generalize requireSession lib.toAuthLibraries now d credentials = r at h ⊢
  obtain ⟨d', _ | ⟨user, sessionId⟩⟩ := r
  · exact h
  dsimp only at h ⊢
  split
  · exact h
  · exact h.trans (.of_rows rfl rfl)

theorem quiet_mfaDisable (credentials : RequestCredentials) (password code : String) :
    d.Quiet (mfaDisable lib now d credentials password code).1 := by
  have h := quiet_requireSession lib.toAuthLibraries now d credentials
  unfold mfaDisable
  generalize requireSession lib.toAuthLibraries now d credentials = r at h ⊢
  obtain ⟨d', _ | ⟨user, sessionId⟩⟩ := r
  · exact h
  dsimp only at h ⊢
  split
  · exact h
  split
  · exact h
  · exact h.trans (.of_rows rfl rfl)

/-- A session of a user who may log in. -/
def UserSession.LetsIn (x : UserSession) (d : AuthDatabase) : Prop :=
  ∃ user ∈ d.users, user.id = x.userId ∧ user.isActive ∧ user.isVerified

/-- The token that a registration sends, and the row of it. -/
structure AccountEvent.Mails (lib : AuthLibraries) (settings : AccountSettings) (e : AccountEvent)
    (d : AuthDatabase) (email raw : String) (row : OneTimeToken) : Prop where
  sent : ∃ payload : RegisterRequest, payload.email = email ∧ e.request = .register payload true ∧
    (register lib settings e.now d payload true).2 = .ok raw
  userId : row.userId = d.nextUuid
  tokenHash : row.tokenHash = lib.hashToken raw
  expiresAt : row.expiresAt = e.now + minutes (60 * settings.verificationTokenHours)

/-- What comes into the tables with a request. -/
structure Enters (lib : AuthLibraries) (settings : AccountSettings) (s t : AccountRun)
    (e : AccountEvent) : Prop where
  sessions : ∀ x ∈ t.db.sessions, (∃ y ∈ s.db.sessions, x.id = y.id ∧ x.userId = y.userId) ∨
    x.LetsIn s.db
  tokens : ∀ row ∈ t.db.oneTimeTokens, row.purpose = .verifyEmail →
    (∃ old ∈ s.db.oneTimeTokens, old.issued = row.issued) ∨
      ∃ user ∈ t.db.users, user.id = row.userId ∧
        ∃ raw, e.Mails lib settings s.db user.email raw row

theorem AuthDatabase.Quiet.enters {lib : AuthLibraries} {t : AccountRun} (h : s.db.Quiet t.db) :
    Enters lib settings s t e :=
  ⟨fun x hx => Or.inl (h.sessions x hx), fun row hrow hpurpose =>
    Or.inl (h.tokens row hrow hpurpose)⟩

/-- A login gives a session to a user who is active and verified. -/
theorem enters_login (email password : String) (totpCode : Option String) :
    Enters lib.toAuthLibraries settings s
      (accountStep lib settings s ⟨now, .auth (.login email password totpCode)⟩)
      ⟨now, .auth (.login email password totpCode)⟩ := by
  have hcases : s.db.Quiet (login lib.toAuthLibraries settings.toAuthSettings now s.db email password
        totpCode).1 ∨
      ∃ session : UserSession, session.LetsIn s.db ∧
        (login lib.toAuthLibraries settings.toAuthSettings now s.db email password
          totpCode).1.sessions = s.db.sessions ++ [session] ∧
        (login lib.toAuthLibraries settings.toAuthSettings now s.db email password
          totpCode).1.oneTimeTokens = s.db.oneTimeTokens := by
    unfold login
    split
    · exact Or.inl (.refl _)
    rename_i user hfind
    split
    · exact Or.inl (.refl _)
    split
    · exact Or.inl (.of_rows rfl rfl)
    split
    · exact Or.inl (.refl _)
    rename_i hactive
    split
    · exact Or.inl (.refl _)
    rename_i hverified
    split
    · exact Or.inl (.refl _)
    · exact Or.inr ⟨_, ⟨user, List.mem_of_find?_eq_some hfind, rfl, not_not.1 hactive,
        not_not.1 hverified⟩, rfl, rfl⟩
  have hdb : (accountStep lib settings s ⟨now, .auth (.login email password totpCode)⟩).db =
      (login lib.toAuthLibraries settings.toAuthSettings now s.db email password totpCode).1 :=
    answered_db ..
  rcases hcases with hquiet | ⟨session, hletsIn, hsessions, htokens⟩
  · exact (hdb ▸ hquiet).enters
  · constructor
    · intro x hx
      rw [hdb, hsessions] at hx
      rcases List.mem_append.1 hx with hold | hnew
      · exact Or.inl ⟨x, hold, rfl, rfl⟩
      · exact Or.inr (List.mem_singleton.1 hnew ▸ hletsIn)
    · intro row hrow _
      rw [hdb, htokens] at hrow
      exact Or.inl ⟨row, hrow, rfl⟩

theorem enters_register (payload : RegisterRequest) (delivered : Bool) :
    Enters lib.toAuthLibraries settings s
      (accountStep lib settings s ⟨now, .register payload delivered⟩)
      ⟨now, .register payload delivered⟩ := by
  have hcases : s.db.Quiet (register lib.toAuthLibraries settings now s.db payload delivered).1 ∨
      ∃ user row raw, delivered = true ∧ user.email = payload.email ∧ user.id = row.userId ∧
        (register lib.toAuthLibraries settings now s.db payload delivered).1.users =
          s.db.users ++ [user] ∧
        (register lib.toAuthLibraries settings now s.db payload delivered).1.sessions =
          s.db.sessions ∧
        (register lib.toAuthLibraries settings now s.db payload delivered).1.oneTimeTokens =
          s.db.oneTimeTokens ++ [row] ∧
        (register lib.toAuthLibraries settings now s.db payload delivered).2 = .ok raw ∧
        row.userId = s.db.nextUuid ∧ row.tokenHash = lib.hashToken raw ∧
        row.expiresAt = now + minutes (60 * settings.verificationTokenHours) := by
    unfold register
    split
    · exact Or.inl (.refl _)
    split
    · exact Or.inl (.refl _)
    dsimp only
    split
    · exact Or.inl (.of_rows rfl rfl)
    · rename_i hdelivered
      exact Or.inr ⟨_, _, _, not_not.1 hdelivered, rfl, rfl, rfl, rfl, rfl, rfl, rfl, rfl, rfl⟩
  rcases hcases with hquiet |
    ⟨user, row, raw, rfl, hemail, hid, husers, hsessions, htokens, hok, huserId, hhash, hexpires⟩
  · exact AuthDatabase.Quiet.enters hquiet
  · constructor
    · intro x hx
      exact Or.inl ⟨x, hsessions ▸ hx, rfl, rfl⟩
    · intro x hx _
      change x ∈ (register ..).1.oneTimeTokens at hx
      rw [htokens] at hx
      rcases List.mem_append.1 hx with hold | hnew
      · exact Or.inl ⟨x, hold, rfl⟩
      · obtain rfl := List.mem_singleton.1 hnew
        have hmem : user ∈ (register lib.toAuthLibraries settings now s.db payload true).1.users := by
          rw [husers]
          exact List.mem_append_right _ (List.mem_singleton.2 rfl)
        exact Or.inr ⟨user, hmem, hid, raw, ⟨payload, hemail.symm, rfl, hok⟩, huserId, hhash,
          hexpires⟩

/-- **What comes in with a request.** -/
theorem enters_accountStep (lib : AccountLibraries) (settings : AccountSettings) (s : AccountRun)
    (e : AccountEvent) :
    Enters lib.toAuthLibraries settings s (accountStep lib settings s e) e := by
  obtain ⟨now, request⟩ := e
  cases request with
  | auth request =>
    cases request with
    | login email password totpCode => exact enters_login email password totpCode
    | refresh token =>
      refine AuthDatabase.Quiet.enters ?_
      have hdb : (accountStep lib settings s ⟨now, .auth (.refresh token)⟩).db =
          (refresh lib.toAuthLibraries settings.toAuthSettings now s.db token).1 := answered_db ..
      rw [hdb]
      exact quiet_refresh token
    | logout credentials => exact (quiet_logout credentials).enters
    | logoutAll credentials => exact (quiet_logoutAll credentials).enters
    | revokeSession credentials sessionId => exact (quiet_revokeSession credentials sessionId).enters
    | changePassword credentials currentPassword newPassword =>
      exact (quiet_changePassword credentials currentPassword newPassword).enters
    | forgotPassword email delivered => exact (quiet_forgotPassword email delivered).enters
    | resetPassword token password => exact (quiet_resetPassword token password).enters
  | apiKey request => exact (quiet_handle lib.toAuthLibraries request).enters
  | register payload delivered => exact enters_register payload delivered
  | verifyEmail token => exact (quiet_verifyEmail token).enters
  | createAdmin email password confirmation =>
    exact (quiet_createAdmin email password confirmation).enters
  | mfaSetup credentials => exact (quiet_mfaSetup credentials).enters
  | mfaVerify credentials code => exact (quiet_mfaVerify credentials code).enters
  | mfaDisable credentials password code => exact (quiet_mfaDisable credentials password code).enters

end QuietSteps

end GnkAlgo
