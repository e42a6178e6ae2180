import GnkAlgo.Auth.SecondFactor
import GnkAlgo.Auth.Standing
import GnkAlgo.Lib.History

/-!
# Accounts over runs of requests

Three results on what runs of requests can make of the accounts, of one another's
sessions and of the administrators.

* `accounts_guarded` — an account is verified by the command line or by whoever shows
  the token that was sent to its address, while it is good; only verified users have
  sessions; and nobody is an administrator where the command line made none;
* `disabled_refused` — a user who was disabled is refused by every way in, until an
  administrator activates the account again;
* `admin_remains_iff` — an active administrator remains for as long as the last one
  does not give the role up: `update_user` forbids that one disables oneself, not that.
-/

namespace GnkAlgo

open Transition

/-! ## Verification -/

/-- A registration of the address, at the moment `sentAt`, that sends the token. -/
def AccountEvent.Sends (lib : AuthLibraries) (settings : AccountSettings) (email raw : String)
    (sentAt : Time) (s : AccountRun) (e : AccountEvent) : Prop :=
  e.now = sentAt ∧ ∃ payload : RegisterRequest, payload.email = email ∧
    e.request = .register payload true ∧ (register lib settings e.now s.db payload true).2 = .ok raw

/-- The token is shown while it is good. -/
def AccountEvent.ShowsToken (settings : AccountSettings) (raw : String) (sentAt : Time)
    (_ : AccountRun) (e : AccountEvent) : Prop :=
  e.request = .verifyEmail raw ∧ e.now < sentAt + minutes (60 * settings.verificationTokenHours)

/-- The command line has made an administrator. -/
def AdminCreated (lib : AccountLibraries) (settings : AccountSettings) (start : AccountRun)
    (es : List AccountEvent) : Prop :=
  ∃ email, Happened (accountStep lib settings) start
    (fun s e => e.CreatesAdmin lib.toAuthLibraries s.db email) es

/-- Why an account is verified after the events `es`. -/
def VerifiedBy (lib : AccountLibraries) (settings : AccountSettings) (start : AccountRun)
    (email : String) (es : List AccountEvent) : Prop :=
  Happened (accountStep lib settings) start
      (fun s e => e.CreatesAdmin lib.toAuthLibraries s.db email) es ∨
    ∃ raw sentAt, HappenedThen (accountStep lib settings) start
      (AccountEvent.Sends lib.toAuthLibraries settings email raw sentAt)
      (AccountEvent.ShowsToken settings raw sentAt) es

/-- What is known of the tables after the events `es`. -/
structure AccountRun.Founded (s : AccountRun) (lib : AccountLibraries)
    (settings : AccountSettings) (start : AccountRun) (es : List AccountEvent) : Prop where
  table : s.db.UserTable
  emails : (s.db.users.map User.email).Nodup
  sessions : ∀ x ∈ s.db.sessions, ∃ user ∈ s.db.users, user.id = x.userId ∧ user.isVerified
  tokens : ∀ row ∈ s.db.oneTimeTokens, row.purpose = .verifyEmail →
    ∃ user ∈ s.db.users, user.id = row.userId ∧ ∃ raw, Happened (accountStep lib settings) start
      (fun s e => e.Mails lib.toAuthLibraries settings s.db user.email raw row) es
  verified : ∀ user ∈ s.db.users, user.isVerified → VerifiedBy lib settings start user.email es

section Verification

variable {lib : AccountLibraries} {settings : AccountSettings} {start s : AccountRun}
  {es : List AccountEvent} {e : AccountEvent} {d : AuthDatabase} {email raw : String}

theorem VerifiedBy.snoc (h : VerifiedBy lib settings start email es) (e : AccountEvent) :
    VerifiedBy lib settings start email (es ++ [e]) := by
  rcases h with hmade | ⟨raw, sentAt, hshown⟩
  · exact Or.inl (hmade.snoc e)
  · exact Or.inr ⟨raw, sentAt, hshown.snoc e⟩

theorem checkToken_some {lib : AuthLibraries} {now : Time} {token : String}
    {purpose : TokenPurpose} {row : OneTimeToken}
    (h : checkToken lib now d token purpose = some row) :
    row.tokenHash = lib.hashToken token ∧ row.purpose = purpose ∧ now < row.expiresAt := by
  unfold checkToken at h
  split at h
  · cases h
  rename_i found hfound
  split at h
  · cases h
  · rename_i hgood
    cases h
    have hfields := List.find?_some hfound
    obtain ⟨hhash, hpurpose⟩ := of_decide_eq_true hfields
    exact ⟨hhash, hpurpose, not_le.1 (not_or.1 hgood).2⟩

/-- What a row of a token was mailed with does not change when it is used. -/
theorem AccountEvent.Mails.of_issued {lib : AuthLibraries} {old row : OneTimeToken}
    (h : e.Mails lib settings d email raw old) (hissued : old.issued = row.issued) :
    e.Mails lib settings d email raw row := by
  have huser : old.issued.userId = row.issued.userId := by rw [hissued]
  have hhash : old.issued.tokenHash = row.issued.tokenHash := by rw [hissued]
  have hexpires : old.issued.expiresAt = row.issued.expiresAt := by rw [hissued]
  exact ⟨h.sent, huser.symm.trans h.userId, hhash.symm.trans h.tokenHash,
    hexpires.symm.trans h.expiresAt⟩

/-- A verification that passes shows the token that was sent to the address. -/
theorem AccountRun.Founded.verifies (h : s.Founded lib settings start es)
    (hhash : Function.Injective lib.hashToken)
    (hrun : Run (Steps (accountStep lib settings)) start es s) {user : User}
    (huser : user ∈ s.db.users) (hverifies : e.Verifies lib.toAuthLibraries s.db user.id) :
    VerifiedBy lib settings start user.email (es ++ [e]) := by
  obtain ⟨token, row, he, hcheck, hown⟩ := hverifies
  obtain ⟨htoken, hpurpose, hgood⟩ := checkToken_some hcheck
  obtain ⟨owner, howner, hid, raw, before, sent, after, rfl, hmails⟩ :=
    h.tokens row (mem_of_checkToken hcheck) hpurpose
  obtain rfl := List.inj_on_of_nodup_map h.table.ids howner huser (hid.trans hown)
  obtain rfl := hhash (htoken.symm.trans hmails.tokenHash)
  have hexpires := hmails.expiresAt
  have hsends : Happened (accountStep lib settings) start
      (AccountEvent.Sends lib.toAuthLibraries settings owner.email token sent.now)
      (before ++ sent :: after) := ⟨before, sent, after, rfl, rfl, hmails.sent⟩
  exact Or.inr ⟨token, sent.now, .last hsends hrun ⟨he, hexpires ▸ hgood⟩⟩

theorem emails_accountStep (hids : (s.db.users.map User.id).Nodup)
    (h : (s.db.users.map User.email).Nodup) (e : AccountEvent) :
    ((accountStep lib settings s e).db.users.map User.email).Nodup := by
  have hset : ∀ {user new : User}, user ∈ s.db.users → new.id = user.id →
      new.email = user.email → ((s.db.setUser new).users.map User.email).Nodup := by
    intro user new hrow hid hemail
    rw [AuthDatabase.setUser, Rows.map_replaceBy]
    · exact h
    · intro y hy hkey
      rw [List.inj_on_of_nodup_map hids hy hrow (hkey.trans hid), hemail]
  cases accountMove_accountStep hids e with
  | kept haccounts hlog =>
    have hemails : (accountStep lib settings s e).db.accounts.map User.email =
        s.db.accounts.map User.email := by rw [haccounts]
    unfold AuthDatabase.accounts at hemails
    rw [List.map_map, List.map_map] at hemails
    exact (congrArg List.Nodup hemails).mpr h
  | added user hid hbelow hoff hnew hmade husers hlog =>
    rw [husers, List.map_append, List.map_singleton]
    refine h.append (List.nodup_singleton _) (List.disjoint_singleton.2 fun hmem => ?_)
    obtain ⟨x, hx, hsame⟩ := List.mem_map.1 hmem
    exact hnew x hx hsame
  | letIn email password totpCode user remaining he hrow hactive hverified hfactor husers hlog =>
    rw [husers]
    exact hset (List.mem_of_find?_eq_some hrow) rfl rfl
  | verified token row user he hcheck hrow husers hlog =>
    rw [husers]
    exact hset (AuthDatabase.user?_mem hrow) rfl rfl
  | administered credentials userId changes admin user he hadmin hrow hother husers hlog =>
    rw [husers]
    exact hset (AuthDatabase.user?_mem hrow) rfl rfl
  | setUp credentials user sessionId n he hsession hoff husers hlog =>
    rw [husers]
    exact hset (requireSession_row hsession) rfl rfl
  | switchedOn credentials code user sessionId n he hsession hpasses husers hlog =>
    rw [husers]
    exact hset (requireSession_row hsession) rfl rfl
  | switchedOff credentials password code user sessionId he hsession hcode husers hlog =>
    rw [husers]
    exact hset (requireSession_row hsession) rfl rfl

/-- **Every request** keeps what is known. -/
theorem founded_accountStep (h : s.Founded lib settings start es)
    (hhash : Function.Injective lib.hashToken)
    (hrun : Run (Steps (accountStep lib settings)) start es s) (e : AccountEvent) :
    (accountStep lib settings s e).Founded lib settings start (es ++ [e]) := by
  have hrows := rows_accountStep lib settings h.table.ids e
  have henters := enters_accountStep lib settings s e
  refine ⟨userTable_accountStep h.table e, emails_accountStep h.table.ids h.emails e, ?_, ?_, ?_⟩
  · intro x hx
    have hknown : ∃ user ∈ s.db.users, user.id = x.userId ∧ user.isVerified := by
      rcases henters.sessions x hx with ⟨y, hy, -, howner⟩ | ⟨user, huser, hid, -, hverified⟩
      · rw [howner]
        exact h.sessions y hy
      · exact ⟨user, huser, hid, hverified⟩
    obtain ⟨user, huser, hid, hverified⟩ := hknown
    obtain ⟨new, hnew, hbecomes⟩ := hrows.forward user huser
    exact ⟨new, hnew, hbecomes.id.trans hid, hbecomes.verified hverified⟩
  · intro row hrow hpurpose
    rcases henters.tokens row hrow hpurpose with ⟨old, hold, hissued⟩ |
      ⟨user, huser, hid, raw, hmails⟩
    · have hsame : old.issued.purpose = row.issued.purpose := by rw [hissued]
      have howner : old.issued.userId = row.issued.userId := by rw [hissued]
      obtain ⟨user, huser, hid, raw, hmailed⟩ := h.tokens old hold (hsame.trans hpurpose)
      obtain ⟨new, hnew, hbecomes⟩ := hrows.forward user huser
      refine ⟨new, hnew, hbecomes.id.trans (hid.trans howner), raw, ?_⟩
      obtain ⟨before, sent, after, heq, hmails⟩ := hmailed.snoc e
      exact ⟨before, sent, after, heq, hbecomes.email ▸ hmails.of_issued hissued⟩
    · exact ⟨user, huser, hid, raw, .last (p := fun s e =>
        e.Mails lib.toAuthLibraries settings s.db user.email raw row) hrun hmails⟩
  · intro new hnew hverified
    rcases hrows.back new hnew with ⟨user, huser, hbecomes⟩ | ⟨-, hmade⟩
    · rw [hbecomes.email]
      rcases hbecomes.answered hverified with hbefore | hverifies
      · exact (h.verified user huser hbefore).snoc e
      · exact h.verifies hhash hrun huser hverifies
    · exact Or.inl (.last (p := fun s e => e.CreatesAdmin lib.toAuthLibraries s.db new.email) hrun
        (hmade (Or.inr hverified)))

end Verification

/-! ## Principals -/

section Principals

variable {lib : AuthLibraries} {settings : AuthSettings} {now : Time} {d : AuthDatabase}
  {credentials : RequestCredentials}

theorem getPrincipal_active {scopes : List String} {principal : Principal}
    (h : (getPrincipal lib now d scopes credentials).2 = .ok principal) :
    principal.user.isActive := by
  unfold getPrincipal at h
  split at h
  · cases h
  · obtain ⟨key, -, -, -, hactive, -⟩ := (apiKeyPrincipal_cases ..).2 principal h
    exact hactive
  split at h
  · cases h
  unfold bearerPrincipal at h
  split at h
  · cases h
  dsimp only at h
  split at h
  · split at h
    · cases h
    · rename_i hgood
      cases h
      simp only [not_or, not_not] at hgood
      exact hgood.2.2.2
  · cases h

/-- An administrator who is let in is active. -/
theorem requireAdmin_row {admin : User} (h : (requireAdmin lib now d credentials).2 = .ok admin) :
    admin ∈ d.users ∧ admin.role = .admin ∧ admin.isActive := by
  have hrow := @getPrincipal_user d lib now [] credentials
  have hactive := @getPrincipal_active lib now d credentials []
  unfold requireAdmin at h
  generalize getPrincipal lib now d [] credentials = r at hrow hactive h
  obtain ⟨d', _ | principal⟩ := r
  · cases h
  dsimp only at h
  split at h
  · cases h
  split at h
  · cases h
  · rename_i hrole
    cases h
    exact ⟨AuthDatabase.user?_mem (hrow rfl), not_not.1 hrole, hactive rfl⟩

/-- The tokens of a login are for a row that is active. -/
theorem login_sub {email password : String} {totpCode : Option String} {tokens : TokenPair}
    (h : (login lib settings now d email password totpCode).2 = .ok tokens) :
    ∃ user ∈ d.users, user.isActive ∧ tokens.accessToken.sub = user.id := by
  unfold login at h
  split at h
  · cases h
  rename_i user hfind
  split at h
  · cases h
  split at h
  · cases h
  split at h
  · cases h
  rename_i hactive
  split at h
  · cases h
  split at h
  · cases h
  · cases h
    exact ⟨user, List.mem_of_find?_eq_some hfind, not_not.1 hactive, rfl⟩

theorem refresh_sub {token : Option RefreshToken} {tokens : TokenPair}
    (h : (refresh lib settings now d token).2 = .ok tokens) :
    ∃ user ∈ d.users, user.isActive ∧ tokens.accessToken.sub = user.id := by
  cases token with
  | none => cases h
  | some token =>
    rcases refresh_cases lib settings now d token with
      ⟨session, -, -, -, hrefused⟩ | ⟨-, hrefused⟩ | ⟨session, user, -, huser, -, hactive, hok⟩
    · rw [hrefused] at h
      cases h
    · rw [hrefused] at h
      cases h
    · rw [hok] at h
      cases h
      exact ⟨user, AuthDatabase.user?_mem huser, hactive, rfl⟩

theorem consumeTicket_user {tickets : List MarketWsTicket} {raw : String} {user : User}
    (h : (consumeTicket lib now d tickets raw).2 = some user) :
    user ∈ d.users ∧ user.isActive := by
  unfold consumeTicket at h
  split at h
  · cases h
  rename_i ticket _
  split at h
  · cases h
  · rename_i hgood
    have howner : ticketOwner now d ticket := by
      by_contra hnot
      exact hgood (Or.inr (Or.inr hnot))
    change d.user? ticket.userId = some user at h
    unfold ticketOwner at howner
    rw [h] at howner
    exact ⟨AuthDatabase.user?_mem h, (Bool.and_eq_true _ _ ▸ howner).1⟩

end Principals

/-! ## Administrators -/

/-- An administrator who is active. -/
def User.Governs (user : User) : Prop := user.role = .admin ∧ user.isActive

def AuthDatabase.Governed (d : AuthDatabase) : Prop := ∃ user ∈ d.users, user.Governs

/-- The only active administrator gives the role up. -/
def AccountEvent.Abdicates (lib : AuthLibraries) (s : AccountRun) (e : AccountEvent) : Prop :=
  ∃ changes admin, e.Administers lib s.db admin.id changes admin ∧ changes.role = some .retail ∧
    ∀ other ∈ s.db.users, other.Governs → other.id = admin.id

def AuthDatabase.Disabled (d : AuthDatabase) (userId : Uuid) : Prop :=
  ∃ user ∈ d.users, user.id = userId ∧ user.isActive = false

/-- An administrator activates the account. -/
def AccountEvent.Activates (lib : AuthLibraries) (userId : Uuid) (s : AccountRun)
    (e : AccountEvent) : Prop :=
  ∃ changes admin, e.Administers lib s.db userId changes admin ∧ changes.isActive = some true

section Administrators

variable {lib : AccountLibraries} {settings : AccountSettings} {s : AccountRun} {e : AccountEvent}
  {changes changes' : AdminUserUpdate} {admin admin' user : User} {userId userId' : Uuid}

theorem AccountEvent.Administers.governs {lib : AuthLibraries} {d : AuthDatabase}
    (h : e.Administers lib d userId changes admin) : admin ∈ d.users ∧ admin.Governs := by
  obtain ⟨credentials, -, hadmin⟩ := h.asked
  exact requireAdmin_row hadmin

/-- A request changes one user. -/
theorem AccountEvent.Administers.same {lib : AuthLibraries} {d : AuthDatabase}
    (h : e.Administers lib d userId changes admin)
    (h' : e.Administers lib d userId' changes' admin') :
    userId = userId' ∧ changes = changes' ∧ admin = admin' := by
  obtain ⟨credentials, he, hadmin⟩ := h.asked
  obtain ⟨credentials', he', hadmin'⟩ := h'.asked
  cases he.symm.trans he'
  cases hadmin.symm.trans hadmin'
  exact ⟨rfl, rfl, rfl⟩

/-- A user the request is not about governs as before. -/
theorem governed_of_other (hids : (s.db.users.map User.id).Nodup)
    (h : e.Administers lib.toAuthLibraries s.db userId changes admin) (huser : user ∈ s.db.users)
    (hgoverns : user.Governs) (hother : user.id ≠ userId) :
    (accountStep lib settings s e).db.Governed := by
  obtain ⟨new, hnew, hbecomes⟩ :=
    (rows_accountStep lib settings hids e).forward user huser
  rcases hbecomes.columns with ⟨hrole, hactive⟩ | ⟨changes', admin', h', -⟩
  · exact ⟨new, hnew, hrole.trans hgoverns.1, hactive.trans hgoverns.2⟩
  · exact absurd (h'.same h).1 hother

/-- **A request leaves an active administrator**, but where the last one abdicates. -/
theorem governed_accountStep (hids : (s.db.users.map User.id).Nodup) (h : s.db.Governed)
    (hok : ¬ e.Abdicates lib.toAuthLibraries s) :
    (accountStep lib settings s e).db.Governed := by
  obtain ⟨user, huser, hgoverns⟩ := h
  obtain ⟨new, hnew, hbecomes⟩ :=
    (rows_accountStep lib settings hids e).forward user huser
  rcases hbecomes.columns with ⟨hrole, hactive⟩ | ⟨changes, admin, hadministers, rfl⟩
  · exact ⟨new, hnew, hrole.trans hgoverns.1, hactive.trans hgoverns.2⟩
  obtain ⟨hadmin, hadminGoverns⟩ := hadministers.governs
  by_cases hself : admin.id = user.id
  swap
  · exact governed_of_other hids hadministers hadmin hadminGoverns hself
  -- the change is to the administrator who makes it
  obtain rfl := List.inj_on_of_nodup_map hids hadmin huser hself
  by_cases hrole : changes.role = some .retail
  · by_cases halone : ∀ other ∈ s.db.users, other.Governs → other.id = admin.id
    · exact absurd ⟨changes, admin, hadministers, hrole, halone⟩ hok
    · push Not at halone
      obtain ⟨other, hother, hotherGoverns, hne⟩ := halone
      exact governed_of_other hids hadministers hother hotherGoverns hne
  · refine ⟨_, hnew, ?_, ?_⟩
    · change changes.role.getD admin.role = .admin
      cases hchanged : changes.role with
      | none => exact hgoverns.1
      | some role =>
        cases role with
        | admin => rfl
        | retail => exact absurd hchanged hrole
    · change changes.isActive.getD admin.isActive = true
      cases hchanged : changes.isActive with
      | none => exact hgoverns.2
      | some isActive =>
        cases isActive with
        | true => rfl
        | false => exact absurd ⟨rfl, hchanged⟩ hadministers.other

/-- The change is made. -/
theorem updateUser_made {lib : AuthLibraries} {d : AuthDatabase} {now : Time}
    {credentials : RequestCredentials} (hadmin : (requireAdmin lib now d credentials).2 = .ok admin)
    (hrow : d.user? userId = some user)
    (hother : ¬ (user.id = admin.id ∧ changes.isActive = some false)) :
    (updateUser lib now d credentials userId changes).1.users =
      (d.setUser (changes.apply user)).users := by
  have husers := users_requireAdmin lib now d credentials
  unfold updateUser
  generalize requireAdmin lib now d credentials = r at hadmin husers ⊢
  obtain ⟨d', r⟩ := r
  cases hadmin
  have hrow' : d'.user? userId = some user := by
    rw [← hrow, AuthDatabase.user?, AuthDatabase.user?, husers]
  dsimp only
  rw [hrow']
  dsimp only
  rw [if_neg hother, AuthDatabase.setUser, AuthDatabase.setUser, husers]

/-- Where the last one abdicates, none is left. -/
theorem not_governed_accountStep (hids : (s.db.users.map User.id).Nodup)
    (h : e.Abdicates lib.toAuthLibraries s) : ¬ (accountStep lib settings s e).db.Governed := by
  obtain ⟨changes, admin, hadministers, hrole, halone⟩ := h
  obtain ⟨hadmin, -⟩ := hadministers.governs
  obtain ⟨credentials, he, hlet⟩ := hadministers.asked
  have hrow : s.db.user? admin.id = some admin := Rows.find?_key hids hadmin
  have husers : (accountStep lib settings s e).db.users =
      (s.db.setUser (changes.apply admin)).users := by
    obtain ⟨now, request⟩ := e
    cases he
    exact updateUser_made hlet hrow hadministers.other
  rintro ⟨user, huser, hgoverns⟩
  rw [husers] at huser
  rcases Rows.mem_replaceBy huser with rfl | ⟨hold, hne⟩
  · have hretail : (changes.apply admin).role = .retail := congrArg (Option.getD · admin.role) hrole
    cases hgoverns.1.symm.trans hretail
  · exact hne (halone user hold hgoverns)

/-- **A request leaves a disabled user disabled**, but where an administrator activates
the account. -/
theorem disabled_accountStep (hids : (s.db.users.map User.id).Nodup) (h : s.db.Disabled userId)
    (hok : ¬ e.Activates lib.toAuthLibraries userId s) :
    (accountStep lib settings s e).db.Disabled userId := by
  obtain ⟨user, huser, rfl, hinactive⟩ := h
  obtain ⟨new, hnew, hbecomes⟩ :=
    (rows_accountStep lib settings hids e).forward user huser
  refine ⟨new, hnew, hbecomes.id, ?_⟩
  rcases hbecomes.columns with ⟨-, hactive⟩ | ⟨changes, admin, hadministers, rfl⟩
  · exact hactive.trans hinactive
  · change changes.isActive.getD user.isActive = false
    cases hchanged : changes.isActive with
    | none => exact hinactive
    | some isActive =>
      cases isActive with
      | false => rfl
      | true => exact absurd ⟨changes, admin, hadministers, hchanged⟩ hok

/-- A row with the id of a disabled user is inactive. -/
theorem AuthDatabase.Disabled.ne {d : AuthDatabase} (h : d.Disabled userId)
    (hids : (d.users.map User.id).Nodup) (huser : user ∈ d.users) (hactive : user.isActive) :
    user.id ≠ userId := by
  rintro rfl
  obtain ⟨row, hrow, hid, hinactive⟩ := h
  obtain rfl := List.inj_on_of_nodup_map hids hrow huser hid
  exact absurd hactive (by simp [hinactive])

theorem userTable_run {d : AuthDatabase} (husers : d.users = []) {es : List AccountEvent}
    (h : Run (Steps (accountStep lib settings)) ⟨d, []⟩ es s) : s.db.UserTable := by
  refine h.invariant (P := fun s : AccountRun => s.db.UserTable)
    ⟨by simp [husers], by simp [husers]⟩ ?_
  rintro s e _ hs rfl
  exact userTable_accountStep hs e

/-- Where the command line made no administrator, there is none. -/
theorem no_admin_run {d : AuthDatabase} (husers : d.users = []) {es : List AccountEvent}
    (h : Run (Steps (accountStep lib settings)) ⟨d, []⟩ es s)
    (hnone : ¬ AdminCreated lib settings ⟨d, []⟩ es) : ∀ user ∈ s.db.users, user.role ≠ .admin := by
  revert hnone
  refine h.history (P := fun es s => ¬ AdminCreated lib settings ⟨d, []⟩ es →
    ∀ user ∈ s.db.users, user.role ≠ .admin) ?_ ?_
  · intro _ user huser
    rw [husers] at huser
    cases huser
  · intro es s e hrun ih hnone new hnew hadmin
    have hbefore : ∀ user ∈ s.db.users, user.role ≠ .admin := by
      refine ih ?_
      rintro ⟨email, hmade⟩
      exact hnone ⟨email, hmade.snoc e⟩
    have hrows := rows_accountStep lib settings (userTable_run husers hrun).ids e
    rcases hrows.back new hnew with ⟨user, huser, hbecomes⟩ | ⟨-, hmade⟩
    · rcases hbecomes.columns with ⟨hrole, -⟩ | ⟨changes, admin, hadministers, -⟩
      · exact hbefore user huser (hrole.symm.trans hadmin)
      · obtain ⟨hmem, hgoverns⟩ := hadministers.governs
        exact hbefore admin hmem hgoverns.1
    · exact hnone ⟨new.email, .last (p := fun s e => e.CreatesAdmin lib.toAuthLibraries s.db new.email)
        hrun (hmade (Or.inl hadmin))⟩

end Administrators

/-! ## Results -/

/-- **The accounts are guarded.**  Over every run from empty tables no two users share
an address; every session is of a verified user; a user is verified because the command
line made an administrator of the address, or because the token that a registration sent
to the address was shown later, while it was good; and nobody is an administrator where
the command line made none. -/
theorem accounts_guarded {lib : AccountLibraries} (hhash : Function.Injective lib.hashToken)
    (settings : AccountSettings) {d : AuthDatabase} (husers : d.users = [])
    (hsessions : d.sessions = []) (htokens : d.oneTimeTokens = []) {es : List AccountEvent}
    {s : AccountRun} (h : Run (Steps (accountStep lib settings)) ⟨d, []⟩ es s) :
    (s.db.users.map User.email).Nodup ∧
    (∀ session ∈ s.db.sessions, ∃ user ∈ s.db.users,
      user.id = session.userId ∧ user.isVerified) ∧
    (∀ user ∈ s.db.users, user.isVerified → VerifiedBy lib settings ⟨d, []⟩ user.email es) ∧
    (¬ AdminCreated lib settings ⟨d, []⟩ es → ∀ user ∈ s.db.users, user.role ≠ .admin) := by
  have hfounded : s.Founded lib settings ⟨d, []⟩ es := by
    refine h.history (P := fun es s => s.Founded lib settings ⟨d, []⟩ es) ?_ ?_
    · exact ⟨⟨by simp [husers], by simp [husers]⟩, by simp [husers], by simp [hsessions],
        by simp [htokens], by simp [husers]⟩
    · intro es s e hrun hs
      exact founded_accountStep hs hhash hrun e
  exact ⟨hfounded.emails, hfounded.sessions, hfounded.verified, no_admin_run husers h⟩

/-- The user of the recovery code is alone under the email, and no administrator. -/
theorem accounts_guarded_recovered : (recoveredRun.db.users.map User.email).Nodup ∧
    ∀ user ∈ recoveredRun.db.users, user.role ≠ .admin := by
  have hhash : Function.Injective accountLibraries.hashToken := sampleDigest_injective
  have hguarded := accounts_guarded hhash {} (d := {}) rfl rfl rfl (run_foldl _ _ recoveryEvents)
  refine ⟨hguarded.1, hguarded.2.2.2 ?_⟩
  rintro ⟨email, before, e, after, heq, password, confirmation, hrequest, -⟩
  have he : e ∈ recoveryEvents := heq ▸ List.mem_append_right _ (List.mem_cons_self ..)
  fin_cases he <;> cases hrequest

/-- **A disabled user is refused** by every way in: after a run of requests in which no
administrator activates the account, no credential is accepted as the user's, no login,
refresh or ticket lets the user in, and the user has no session that was not there. -/
theorem disabled_refused {lib : AccountLibraries} {settings : AccountSettings} {d : AuthDatabase}
    (husers : d.users = []) {es fs : List AccountEvent} {s t : AccountRun}
    (h : Run (Steps (accountStep lib settings)) ⟨d, []⟩ es s) {userId : Uuid}
    (hdisabled : s.db.Disabled userId)
    (h' : Run (Guarded (fun s e => ¬ e.Activates lib.toAuthLibraries userId s)
      (Steps (accountStep lib settings))) s fs t) :
    (∀ now scopes credentials principal,
      (getPrincipal lib.toAuthLibraries now t.db scopes credentials).2 = .ok principal →
        principal.user.id ≠ userId) ∧
    (∀ now email password totpCode tokens,
      (login lib.toAuthLibraries settings.toAuthSettings now t.db email password totpCode).2 =
        .ok tokens → tokens.accessToken.sub ≠ userId) ∧
    (∀ now token tokens,
      (refresh lib.toAuthLibraries settings.toAuthSettings now t.db token).2 = .ok tokens →
        tokens.accessToken.sub ≠ userId) ∧
    (∀ now tickets raw user,
      (consumeTicket lib.toAuthLibraries now t.db tickets raw).2 = some user →
        user.id ≠ userId) ∧
    ∀ x ∈ t.db.sessions, x.userId = userId → ∃ y ∈ s.db.sessions, x.id = y.id ∧ y.userId = userId := by
  have hstart := userTable_run husers h
  have hkept : t.db.UserTable ∧ t.db.Disabled userId ∧ ∀ x ∈ t.db.sessions, x.userId = userId →
      ∃ y ∈ s.db.sessions, x.id = y.id ∧ y.userId = userId := by
    refine h'.invariant (P := fun t : AccountRun => t.db.UserTable ∧ t.db.Disabled userId ∧
      ∀ x ∈ t.db.sessions, x.userId = userId → ∃ y ∈ s.db.sessions, x.id = y.id ∧ y.userId = userId)
      ⟨hstart, hdisabled, fun x hx howner => ⟨x, hx, rfl, howner⟩⟩ ?_
    rintro t e _ ⟨htable, hstill, hsessions⟩ ⟨hok, rfl⟩
    refine ⟨userTable_accountStep htable e, disabled_accountStep htable.ids hstill hok, ?_⟩
    intro x hx howner
    rcases (enters_accountStep lib settings t e).sessions x hx with ⟨y, hy, hid, huser⟩ |
      ⟨user, huser, hid, hactive, -⟩
    · obtain ⟨z, hz, hid', huser'⟩ := hsessions y hy (huser.symm.trans howner)
      exact ⟨z, hz, hid.trans hid', huser'⟩
    · exact absurd (hid.trans howner) (hstill.ne htable.ids huser hactive)
  obtain ⟨htable, hstill, hsessions⟩ := hkept
  refine ⟨?_, ?_, ?_, ?_, hsessions⟩
  · intro now scopes credentials principal hok
    exact hstill.ne htable.ids (AuthDatabase.user?_mem (getPrincipal_user hok))
      (getPrincipal_active hok)
  · intro now email password totpCode tokens hok
    obtain ⟨user, huser, hactive, hsub⟩ := login_sub hok
    exact hsub ▸ hstill.ne htable.ids huser hactive
  · intro now token tokens hok
    obtain ⟨user, huser, hactive, hsub⟩ := refresh_sub hok
    exact hsub ▸ hstill.ne htable.ids huser hactive
  · intro now tickets raw user hok
    obtain ⟨huser, hactive⟩ := consumeTicket_user hok
    exact hstill.ne htable.ids huser hactive

/-- The bearer token of the administrator below. -/
def adminBearer : RequestCredentials where
  bearer := some (createAccessToken {} 3 0 3 .admin)

/-- An administrator is made, a user registers, both log in, and the user is disabled. -/
def disablingEvents : List AccountEvent := [
  ⟨0, .createAdmin "a@example.com" "Correct-horse-1" "Correct-horse-1"⟩,
  ⟨1, .register ⟨"u@example.com", "Correct-horse-1", "Correct-horse-1", horse_length, rfl⟩ true⟩,
  ⟨2, .verifyEmail ""⟩,
  ⟨3, .auth (.login "a@example.com" "Correct-horse-1" none)⟩,
  ⟨4, .auth (.login "u@example.com" "Correct-horse-1" none)⟩,
  ⟨5, .apiKey (.updateUser adminBearer 1 { isActive := some false })⟩]

def disablingRun : AccountRun :=
  disablingEvents.foldl (accountStep accountLibraries {}) ⟨{}, []⟩

/-- The session the user had is good for nothing. -/
theorem disabled_refused_disabling : ¬ ∃ principal, (getPrincipal accountLibraries.toAuthLibraries 7
    (accountStep accountLibraries {} disablingRun ⟨6, .auth (.refresh (some ⟨4, "aa"⟩))⟩).db []
      { bearer := some (createAccessToken {} 4 1 4 .retail) }).2 = .ok principal ∧
    principal.user.id = 1 := by
  have hdisabled : disablingRun.db.Disabled 1 := by
    unfold AuthDatabase.Disabled
    decide +kernel
  have hrefused := disabled_refused (d := {}) rfl (run_foldl _ _ disablingEvents) hdisabled
    (.single (e := ⟨6, .auth (.refresh (some ⟨4, "aa"⟩))⟩) ⟨?_, rfl⟩)
  · rintro ⟨principal, hok, hid⟩
    exact hrefused.1 _ _ _ _ hok hid
  · rintro ⟨changes, admin, ⟨⟨credentials, hrequest, -⟩, -⟩, -⟩
    cases hrequest

/-- **An active administrator remains** in every state of a run exactly when none of its
requests takes the role from the last one by that one's own hand. -/
theorem admin_remains_iff {lib : AccountLibraries} {settings : AccountSettings} {d : AuthDatabase}
    (husers : d.users = []) {es : List AccountEvent} {s : AccountRun}
    (h : Run (Steps (accountStep lib settings)) ⟨d, []⟩ es s) (hgoverned : s.db.Governed)
    (fs : List AccountEvent) :
    (∀ before after, fs = before ++ after →
      (before.foldl (accountStep lib settings) s).db.Governed) ↔
    Run (Guarded (fun s e => ¬ e.Abdicates lib.toAuthLibraries s) (Steps (accountStep lib settings)))
      s fs (fs.foldl (accountStep lib settings) s) := by
  refine guarded_run_invariant_iff (P := fun s : AccountRun => s.db.Governed)
    (I := fun s => s.db.UserTable ∧ s.db.Governed) ⟨userTable_run husers h, hgoverned⟩
    (fun _ hs => hs.2) ?_ ?_
  · intro s e hs hok
    exact ⟨userTable_accountStep hs.1 e, governed_accountStep hs.1.ids hs.2 hok⟩
  · intro s e hs hstill habdicates
    exact not_governed_accountStep hs.1.ids habdicates hstill

/-- The administrator gives the role up. -/
def abdication : AccountEvent := ⟨6, .apiKey (.updateUser adminBearer 0 { role := some .retail })⟩

/-- After which there is none. -/
theorem admin_remains_iff_abdication : ¬ ∀ before after, [abdication] = before ++ after →
    (before.foldl (accountStep accountLibraries {}) disablingRun).db.Governed := by
  have hgoverned : disablingRun.db.Governed := by
    unfold AuthDatabase.Governed User.Governs
    decide +kernel
  have halone : ∀ other ∈ disablingRun.db.users, other.Governs → other.id = 0 := by
    unfold User.Governs
    decide +kernel
  have hlet : ((requireAdmin accountLibraries.toAuthLibraries 6 disablingRun.db
      adminBearer).2.toOption.map User.id) = some 0 := by
    decide +kernel
  have hiff := admin_remains_iff (s := disablingRun) (d := {}) rfl (run_foldl _ _ disablingEvents)
    hgoverned [abdication]
  intro hkept
  refine run_guarded_iff.1 (hiff.1 hkept) [] abdication [] rfl ?_
  obtain ⟨admin, hadmin, hid⟩ := Option.map_eq_some_iff.1 hlet
  have hok : (requireAdmin accountLibraries.toAuthLibraries 6 disablingRun.db adminBearer).2 =
      .ok admin := by
    generalize (requireAdmin accountLibraries.toAuthLibraries 6 disablingRun.db adminBearer).2 = r
      at hadmin ⊢
    cases r with
    | error e => cases hadmin
    | ok found => cases hadmin; rfl
  refine ⟨{ role := some .retail }, admin, ?_, rfl, fun other hother hgoverns => ?_⟩
  · rw [hid]
    exact ⟨⟨adminBearer, rfl, hok⟩, by simp⟩
  · exact (halone other hother hgoverns).trans hid.symm

end GnkAlgo
