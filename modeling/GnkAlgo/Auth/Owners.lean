import GnkAlgo.Auth.ApiKeys

/-!
# The owners of sessions and API keys

A session and an API key belong to one user for as long as there is a row with
their id: every handler keeps the owner of each row, and gives a new row an id that
was never used.

* `AuthDatabase.Grows` — what the handlers do to the rows;
* `grows_authStep`, `grows_handle` — every request of the routers;
* `AuthDatabase.KeyTable`, `AuthDatabase.SessionTable` — how the rows can be told
  apart.
-/

namespace GnkAlgo

/-! ## Rows and their owners -/

/-- The keys can be told apart by their ids, which are below the next, and by their
public ids; each was stored with the digest of a secret. -/
structure AuthDatabase.KeyTable (lib : AuthLibraries) (d : AuthDatabase) : Prop where
  ids : (d.apiKeys.map ApiKey.id).Nodup
  publicIds : (d.apiKeys.map ApiKey.publicId).Nodup
  fresh : ∀ key ∈ d.apiKeys, key.id < d.nextUuid
  secrets : ∀ key ∈ d.apiKeys, ∃ secret, lib.apiDigest secret = key.secretHash

/-- The sessions can be told apart by their ids, which are below the next. -/
structure AuthDatabase.SessionTable (d : AuthDatabase) : Prop where
  ids : (d.sessions.map UserSession.id).Nodup
  fresh : ∀ s ∈ d.sessions, s.id < d.nextUuid

/-- Each row has the id and the owner of a row there was, or an id that is new. -/
structure AuthDatabase.Grows (lib : AuthLibraries) (d d' : AuthDatabase) : Prop where
  nextUuid : d.nextUuid ≤ d'.nextUuid
  sessions : ∀ s' ∈ d'.sessions, (∃ s ∈ d.sessions, s'.id = s.id ∧ s'.userId = s.userId) ∨
    d.nextUuid ≤ s'.id
  keys : ∀ key' ∈ d'.apiKeys, (∃ key ∈ d.apiKeys, key'.id = key.id ∧ key'.userId = key.userId) ∨
    d.nextUuid ≤ key'.id
  sessionTable : d.SessionTable → d'.SessionTable
  keyTable : d.KeyTable lib → d'.KeyTable lib

/-- A key later, with what it is found and checked by. -/
structure ApiKey.SameKey (key key' : ApiKey) : Prop where
  id : key'.id = key.id
  userId : key'.userId = key.userId
  publicId : key'.publicId = key.publicId
  secretHash : key'.secretHash = key.secretHash

theorem ApiKey.sameKey_expireIfDue (key : ApiKey) (now : Time) :
    key.SameKey (key.expireIfDue now) := by
  unfold ApiKey.expireIfDue
  split <;> exact ⟨rfl, rfl, rfl, rfl⟩

namespace AuthDatabase

variable {lib : AuthLibraries} {d d' d'' : AuthDatabase}

theorem KeyTable.of_rows (h : d.KeyTable lib) (hkeys : d'.apiKeys = d.apiKeys)
    (hnext : d.nextUuid ≤ d'.nextUuid) : d'.KeyTable lib where
  ids := hkeys ▸ h.ids
  publicIds := hkeys ▸ h.publicIds
  fresh key hkey := (h.fresh key (hkeys ▸ hkey)).trans_le hnext
  secrets key hkey := h.secrets key (hkeys ▸ hkey)

theorem SessionTable.of_rows (h : d.SessionTable) (hsessions : d'.sessions = d.sessions)
    (hnext : d.nextUuid ≤ d'.nextUuid) : d'.SessionTable where
  ids := hsessions ▸ h.ids
  fresh s hs := (h.fresh s (hsessions ▸ hs)).trans_le hnext

theorem Grows.of_rows (hsessions : d'.sessions = d.sessions) (hkeys : d'.apiKeys = d.apiKeys)
    (hnext : d.nextUuid ≤ d'.nextUuid) : d.Grows lib d' where
  nextUuid := hnext
  sessions s' hs' := Or.inl ⟨s', hsessions ▸ hs', rfl, rfl⟩
  keys key' hkey' := Or.inl ⟨key', hkeys ▸ hkey', rfl, rfl⟩
  sessionTable h := h.of_rows hsessions hnext
  keyTable h := h.of_rows hkeys hnext

theorem Grows.refl (d : AuthDatabase) : d.Grows lib d := .of_rows rfl rfl le_rfl

theorem Grows.trans (h : d.Grows lib d') (h' : d'.Grows lib d'') : d.Grows lib d'' where
  nextUuid := h.nextUuid.trans h'.nextUuid
  sessions s'' hs'' := by
    rcases h'.sessions s'' hs'' with ⟨s', hs', hid', huser'⟩ | hnew
    · rcases h.sessions s' hs' with ⟨s, hs, hid, huser⟩ | hnew
      · exact Or.inl ⟨s, hs, hid'.trans hid, huser'.trans huser⟩
      · exact Or.inr (hid' ▸ hnew)
    · exact Or.inr (h.nextUuid.trans hnew)
  keys key'' hkey'' := by
    rcases h'.keys key'' hkey'' with ⟨key', hkey', hid', huser'⟩ | hnew
    · rcases h.keys key' hkey' with ⟨key, hkey, hid, huser⟩ | hnew
      · exact Or.inl ⟨key, hkey, hid'.trans hid, huser'.trans huser⟩
      · exact Or.inr (hid' ▸ hnew)
    · exact Or.inr (h.nextUuid.trans hnew)
  sessionTable := h'.sessionTable ∘ h.sessionTable
  keyTable := h'.keyTable ∘ h.keyTable

/-- A session is rewritten under its id and owner. -/
theorem Grows.setSession {s new : UserSession} {id : Uuid} (hs : d.session? id = some s)
    (hid : new.id = s.id) (huser : new.userId = s.userId) : d.Grows lib (d.setSession new) where
  nextUuid := le_rfl
  sessions s' hs' := by
    rcases Rows.mem_replaceBy hs' with rfl | ⟨hold, -⟩
    · exact Or.inl ⟨s, (session?_mem hs).1, hid, huser⟩
    · exact Or.inl ⟨s', hold, rfl, rfl⟩
  keys key' hkey' := Or.inl ⟨key', hkey', rfl, rfl⟩
  sessionTable h := by
    refine ⟨?_, fun s' hs' => ?_⟩
    · rw [AuthDatabase.setSession, Rows.map_key_replaceBy]
      exact h.ids
    · rcases Rows.mem_replaceBy hs' with rfl | ⟨hold, -⟩
      · exact hid ▸ h.fresh s (session?_mem hs).1
      · exact h.fresh s' hold
  keyTable h := h.of_rows rfl le_rfl

theorem Grows.revokeWhere (p : UserSession → Bool) (now : Time) :
    d.Grows lib (d.revokeWhere p now) where
  nextUuid := le_rfl
  sessions s' hs' := by
    obtain ⟨s, hs, rfl⟩ := List.mem_map.1 hs'
    refine Or.inl ⟨s, hs, ?_⟩
    split
    · exact ⟨rfl, rfl⟩
    · exact ⟨rfl, rfl⟩
  keys key' hkey' := Or.inl ⟨key', hkey', rfl, rfl⟩
  sessionTable h := by
    have hkept := Kept.revokeWhere (d := d) p now
    refine ⟨hkept.ids ▸ h.ids, fun s' hs' => ?_⟩
    obtain ⟨s, hs, htight⟩ := hkept.exists_of_mem hs'
    exact htight.id ▸ h.fresh s hs
  keyTable h := h.of_rows rfl le_rfl

theorem Grows.setApiKey {key key' : ApiKey} (hkey : key ∈ d.apiKeys) (h : key.SameKey key') :
    d.Grows lib (d.setApiKey key') where
  nextUuid := le_rfl
  sessions s hs := Or.inl ⟨s, hs, rfl, rfl⟩
  keys k hk := by
    rcases Rows.mem_replaceBy hk with rfl | ⟨hold, -⟩
    · exact Or.inl ⟨key, hkey, h.id, h.userId⟩
    · exact Or.inl ⟨k, hold, rfl, rfl⟩
  sessionTable h := h.of_rows rfl le_rfl
  keyTable htable := by
    have hpublic : (d.setApiKey key').apiKeys.map ApiKey.publicId =
        d.apiKeys.map ApiKey.publicId :=
      Rows.map_replaceBy fun y hy hid => by
        rw [List.inj_on_of_nodup_map htable.ids hy hkey (hid.trans h.id), h.publicId]
    refine ⟨?_, hpublic ▸ htable.publicIds, fun k hk => ?_, fun k hk => ?_⟩
    · rw [AuthDatabase.setApiKey, Rows.map_key_replaceBy]
      exact htable.ids
    · rcases Rows.mem_replaceBy hk with rfl | ⟨hold, -⟩
      · exact h.id ▸ htable.fresh key hkey
      · exact htable.fresh k hold
    · rcases Rows.mem_replaceBy hk with rfl | ⟨hold, -⟩
      · exact h.secretHash ▸ htable.secrets key hkey
      · exact htable.secrets k hold

theorem Grows.addApiKey {key : ApiKey} (hid : key.id = d.nextUuid)
    (hsecret : ∃ secret, lib.apiDigest secret = key.secretHash) :
    d.Grows lib (d.addApiKey key).1 := by
  unfold AuthDatabase.addApiKey
  split
  · exact .refl d
  rename_i hunused
  refine ⟨Nat.le_succ _, fun s hs => Or.inl ⟨s, hs, rfl, rfl⟩, fun k hk => ?_,
    fun h => h.of_rows rfl (Nat.le_succ _), fun htable => ?_⟩
  · rcases List.mem_append.1 hk with hold | hnew
    · exact Or.inl ⟨k, hold, rfl, rfl⟩
    · rw [List.mem_singleton.1 hnew, hid]
      exact Or.inr le_rfl
  · refine ⟨?_, ?_, fun k hk => ?_, fun k hk => ?_⟩
    · rw [List.map_append, List.map_singleton]
      refine htable.ids.append (List.nodup_singleton _) (List.disjoint_singleton.2 fun hmem => ?_)
      obtain ⟨k, hk, hsame⟩ := List.mem_map.1 hmem
      exact absurd (htable.fresh k hk) (by rw [hsame, hid]; exact lt_irrefl _)
    · rw [List.map_append, List.map_singleton]
      refine htable.publicIds.append (List.nodup_singleton _)
        (List.disjoint_singleton.2 fun hmem => ?_)
      obtain ⟨k, hk, hsame⟩ := List.mem_map.1 hmem
      exact hunused ⟨k, hk, hsame⟩
    · rcases List.mem_append.1 hk with hold | hnew
      · exact (htable.fresh k hold).trans (Nat.lt_succ_self _)
      · rw [List.mem_singleton.1 hnew, hid]
        exact Nat.lt_succ_self _
    · rcases List.mem_append.1 hk with hold | hnew
      · exact htable.secrets k hold
      · rw [List.mem_singleton.1 hnew]
        exact hsecret

theorem Grows.filterApiKeys (p : ApiKey → Bool) :
    d.Grows lib { d with apiKeys := d.apiKeys.filter p } where
  nextUuid := le_rfl
  sessions s hs := Or.inl ⟨s, hs, rfl, rfl⟩
  keys k hk := Or.inl ⟨k, List.mem_of_mem_filter hk, rfl, rfl⟩
  sessionTable h := h.of_rows rfl le_rfl
  keyTable htable := {
    ids := htable.ids.sublist (List.filter_sublist.map _)
    publicIds := htable.publicIds.sublist (List.filter_sublist.map _)
    fresh := fun k hk => htable.fresh k (List.mem_of_mem_filter hk)
    secrets := fun k hk => htable.secrets k (List.mem_of_mem_filter hk) }

theorem Grows.issue (settings : AuthSettings) (now : Time) (user : User) :
    d.Grows lib (GnkAlgo.issue lib settings now d user).1 where
  nextUuid := Nat.le_succ _
  sessions s' hs' := by
    rcases List.mem_append.1 hs' with hold | hnew
    · exact Or.inl ⟨s', hold, rfl, rfl⟩
    · rw [List.mem_singleton.1 hnew]
      exact Or.inr le_rfl
  keys k hk := Or.inl ⟨k, hk, rfl, rfl⟩
  sessionTable h := by
    refine ⟨?_, fun s' hs' => ?_⟩
    · have hmap : (GnkAlgo.issue lib settings now d user).1.sessions.map UserSession.id =
          d.sessions.map UserSession.id ++ [d.nextUuid] := List.map_append
      rw [hmap]
      refine h.ids.append (List.nodup_singleton _) (List.disjoint_singleton.2 fun hmem => ?_)
      obtain ⟨s, hs, hsame⟩ := List.mem_map.1 hmem
      exact absurd (h.fresh s hs) (hsame ▸ lt_irrefl _)
    · rcases List.mem_append.1 hs' with hold | hnew
      · exact (h.fresh s' hold).trans (Nat.lt_succ_self _)
      · rw [List.mem_singleton.1 hnew]
        exact Nat.lt_succ_self _
  keyTable htable := htable.of_rows rfl (Nat.le_succ _)

end AuthDatabase

/-! ## Principals -/

section Principals

variable {lib : AuthLibraries} {now : Time} {d : AuthDatabase} {scopes : List String}
  {credentials : RequestCredentials}

theorem grows_apiKeyPrincipal (publicId secret : String) :
    d.Grows lib (apiKeyPrincipal lib now d scopes publicId secret).1 := by
  unfold apiKeyPrincipal
  split
  · exact .refl d
  rename_i key hfind
  have hmem : key ∈ d.apiKeys := List.mem_of_find?_eq_some hfind
  have hexpire := key.sameKey_expireIfDue now
  have hset : d.Grows lib (d.setApiKey (key.expireIfDue now)) := .setApiKey hmem hexpire
  have hstill : key.expireIfDue now ∈ (d.setApiKey (key.expireIfDue now)).apiKeys :=
    Rows.mem_replaceBy_self hmem hexpire.id.symm
  dsimp only
  split
  · exact hset
  split
  · exact hset
  split
  · exact hset
  split
  · exact hset
  · exact hset.trans (.setApiKey hstill ⟨rfl, rfl, rfl, rfl⟩)

theorem grows_bearerPrincipal (token : AccessToken) :
    d.Grows lib (bearerPrincipal now d token).1 := by
  unfold bearerPrincipal
  split
  · exact .refl d
  dsimp only
  split
  · rename_i session user hsession _
    split
    · exact .refl d
    · exact .setSession hsession rfl rfl
  · exact .refl d

theorem grows_getPrincipal (lib : AuthLibraries) (now : Time) (d : AuthDatabase)
    (scopes : List String) (credentials : RequestCredentials) :
    d.Grows lib (getPrincipal lib now d scopes credentials).1 := by
  unfold getPrincipal
  split
  · exact .refl d
  · exact grows_apiKeyPrincipal ..
  · split
    · exact .refl d
    · exact grows_bearerPrincipal _

theorem grows_requireSession (lib : AuthLibraries) (now : Time) (d : AuthDatabase)
    (credentials : RequestCredentials) : d.Grows lib (requireSession lib now d credentials).1 := by
  have h := grows_getPrincipal lib now d [] credentials
  unfold requireSession
  generalize getPrincipal lib now d [] credentials = r at h ⊢
  obtain ⟨d', e | principal⟩ := r
  · exact h
  · dsimp only
    split <;> exact h

theorem grows_requireAdmin (lib : AuthLibraries) (now : Time) (d : AuthDatabase)
    (credentials : RequestCredentials) : d.Grows lib (requireAdmin lib now d credentials).1 := by
  have h := grows_getPrincipal lib now d [] credentials
  unfold requireAdmin
  generalize getPrincipal lib now d [] credentials = r at h ⊢
  obtain ⟨d', e | principal⟩ := r
  · exact h
  · dsimp only
    split
    · exact h
    · split <;> exact h

end Principals

/-! ## The routers -/

section Handlers

variable {lib : AuthLibraries} {settings : AuthSettings} {now : Time} {d : AuthDatabase}
  {credentials : RequestCredentials}

theorem grows_login (email password : String) (totpCode : Option String) :
    d.Grows lib (login lib settings now d email password totpCode).1 := by
  unfold login
  split
  · exact .refl d
  split
  · exact .refl d
  split
  · exact .of_rows rfl rfl le_rfl
  split
  · exact .refl d
  split
  · exact .refl d
  split
  · exact .refl d
  · have huser : ∀ user : User, d.Grows lib (d.setUser user) := fun _ => .of_rows rfl rfl le_rfl
    exact (huser _).trans (.issue settings now _)

theorem grows_refresh (token : Option RefreshToken) :
    d.Grows lib (refresh lib settings now d token).1 := by
  unfold refresh
  split
  · exact .refl d
  split
  · exact .refl d
  rename_i session hsession
  split
  · split
    · exact .setSession hsession rfl rfl
    · exact .refl d
  split
  · exact .refl d
  split
  · exact .refl d
  · have hrotated : d.Grows lib (d.setSession { session with
        refreshTokenHash := lib.hashToken (lib.secretAt d.drawn), lastSeenAt := now }) :=
      .setSession hsession rfl rfl
    exact hrotated.trans (.of_rows rfl rfl le_rfl)

theorem grows_logout : d.Grows lib (logout lib now d credentials).1 := by
  have h := grows_requireSession lib now d credentials
  unfold logout
  generalize requireSession lib now d credentials = r at h ⊢
  obtain ⟨d', e | ⟨user, sessionId⟩⟩ := r
  · exact h
  dsimp only at h ⊢
  split
  · exact h
  · rename_i session hsession
    exact h.trans (.setSession hsession rfl rfl)

theorem grows_logoutAll : d.Grows lib (logoutAll lib now d credentials).1 := by
  have h := grows_requireSession lib now d credentials
  unfold logoutAll
  generalize requireSession lib now d credentials = r at h ⊢
  obtain ⟨d', e | ⟨user, sessionId⟩⟩ := r
  · exact h
  · exact h.trans (.revokeWhere _ _)

theorem grows_revokeSession (sessionId : Uuid) :
    d.Grows lib (revokeSession lib now d credentials sessionId).1 := by
  have h := grows_requireSession lib now d credentials
  unfold revokeSession
  generalize requireSession lib now d credentials = r at h ⊢
  obtain ⟨d', e | ⟨user, own⟩⟩ := r
  · exact h
  dsimp only at h ⊢
  split
  · exact h
  rename_i session hsession
  split
  · exact h
  split
  · exact h.trans (.setSession hsession rfl rfl)
  · exact h

theorem grows_changePassword (currentPassword newPassword : String) :
    d.Grows lib (changePassword lib now d credentials currentPassword newPassword).1 := by
  have h := grows_requireSession lib now d credentials
  unfold changePassword
  generalize requireSession lib now d credentials = r at h ⊢
  obtain ⟨d', e | ⟨user, sessionId⟩⟩ := r
  · exact h
  dsimp only at h ⊢
  split
  · exact h
  split
  · exact h
  · have huser : d'.Grows lib
        (d'.setUser { user with passwordHash := lib.hashPassword newPassword }) :=
      .of_rows rfl rfl le_rfl
    exact h.trans (huser.trans (.revokeWhere _ _))

theorem grows_forgotPassword (email : String) (delivered : Bool) :
    d.Grows lib (forgotPassword lib settings now d email delivered).1 := by
  unfold forgotPassword
  split
  · exact .refl d
  dsimp only
  split
  · exact .of_rows rfl rfl le_rfl
  · exact .of_rows rfl rfl (Nat.le_succ _)

theorem grows_resetPassword (token password : String) :
    d.Grows lib (resetPassword lib now d token password).1 := by
  unfold resetPassword
  split
  · exact .refl d
  dsimp only
  split
  · exact .refl d
  split
  · exact .refl d
  split
  · exact .refl d
  · rename_i t _ _ _ user _
    have hrows : d.Grows lib ((d.setUser { user with passwordHash := lib.hashPassword password
        }).setOneTimeToken { t with usedAt := some now }) := .of_rows rfl rfl le_rfl
    exact hrows.trans (.revokeWhere _ _)

/-- **Every request of the session routers.** -/
theorem grows_authStep (lib : AuthLibraries) (settings : AuthSettings) (s : AuthRun)
    (e : AuthEvent) : s.db.Grows lib (authStep lib settings s e).db := by
  have hanswered : ∀ r : AuthDatabase × Except HttpError TokenPair, s.db.Grows lib r.1 →
      s.db.Grows lib (s.answered r).db := by
    rintro ⟨d', e | tokens⟩ h
    · exact h
    · exact h
  obtain ⟨now, request⟩ := e
  cases request with
  | login email password totpCode => exact hanswered _ (grows_login email password totpCode)
  | refresh token => exact hanswered _ (grows_refresh token)
  | logout credentials => exact grows_logout
  | logoutAll credentials => exact grows_logoutAll
  | revokeSession credentials sessionId => exact grows_revokeSession sessionId
  | changePassword credentials currentPassword newPassword => exact grows_changePassword _ _
  | forgotPassword email delivered => exact grows_forgotPassword email delivered
  | resetPassword token password => exact grows_resetPassword token password

theorem grows_createKey (scopes : List String) (expiresAt : Option Time) (drawn : NewApiKey) :
    d.Grows lib (createKey lib now d credentials scopes expiresAt drawn).1 := by
  have h := grows_requireSession lib now d credentials
  unfold createKey
  generalize requireSession lib now d credentials = r at h ⊢
  obtain ⟨d', e | ⟨user, sessionId⟩⟩ := r
  · exact h
  dsimp only at h ⊢
  split
  · exact h
  split
  · exact h
  · exact h.trans (.addApiKey rfl ⟨_, rfl⟩)

theorem grows_rotateKey (keyId : Uuid) (drawn : NewApiKey) :
    d.Grows lib (rotateKey lib now d credentials keyId drawn).1 := by
  have h := grows_requireSession lib now d credentials
  unfold rotateKey
  generalize requireSession lib now d credentials = r at h ⊢
  obtain ⟨d', e | ⟨user, sessionId⟩⟩ := r
  · exact h
  dsimp only at h ⊢
  split
  · exact h
  rename_i old hold
  split
  · exact h
  have hrevoked : d'.Grows lib (d'.setApiKey { old with status := .revoked }) :=
    .setApiKey (ownedApiKey_mem hold) ⟨rfl, rfl, rfl, rfl⟩
  have hcopied : d'.Grows lib ((d'.setApiKey { old with status := .revoked }).addApiKey {
      id := d'.nextUuid
      userId := old.userId
      publicId := drawn.publicId
      secretHash := lib.apiDigest drawn.secret
      scopes := old.scopes
      expiresAt := old.expiresAt
      rotatedFromId := some old.id }).1 := hrevoked.trans (.addApiKey rfl ⟨_, rfl⟩)
  split
  · exact h
  · rename_i hadd
    rw [hadd] at hcopied
    exact h.trans hcopied

theorem grows_revokeKey (keyId : Uuid) : d.Grows lib (revokeKey lib now d credentials keyId).1 := by
  have h := grows_requireSession lib now d credentials
  unfold revokeKey
  generalize requireSession lib now d credentials = r at h ⊢
  obtain ⟨d', e | ⟨user, sessionId⟩⟩ := r
  · exact h
  dsimp only at h ⊢
  split
  · exact h
  rename_i key hkey
  split
  · exact h.trans (.setApiKey (ownedApiKey_mem hkey) ⟨rfl, rfl, rfl, rfl⟩)
  · exact h

theorem grows_deleteKey (keyId : Uuid) : d.Grows lib (deleteKey lib now d credentials keyId).1 := by
  have h := grows_requireSession lib now d credentials
  unfold deleteKey
  generalize requireSession lib now d credentials = r at h ⊢
  obtain ⟨d', e | ⟨user, sessionId⟩⟩ := r
  · exact h
  dsimp only at h ⊢
  split
  · exact h
  split
  · exact h
  split
  · exact h
  · exact h.trans (.filterApiKeys _)

theorem grows_updateUser (userId : Uuid) (changes : AdminUserUpdate) :
    d.Grows lib (updateUser lib now d credentials userId changes).1 := by
  have h := grows_requireAdmin lib now d credentials
  unfold updateUser
  generalize requireAdmin lib now d credentials = r at h ⊢
  obtain ⟨d', e | admin⟩ := r
  · exact h
  dsimp only at h ⊢
  split
  · exact h
  split
  · exact h
  · exact h.trans (.of_rows rfl rfl le_rfl)

/-- **Every request of the routers of keys and users.** -/
theorem grows_handle (lib : AuthLibraries) (now : Time) (d : AuthDatabase)
    (request : ApiKeyRequest) : d.Grows lib (request.handle lib now d) := by
  cases request with
  | wait elapsed => exact .refl d
  | call scopes credentials => exact grows_getPrincipal lib now d scopes credentials
  | create credentials scopes expiresAt drawn => exact grows_createKey scopes expiresAt drawn
  | rotate credentials keyId drawn => exact grows_rotateKey keyId drawn
  | revoke credentials keyId => exact grows_revokeKey keyId
  | delete credentials keyId => exact grows_deleteKey keyId
  | updateUser credentials userId changes => exact grows_updateUser userId changes

end Handlers

end GnkAlgo
