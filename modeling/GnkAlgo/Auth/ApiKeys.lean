import GnkAlgo.Auth.SessionRuns

/-!
# The scopes of API keys

The handlers of `backend/app/routers/api_keys.py` and `update_user` of
`admin.py`.  A key is given scopes its owner's role may assign, is copied with
them when it is rotated, and is let in with them; the role is looked at only
when the key is created.

* `ApiKey.WithinRole` — the scopes of a key that lets its owner in are those the
  owner's role may assign;
* `apiKeyStep_withinRole` — every request keeps that, but for a change of role or
  activation that leaves such a key to a user who may not assign its scopes;
* `api_keys_within_role` — so over runs, and no key of a retail user is accepted
  for a scope outside `retailScopes`.
-/

namespace GnkAlgo

open Transition

/-! ## Handlers -/

/-- `RETAIL_SCOPES`. -/
def retailScopes : List String :=
  ["profile:read", "broker:read", "broker:write", "account:read", "market:read", "orders:read",
    "strategies:read"]

/-- `ALL_SCOPES`. -/
def allScopes : List String :=
  retailScopes ++ ["orders:write", "strategies:write", "admin:read", "admin:write"]

theorem disjoint_retailScopes {scope : String} (h : scope ∈ retailScopes) :
    scope ∉ ["orders:write", "strategies:write", "admin:read", "admin:write"] := by
  revert scope
  decide

/-- The scopes a role may assign. -/
def assignableScopes : Role → List String
  | .admin => allScopes
  | .retail => retailScopes

/-- `db.get(ApiKey, id)`. -/
def AuthDatabase.apiKey? (d : AuthDatabase) (id : Uuid) : Option ApiKey :=
  d.apiKeys.find? (·.id = id)

/-- `db.add` of a key and the commit; `public_id` is unique. -/
def AuthDatabase.addApiKey (d : AuthDatabase) (key : ApiKey) :
    AuthDatabase × Except HttpError ApiKey :=
  if ∃ other ∈ d.apiKeys, other.publicId = key.publicId then
    (d, .error ⟨500, "Internal Server Error"⟩)
  else ({ d with apiKeys := d.apiKeys ++ [key], nextUuid := d.nextUuid + 1 }, .ok key)

/-- `_owned`. -/
def ownedApiKey (d : AuthDatabase) (keyId : Uuid) (user : User) : Except HttpError ApiKey :=
  match d.apiKey? keyId with
  | none => .error ⟨404, "API key not found"⟩
  | some key => if key.userId ≠ user.id then .error ⟨404, "API key not found"⟩ else .ok key

/-- What `new_api_key` draws. -/
structure NewApiKey where
  publicId : String
  secret : String
  deriving DecidableEq, Repr

/-- `create_key`. -/
def createKey (lib : AuthLibraries) (now : Time) (d : AuthDatabase)
    (credentials : RequestCredentials)
    (scopes : List String) (expiresAt : Option Time) (drawn : NewApiKey) :
    AuthDatabase × Except HttpError ApiKey :=
  match requireSession lib now d credentials with
  | (d, .error e) => (d, .error e)
  | (d, .ok (user, _)) =>
    let allowed := assignableScopes user.role
    let scopes := scopes.dedup.insertionSort (· ≤ ·)
    if ¬ scopes ⊆ allowed then (d, .error ⟨403, "One or more scopes are not permitted"⟩)
    else if expiresAt.any (· ≤ now) then (d, .error ⟨422, "Expiration must be in the future"⟩)
    else d.addApiKey {
      id := d.nextUuid
      userId := user.id
      publicId := drawn.publicId
      secretHash := lib.apiDigest drawn.secret
      scopes := scopes
      expiresAt := expiresAt }

/-- `rotate`. -/
def rotateKey (lib : AuthLibraries) (now : Time) (d : AuthDatabase)
    (credentials : RequestCredentials)
    (keyId : Uuid) (drawn : NewApiKey) : AuthDatabase × Except HttpError ApiKey :=
  match requireSession lib now d credentials with
  | (d, .error e) => (d, .error e)
  | (d, .ok (user, _)) =>
    match ownedApiKey d keyId user with
    | .error e => (d, .error e)
    | .ok old =>
      if old.status ≠ .active then (d, .error ⟨409, "Only active keys can be rotated"⟩)
      else
        match (d.setApiKey { old with status := .revoked }).addApiKey {
          id := d.nextUuid
          userId := old.userId
          publicId := drawn.publicId
          secretHash := lib.apiDigest drawn.secret
          scopes := old.scopes
          expiresAt := old.expiresAt
          rotatedFromId := some old.id } with
        | (_, .error e) => (d, .error e)
        | (d, .ok key) => (d, .ok key)

/-- `revoke`. -/
def revokeKey (lib : AuthLibraries) (now : Time) (d : AuthDatabase)
    (credentials : RequestCredentials)
    (keyId : Uuid) : AuthDatabase × Except HttpError Unit :=
  match requireSession lib now d credentials with
  | (d, .error e) => (d, .error e)
  | (d, .ok (user, _)) =>
    match ownedApiKey d keyId user with
    | .error e => (d, .error e)
    | .ok key =>
      if key.status = .active then (d.setApiKey { key with status := .revoked }, .ok ())
      else (d, .ok ())

/-- `delete`; a key that another was rotated from is referred to. -/
def deleteKey (lib : AuthLibraries) (now : Time) (d : AuthDatabase)
    (credentials : RequestCredentials)
    (keyId : Uuid) : AuthDatabase × Except HttpError Unit :=
  match requireSession lib now d credentials with
  | (d, .error e) => (d, .error e)
  | (d, .ok (user, _)) =>
    match ownedApiKey d keyId user with
    | .error e => (d, .error e)
    | .ok key =>
      if key.status = .active then (d, .error ⟨409, "Revoke the key before deletion"⟩)
      else if ∃ other ∈ d.apiKeys, other.rotatedFromId = some key.id then
        (d, .error ⟨500, "Internal Server Error"⟩)
      else ({ d with apiKeys := d.apiKeys.filter (·.id ≠ key.id) }, .ok ())

/-- `require_admin`. -/
def requireAdmin (lib : AuthLibraries) (now : Time) (d : AuthDatabase)
    (credentials : RequestCredentials) : AuthDatabase × Except HttpError User :=
  match getPrincipal lib now d [] credentials with
  | (d, .error e) => (d, .error e)
  | (d, .ok principal) =>
    if principal.apiKeyId ≠ none then
      (d, .error ⟨403, "Administrative actions require an interactive session"⟩)
    else if principal.user.role ≠ .admin then (d, .error ⟨403, "Administrator access required"⟩)
    else (d, .ok principal.user)

/-- `AdminUserUpdate`. -/
structure AdminUserUpdate where
  role : Option Role := none
  isActive : Option Bool := none
  deriving DecidableEq, Repr

/-- The user with the changes made. -/
def AdminUserUpdate.apply (changes : AdminUserUpdate) (user : User) : User :=
  { user with
    role := changes.role.getD user.role
    isActive := changes.isActive.getD user.isActive }

/-- `update_user`. -/
def updateUser (lib : AuthLibraries) (now : Time) (d : AuthDatabase)
    (credentials : RequestCredentials)
    (userId : Uuid) (changes : AdminUserUpdate) : AuthDatabase × Except HttpError User :=
  match requireAdmin lib now d credentials with
  | (d, .error e) => (d, .error e)
  | (d, .ok admin) =>
    match d.user? userId with
    | none => (d, .error ⟨404, "User not found"⟩)
    | some user =>
      if user.id = admin.id ∧ changes.isActive = some false then
        (d, .error ⟨409, "You cannot disable your own account"⟩)
      else (d.setUser (changes.apply user), .ok (changes.apply user))

/-! ## Requests -/

/-- The tables and the clock. -/
structure ApiKeyRun where
  db : AuthDatabase
  now : Time := 0

inductive ApiKeyRequest
  /-- Time goes by. -/
  | wait (elapsed : ℕ)
  /-- Any request that asks `get_principal` for scopes. -/
  | call (scopes : List String) (credentials : RequestCredentials)
  | create (credentials : RequestCredentials) (scopes : List String) (expiresAt : Option Time)
      (drawn : NewApiKey)
  | rotate (credentials : RequestCredentials) (keyId : Uuid) (drawn : NewApiKey)
  | revoke (credentials : RequestCredentials) (keyId : Uuid)
  | delete (credentials : RequestCredentials) (keyId : Uuid)
  | updateUser (credentials : RequestCredentials) (userId : Uuid) (changes : AdminUserUpdate)

/-- The tables after a request. -/
def ApiKeyRequest.handle (lib : AuthLibraries) (now : Time) (d : AuthDatabase) :
    ApiKeyRequest → AuthDatabase
  | .wait _ => d
  | .call scopes credentials => (getPrincipal lib now d scopes credentials).1
  | .create credentials scopes expiresAt drawn =>
    (createKey lib now d credentials scopes expiresAt drawn).1
  | .rotate credentials keyId drawn => (rotateKey lib now d credentials keyId drawn).1
  | .revoke credentials keyId => (revokeKey lib now d credentials keyId).1
  | .delete credentials keyId => (deleteKey lib now d credentials keyId).1
  | .updateUser credentials userId changes =>
    (GnkAlgo.updateUser lib now d credentials userId changes).1

def apiKeyStep (lib : AuthLibraries) (s : ApiKeyRun) (request : ApiKeyRequest) : ApiKeyRun where
  db := request.handle lib s.now s.db
  now := match request with
    | .wait elapsed => s.now + elapsed
    | _ => s.now

/-! ## Keys within a role -/

/-- The key has not been revoked and is not due to expire. -/
def ApiKey.Live (key : ApiKey) (now : Time) : Prop :=
  key.status = .active ∧ ¬ key.expiresAt.any (· ≤ now)

/-- A key that lets its owner in has scopes the owner's role may assign. -/
def ApiKey.WithinRole (key : ApiKey) (now : Time) (d : AuthDatabase) : Prop :=
  key.Live now → ∀ user, d.user? key.userId = some user → user.isActive →
    key.scopes ⊆ assignableScopes user.role

/-- A key later: no more valid than before. -/
structure ApiKey.Narrows (key key' : ApiKey) : Prop where
  userId : key'.userId = key.userId
  scopes : key'.scopes = key.scopes
  expiresAt : key'.expiresAt = key.expiresAt
  active : key'.status = .active → key.status = .active

/-- The same users; every key is one there was, no more valid than before. -/
structure AuthDatabase.KeysNarrow (d d' : AuthDatabase) : Prop where
  users : d'.users = d.users
  keys : ∀ key' ∈ d'.apiKeys, ∃ key ∈ d.apiKeys, key.Narrows key'

/-- Every key is within its owner's role. -/
def AuthDatabase.KeysWithinRole (d : AuthDatabase) (now : Time) : Prop :=
  ∀ key ∈ d.apiKeys, key.WithinRole now d

section Narrow

variable {d d' : AuthDatabase} {lib : AuthLibraries} {now : Time}

theorem ApiKey.Narrows.refl (key : ApiKey) : key.Narrows key := ⟨rfl, rfl, rfl, fun h => h⟩

theorem ApiKey.narrows_revoked (key : ApiKey) : key.Narrows { key with status := .revoked } :=
  ⟨rfl, rfl, rfl, fun h => nomatch h⟩

theorem ApiKey.Narrows.live {key key' : ApiKey} (h : key.Narrows key') (hlive : key'.Live now) :
    key.Live now :=
  ⟨h.active hlive.1, h.expiresAt ▸ hlive.2⟩

theorem AuthDatabase.KeysNarrow.refl (d : AuthDatabase) : d.KeysNarrow d :=
  ⟨rfl, fun key hkey => ⟨key, hkey, .refl key⟩⟩

theorem AuthDatabase.KeysNarrow.trans {d'' : AuthDatabase} (h : d.KeysNarrow d')
    (h' : d'.KeysNarrow d'') : d.KeysNarrow d'' := by
  refine ⟨h'.users.trans h.users, fun key'' hkey'' => ?_⟩
  obtain ⟨key', hkey', hnarrow'⟩ := h'.keys key'' hkey''
  obtain ⟨key, hkey, hnarrow⟩ := h.keys key' hkey'
  exact ⟨key, hkey, hnarrow'.userId.trans hnarrow.userId, hnarrow'.scopes.trans hnarrow.scopes,
    hnarrow'.expiresAt.trans hnarrow.expiresAt, hnarrow.active ∘ hnarrow'.active⟩

theorem AuthDatabase.KeysNarrow.setApiKey {key key' : ApiKey} (hkey : key ∈ d.apiKeys)
    (h : key.Narrows key') : d.KeysNarrow (d.setApiKey key') := by
  refine ⟨rfl, fun other hother => ?_⟩
  rcases Rows.mem_replaceBy hother with rfl | ⟨hmem, -⟩
  · exact ⟨key, hkey, h⟩
  · exact ⟨other, hmem, .refl other⟩

theorem AuthDatabase.KeysNarrow.withinRole (h : d.KeysNarrow d') (hd : d.KeysWithinRole now) :
    d'.KeysWithinRole now := by
  intro key' hkey' hlive user huser hactive
  obtain ⟨key, hkey, hnarrow⟩ := h.keys key' hkey'
  rw [hnarrow.scopes]
  refine hd key hkey (hnarrow.live hlive) user ?_ hactive
  rw [← huser, hnarrow.userId]
  unfold AuthDatabase.user?
  rw [h.users]

theorem ApiKey.narrows_expireIfDue (key : ApiKey) (now : Time) :
    key.Narrows (key.expireIfDue now) := by
  unfold ApiKey.expireIfDue
  split
  · exact ⟨rfl, rfl, rfl, fun h => nomatch h⟩
  · exact .refl key

theorem ApiKey.expireIfDue_id (key : ApiKey) (now : Time) : (key.expireIfDue now).id = key.id := by
  unfold ApiKey.expireIfDue
  split <;> rfl

theorem ApiKey.live_of_expireIfDue {key : ApiKey} (h : (key.expireIfDue now).status = .active) :
    key.Live now := by
  unfold ApiKey.expireIfDue at h
  split at h
  · cases h
  · rename_i hdue
    exact ⟨h, fun hexpired => hdue ⟨hexpired, h⟩⟩

/-- A request with a key: the key may expire, or be marked as used; where it is let
in, it is a live one of the owner with the scopes asked for. -/
theorem apiKeyPrincipal_cases (scopes : List String) (publicId secret : String) :
    d.KeysNarrow (apiKeyPrincipal lib now d scopes publicId secret).1 ∧
      ∀ principal, (apiKeyPrincipal lib now d scopes publicId secret).2 = .ok principal →
        ∃ key ∈ d.apiKeys, key.Live now ∧ d.user? key.userId = some principal.user ∧
          principal.user.isActive ∧ scopes ⊆ key.scopes := by
  unfold apiKeyPrincipal
  split
  · exact ⟨.refl d, fun _ h => nomatch h⟩
  · rename_i key hfind
    have hmem : key ∈ d.apiKeys := List.mem_of_find?_eq_some hfind
    have hexpire := key.narrows_expireIfDue now
    have hset := AuthDatabase.KeysNarrow.setApiKey hmem hexpire
    dsimp only
    split
    · exact ⟨hset, fun _ h => nomatch h⟩
    · rename_i hvalid
      split
      · exact ⟨hset, fun _ h => nomatch h⟩
      · rename_i hscopes
        split
        · exact ⟨hset, fun _ h => nomatch h⟩
        · rename_i user huser
          split
          · exact ⟨hset, fun _ h => nomatch h⟩
          · rename_i hactive
            have hlive := not_or.1 hvalid
            have hstill : key.expireIfDue now ∈ (d.setApiKey (key.expireIfDue now)).apiKeys :=
              Rows.mem_replaceBy_self hmem (key.expireIfDue_id now).symm
            refine ⟨hset.trans (.setApiKey hstill ⟨rfl, rfl, rfl, fun h => h⟩), ?_⟩
            rintro _ ⟨⟩
            refine ⟨key, hmem, ApiKey.live_of_expireIfDue (not_not.1 hlive.1), ?_,
              by simpa using hactive, fun scope hscope => ?_⟩
            · rw [← hexpire.userId]
              exact huser
            · rw [← hexpire.scopes]
              by_contra hmissing
              exact hscopes ⟨scope, hscope, hmissing⟩

/-- Whatever a request shows, no key is better for it. -/
theorem keysNarrow_getPrincipal (scopes : List String) (credentials : RequestCredentials) :
    d.KeysNarrow (getPrincipal lib now d scopes credentials).1 := by
  unfold getPrincipal
  split
  · exact .refl d
  · exact (apiKeyPrincipal_cases ..).1
  · split
    · exact .refl d
    · unfold bearerPrincipal
      split
      · exact .refl d
      · dsimp only
        split
        · split
          · exact .refl d
          · exact ⟨rfl, fun key hkey => ⟨key, hkey, .refl key⟩⟩
        · exact .refl d

theorem AuthDatabase.user?_id {id : Uuid} {user : User} (h : d.user? id = some user) :
    user.id = id := by
  simpa using List.find?_some h

/-- The user a session lets in is a row of the table. -/
theorem bearerPrincipal_user {token : AccessToken} {principal : Principal}
    (h : (bearerPrincipal now d token).2 = .ok principal) :
    d.user? principal.user.id = some principal.user := by
  unfold bearerPrincipal at h
  split at h
  · cases h
  · dsimp only at h
    split at h
    · rename_i huser
      split at h
      · cases h
      · cases h
        rw [AuthDatabase.user?_id huser]
        exact huser
    · cases h

/-- A principal is a row of the table. -/
theorem getPrincipal_user {scopes : List String} {credentials : RequestCredentials}
    {principal : Principal} (h : (getPrincipal lib now d scopes credentials).2 = .ok principal) :
    d.user? principal.user.id = some principal.user := by
  unfold getPrincipal at h
  split at h
  · cases h
  · obtain ⟨key, -, -, huser, -⟩ := (apiKeyPrincipal_cases ..).2 principal h
    rw [AuthDatabase.user?_id huser]
    exact huser
  · split at h
    · cases h
    · exact bearerPrincipal_user h

theorem requireSession_cases (lib : AuthLibraries) (now : Time) (d : AuthDatabase)
    (credentials : RequestCredentials) :
    d.KeysNarrow (requireSession lib now d credentials).1 ∧
      ∀ user sessionId, (requireSession lib now d credentials).2 = .ok (user, sessionId) →
        d.user? user.id = some user := by
  have hnarrow : d.KeysNarrow (getPrincipal lib now d [] credentials).1 :=
    keysNarrow_getPrincipal [] credentials
  unfold requireSession
  split
  · rename_i heq
    rw [heq] at hnarrow
    exact ⟨hnarrow, fun _ _ h => nomatch h⟩
  · rename_i principal heq
    rw [heq] at hnarrow
    have huser := getPrincipal_user (congrArg Prod.snd heq)
    split
    · exact ⟨hnarrow, fun _ _ h => nomatch h⟩
    · refine ⟨hnarrow, ?_⟩
      rintro _ _ ⟨⟩
      exact huser

theorem keysNarrow_requireAdmin (lib : AuthLibraries) (now : Time) (d : AuthDatabase)
    (credentials : RequestCredentials) : d.KeysNarrow (requireAdmin lib now d credentials).1 := by
  have hnarrow : d.KeysNarrow (getPrincipal lib now d [] credentials).1 :=
    keysNarrow_getPrincipal [] credentials
  unfold requireAdmin
  split
  · rename_i heq
    rw [heq] at hnarrow
    exact hnarrow
  · rename_i principal heq
    rw [heq] at hnarrow
    split
    · exact hnarrow
    · split <;> exact hnarrow

/-- A new key that is within its owner's role. -/
theorem AuthDatabase.KeysWithinRole.addApiKey (hd : d.KeysWithinRole now) {key : ApiKey}
    (hkey : key.WithinRole now d) : (d.addApiKey key).1.KeysWithinRole now := by
  unfold AuthDatabase.addApiKey
  split
  · exact hd
  · intro other hother
    rcases List.mem_append.1 hother with hmem | hnew
    · exact hd other hmem
    · rw [List.mem_singleton.1 hnew]
      exact hkey

theorem ownedApiKey_mem {keyId : Uuid} {user : User} {key : ApiKey}
    (h : ownedApiKey d keyId user = .ok key) : key ∈ d.apiKeys := by
  unfold ownedApiKey at h
  split at h
  · cases h
  · rename_i hfind
    split at h
    · cases h
    · cases h
      exact List.mem_of_find?_eq_some hfind

theorem createKey_withinRole (hd : d.KeysWithinRole now) (credentials : RequestCredentials)
    (scopes : List String) (expiresAt : Option Time) (drawn : NewApiKey) :
    (createKey lib now d credentials scopes expiresAt drawn).1.KeysWithinRole now := by
  obtain ⟨hnarrow, huser⟩ := requireSession_cases lib now d credentials
  unfold createKey
  split
  · rename_i heq
    rw [heq] at hnarrow
    exact hnarrow.withinRole hd
  · rename_i d' user sessionId heq
    rw [heq] at hnarrow huser
    have hd' : d'.KeysWithinRole now := hnarrow.withinRole hd
    have hrow : d'.user? user.id = some user := by
      rw [← huser user sessionId rfl]
      unfold AuthDatabase.user?
      rw [hnarrow.users]
    dsimp only
    split
    · exact hd'
    · rename_i hallowed
      split
      · exact hd'
      · refine hd'.addApiKey fun _ owner howner _ => ?_
        rw [hrow] at howner
        cases howner
        exact not_not.1 hallowed

theorem rotateKey_withinRole (hd : d.KeysWithinRole now) (credentials : RequestCredentials)
    (keyId : Uuid) (drawn : NewApiKey) :
    (rotateKey lib now d credentials keyId drawn).1.KeysWithinRole now := by
  obtain ⟨hnarrow, -⟩ := requireSession_cases lib now d credentials
  unfold rotateKey
  split
  · rename_i heq
    rw [heq] at hnarrow
    exact hnarrow.withinRole hd
  · rename_i d' user sessionId heq
    rw [heq] at hnarrow
    have hd' : d'.KeysWithinRole now := hnarrow.withinRole hd
    split
    · exact hd'
    · rename_i old hold
      have hmem := ownedApiKey_mem hold
      split
      · exact hd'
      · rename_i hactive
        -- the copy is live where the key it was made from is
        set copy : ApiKey := {
          id := d'.nextUuid
          userId := old.userId
          publicId := drawn.publicId
          secretHash := lib.apiDigest drawn.secret
          scopes := old.scopes
          expiresAt := old.expiresAt
          rotatedFromId := some old.id }
        have hrevoked : (d'.setApiKey { old with status := .revoked }).KeysWithinRole now :=
          (AuthDatabase.KeysNarrow.setApiKey hmem old.narrows_revoked).withinRole hd'
        have hcopy :
            ((d'.setApiKey { old with status := .revoked }).addApiKey copy).1.KeysWithinRole
            now := hrevoked.addApiKey fun hlive => hd' old hmem ⟨not_not.1 hactive, hlive.2⟩
        split
        · exact hd'
        · rename_i heq
          rw [heq] at hcopy
          exact hcopy

theorem keysNarrow_revokeKey (lib : AuthLibraries) (now : Time) (d : AuthDatabase)
    (credentials : RequestCredentials) (keyId : Uuid) :
    d.KeysNarrow (revokeKey lib now d credentials keyId).1 := by
  obtain ⟨hnarrow, -⟩ := requireSession_cases lib now d credentials
  unfold revokeKey
  split
  · rename_i heq
    rw [heq] at hnarrow
    exact hnarrow
  · rename_i d' user sessionId heq
    rw [heq] at hnarrow
    split
    · exact hnarrow
    · rename_i key hkey
      split
      · exact hnarrow.trans (.setApiKey (ownedApiKey_mem hkey) key.narrows_revoked)
      · exact hnarrow

theorem keysNarrow_deleteKey (lib : AuthLibraries) (now : Time) (d : AuthDatabase)
    (credentials : RequestCredentials) (keyId : Uuid) :
    d.KeysNarrow (deleteKey lib now d credentials keyId).1 := by
  obtain ⟨hnarrow, -⟩ := requireSession_cases lib now d credentials
  unfold deleteKey
  split
  · rename_i heq
    rw [heq] at hnarrow
    exact hnarrow
  · rename_i d' user sessionId heq
    rw [heq] at hnarrow
    split
    · exact hnarrow
    · split
      · exact hnarrow
      · split
        · exact hnarrow
        · exact hnarrow.trans ⟨rfl, fun key hkey => ⟨key, List.mem_of_mem_filter hkey, .refl key⟩⟩

/-! ## Roles -/

/-- The user whose update goes through keeps no live key, while active, with
scopes the role then may not assign. -/
def KeepsRoles (lib : AuthLibraries) (s : ApiKeyRun) : ApiKeyRequest → Prop
  | .updateUser credentials userId changes =>
    ∀ admin user, (requireAdmin lib s.now s.db credentials).2 = .ok admin →
      s.db.user? userId = some user → ¬ (user.id = admin.id ∧ changes.isActive = some false) →
      (changes.apply user).isActive →
      ∀ key ∈ s.db.apiKeys, key.userId = userId → key.Live s.now →
        key.scopes ⊆ assignableScopes (changes.apply user).role
  | _ => True

theorem AuthDatabase.user?_setUser_self {id : Uuid} {user user' : User} (h : d.user? id = some user)
    (hid : user'.id = user.id) : (d.setUser user').user? user.id = some user' := by
  unfold AuthDatabase.user? AuthDatabase.setUser
  rw [← hid]
  exact Rows.find?_replaceBy_self ⟨user, List.mem_of_find?_eq_some h, hid.symm⟩

theorem AuthDatabase.user?_setUser_of_ne {id : Uuid} {user : User} (h : id ≠ user.id) :
    (d.setUser user).user? id = d.user? id :=
  Rows.find?_replaceBy_of_ne h

theorem updateUser_withinRole (hd : d.KeysWithinRole now) {credentials : RequestCredentials}
    {userId : Uuid} {changes : AdminUserUpdate}
    (hkeeps : KeepsRoles lib ⟨d, now⟩ (.updateUser credentials userId changes)) :
    (GnkAlgo.updateUser lib now d credentials userId changes).1.KeysWithinRole now := by
  have hnarrow := keysNarrow_requireAdmin lib now d credentials
  unfold GnkAlgo.updateUser
  split
  · rename_i heq
    rw [heq] at hnarrow
    exact hnarrow.withinRole hd
  · rename_i d' admin heq
    rw [heq] at hnarrow
    have hd' : d'.KeysWithinRole now := hnarrow.withinRole hd
    split
    · exact hd'
    · rename_i user huser
      split
      · exact hd'
      · rename_i hother
        have hrow : d.user? userId = some user := by
          rw [← huser]
          unfold AuthDatabase.user?
          rw [hnarrow.users]
        intro key' hkey' hlive owner howner hactive
        by_cases hsame : key'.userId = user.id
        · have hchanged : (d'.setUser (changes.apply user)).user? key'.userId =
              some (changes.apply user) := by
            rw [hsame]
            exact AuthDatabase.user?_setUser_self huser rfl
          obtain rfl := Option.some.inj (hchanged.symm.trans howner)
          obtain ⟨key, hkey, hkeyNarrows⟩ := hnarrow.keys key' hkey'
          rw [hkeyNarrows.scopes]
          exact hkeeps admin user (congrArg Prod.snd heq) hrow hother hactive key hkey
            (hkeyNarrows.userId.symm.trans (hsame.trans (AuthDatabase.user?_id huser)))
            (hkeyNarrows.live hlive)
        · have hunchanged : (d'.setUser (changes.apply user)).user? key'.userId =
              d'.user? key'.userId := AuthDatabase.user?_setUser_of_ne hsame
          exact hd' key' hkey' hlive owner (hunchanged.symm.trans howner) hactive

theorem AuthDatabase.KeysWithinRole.wait (hd : d.KeysWithinRole now) (elapsed : ℕ) :
    d.KeysWithinRole (now + elapsed) := by
  intro key hkey hlive
  refine hd key hkey ⟨hlive.1, fun hdue => hlive.2 ?_⟩
  rw [Option.any_eq_true] at hdue ⊢
  obtain ⟨expiry, hexpiry, hle⟩ := hdue
  refine ⟨expiry, hexpiry, decide_eq_true ((of_decide_eq_true hle).trans ?_)⟩
  exact Int.le_add_of_nonneg_right (Int.natCast_nonneg elapsed)

/-- **One request** leaves every key within its owner's role, but for a change of
role or activation that leaves a live one outside. -/
theorem apiKeyStep_withinRole {s : ApiKeyRun} (h : s.db.KeysWithinRole s.now)
    {request : ApiKeyRequest} (hkeeps : KeepsRoles lib s request) :
    (apiKeyStep lib s request).db.KeysWithinRole (apiKeyStep lib s request).now := by
  cases request with
  | wait elapsed => exact h.wait elapsed
  | call scopes credentials => exact (keysNarrow_getPrincipal scopes credentials).withinRole h
  | create credentials scopes expiresAt drawn =>
    exact createKey_withinRole h credentials scopes expiresAt drawn
  | rotate credentials keyId drawn => exact rotateKey_withinRole h credentials keyId drawn
  | revoke credentials keyId => exact (keysNarrow_revokeKey ..).withinRole h
  | delete credentials keyId => exact (keysNarrow_deleteKey ..).withinRole h
  | updateUser credentials userId changes => exact updateUser_withinRole h hkeeps

end Narrow

/-- **The scopes of API keys.**  From tables without keys, over every run whose
changes of role and activation leave no live key outside its owner's role: a
request let in with a key asks for scopes the owner's role may assign, and with a
key of a retail user for none that writes orders or strategies or administrates. -/
theorem api_keys_within_role (lib : AuthLibraries) {s t : ApiKeyRun} (hnew : s.db.apiKeys = [])
    {requests : List ApiKeyRequest}
    (hrun : Run (Guarded (KeepsRoles lib) (Steps (apiKeyStep lib))) s requests t)
    {scopes : List String} {publicId secret : String} {bearer : Option AccessToken}
    {principal : Principal}
    (hlet : (getPrincipal lib t.now t.db scopes ⟨bearer, .key publicId secret⟩).2 = .ok principal) :
    t.db.user? principal.user.id = some principal.user ∧
      scopes ⊆ assignableScopes principal.user.role ∧
      (principal.user.role = .retail → ∀ scope ∈ scopes,
        scope ∉ ["orders:write", "strategies:write", "admin:read", "admin:write"]) := by
  have hstart : s.db.KeysWithinRole s.now := by
    intro key hkey
    rw [hnew] at hkey
    exact absurd hkey List.not_mem_nil
  have hkeys : t.db.KeysWithinRole t.now :=
    hrun.invariant (P := fun s : ApiKeyRun => s.db.KeysWithinRole s.now) hstart
      fun s request t h hstep => hstep.2 ▸ apiKeyStep_withinRole h hstep.1
  obtain ⟨key, hkey, hlive, huser, hactive, hscopes⟩ := (apiKeyPrincipal_cases ..).2 principal hlet
  have hwithin := List.Subset.trans hscopes (hkeys key hkey hlive principal.user huser hactive)
  refine ⟨getPrincipal_user hlet, hwithin, fun hretail scope hscope => ?_⟩
  have hassignable := hwithin hscope
  rw [hretail] at hassignable
  exact disjoint_retailScopes hassignable

/-! ### A change of role -/

def twoAdmins : AuthDatabase where
  users := [
    { id := 0, email := "a@example.com", passwordHash := "$pw", role := .admin },
    { id := 1, email := "b@example.com", passwordHash := "$pw", role := .admin }]
  sessions := [
    { id := 2, userId := 0, refreshTokenHash := "", expiresAt := days 1, lastSeenAt := 0 },
    { id := 3, userId := 1, refreshTokenHash := "", expiresAt := days 1, lastSeenAt := 0 }]
  nextUuid := 4

/-- The token of a session. -/
def bearerOf (userId sessionId : Uuid) : RequestCredentials where
  bearer := some (createAccessToken {} 0 userId sessionId .admin)

/-- An administrator's key for orders, and the administrator made a retail user. -/
def keyThenDemotion : List ApiKeyRequest := [
  .create (bearerOf 1 3) ["orders:write"] none ⟨"k", "s"⟩,
  .updateUser (bearerOf 0 2) 1 { role := some .retail }]

/-- The key is revoked before the change of role, and one that a retail user may hold
stays. -/
def demotionWithinRole : List ApiKeyRequest := [
  .create (bearerOf 1 3) ["orders:write"] none ⟨"k", "s"⟩,
  .create (bearerOf 1 3) ["orders:read"] none ⟨"l", "t"⟩,
  .revoke (bearerOf 1 3) 4,
  .updateUser (bearerOf 0 2) 1 { role := some .retail }]

theorem demotionWithinRole_guarded :
    Run (Guarded (KeepsRoles sampleLibraries) (Steps (apiKeyStep sampleLibraries))) ⟨twoAdmins, 0⟩
      demotionWithinRole
      (demotionWithinRole.foldl (apiKeyStep sampleLibraries) ⟨twoAdmins, 0⟩) := by
  refine .cons ⟨trivial, rfl⟩ <| .cons ⟨trivial, rfl⟩ <| .cons ⟨trivial, rfl⟩ <| .single ⟨?_, rfl⟩
  intro admin user _ _ _ _ key hkey _ hlive
  have hscopes : ((demotionWithinRole.take 3).foldl (apiKeyStep sampleLibraries)
      ⟨twoAdmins, 0⟩).db.apiKeys.map (fun key => (key.status, key.scopes)) =
      [(.revoked, ["orders:write"]), (.active, ["orders:read"])] := by
    decide +kernel
  have hmem : (key.status, key.scopes) ∈ _ :=
    hscopes ▸ List.mem_map_of_mem (f := fun key : ApiKey => (key.status, key.scopes)) hkey
  rw [List.mem_cons, List.mem_singleton, Prod.mk.injEq, Prod.mk.injEq] at hmem
  rcases hmem with ⟨hrevoked, -⟩ | ⟨-, hread⟩
  · exact absurd (hrevoked.symm.trans hlive.1) (by decide)
  · rw [hread]
    show ["orders:read"] ⊆ retailScopes
    decide

theorem api_keys_within_role_demoted : ["orders:read"] ⊆ assignableScopes .retail := by
  have hlet : (getPrincipal sampleLibraries 0
      (demotionWithinRole.foldl (apiKeyStep sampleLibraries) ⟨twoAdmins, 0⟩).db
      ["orders:read"] ⟨none, .key "l" "t"⟩).2 = .ok {
        user := { id := 1, email := "b@example.com", passwordHash := "$pw", role := .retail }
        apiKeyId := some 5 } := by
    decide +kernel
  exact (api_keys_within_role sampleLibraries rfl demotionWithinRole_guarded hlet).2.1

/-- **The key outlives the role**: it is let in for orders, as a retail user's, and
so is the key it is rotated into. -/
theorem demoted_key_writes_orders :
    ((getPrincipal sampleLibraries 0
        (keyThenDemotion.foldl (apiKeyStep sampleLibraries) ⟨twoAdmins, 0⟩).db
        ["orders:write"] { apiKey := .key "k" "s" }).2.toOption.map (·.user.role)) =
      some .retail ∧
    ((getPrincipal sampleLibraries 0
        ((keyThenDemotion ++ [ApiKeyRequest.rotate (bearerOf 1 3) 4 ⟨"l", "t"⟩]).foldl
          (apiKeyStep sampleLibraries) ⟨twoAdmins, 0⟩).db
        ["orders:write"] { apiKey := .key "l" "t" }).2.toOption.map (·.user.role)) =
      some .retail ∧
    "orders:write" ∉ assignableScopes .retail := by
  decide +kernel

end GnkAlgo
