import GnkAlgo.Auth.Requests
import GnkAlgo.Lib.Runs

/-!
# Sessions over runs of requests

A session row holds the digest of one refresh token.  `refresh` puts another in
its place, six handlers can revoke the session, and no handler takes that back.

* `AuthDatabase.Kept` — what a request that issues no token leaves of the
  sessions;
* `login_cases`, `refresh_cases` — what the two that issue one do;
* `reuse_kills_session` — over every run of requests only the token issued last
  for a session is accepted, an earlier one revokes the session, and a revoked
  session is refused for good.
-/

namespace GnkAlgo

open Transition

/-! ## Requests that issue nothing -/

/-- A session row later: it may have been revoked, and is not any more valid. -/
structure UserSession.Tightens (s s' : UserSession) : Prop where
  id : s'.id = s.id
  userId : s'.userId = s.userId
  refreshTokenHash : s'.refreshTokenHash = s.refreshTokenHash
  expiresAt : s'.expiresAt = s.expiresAt
  revoked : s.revokedAt ≠ none → s'.revokedAt ≠ none

theorem UserSession.Tightens.refl (s : UserSession) : s.Tightens s :=
  ⟨rfl, rfl, rfl, rfl, fun h => h⟩

theorem UserSession.Tightens.trans {a b c : UserSession} (h : a.Tightens b) (h' : b.Tightens c) :
    a.Tightens c :=
  ⟨h'.id.trans h.id, h'.userId.trans h.userId, h'.refreshTokenHash.trans h.refreshTokenHash,
    h'.expiresAt.trans h.expiresAt, h'.revoked ∘ h.revoked⟩

namespace AuthDatabase

/-- The sessions are those there were, row by row. -/
structure Kept (d d' : AuthDatabase) : Prop where
  sessions : List.Forall₂ UserSession.Tightens d.sessions d'.sessions
  nextUuid : d.nextUuid ≤ d'.nextUuid
  drawn : d.drawn ≤ d'.drawn

variable {d d' : AuthDatabase}

theorem Kept.refl (d : AuthDatabase) : d.Kept d :=
  ⟨List.forall₂_same.2 fun s _ => .refl s, le_rfl, le_rfl⟩

theorem Kept.trans {d1 d2 d3 : AuthDatabase} (h : d1.Kept d2) (h' : d2.Kept d3) : d1.Kept d3 := by
  refine ⟨?_, h.nextUuid.trans h'.nextUuid, h.drawn.trans h'.drawn⟩
  have hforall := h.sessions
  have hforall' := h'.sessions
  generalize d1.sessions = l1 at hforall ⊢
  generalize d2.sessions = l2 at hforall hforall'
  generalize d3.sessions = l3 at hforall' ⊢
  induction hforall generalizing l3 with
  | nil => exact hforall'
  | cons hab _ ih =>
    cases hforall' with
    | cons hbc hrest => exact .cons (hab.trans hbc) (ih _ hrest)

theorem Kept.of_sessions (hs : d'.sessions = d.sessions) (hn : d.nextUuid ≤ d'.nextUuid)
    (hd : d.drawn ≤ d'.drawn) : d.Kept d' :=
  ⟨hs ▸ List.forall₂_same.2 fun s _ => .refl s, hn, hd⟩

theorem Kept.map (f : UserSession → UserSession) (hf : ∀ s ∈ d.sessions, s.Tightens (f s)) :
    d.Kept { d with sessions := d.sessions.map f } :=
  ⟨List.forall₂_map_right_iff.2 (List.forall₂_same.2 hf), le_rfl, le_rfl⟩

theorem session?_mem {id : Uuid} {s : UserSession} (h : d.session? id = some s) :
    s ∈ d.sessions ∧ s.id = id :=
  ⟨List.mem_of_find?_eq_some h, by simpa using List.find?_some h⟩

theorem session?_eq (hids : (d.sessions.map UserSession.id).Nodup) {s : UserSession}
    (hs : s ∈ d.sessions) : d.session? s.id = some s :=
  Rows.find?_key hids hs

/-- A row is rewritten in place. -/
theorem Kept.setSession (hids : (d.sessions.map UserSession.id).Nodup) {s new : UserSession}
    (hs : s ∈ d.sessions) (hnew : s.Tightens new) : d.Kept (d.setSession new) := by
  refine .map (fun y => if y.id = new.id then new else y) fun y hy => ?_
  split
  · rename_i hid
    rw [List.inj_on_of_nodup_map hids hy hs (hid.trans hnew.id)]
    exact hnew
  · exact .refl y

theorem Kept.revokeWhere (p : UserSession → Bool) (now : Time) : d.Kept (d.revokeWhere p now) := by
  refine .map _ fun s _ => ?_
  split
  · rename_i h
    exact ⟨rfl, rfl, rfl, rfl, fun hrevoked => absurd h.2 hrevoked⟩
  · exact .refl s

theorem Kept.ids (h : d.Kept d') : d'.sessions.map UserSession.id = d.sessions.map UserSession.id :=
  Rows.map_eq_of_forall₂ h.sessions fun _ _ htight => htight.id

theorem Kept.exists_of_mem (h : d.Kept d') {s' : UserSession} (hs : s' ∈ d'.sessions) :
    ∃ s ∈ d.sessions, s.Tightens s' :=
  Rows.exists_left_of_forall₂ h.sessions hs

theorem Kept.mem (h : d.Kept d') {s : UserSession} (hs : s ∈ d.sessions) :
    ∃ s' ∈ d'.sessions, s.Tightens s' :=
  Rows.exists_right_of_forall₂ h.sessions hs

end AuthDatabase

section Kept

variable {lib : AuthLibraries} {settings : AuthSettings} {now : Time} {d : AuthDatabase}
  {credentials : RequestCredentials}

theorem kept_apiKeyPrincipal (scopes : List String) (publicId secret : String) :
    d.Kept (apiKeyPrincipal lib now d scopes publicId secret).1 := by
  unfold apiKeyPrincipal
  dsimp only
  split
  · exact .refl d
  split
  · exact .of_sessions rfl le_rfl le_rfl
  split
  · exact .of_sessions rfl le_rfl le_rfl
  split
  · exact .of_sessions rfl le_rfl le_rfl
  split
  · exact .of_sessions rfl le_rfl le_rfl
  · exact .of_sessions rfl le_rfl le_rfl

theorem kept_bearerPrincipal (hids : (d.sessions.map UserSession.id).Nodup) (token : AccessToken) :
    d.Kept (bearerPrincipal now d token).1 := by
  unfold bearerPrincipal
  split
  · exact .refl d
  dsimp only
  split
  · rename_i session user hsession _
    split
    · exact .refl d
    · exact .setSession hids (AuthDatabase.session?_mem hsession).1 ⟨rfl, rfl, rfl, rfl, fun h => h⟩
  · exact .refl d

theorem kept_getPrincipal (lib : AuthLibraries) (now : Time) (credentials : RequestCredentials)
    (hids : (d.sessions.map UserSession.id).Nodup) (scopes : List String) :
    d.Kept (getPrincipal lib now d scopes credentials).1 := by
  unfold getPrincipal
  split
  · exact .refl d
  · exact kept_apiKeyPrincipal ..
  · split
    · exact .refl d
    · exact kept_bearerPrincipal hids _

theorem kept_requireSession (lib : AuthLibraries) (now : Time) (credentials : RequestCredentials)
    (hids : (d.sessions.map UserSession.id).Nodup) :
    d.Kept (requireSession lib now d credentials).1 := by
  have h := kept_getPrincipal lib now credentials hids []
  unfold requireSession
  generalize getPrincipal lib now d [] credentials = r at h ⊢
  obtain ⟨d', e | principal⟩ := r
  · exact h
  · dsimp only
    split
    · exact h
    · exact h

/-- An access token of an unrevoked session of an active user is accepted. -/
theorem getPrincipal_accepts {token : AccessToken} {user : User} {session : UserSession}
    (htoken : decodeAccessToken now token = some token)
    (hsession : d.session? token.sid = some session) (huser : d.user? token.sub = some user)
    (hactive : user.isActive) (howner : session.userId = token.sub)
    (hunrevoked : session.revokedAt = none) (hunexpired : now < session.expiresAt) :
    ∃ principal, (getPrincipal lib now d scopes { bearer := some token }).2 = .ok principal := by
  have haccept : ¬ (session.userId ≠ token.sub ∨ session.revokedAt ≠ none ∨
      session.expiresAt ≤ now ∨ ¬ user.isActive) := by
    simp [howner, hunrevoked, hunexpired, hactive]
  refine ⟨{ user := user, sessionId := some session.id }, ?_⟩
  unfold getPrincipal bearerPrincipal
  simp only [htoken, hsession, huser, if_neg haccept]

end Kept

section Handlers

variable {lib : AuthLibraries} {settings : AuthSettings} {now : Time} {d : AuthDatabase}
  {credentials : RequestCredentials}

theorem kept_logout (hids : (d.sessions.map UserSession.id).Nodup) :
    d.Kept (logout lib now d credentials).1 := by
  have h := kept_requireSession lib now credentials hids
  unfold logout
  generalize requireSession lib now d credentials = r at h ⊢
  obtain ⟨d', e | ⟨user, sessionId⟩⟩ := r
  · exact h
  dsimp only at h ⊢
  split
  · exact h
  · rename_i session hsession
    exact h.trans (.setSession (h.ids ▸ hids) (AuthDatabase.session?_mem hsession).1
      ⟨rfl, rfl, rfl, rfl, fun _ h => by cases h⟩)

theorem kept_logoutAll (hids : (d.sessions.map UserSession.id).Nodup) :
    d.Kept (logoutAll lib now d credentials).1 := by
  have h := kept_requireSession lib now credentials hids
  unfold logoutAll
  generalize requireSession lib now d credentials = r at h ⊢
  obtain ⟨d', e | ⟨user, sessionId⟩⟩ := r
  · exact h
  · exact h.trans (.revokeWhere _ _)

theorem kept_revokeSession (hids : (d.sessions.map UserSession.id).Nodup) (sessionId : Uuid) :
    d.Kept (revokeSession lib now d credentials sessionId).1 := by
  have h := kept_requireSession lib now credentials hids
  unfold revokeSession
  generalize requireSession lib now d credentials = r at h ⊢
  obtain ⟨d', e | ⟨user, own⟩⟩ := r
  · exact h
  dsimp only at h ⊢
  split
  · exact h
  rename_i session hsession
  split
  · exact h
  split
  · exact h.trans (.setSession (h.ids ▸ hids) (AuthDatabase.session?_mem hsession).1
      ⟨rfl, rfl, rfl, rfl, fun _ h => by cases h⟩)
  · exact h

theorem kept_changePassword (hids : (d.sessions.map UserSession.id).Nodup)
    (currentPassword newPassword : String) :
    d.Kept (changePassword lib now d credentials currentPassword newPassword).1 := by
  have h := kept_requireSession lib now credentials hids
  unfold changePassword
  generalize requireSession lib now d credentials = r at h ⊢
  obtain ⟨d', e | ⟨user, sessionId⟩⟩ := r
  · exact h
  dsimp only at h ⊢
  split
  · exact h
  split
  · exact h
  · have huser : d'.Kept (d'.setUser { user with passwordHash := lib.hashPassword newPassword }) :=
      .of_sessions rfl le_rfl le_rfl
    exact h.trans (huser.trans (.revokeWhere _ _))

theorem kept_forgotPassword (email : String) (delivered : Bool) :
    d.Kept (forgotPassword lib settings now d email delivered).1 := by
  unfold forgotPassword
  split
  · exact .refl d
  dsimp only
  split
  · exact .of_sessions rfl le_rfl (Nat.le_succ _)
  · exact .of_sessions rfl (Nat.le_succ _) (Nat.le_succ _)

theorem kept_resetPassword (token password : String) :
    d.Kept (resetPassword lib now d token password).1 := by
  unfold resetPassword
  split
  · exact .refl d
  dsimp only
  split
  · exact .refl d
  split
  · exact .refl d
  split
  · exact .refl d
  · rename_i t _ _ _ user _
    have hrows : d.Kept ((d.setUser { user with passwordHash := lib.hashPassword password
        }).setOneTimeToken { t with usedAt := some now }) := .of_sessions rfl le_rfl le_rfl
    exact hrows.trans (.revokeWhere _ _)

/-! ## Requests that issue tokens -/

/-- **Login** leaves the sessions, or issues the first tokens of a new one. -/
theorem login_cases (lib : AuthLibraries) (settings : AuthSettings) (now : Time)
    (d : AuthDatabase) (email password : String) (totpCode : Option String) :
    (d.Kept (login lib settings now d email password totpCode).1 ∧
      ∃ e, (login lib settings now d email password totpCode).2 = .error e) ∨
    ∃ (d' : AuthDatabase) (user : User), d'.sessions = d.sessions ∧ d'.nextUuid = d.nextUuid ∧
      d'.drawn = d.drawn ∧ (login lib settings now d email password totpCode) =
        ((issue lib settings now d' user).1, .ok (issue lib settings now d' user).2) := by
  unfold login
  split
  · exact Or.inl ⟨.refl d, _, rfl⟩
  rename_i user _
  split
  · exact Or.inl ⟨.refl d, _, rfl⟩
  split
  · exact Or.inl ⟨.of_sessions rfl le_rfl le_rfl, _, rfl⟩
  split
  · exact Or.inl ⟨.refl d, _, rfl⟩
  split
  · exact Or.inl ⟨.refl d, _, rfl⟩
  split
  · exact Or.inl ⟨.refl d, _, rfl⟩
  · exact Or.inr ⟨d.setUser _, _, rfl, rfl, rfl, rfl⟩

/-- The checks of `refresh` on the session. -/
structure UserSession.Refreshable (lib : AuthLibraries) (now : Time) (session : UserSession)
    (secret : String) : Prop where
  unrevoked : session.revokedAt = none
  unexpired : now < session.expiresAt
  current : lib.hashToken secret = session.refreshTokenHash

/-- **Refresh** refuses the token and revokes the session; or refuses it; or
rotates. -/
theorem refresh_cases (lib : AuthLibraries) (settings : AuthSettings) (now : Time)
    (d : AuthDatabase) (token : RefreshToken) :
    (∃ session, d.session? token.sessionId = some session ∧ session.revokedAt = none ∧
      ¬ session.Refreshable lib now token.secret ∧ refresh lib settings now d (some token) =
        (d.setSession { session with revokedAt := some now }, .error invalidCredentials)) ∨
    ((∀ session, d.session? token.sessionId = some session → session.revokedAt = none →
        session.Refreshable lib now token.secret) ∧
      refresh lib settings now d (some token) = (d, .error invalidCredentials)) ∨
    ∃ session user, d.session? token.sessionId = some session ∧ d.user? session.userId = some user ∧
      session.Refreshable lib now token.secret ∧ user.isActive ∧
      let secret := lib.secretAt d.drawn
      let d' := d.setSession
        { session with refreshTokenHash := lib.hashToken secret, lastSeenAt := now }
      refresh lib settings now d (some token) = ({ d' with drawn := d.drawn + 1 },
        .ok { accessToken := createAccessToken settings now user.id session.id user.role
              refreshToken := ⟨session.id, secret⟩
              expiresIn := settings.accessTokenMinutes * 60 }) := by
  unfold refresh
  dsimp only
  cases hsession : d.session? token.sessionId with
  | none => exact Or.inr (Or.inl ⟨fun _ h => absurd h (by simp), rfl⟩)
  | some session =>
    dsimp only
    split
    · rename_i hbad
      have hnot : ¬ session.Refreshable lib now token.secret := by
        rintro ⟨hunrevoked, hunexpired, hcurrent⟩
        rcases hbad with hbad | hbad | hbad
        · exact hbad hunrevoked
        · exact absurd hbad (not_le.2 hunexpired)
        · exact hbad hcurrent
      split
      · rename_i hunrevoked
        exact Or.inl ⟨session, rfl, hunrevoked, hnot, rfl⟩
      · rename_i hrevoked
        refine Or.inr (Or.inl ⟨?_, rfl⟩)
        rintro _ ⟨⟩ hunrevoked
        exact absurd hunrevoked hrevoked
    · rename_i hgood
      obtain ⟨hunrevoked, hgood⟩ := not_or.1 hgood
      obtain ⟨hunexpired, hcurrent⟩ := not_or.1 hgood
      have hrefreshable : session.Refreshable lib now token.secret :=
        ⟨not_not.1 hunrevoked, not_le.1 hunexpired, not_not.1 hcurrent⟩
      have hall : ∀ session', some session = some session' → session'.revokedAt = none →
          session'.Refreshable lib now token.secret := by
        rintro _ ⟨⟩ _
        exact hrefreshable
      cases huser : d.user? session.userId with
      | none => exact Or.inr (Or.inl ⟨hall, rfl⟩)
      | some user =>
        dsimp only
        split
        · exact Or.inr (Or.inl ⟨hall, rfl⟩)
        · rename_i hactive
          exact Or.inr (Or.inr ⟨session, user, rfl, huser, hrefreshable, not_not.1 hactive, rfl⟩)

end Handlers

/-! ## Runs -/

inductive AuthRequest
  | login (email password : String) (totpCode : Option String)
  | refresh (token : Option RefreshToken)
  | logout (credentials : RequestCredentials)
  | logoutAll (credentials : RequestCredentials)
  | revokeSession (credentials : RequestCredentials) (sessionId : Uuid)
  | changePassword (credentials : RequestCredentials) (currentPassword newPassword : String)
  | forgotPassword (email : String) (delivered : Bool)
  | resetPassword (token password : String)

/-- A request and the moment it is handled at. -/
structure AuthEvent where
  now : Time
  request : AuthRequest

/-- The tables, and the refresh tokens issued so far, the latest first. -/
structure AuthRun where
  db : AuthDatabase
  issued : List RefreshToken := []

/-- The state after a handler that may issue tokens. -/
def AuthRun.answered (s : AuthRun) (r : AuthDatabase × Except HttpError TokenPair) : AuthRun :=
  match r with
  | (d, .error _) => { s with db := d }
  | (d, .ok tokens) => { db := d, issued := tokens.refreshToken :: s.issued }

def authStep (lib : AuthLibraries) (settings : AuthSettings) (s : AuthRun) (e : AuthEvent) :
    AuthRun :=
  match e.request with
  | .login email password totpCode =>
    s.answered (login lib settings e.now s.db email password totpCode)
  | .refresh token => s.answered (refresh lib settings e.now s.db token)
  | .logout credentials => { s with db := (logout lib e.now s.db credentials).1 }
  | .logoutAll credentials => { s with db := (logoutAll lib e.now s.db credentials).1 }
  | .revokeSession credentials sessionId =>
    { s with db := (revokeSession lib e.now s.db credentials sessionId).1 }
  | .changePassword credentials currentPassword newPassword =>
    { s with db := (changePassword lib e.now s.db credentials currentPassword newPassword).1 }
  | .forgotPassword email delivered =>
    { s with db := (forgotPassword lib settings e.now s.db email delivered).1 }
  | .resetPassword token password =>
    { s with db := (resetPassword lib e.now s.db token password).1 }

/-- The token issued last for its session. -/
def AuthRun.Latest (s : AuthRun) (token : RefreshToken) : Prop :=
  s.issued.find? (·.sessionId = token.sessionId) = some token

/-- A token after which another was issued for its session. -/
def AuthRun.Earlier (s : AuthRun) (token : RefreshToken) : Prop :=
  ∃ newer older, s.issued = newer ++ token :: older ∧ ∃ t ∈ newer, t.sessionId = token.sessionId

/-- The digest of a session is that of the token issued last for it, and every
secret is one that was drawn. -/
structure AuthRun.Sound (lib : AuthLibraries) (s : AuthRun) : Prop where
  ids : (s.db.sessions.map UserSession.id).Nodup
  uuids : ∀ session ∈ s.db.sessions, session.id < s.db.nextUuid
  current : ∀ session ∈ s.db.sessions, ∃ token, s.issued.find? (·.sessionId = session.id) =
    some token ∧ session.refreshTokenHash = lib.hashToken token.secret
  drawn : ∀ token ∈ s.issued, ∃ n < s.db.drawn, token.secret = lib.secretAt n
  secrets : (s.issued.map RefreshToken.secret).Nodup

section Runs

variable {lib : AuthLibraries} {settings : AuthSettings} {s : AuthRun} {d d' : AuthDatabase}

theorem AuthRun.Sound.kept (h : s.Sound lib) (hd : s.db.Kept d) :
    ({ s with db := d } : AuthRun).Sound lib := by
  refine ⟨hd.ids ▸ h.ids, ?_, ?_, ?_, h.secrets⟩
  · intro session hsession
    obtain ⟨old, hold, htight⟩ := hd.exists_of_mem hsession
    rw [htight.id]
    exact (h.uuids old hold).trans_le hd.nextUuid
  · intro session hsession
    obtain ⟨old, hold, htight⟩ := hd.exists_of_mem hsession
    rw [htight.id, htight.refreshTokenHash]
    exact h.current old hold
  · intro token htoken
    obtain ⟨n, hn, hsecret⟩ := h.drawn token htoken
    exact ⟨n, hn.trans_le hd.drawn, hsecret⟩

/-- A secret that is drawn now is not among those issued. -/
theorem AuthRun.Sound.secret_fresh (h : s.Sound lib) (hfresh : Function.Injective lib.secretAt)
    (token : RefreshToken) (htoken : token.secret = lib.secretAt s.db.drawn) :
    ((token :: s.issued).map RefreshToken.secret).Nodup := by
  rw [List.map_cons, List.nodup_cons]
  refine ⟨?_, h.secrets⟩
  intro hmem
  obtain ⟨old, hold, hsecret⟩ := List.mem_map.1 hmem
  obtain ⟨n, hn, hdrawn⟩ := h.drawn old hold
  have heq : n = s.db.drawn := hfresh (hdrawn.symm.trans (hsecret.trans htoken))
  omega

theorem sound_issue (h : s.Sound lib) (hfresh : Function.Injective lib.secretAt)
    (hs : d.sessions = s.db.sessions) (hn : d.nextUuid = s.db.nextUuid)
    (hd : d.drawn = s.db.drawn) (now : Time) (user : User) :
    (s.answered ((issue lib settings now d user).1, .ok (issue lib settings now d user).2)).Sound
      lib := by
  generalize hnew : ({
      id := s.db.nextUuid
      userId := user.id
      refreshTokenHash := lib.hashToken (lib.secretAt s.db.drawn)
      expiresAt := now + days settings.refreshTokenDays
      lastSeenAt := now } : UserSession) = new
  have hid : new.id = s.db.nextUuid := by rw [← hnew]
  have hhash : new.refreshTokenHash = lib.hashToken (lib.secretAt s.db.drawn) := by rw [← hnew]
  have hsessions : (issue lib settings now d user).1.sessions = s.db.sessions ++ [new] := by
    rw [← hnew, issue, hs, hn, hd]
  have htoken : (issue lib settings now d user).2.refreshToken =
      ⟨s.db.nextUuid, lib.secretAt s.db.drawn⟩ := by
    rw [issue, hn, hd]
  have hold : ∀ session ∈ s.db.sessions, session.id ≠ s.db.nextUuid := fun session hsession =>
    (h.uuids session hsession).ne
  have hcounter : (issue lib settings now d user).1.nextUuid = s.db.nextUuid + 1 := by
    rw [issue, hn]
  have hdraws : (issue lib settings now d user).1.drawn = s.db.drawn + 1 := by
    rw [issue, hd]
  refine ⟨?_, ?_, ?_, ?_, ?_⟩
  · simp only [AuthRun.answered, hsessions, List.map_append, List.map_singleton, hid]
    refine h.ids.append (List.nodup_singleton _) ?_
    intro id hmem hlast
    obtain ⟨session, hsession, rfl⟩ := List.mem_map.1 hmem
    exact hold session hsession (List.mem_singleton.1 hlast)
  · intro session hsession
    simp only [AuthRun.answered, hsessions, hcounter] at hsession ⊢
    rcases List.mem_append.1 hsession with hsession | hsession
    · exact (h.uuids session hsession).trans (Nat.lt_succ_self _)
    · rw [List.mem_singleton.1 hsession, hid]
      exact Nat.lt_succ_self _
  · intro session hsession
    simp only [AuthRun.answered, hsessions, htoken] at hsession ⊢
    rcases List.mem_append.1 hsession with hsession | hsession
    · have hne : s.db.nextUuid ≠ session.id := (hold session hsession).symm
      rw [List.find?_cons_of_neg (by simpa using hne)]
      exact h.current session hsession
    · rw [List.mem_singleton.1 hsession, hid, hhash]
      exact ⟨_, List.find?_cons_of_pos (by simp), rfl⟩
  · intro token hmem
    simp only [AuthRun.answered, htoken, hdraws] at hmem ⊢
    rcases List.mem_cons.1 hmem with rfl | hmem
    · exact ⟨s.db.drawn, Nat.lt_succ_self _, rfl⟩
    · obtain ⟨n, hlt, hsecret⟩ := h.drawn token hmem
      exact ⟨n, hlt.trans (Nat.lt_succ_self _), hsecret⟩
  · simp only [AuthRun.answered, htoken]
    exact h.secret_fresh hfresh _ rfl

theorem sound_rotate (h : s.Sound lib) (hfresh : Function.Injective lib.secretAt)
    {session : UserSession} (hsession : session ∈ s.db.sessions) (now : Time)
    (tokens : TokenPair)
    (htokens : tokens.refreshToken = ⟨session.id, lib.secretAt s.db.drawn⟩) :
    (s.answered ({ s.db.setSession { session with
        refreshTokenHash := lib.hashToken (lib.secretAt s.db.drawn), lastSeenAt := now } with
      drawn := s.db.drawn + 1 }, .ok tokens)).Sound lib := by
  generalize hnew : ({ session with
    refreshTokenHash := lib.hashToken (lib.secretAt s.db.drawn), lastSeenAt := now } :
      UserSession) = new
  have hid : new.id = session.id := by rw [← hnew]
  have hhash : new.refreshTokenHash = lib.hashToken (lib.secretAt s.db.drawn) := by rw [← hnew]
  simp only [AuthRun.answered, AuthDatabase.setSession, htokens]
  refine ⟨?_, ?_, ?_, ?_, ?_⟩
  · rw [Rows.map_key_replaceBy]
    exact h.ids
  · intro y hy
    rcases Rows.mem_replaceBy hy with rfl | ⟨hy, -⟩
    · rw [hid]; exact h.uuids session hsession
    · exact h.uuids y hy
  · intro y hy
    rcases Rows.mem_replaceBy hy with rfl | ⟨hy, hne⟩
    · rw [hid, hhash]
      exact ⟨_, List.find?_cons_of_pos (by simp), rfl⟩
    · rw [hid] at hne
      rw [List.find?_cons_of_neg (by simpa using hne.symm)]
      exact h.current y hy
  · intro token hmem
    rcases List.mem_cons.1 hmem with rfl | hmem
    · exact ⟨s.db.drawn, Nat.lt_succ_self _, rfl⟩
    · obtain ⟨n, hlt, hsecret⟩ := h.drawn token hmem
      exact ⟨n, hlt.trans (Nat.lt_succ_self _), hsecret⟩
  · exact h.secret_fresh hfresh _ rfl

theorem kept_revoke (h : s.Sound lib) {session : UserSession} (hsession : session ∈ s.db.sessions)
    (now : Time) : s.db.Kept (s.db.setSession { session with revokedAt := some now }) :=
  .setSession h.ids hsession ⟨rfl, rfl, rfl, rfl, fun _ h => by cases h⟩

/-- **A step** keeps the digests those of the latest tokens. -/
theorem sound_authStep (h : s.Sound lib) (hfresh : Function.Injective lib.secretAt)
    (e : AuthEvent) : (authStep lib settings s e).Sound lib := by
  obtain ⟨now, request⟩ := e
  cases request with
  | login email password totpCode =>
    rcases login_cases lib settings now s.db email password totpCode with
      ⟨hkept, e, herror⟩ | ⟨d', user, hs, hn, hd, hissue⟩
    · have hanswer : authStep lib settings s ⟨now, .login email password totpCode⟩ =
          { s with db := (login lib settings now s.db email password totpCode).1 } := by
        rw [authStep]
        dsimp only
        generalize login lib settings now s.db email password totpCode = r at herror ⊢
        obtain ⟨d', result⟩ := r
        obtain rfl : result = .error e := herror
        rfl
      rw [hanswer]
      exact h.kept hkept
    · rw [authStep]
      dsimp only
      rw [hissue]
      exact sound_issue h hfresh hs hn hd now user
  | refresh token =>
    cases token with
    | none => exact h
    | some token =>
      rw [authStep]
      dsimp only
      rcases refresh_cases lib settings now s.db token with
        ⟨session, hsession, -, -, hrefresh⟩ | ⟨-, hrefresh⟩ | ⟨session, user, hsession, -, -, -,
          hrefresh⟩
      · rw [hrefresh]
        exact h.kept (kept_revoke h (AuthDatabase.session?_mem hsession).1 now)
      · rw [hrefresh]
        exact h
      · rw [hrefresh]
        exact sound_rotate h hfresh (AuthDatabase.session?_mem hsession).1 now _ rfl
  | logout credentials => exact h.kept (kept_logout h.ids)
  | logoutAll credentials => exact h.kept (kept_logoutAll h.ids)
  | revokeSession credentials sessionId => exact h.kept (kept_revokeSession h.ids sessionId)
  | changePassword credentials currentPassword newPassword =>
    exact h.kept (kept_changePassword h.ids currentPassword newPassword)
  | forgotPassword email delivered => exact h.kept (kept_forgotPassword email delivered)
  | resetPassword token password => exact h.kept (kept_resetPassword token password)

/-- A session with this id has been revoked. -/
def AuthDatabase.Revoked (d : AuthDatabase) (id : Uuid) : Prop :=
  ∃ session ∈ d.sessions, session.id = id ∧ session.revokedAt ≠ none

theorem AuthDatabase.Kept.revoked (h : d.Kept d') {id : Uuid} (hrevoked : d.Revoked id) :
    d'.Revoked id := by
  obtain ⟨session, hsession, hid, hrevoked⟩ := hrevoked
  obtain ⟨session', hsession', htight⟩ := h.mem hsession
  exact ⟨session', hsession', htight.id.trans hid, htight.revoked hrevoked⟩

/-- **A step** takes no revocation back. -/
theorem revoked_authStep (h : s.Sound lib) {id : Uuid} (hrevoked : s.db.Revoked id)
    (e : AuthEvent) : (authStep lib settings s e).db.Revoked id := by
  obtain ⟨now, request⟩ := e
  have hanswered : ∀ r : AuthDatabase × Except HttpError TokenPair, (s.answered r).db = r.1 := by
    rintro ⟨d, e | tokens⟩
    · rfl
    · rfl
  cases request with
  | login email password totpCode =>
    rw [authStep]
    dsimp only
    rw [hanswered]
    rcases login_cases lib settings now s.db email password totpCode with
      ⟨hkept, -⟩ | ⟨d', user, hs, -, -, hissue⟩
    · exact hkept.revoked hrevoked
    · obtain ⟨session, hsession, hrest⟩ := hrevoked
      rw [hissue, issue]
      exact ⟨session, List.mem_append_left _ (hs ▸ hsession), hrest⟩
  | refresh token =>
    rw [authStep]
    dsimp only
    rw [hanswered]
    cases token with
    | none => exact hrevoked
    | some token =>
      rcases refresh_cases lib settings now s.db token with
        ⟨session, hsession, -, -, hrefresh⟩ | ⟨-, hrefresh⟩ | ⟨session, user, hsession, -,
          hrefreshable, -, hrefresh⟩
      · rw [hrefresh]
        exact (kept_revoke h (AuthDatabase.session?_mem hsession).1 now).revoked hrevoked
      · rw [hrefresh]
        exact hrevoked
      · obtain ⟨old, hold, hid, hrevoked⟩ := hrevoked
        have hmem := (AuthDatabase.session?_mem hsession).1
        -- the session that is rotated is not the revoked one
        have hne : old.id ≠ session.id := by
          intro heq
          obtain rfl := List.inj_on_of_nodup_map h.ids hold hmem heq
          exact hrevoked hrefreshable.unrevoked
        rw [hrefresh]
        exact ⟨old, Rows.mem_replaceBy_of_ne hold hne, hid, hrevoked⟩
  | logout credentials => exact (kept_logout h.ids).revoked hrevoked
  | logoutAll credentials => exact (kept_logoutAll h.ids).revoked hrevoked
  | revokeSession credentials sessionId =>
    exact (kept_revokeSession h.ids sessionId).revoked hrevoked
  | changePassword credentials currentPassword newPassword =>
    exact (kept_changePassword h.ids currentPassword newPassword).revoked hrevoked
  | forgotPassword email delivered => exact (kept_forgotPassword email delivered).revoked hrevoked
  | resetPassword token password => exact (kept_resetPassword token password).revoked hrevoked

/-! ## What is accepted -/

/-- The token that is accepted was issued last. -/
theorem AuthRun.Sound.latest (h : s.Sound lib) (hhash : Function.Injective lib.hashToken)
    {now : Time} {token : RefreshToken} {session : UserSession}
    (hsession : s.db.session? token.sessionId = some session)
    (hrefreshable : session.Refreshable lib now token.secret) : s.Latest token := by
  obtain ⟨hmem, hid⟩ := AuthDatabase.session?_mem hsession
  obtain ⟨last, hlast, hdigest⟩ := h.current session hmem
  have hsecret : token.secret = last.secret := hhash (hrefreshable.current.trans hdigest)
  have hsid : last.sessionId = session.id := by simpa using List.find?_some hlast
  have htoken : token = last := by
    cases token
    cases last
    simp only [RefreshToken.mk.injEq] at hsecret hsid hid ⊢
    exact ⟨hid.symm.trans hsid.symm, hsecret⟩
  rw [AuthRun.Latest, ← hid, hlast, htoken]

/-- An earlier token is not the one issued last. -/
theorem AuthRun.Sound.not_latest (h : s.Sound lib) {token : RefreshToken}
    (hearlier : s.Earlier token) : ¬ s.Latest token := by
  obtain ⟨newer, older, hissued, t, ht, hsid⟩ := hearlier
  intro hlatest
  have hnd := h.secrets
  rw [AuthRun.Latest, hissued, List.find?_append] at hlatest
  rw [hissued, List.map_append, List.map_cons] at hnd
  cases hfind : newer.find? (·.sessionId = token.sessionId) with
  | none => exact absurd (List.find?_eq_none.1 hfind t ht) (by simpa using hsid)
  | some found =>
    rw [hfind] at hlatest
    obtain rfl := Option.some_inj.1 hlatest
    have hmem := List.mem_of_find?_eq_some hfind
    exact (List.nodup_append'.1 hnd).2.2 (List.mem_map_of_mem hmem) (List.mem_cons_self ..)

/-- The refresh tokens of a revoked session are refused. -/
theorem refresh_revoked (hids : (d.sessions.map UserSession.id).Nodup) {token : RefreshToken}
    (hrevoked : d.Revoked token.sessionId) (now : Time) :
    (refresh lib settings now d (some token)).2 = .error invalidCredentials := by
  obtain ⟨session, hsession, hid, hrevoked⟩ := hrevoked
  have hfind := hid ▸ AuthDatabase.session?_eq hids hsession
  rcases refresh_cases lib settings now d token with
    ⟨session', -, -, -, hrefresh⟩ | ⟨-, hrefresh⟩ | ⟨session', user, hsession', -, hrefreshable, -⟩
  · rw [hrefresh]
  · rw [hrefresh]
  · obtain rfl := Option.some_inj.1 (hsession'.symm.trans hfind)
    exact absurd hrefreshable.unrevoked hrevoked

/-- So are its access tokens. -/
theorem bearerPrincipal_revoked (hids : (d.sessions.map UserSession.id).Nodup)
    {token : AccessToken} (hrevoked : d.Revoked token.sid) (now : Time) :
    ∃ e, (bearerPrincipal now d token).2 = .error e := by
  obtain ⟨session, hsession, hid, hrevoked⟩ := hrevoked
  have hfind := hid ▸ AuthDatabase.session?_eq hids hsession
  unfold bearerPrincipal decodeAccessToken
  split
  · exact ⟨_, rfl⟩
  · rename_i payload hpayload
    split at hpayload
    · cases hpayload
    obtain rfl := Option.some_inj.1 hpayload
    dsimp only
    rw [hfind]
    split
    · rename_i session' user hsession' _
      obtain rfl := Option.some_inj.1 hsession'
      rw [if_pos (Or.inr (Or.inl hrevoked))]
      exact ⟨_, rfl⟩
    · exact ⟨_, rfl⟩

end Runs

/-- **Reuse kills the session for good.**  In every state of every run of
requests: a refresh token that is accepted is the one issued last for its
session, which is neither revoked nor expired; an earlier token revokes its
session; and once a session is revoked, its refresh and access tokens are
refused from then on. -/
theorem reuse_kills_session {lib : AuthLibraries} (hhash : Function.Injective lib.hashToken)
    (hfresh : Function.Injective lib.secretAt) (settings : AuthSettings) {d : AuthDatabase}
    (hstart : d.sessions = []) {events : List AuthEvent} {s : AuthRun}
    (h : Run (Steps (authStep lib settings)) ⟨d, []⟩ events s) :
    (∀ now token tokens, (refresh lib settings now s.db (some token)).2 = .ok tokens →
      s.Latest token ∧ ∃ session, s.db.session? token.sessionId = some session ∧
        session.revokedAt = none ∧ now < session.expiresAt) ∧
    (∀ now token session, s.Earlier token → s.db.session? token.sessionId = some session →
      session.revokedAt = none →
      (refresh lib settings now s.db (some token)).1.Revoked token.sessionId) ∧
    ∀ id, s.db.Revoked id → ∀ later t, Run (Steps (authStep lib settings)) s later t → ∀ now,
      (∀ token : RefreshToken, token.sessionId = id →
        (refresh lib settings now t.db (some token)).2 = .error invalidCredentials) ∧
      ∀ token : AccessToken, token.sid = id → ∀ scopes, ∃ e,
        (getPrincipal lib now t.db scopes { bearer := some token }).2 = .error e := by
  have hstep : ∀ (s : AuthRun) (e : AuthEvent) (t : AuthRun), s.Sound lib →
      Steps (authStep lib settings) s e t → t.Sound lib := by
    rintro s e _ hs rfl
    exact sound_authStep hs hfresh e
  have hsound : s.Sound lib := by
    refine h.invariant ⟨?_, ?_, ?_, ?_, ?_⟩ hstep
    · simp [hstart]
    · simp [hstart]
    · simp [hstart]
    · simp
    · simp
  refine ⟨?_, ?_, ?_⟩
  · intro now token tokens hok
    rcases refresh_cases lib settings now s.db token with
      ⟨_, -, -, -, hrefresh⟩ | ⟨-, hrefresh⟩ | ⟨session, _, hsession, -, hrefreshable, -⟩
    · rw [hrefresh] at hok; cases hok
    · rw [hrefresh] at hok; cases hok
    · exact ⟨hsound.latest hhash hsession hrefreshable, session, hsession,
        hrefreshable.unrevoked, hrefreshable.unexpired⟩
  · intro now token session hearlier hsession hunrevoked
    have hnot : ¬ session.Refreshable lib now token.secret := fun hrefreshable =>
      hsound.not_latest hearlier (hsound.latest hhash hsession hrefreshable)
    rcases refresh_cases lib settings now s.db token with
      ⟨session', hsession', -, -, hrefresh⟩ | ⟨hall, -⟩ | ⟨session', _, hsession', -, hrefreshable, -⟩
    · obtain ⟨hmem, hid⟩ := AuthDatabase.session?_mem hsession'
      rw [hrefresh]
      exact ⟨_, Rows.mem_replaceBy_self hmem rfl, hid, by simp⟩
    · exact absurd (hall session hsession hunrevoked) hnot
    · obtain rfl := Option.some_inj.1 (hsession'.symm.trans hsession)
      exact absurd hrefreshable hnot
  · intro id hrevoked later t hlater now
    have ht : t.Sound lib := hlater.invariant hsound hstep
    have hstill : t.db.Revoked id := by
      refine hlater.invariant_of (P := fun s => s.db.Revoked id) hsound hstep hrevoked ?_
      rintro s e _ hs hid rfl
      exact revoked_authStep hs hid e
    constructor
    · rintro token rfl
      exact refresh_revoked ht.ids hstill now
    · rintro token rfl scopes
      exact bearerPrincipal_revoked ht.ids hstill now

/-! ### A run -/

/-- The digests of the two secrets drawn below; other digests are told apart. -/
def sampleDigest (secret : String) : String :=
  if secret = "" then "e3b0c44298fc1c149afbf4c8996fb92427ae41e4649b934ca495991b7852b855"
  else if secret = "a" then "ca978112ca1bbdcafac231b39a23dc4da786eff8147c4e72b9807785afee48bb"
  else "#" ++ secret

theorem sampleDigest_injective : Function.Injective sampleDigest := by
  have hne : ∀ s t : String, t.toList.head? ≠ some '#' → "#" ++ s ≠ t := by
    rintro s t ht rfl
    exact ht (by simp)
  intro x y h
  unfold sampleDigest at h
  split at h
  · split at h
    · simp_all
    split at h
    · exact absurd h (by decide)
    · exact absurd h.symm (hne y _ (by decide))
  split at h
  · split at h
    · exact absurd h (by decide)
    split at h
    · simp_all
    · exact absurd h.symm (hne y _ (by decide))
  · split at h
    · exact absurd h (hne x _ (by decide))
    split at h
    · exact absurd h (hne x _ (by decide))
    · simpa using h

def sampleLibraries : AuthLibraries where
  hashToken := sampleDigest
  secretAt n := String.ofList (List.replicate n 'a')
  hashPassword password := "$" ++ password
  verifyPassword password encoded := "$" ++ password = encoded
  verifyTotp _ _ _ := false
  decryptText text := text
  apiDigest secret := "%" ++ secret
  upper code := code
  isDigit := Char.isDigit

theorem secretAt_injective : Function.Injective sampleLibraries.secretAt := by
  intro m n h
  have hlist := congrArg String.toList h
  simp only [sampleLibraries, String.toList_ofList] at hlist
  simpa using congrArg List.length hlist

/-- One verified user. -/
def sampleUsers : AuthDatabase where
  users := [{ id := 0, email := "u@example.com", passwordHash := "$pw", isVerified := true }]
  nextUuid := 1

/-- A login, and a refresh with its token. -/
def loginThenRefresh : List AuthEvent := [
  ⟨0, .login "u@example.com" "pw" none⟩,
  ⟨1, .refresh (some ⟨1, ""⟩)⟩]

theorem reuse_kills_session_loginThenRefresh :
    (refresh sampleLibraries {} 2 (loginThenRefresh.foldl (authStep sampleLibraries {})
      ⟨sampleUsers, []⟩).db (some ⟨1, ""⟩)).1.Revoked 1 :=
  (reuse_kills_session sampleDigest_injective secretAt_injective {} (d := sampleUsers) rfl
    (run_foldl _ _ loginThenRefresh)).2.1 2 ⟨1, ""⟩
    { id := 1, userId := 0, expiresAt := days 30, lastSeenAt := 1,
      refreshTokenHash := "ca978112ca1bbdcafac231b39a23dc4da786eff8147c4e72b9807785afee48bb" }
    ⟨[⟨1, "a"⟩], [], by decide +kernel, ⟨1, "a"⟩, by decide, rfl⟩ (by decide +kernel) rfl

end GnkAlgo
