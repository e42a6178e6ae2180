import GnkAlgo.Auth.Browser

/-!
# Concurrent refreshes

`refresh` reads the session row, checks it, reads the user and then writes the
digest of a new secret; the read takes no lock, and the write does not ask what
the row holds by then.  Requests run in threads and are interleaved here at their
database steps.

* `refreshStep` — one step of one request;
* `refreshStep_alone` — a request whose steps are not interleaved is `refresh`;
* `RefreshRun.AcceptedOnce` — no token is accepted twice, and a pair that was
  returned is good until it is used, or a reuse is reported;
* `refresh_token_once_iff` — the runs in which that holds: those where a row still
  holds the digest a request was checked against when the request writes it.
-/

namespace GnkAlgo

open Transition

/-! ## Steps -/

/-- How far a `refresh` is. -/
inductive RefreshPhase
  | idle
  /-- The session, as read, passed the check. -/
  | checked (token : RefreshToken) (session : UserSession)
  /-- Its user was read too. -/
  | admitted (token : RefreshToken) (session : UserSession) (user : User)
  /-- The new digest is written, and not committed. -/
  | rotating (token : RefreshToken) (session : UserSession) (tokens : TokenPair) (now : Time)
  /-- The session failed the check. -/
  | refusing (session : UserSession)
  /-- The revocation is written, and not committed. -/
  | revoking (session : UserSession) (now : Time)
  | returned (token : RefreshToken) (tokens : TokenPair)
  | failed (e : HttpError)
  deriving DecidableEq, Repr

/-- What a request does next. -/
inductive RefreshAction
  /-- It reads the session of its token, and checks it. -/
  | read (token : Option RefreshToken) (now : Time)
  | readUser
  | write (now : Time)
  | commit
  /-- An exception ends it, and rolls back. -/
  | abort
  deriving DecidableEq, Repr

structure RefreshEvent where
  request : ℕ
  action : RefreshAction
  deriving DecidableEq, Repr

/-- The committed tables, the requests, the rows written and not committed, and
the sessions with a `REFRESH_TOKEN_REUSE_DETECTED`. -/
structure RefreshRun where
  db : AuthDatabase
  requests : ℕ → RefreshPhase := fun _ => .idle
  locked : List Uuid := []
  reported : List Uuid := []

def RefreshRun.become (s : RefreshRun) (r : ℕ) (phase : RefreshPhase) : RefreshRun :=
  { s with requests := Function.update s.requests r phase }

/-- `HTTPException(status_code=500)`, as an exception that nothing handles. -/
def internalError : HttpError := ⟨500, "Internal Server Error"⟩

/-- One step of one request; a step it is not at, or that waits for a row, changes
nothing. -/
def refreshStep (lib : AuthLibraries) (settings : AuthSettings) (s : RefreshRun)
    (e : RefreshEvent) : RefreshRun :=
  let r := e.request
  match e.action, s.requests r with
  | .read none _, .idle => s.become r (.failed invalidCredentials)
  | .read (some token) now, .idle =>
    match s.db.session? token.sessionId with
    | none => s.become r (.failed invalidCredentials)
    | some session =>
      if session.revokedAt ≠ none ∨ session.expiresAt ≤ now ∨
          lib.hashToken token.secret ≠ session.refreshTokenHash then
        if session.revokedAt = none then s.become r (.refusing session)
        else s.become r (.failed invalidCredentials)
      else s.become r (.checked token session)
  | .readUser, .checked token session =>
    match s.db.user? session.userId with
    | none => s.become r (.failed invalidCredentials)
    | some user =>
      if ¬ user.isActive then s.become r (.failed invalidCredentials)
      else s.become r (.admitted token session user)
  | .write now, .admitted token session user =>
    if session.id ∈ s.locked then s
    else
      let tokens : TokenPair := {
        accessToken := createAccessToken settings now user.id session.id user.role
        refreshToken := ⟨session.id, lib.secretAt s.db.drawn⟩
        expiresIn := settings.accessTokenMinutes * 60 }
      { s with
        db := { s.db with drawn := s.db.drawn + 1 }, locked := session.id :: s.locked }.become
        r (.rotating token session tokens now)
  | .write now, .refusing session =>
    if session.id ∈ s.locked then s
    else { s with locked := session.id :: s.locked }.become r (.revoking session now)
  | .commit, .rotating token session tokens now =>
    let s := { s with locked := s.locked.erase session.id }
    match s.db.session? session.id with
    | none => s.become r (.failed internalError)
    | some row =>
      -- only the columns that changed are written, to the row as it is now
      let digest := lib.hashToken tokens.refreshToken.secret
      let row := { row with refreshTokenHash := digest, lastSeenAt := now }
      { s with db := s.db.setSession row }.become r (.returned token tokens)
  | .commit, .revoking session now =>
    let s := { s with locked := s.locked.erase session.id }
    match s.db.session? session.id with
    | none => s.become r (.failed internalError)
    | some row =>
      { s with
        db := s.db.setSession { row with revokedAt := some now }
        reported := session.id :: s.reported }.become r (.failed invalidCredentials)
  | .abort, .rotating _ session _ _ =>
    { s with locked := s.locked.erase session.id }.become r (.failed internalError)
  | .abort, .revoking session _ =>
    { s with locked := s.locked.erase session.id }.become r (.failed internalError)
  | .abort, .checked _ _ => s.become r (.failed internalError)
  | .abort, .admitted _ _ _ => s.become r (.failed internalError)
  | .abort, .refusing _ => s.become r (.failed internalError)
  | _, _ => s

/-! ## What is asked -/

/-- Some request with this token was answered with a pair. -/
def RefreshRun.Accepted (s : RefreshRun) (token : RefreshToken) : Prop :=
  ∃ r tokens, s.requests r = .returned token tokens

/-- A refresh with this token is accepted until the session expires. -/
def RefreshRun.Usable (lib : AuthLibraries) (settings : AuthSettings) (s : RefreshRun)
    (token : RefreshToken) : Prop :=
  ∃ session, s.db.session? token.sessionId = some session ∧ ∀ now < session.expiresAt,
    ∃ tokens, (refresh lib settings now s.db (some token)).2 = .ok tokens

/-- At most one request is answered with a pair for each token; and each pair
stays good for a first refresh, unless a reuse was reported. -/
structure RefreshRun.AcceptedOnce (lib : AuthLibraries) (settings : AuthSettings)
    (s : RefreshRun) : Prop where
  once : ∀ r r' token tokens tokens', s.requests r = .returned token tokens →
    s.requests r' = .returned token tokens' → r = r'
  usable : ∀ r token tokens, s.requests r = .returned token tokens →
    s.Usable lib settings tokens.refreshToken ∨ s.Accepted tokens.refreshToken ∨
      tokens.refreshToken.sessionId ∈ s.reported

/-- A request that commits its rotation finds the digest it was checked against. -/
def DigestKept (s : RefreshRun) (e : RefreshEvent) : Prop :=
  e.action = .commit → ∀ token session tokens now,
    s.requests e.request = .rotating token session tokens now → ∀ row,
    s.db.session? session.id = some row → row.refreshTokenHash = session.refreshTokenHash

/-- The digests in the tables are of secrets that were drawn. -/
def AuthDatabase.SecretsDrawn (lib : AuthLibraries) (d : AuthDatabase) : Prop :=
  ∀ session ∈ d.sessions, ∃ n < d.drawn, session.refreshTokenHash = lib.hashToken (lib.secretAt n)

/-! ## One step -/

/-- The check a request passed, and has not yet acted on. -/
def RefreshPhase.reading : RefreshPhase → Option (RefreshToken × UserSession)
  | .checked token session => some (token, session)
  | .admitted token session _ => some (token, session)
  | .rotating token session _ _ => some (token, session)
  | _ => none

/-- The pair a request was answered with. -/
def RefreshPhase.answer : RefreshPhase → Option (RefreshToken × TokenPair)
  | .returned token tokens => some (token, tokens)
  | _ => none

/-- What a step does. -/
inductive RefreshMove (lib : AuthLibraries) (s : RefreshRun) (e : RefreshEvent) : RefreshRun → Prop
  | stay : RefreshMove lib s e s
  /-- It ends without tokens, or is on the way to it. -/
  | drop (phase : RefreshPhase) (locked : List Uuid) (hreading : phase.reading = none)
      (hanswer : phase.answer = none) (hbefore : (s.requests e.request).answer = none) :
      RefreshMove lib s e ({ s with locked := locked }.become e.request phase)
  | check (token : RefreshToken) (session : UserSession) (now : Time)
      (hidle : s.requests e.request = .idle)
      (hsession : s.db.session? token.sessionId = some session)
      (hrefreshable : session.Refreshable lib now token.secret) :
      RefreshMove lib s e (s.become e.request (.checked token session))
  | pass (token : RefreshToken) (session : UserSession) (user : User)
      (hchecked : s.requests e.request = .checked token session)
      (huser : s.db.user? session.userId = some user) (hactive : user.isActive) :
      RefreshMove lib s e (s.become e.request (.admitted token session user))
  | rotate (token : RefreshToken) (session : UserSession) (user : User) (tokens : TokenPair)
      (now : Time) (locked : List Uuid)
      (hadmitted : s.requests e.request = .admitted token session user)
      (hnew : tokens.refreshToken = ⟨session.id, lib.secretAt s.db.drawn⟩) :
      RefreshMove lib s e ({ s with
        db := { s.db with drawn := s.db.drawn + 1 }, locked := locked }.become e.request
          (.rotating token session tokens now))
  | accept (token : RefreshToken) (session row : UserSession) (tokens : TokenPair) (now : Time)
      (locked : List Uuid) (hcommit : e.action = .commit)
      (hrotating : s.requests e.request = .rotating token session tokens now)
      (hrow : s.db.session? session.id = some row) :
      RefreshMove lib s e ({ s with
        db := s.db.setSession { row with
          refreshTokenHash := lib.hashToken tokens.refreshToken.secret, lastSeenAt := now }
        locked := locked }.become e.request (.returned token tokens))
  | report (session row : UserSession) (now : Time) (locked : List Uuid) (phase : RefreshPhase)
      (hrevoking : s.requests e.request = .revoking session now)
      (hrow : s.db.session? session.id = some row) (hreading : phase.reading = none)
      (hanswer : phase.answer = none) :
      RefreshMove lib s e ({ s with
        db := s.db.setSession { row with revokedAt := some now }
        locked := locked, reported := session.id :: s.reported }.become e.request phase)

section Step

variable {lib : AuthLibraries} {settings : AuthSettings} {s t : RefreshRun} {r : ℕ}

theorem refreshStep_move (lib : AuthLibraries) (settings : AuthSettings) (s : RefreshRun)
    (e : RefreshEvent) : RefreshMove lib s e (refreshStep lib settings s e) := by
  obtain ⟨r, action⟩ := e
  unfold refreshStep
  dsimp only
  split
  · rename_i hidle
    exact .drop _ s.locked rfl rfl (by rw [hidle]; rfl)
  · rename_i token now hidle
    split
    · exact .drop _ s.locked rfl rfl (by rw [hidle]; rfl)
    rename_i session hsession
    split
    · split
      · exact .drop _ s.locked rfl rfl (by rw [hidle]; rfl)
      · exact .drop _ s.locked rfl rfl (by rw [hidle]; rfl)
    · rename_i hcheck
      simp only [ne_eq, not_or, not_not, not_le] at hcheck
      exact .check token session now hidle hsession ⟨hcheck.1, hcheck.2.1, hcheck.2.2⟩
  · rename_i token session hchecked
    split
    · exact .drop _ s.locked rfl rfl (by rw [hchecked]; rfl)
    rename_i user huser
    split
    · exact .drop _ s.locked rfl rfl (by rw [hchecked]; rfl)
    · rename_i hactive
      exact .pass token session user hchecked huser (not_not.1 hactive)
  · rename_i now token session user hadmitted
    split
    · exact .stay
    · exact .rotate token session user _ now _ hadmitted rfl
  · rename_i now session hrefusing
    split
    · exact .stay
    · exact .drop _ _ rfl rfl (by rw [hrefusing]; rfl)
  · rename_i token session tokens now hrotating
    split
    · exact .drop _ _ rfl rfl (by rw [hrotating]; rfl)
    · rename_i row hrow
      exact .accept token session row tokens now _ rfl hrotating hrow
  · rename_i session now hrevoking
    split
    · exact .drop _ _ rfl rfl (by rw [hrevoking]; rfl)
    · rename_i row hrow
      exact .report session row now _ _ hrevoking hrow rfl rfl
  · rename_i hrotating
    exact .drop _ _ rfl rfl (by rw [hrotating]; rfl)
  · rename_i hrevoking
    exact .drop _ _ rfl rfl (by rw [hrevoking]; rfl)
  · rename_i hchecked
    exact .drop _ s.locked rfl rfl (by rw [hchecked]; rfl)
  · rename_i hadmitted
    exact .drop _ s.locked rfl rfl (by rw [hadmitted]; rfl)
  · rename_i hrefusing
    exact .drop _ s.locked rfl rfl (by rw [hrefusing]; rfl)
  · exact .stay

theorem become_self (s : RefreshRun) (r : ℕ) (phase : RefreshPhase) :
    (s.become r phase).requests r = phase := Function.update_self ..

theorem become_of_ne (s : RefreshRun) {r r' : ℕ} (phase : RefreshPhase) (hne : r' ≠ r) :
    (s.become r phase).requests r' = s.requests r' := Function.update_of_ne hne ..

/-! ### A request on its own -/

def RefreshPhase.response : RefreshPhase → Option (Except HttpError TokenPair)
  | .returned _ tokens => some (.ok tokens)
  | .failed e => some (.error e)
  | _ => none

/-- The steps of one request. -/
def refreshSteps (r : ℕ) (token : Option RefreshToken) (now : Time) : List RefreshEvent :=
  [⟨r, .read token now⟩, ⟨r, .readUser⟩, ⟨r, .write now⟩, ⟨r, .commit⟩]

/-- **No interleaving**: a request whose steps follow one another is `refresh`. -/
theorem refreshStep_alone (lib : AuthLibraries) (settings : AuthSettings) (s : RefreshRun) (r : ℕ)
    (token : Option RefreshToken) (now : Time) (hidle : s.requests r = .idle)
    (hfree : s.locked = []) :
    let t := (refreshSteps r token now).foldl (refreshStep lib settings) s
    t.db = (refresh lib settings now s.db token).1 ∧
      (t.requests r).response = some (refresh lib settings now s.db token).2 := by
  unfold refreshSteps
  simp only [List.foldl_cons, List.foldl_nil]
  cases token with
  | none => simp [refreshStep, RefreshRun.become, hidle, refresh, RefreshPhase.response]
  | some token =>
    unfold refresh
    dsimp only
    cases hsession : s.db.session? token.sessionId with
    | none => simp [refreshStep, RefreshRun.become, hidle, hsession, RefreshPhase.response]
    | some session =>
      have hid := (AuthDatabase.session?_mem hsession).2
      rw [← hid] at hsession
      dsimp only
      split
      · rename_i hcheck
        split
        · rename_i hunrevoked
          have hcheck := hcheck.resolve_left (not_not.2 hunrevoked)
          simp [refreshStep, RefreshRun.become, hidle, ← hid, hsession, hcheck, hunrevoked, hfree,
            RefreshPhase.response]
        · rename_i hrevoked
          simp [refreshStep, RefreshRun.become, hidle, ← hid, hsession, hrevoked,
            RefreshPhase.response]
      · rename_i hcheck
        cases huser : s.db.user? session.userId with
        | none =>
          simp [refreshStep, RefreshRun.become, hidle, ← hid, hsession, hcheck, huser,
            RefreshPhase.response]
        | some user =>
          dsimp only
          split
          · rename_i hactive
            simp [refreshStep, RefreshRun.become, hidle, ← hid, hsession, hcheck, huser, hactive,
              RefreshPhase.response]
          · rename_i hactive
            have hsame :
                ({ s.db with drawn := s.db.drawn + 1 } : AuthDatabase).session? session.id =
                some session := hsession
            simp [refreshStep, RefreshRun.become, hidle, ← hid, hsession, hcheck, huser, hactive,
              hfree, hsame, RefreshPhase.response, AuthDatabase.setSession]

end Step

/-! ## Invariant -/

/-- A secret that waits to be committed: drawn, in no row, with no other request,
and of no token that was accepted. -/
structure RefreshRun.Fresh (lib : AuthLibraries) (s : RefreshRun) (r : ℕ) (secret : String) :
    Prop where
  drawn : ∃ n < s.db.drawn, secret = lib.secretAt n
  rows : ∀ row ∈ s.db.sessions, row.refreshTokenHash ≠ lib.hashToken secret
  requests : ∀ r' token session tokens now, r' ≠ r →
    s.requests r' = .rotating token session tokens now → tokens.refreshToken.secret ≠ secret
  accepted : ∀ token, s.Accepted token → token.secret ≠ secret

/-- The row holds the digest of the token, unless the token was accepted, and is
not revoked, unless a reuse was reported. -/
structure RefreshRun.Good (lib : AuthLibraries) (s : RefreshRun) (token : RefreshToken)
    (row : UserSession) : Prop where
  found : s.db.session? token.sessionId = some row
  digest : row.refreshTokenHash = lib.hashToken token.secret ∨ s.Accepted token
  unrevoked : row.revokedAt = none ∨ token.sessionId ∈ s.reported

/-- The user of a session is active. -/
def RefreshRun.Active (s : RefreshRun) (session : UserSession) : Prop :=
  ∃ user, s.db.user? session.userId = some user ∧ user.isActive

/-- Reachable states of runs that keep the digests. -/
structure RefreshRun.Sound (lib : AuthLibraries) (s : RefreshRun) : Prop where
  drawn : s.db.SecretsDrawn lib
  reading : ∀ r token session, (s.requests r).reading = some (token, session) →
    token.sessionId = session.id ∧ lib.hashToken token.secret = session.refreshTokenHash ∧
      ∃ row, s.Good lib token row ∧ row.userId = session.userId
  active : ∀ r token session, (s.requests r).reading = some (token, session) →
    s.requests r = .checked token session ∨ s.Active session
  fresh : ∀ r token session tokens now, s.requests r = .rotating token session tokens now →
    tokens.refreshToken.sessionId = session.id ∧ s.Fresh lib r tokens.refreshToken.secret
  spent : ∀ token, s.Accepted token → (∃ n < s.db.drawn, token.secret = lib.secretAt n) ∧
    ∀ row, s.db.session? token.sessionId = some row →
      row.refreshTokenHash ≠ lib.hashToken token.secret
  once : ∀ r r' token tokens tokens', s.requests r = .returned token tokens →
    s.requests r' = .returned token tokens' → r = r'
  good : ∀ r token tokens, s.requests r = .returned token tokens →
    ∃ row, s.Good lib tokens.refreshToken row ∧ s.Active row

/-- A later state: what happens to a row when digests are kept. -/
structure RefreshRun.Later (lib : AuthLibraries) (s t : RefreshRun) : Prop where
  users : t.db.users = s.db.users
  accepted : ∀ token, s.Accepted token → t.Accepted token
  reported : s.reported ⊆ t.reported
  rows : ∀ id row, s.db.session? id = some row → ∃ row', t.db.session? id = some row' ∧
    row'.userId = row.userId ∧
    (row'.refreshTokenHash = row.refreshTokenHash ∨ ∃ token, token.sessionId = id ∧
      lib.hashToken token.secret = row.refreshTokenHash ∧ t.Accepted token) ∧
    (row'.revokedAt = row.revokedAt ∨ id ∈ t.reported)

section Invariant

variable {lib : AuthLibraries} {settings : AuthSettings} {s t : RefreshRun} {r : ℕ}
  {token : RefreshToken} {session row : UserSession} {phase : RefreshPhase}

theorem RefreshRun.Later.good (h : s.Later lib t) (hhash : Function.Injective lib.hashToken)
    (hgood : s.Good lib token row) : ∃ row', t.Good lib token row' ∧ row'.userId = row.userId := by
  obtain ⟨row', hrow', huser, hdigest, hrevoked⟩ := h.rows _ _ hgood.found
  refine ⟨row', ⟨hrow', ?_, ?_⟩, huser⟩
  · rcases hgood.digest with heq | haccepted
    · rcases hdigest with hsame | ⟨other, hid, hother, haccepted⟩
      · exact Or.inl (hsame.trans heq)
      · -- the row was rotated by a request with this very token
        have hsecret : other.secret = token.secret := hhash (hother.trans heq)
        have htoken : other = token := by
          cases other
          cases token
          simp only [RefreshToken.mk.injEq] at hid hsecret ⊢
          exact ⟨hid, hsecret⟩
        exact Or.inr (htoken ▸ haccepted)
    · exact Or.inr (h.accepted token haccepted)
  · rcases hgood.unrevoked with hnone | hreported
    · exact hrevoked.imp_left fun hsame => hsame.trans hnone
    · exact Or.inr (h.reported hreported)

theorem RefreshRun.Later.active (h : s.Later lib t) (hactive : s.Active row) : t.Active row := by
  unfold RefreshRun.Active AuthDatabase.user? at hactive ⊢
  rwa [h.users]

theorem RefreshRun.Active.congr (h : s.Active row) (heq : session.userId = row.userId) :
    s.Active session := by
  unfold RefreshRun.Active at h ⊢
  rwa [heq]

/-- The pairs that were accepted after a request moved on. -/
theorem accepted_update (ht : t.requests = Function.update s.requests r phase)
    (hbefore : (s.requests r).answer = none) :
    t.Accepted token ↔ s.Accepted token ∨ ∃ tokens, phase = .returned token tokens := by
  unfold RefreshRun.Accepted
  rw [ht]
  constructor
  · rintro ⟨r', tokens, hr'⟩
    rw [Function.update_apply] at hr'
    split at hr'
    · exact Or.inr ⟨tokens, hr'⟩
    · exact Or.inl ⟨r', tokens, hr'⟩
  · rintro (⟨r', tokens, hr'⟩ | ⟨tokens, hphase⟩)
    · have hne : r' ≠ r := by
        rintro rfl
        rw [hr'] at hbefore
        cases hbefore
      exact ⟨r', tokens, by rw [Function.update_of_ne hne]; exact hr'⟩
    · exact ⟨r, tokens, by rw [Function.update_self]; exact hphase⟩

/-- Where no digest changes. -/
theorem RefreshRun.Later.of_rows (hu : t.db.users = s.db.users)
    (ht : t.requests = Function.update s.requests r phase)
    (hbefore : (s.requests r).answer = none) (hreported : s.reported ⊆ t.reported)
    (hrows : ∀ id row, s.db.session? id = some row → ∃ row', t.db.session? id = some row' ∧
      row'.userId = row.userId ∧ row'.refreshTokenHash = row.refreshTokenHash ∧
      (row'.revokedAt = row.revokedAt ∨ id ∈ t.reported)) : s.Later lib t where
  users := hu
  accepted _ h := (accepted_update ht hbefore).2 (Or.inl h)
  reported := hreported
  rows id row hrow := by
    obtain ⟨row', hrow', huser, hdigest, hrevoked⟩ := hrows id row hrow
    exact ⟨row', hrow', huser, Or.inl hdigest, hrevoked⟩

/-- What a step has to show for the request that takes it. -/
theorem RefreshRun.Sound.next (h : s.Sound lib) (hhash : Function.Injective lib.hashToken)
    (hlater : s.Later lib t) (ht : t.requests = Function.update s.requests r phase)
    (hdrawn : t.db.SecretsDrawn lib)
    (hreading : ∀ token session, phase.reading = some (token, session) →
      (s.requests r).reading = some (token, session) ∨ token.sessionId = session.id ∧
        lib.hashToken token.secret = session.refreshTokenHash ∧ t.Good lib token session)
    (hactive : ∀ token session, phase.reading = some (token, session) →
      phase = .checked token session ∨ t.Active session)
    (hfresh : ∀ r' token session tokens now, t.requests r' = .rotating token session tokens now →
      tokens.refreshToken.sessionId = session.id ∧ t.Fresh lib r' tokens.refreshToken.secret)
    (hspent : ∀ token, t.Accepted token → (∃ n < t.db.drawn, token.secret = lib.secretAt n) ∧
      ∀ row, t.db.session? token.sessionId = some row →
        row.refreshTokenHash ≠ lib.hashToken token.secret)
    (honce : ∀ token tokens, phase = .returned token tokens → ¬ s.Accepted token)
    (hgood : ∀ token tokens, phase = .returned token tokens →
      ∃ row, t.Good lib tokens.refreshToken row ∧ t.Active row) : t.Sound lib := by
  have hrequest : ∀ r', t.requests r' = if r' = r then phase else s.requests r' := fun r' => by
    rw [ht, Function.update_apply]
  refine ⟨hdrawn, ?_, ?_, hfresh, hspent, ?_, ?_⟩
  · intro r' token session hr'
    have hold : ∀ {q}, (s.requests q).reading = some (token, session) →
        token.sessionId = session.id ∧ lib.hashToken token.secret = session.refreshTokenHash ∧
          ∃ row, t.Good lib token row ∧ row.userId = session.userId := by
      intro q hq
      obtain ⟨hsid, hdigest, row, hrow, huser⟩ := h.reading q token session hq
      obtain ⟨row', hrow', huser'⟩ := hlater.good hhash hrow
      exact ⟨hsid, hdigest, row', hrow', huser'.trans huser⟩
    rw [hrequest] at hr'
    split at hr'
    · rcases hreading token session hr' with hread | ⟨hsid, hdigest, hrow⟩
      · exact hold hread
      · exact ⟨hsid, hdigest, session, hrow, rfl⟩
    · exact hold hr'
  · intro r' token session hr'
    rw [hrequest] at hr' ⊢
    split at hr'
    · rename_i heq
      rw [if_pos heq]
      exact hactive token session hr'
    · rename_i hne
      rw [if_neg hne]
      exact (h.active r' token session hr').imp_right hlater.active
  · intro r1 r2 token tokens1 tokens2 hr1 hr2
    rw [hrequest] at hr1 hr2
    split at hr1
    · rename_i heq1
      split at hr2
      · rename_i heq2
        rw [heq1, heq2]
      · exact absurd ⟨r2, tokens2, hr2⟩ (honce token tokens1 hr1)
    · split at hr2
      · exact absurd ⟨r1, tokens1, hr1⟩ (honce token tokens2 hr2)
      · exact h.once r1 r2 token tokens1 tokens2 hr1 hr2
  · intro r' token tokens hr'
    rw [hrequest] at hr'
    split at hr'
    · exact hgood token tokens hr'
    · obtain ⟨row, hrow, hactive⟩ := h.good r' token tokens hr'
      obtain ⟨row', hrow', huser⟩ := hlater.good hhash hrow
      exact ⟨row', hrow', (hlater.active hactive).congr huser⟩

/-- A step that changes no digest and answers nothing. -/
theorem RefreshRun.Sound.next_of_digests (h : s.Sound lib)
    (hhash : Function.Injective lib.hashToken)
    (hlater : s.Later lib t) (ht : t.requests = Function.update s.requests r phase)
    (hbefore : (s.requests r).answer = none) (hanswer : phase.answer = none)
    (hgrow : s.db.drawn ≤ t.db.drawn)
    (hrows : ∀ row' ∈ t.db.sessions, ∃ row ∈ s.db.sessions,
      row'.refreshTokenHash = row.refreshTokenHash)
    (hfound : ∀ id row', t.db.session? id = some row' → ∃ row, s.db.session? id = some row ∧
      row'.refreshTokenHash = row.refreshTokenHash)
    (hreading : ∀ token session, phase.reading = some (token, session) →
      (s.requests r).reading = some (token, session) ∨ token.sessionId = session.id ∧
        lib.hashToken token.secret = session.refreshTokenHash ∧ t.Good lib token session)
    (hactive : ∀ token session, phase.reading = some (token, session) →
      phase = .checked token session ∨ t.Active session)
    (hnew : ∀ token session tokens now, phase = .rotating token session tokens now →
      tokens.refreshToken.sessionId = session.id ∧ t.Fresh lib r tokens.refreshToken.secret) :
    t.Sound lib := by
  have hreturned : ∀ token tokens, phase ≠ .returned token tokens := by
    rintro token tokens rfl
    cases hanswer
  have haccepted : ∀ token, t.Accepted token ↔ s.Accepted token := by
    intro token
    rw [accepted_update ht hbefore]
    exact or_iff_left fun ⟨tokens, hphase⟩ => hreturned token tokens hphase
  refine h.next hhash hlater ht ?_ hreading hactive ?_ ?_
    (fun token tokens hphase => absurd hphase (hreturned token tokens))
    fun token tokens hphase => absurd hphase (hreturned token tokens)
  · intro row' hrow'
    obtain ⟨row, hrow, hsame⟩ := hrows row' hrow'
    obtain ⟨n, hlt, hdigest⟩ := h.drawn row hrow
    exact ⟨n, hlt.trans_le hgrow, hsame.trans hdigest⟩
  · intro r' token session tokens now hr'
    by_cases heq : r' = r
    · subst heq
      refine hnew token session tokens now ?_
      rw [← hr', ht, Function.update_self]
    rw [ht, Function.update_of_ne heq] at hr'
    obtain ⟨hsid, hfresh⟩ := h.fresh r' token session tokens now hr'
    refine ⟨hsid, ?_, ?_, ?_, ?_⟩
    · obtain ⟨n, hlt, hsecret⟩ := hfresh.drawn
      exact ⟨n, hlt.trans_le hgrow, hsecret⟩
    · intro row' hrow'
      obtain ⟨row, hrow, hsame⟩ := hrows row' hrow'
      rw [hsame]
      exact hfresh.rows row hrow
    · intro q token' session' tokens' now' hne hq
      by_cases heq' : q = r
      · -- the new secret is not that of the request that waits
        subst heq'
        have hphase : phase = .rotating token' session' tokens' now' := by
          rw [← hq, ht, Function.update_self]
        have hother := (hnew token' session' tokens' now' hphase).2.requests r' token session tokens
          now heq (by rw [ht, Function.update_of_ne heq]; exact hr')
        exact hother.symm
      · rw [ht, Function.update_of_ne heq'] at hq
        exact hfresh.requests q token' session' tokens' now' hne hq
    · exact fun other hother => hfresh.accepted other ((haccepted other).1 hother)
  · intro token htoken
    obtain ⟨⟨n, hlt, hsecret⟩, hdiffers⟩ := h.spent token ((haccepted token).1 htoken)
    refine ⟨⟨n, hlt.trans_le hgrow, hsecret⟩, fun row' hrow' => ?_⟩
    obtain ⟨row, hrow, hsame⟩ := hfound _ row' hrow'
    rw [hsame]
    exact hdiffers row hrow

/-- A step that changes no row. -/
theorem RefreshRun.Sound.next_of_sessions (h : s.Sound lib)
    (hhash : Function.Injective lib.hashToken) (hsessions : t.db.sessions = s.db.sessions)
    (hu : t.db.users = s.db.users) (hreported : t.reported = s.reported)
    (ht : t.requests = Function.update s.requests r phase)
    (hbefore : (s.requests r).answer = none) (hanswer : phase.answer = none)
    (hgrow : s.db.drawn ≤ t.db.drawn)
    (hreading : ∀ token session, phase.reading = some (token, session) →
      (s.requests r).reading = some (token, session) ∨ token.sessionId = session.id ∧
        lib.hashToken token.secret = session.refreshTokenHash ∧ t.Good lib token session)
    (hactive : ∀ token session, phase.reading = some (token, session) →
      phase = .checked token session ∨ t.Active session)
    (hnew : ∀ token session tokens now, phase = .rotating token session tokens now →
      tokens.refreshToken.sessionId = session.id ∧ t.Fresh lib r tokens.refreshToken.secret) :
    t.Sound lib := by
  have hfound : ∀ id, t.db.session? id = s.db.session? id := fun id => by
    rw [AuthDatabase.session?, hsessions, AuthDatabase.session?]
  refine h.next_of_digests hhash
    (.of_rows hu ht hbefore (hreported ▸ List.Subset.refl _) ?_) ht hbefore hanswer
    hgrow ?_ ?_ hreading hactive hnew
  · exact fun id row hrow => ⟨row, (hfound id).trans hrow, rfl, rfl, Or.inl rfl⟩
  · exact fun row' hrow' => ⟨row', hsessions ▸ hrow', rfl⟩
  · exact fun id row' hrow' => ⟨row', (hfound id).symm.trans hrow', rfl⟩

/-- A secret that is drawn now. -/
theorem secret_ne_next (hsecret : Function.Injective lib.secretAt) {secret : String}
    (hdrawn : ∃ n < s.db.drawn, secret = lib.secretAt n) :
    secret ≠ lib.secretAt s.db.drawn := by
  obtain ⟨n, hlt, rfl⟩ := hdrawn
  exact fun heq => hlt.ne (hsecret heq)

/-- **Write**: the request draws its secret. -/
theorem sound_rotate_write (h : s.Sound lib) (hhash : Function.Injective lib.hashToken)
    (hsecret : Function.Injective lib.secretAt) {user : User} {tokens : TokenPair} {now : Time}
    (hadmitted : s.requests r = .admitted token session user)
    (hnew : tokens.refreshToken = ⟨session.id, lib.secretAt s.db.drawn⟩) (locked : List Uuid) :
    ({ s with db := { s.db with drawn := s.db.drawn + 1 }, locked := locked }.become r
      (.rotating token session tokens now)).Sound lib := by
  have hreads : (s.requests r).reading = some (token, session) := by rw [hadmitted]; rfl
  have hbefore : (s.requests r).answer = none := by rw [hadmitted]; rfl
  refine h.next_of_sessions hhash rfl rfl rfl rfl hbefore rfl (Nat.le_succ _) ?_ ?_ ?_
  · exact fun _ _ hphase => Or.inl (hreads.trans hphase)
  · intro token' session' hphase
    obtain ⟨rfl, rfl⟩ := Prod.mk.inj (Option.some_inj.1 hphase)
    rcases h.active r token session hreads with hchecked | hactive
    · rw [hadmitted] at hchecked; cases hchecked
    · exact Or.inr hactive
  · intro token' session' tokens' now' hphase
    cases hphase
    rw [hnew]
    refine ⟨rfl, ⟨s.db.drawn, Nat.lt_succ_self _, rfl⟩, ?_, ?_, ?_⟩
    · intro row hrow heq
      obtain ⟨n, hlt, hdigest⟩ := h.drawn row hrow
      exact secret_ne_next hsecret ⟨n, hlt, rfl⟩ (hhash (hdigest.symm.trans heq))
    · intro q token' session' tokens' now' hne hq
      rw [become_of_ne _ _ hne] at hq
      exact secret_ne_next hsecret (h.fresh q _ _ _ _ hq).2.drawn
    · intro other hother
      refine secret_ne_next hsecret (h.spent other ?_).1
      rcases (accepted_update rfl hbefore).1 hother with hother | ⟨_, hphase⟩
      · exact hother
      · cases hphase

/-- **Commit of a revocation**: a reuse is reported. -/
theorem sound_report (h : s.Sound lib) (hhash : Function.Injective lib.hashToken) {now : Time}
    (hbefore : (s.requests r).answer = none) (hrow : s.db.session? session.id = some row)
    (hreading : phase.reading = none) (hanswer : phase.answer = none) (locked : List Uuid) :
    ({ s with
      db := s.db.setSession { row with revokedAt := some now }
      locked := locked, reported := session.id :: s.reported }.become r phase).Sound lib := by
  obtain ⟨hmem, hid⟩ := AuthDatabase.session?_mem hrow
  have hself : (s.db.setSession { row with revokedAt := some now }).session? session.id =
      some { row with revokedAt := some now } := by
    rw [← hid]
    exact AuthDatabase.session?_setSession_self ⟨row, hmem, rfl⟩
  have hother : ∀ id, id ≠ session.id →
      (s.db.setSession { row with revokedAt := some now }).session? id = s.db.session? id :=
    fun id hne => AuthDatabase.session?_setSession_of_ne (hid ▸ hne)
  have hnone : ∀ token session, phase.reading ≠ some (token, session) := fun token session heq => by
    rw [hreading] at heq; cases heq
  refine h.next_of_digests hhash (.of_rows rfl rfl hbefore (List.subset_cons_self _ _) ?_) rfl
    hbefore hanswer le_rfl ?_ ?_ (fun token session heq => absurd heq (hnone token session))
    (fun token session heq => absurd heq (hnone token session)) ?_
  · intro id row' hrow'
    by_cases heq : id = session.id
    · rw [heq] at hrow' ⊢
      obtain rfl := Option.some_inj.1 (hrow.symm.trans hrow')
      exact ⟨_, hself, rfl, rfl, Or.inr (List.mem_cons_self ..)⟩
    · exact ⟨row', (hother id heq).trans hrow', rfl, rfl, Or.inl rfl⟩
  · intro row' hrow'
    rcases Rows.mem_replaceBy hrow' with rfl | ⟨hrow', -⟩
    · exact ⟨row, hmem, rfl⟩
    · exact ⟨row', hrow', rfl⟩
  · intro id row' hrow'
    by_cases heq : id = session.id
    · rw [heq] at hrow' ⊢
      obtain rfl := Option.some_inj.1 (hself.symm.trans hrow')
      exact ⟨row, hrow, rfl⟩
    · exact ⟨row', (hother id heq).symm.trans hrow', rfl⟩
  · rintro token session tokens now rfl
    cases hreading

/-- **Commit of a rotation**, where the row holds the digest the token was checked
against. -/
theorem sound_accept (h : s.Sound lib) (hhash : Function.Injective lib.hashToken)
    {tokens : TokenPair} {now : Time}
    (hrotating : s.requests r = .rotating token session tokens now)
    (hrow : s.db.session? session.id = some row)
    (hkept : row.refreshTokenHash = session.refreshTokenHash) (locked : List Uuid) :
    ({ s with
      db := s.db.setSession { row with
        refreshTokenHash := lib.hashToken tokens.refreshToken.secret, lastSeenAt := now }
      locked := locked }.become r (.returned token tokens)).Sound lib := by
  have hbefore : (s.requests r).answer = none := by rw [hrotating]; rfl
  have hreads : (s.requests r).reading = some (token, session) := by rw [hrotating]; rfl
  obtain ⟨hmem, hid⟩ := AuthDatabase.session?_mem hrow
  obtain ⟨hsid, hdigest, row', hgood, huser⟩ := h.reading r token session hreads
  obtain ⟨hnewId, hfresh⟩ := h.fresh r token session tokens now hrotating
  obtain rfl : row = row' := Option.some_inj.1 (hrow.symm.trans (hsid ▸ hgood.found))
  set new : UserSession := { row with
    refreshTokenHash := lib.hashToken tokens.refreshToken.secret, lastSeenAt := now } with hnew
  set t : RefreshRun := { s with db := s.db.setSession new, locked := locked }.become r
    (.returned token tokens) with ht
  have hself : t.db.session? session.id = some new := by
    rw [← hid]
    exact AuthDatabase.session?_setSession_self ⟨row, hmem, rfl⟩
  have hother : ∀ id, id ≠ session.id → t.db.session? id = s.db.session? id :=
    fun id hne => AuthDatabase.session?_setSession_of_ne (hid ▸ hne)
  have hsessions : ∀ y ∈ t.db.sessions, y = new ∨ y ∈ s.db.sessions := fun y hy =>
    (Rows.mem_replaceBy hy).imp_right And.left
  have haccepted : ∀ other, t.Accepted other ↔ s.Accepted other ∨ other = token := by
    intro other
    rw [accepted_update rfl hbefore]
    refine or_congr_right ⟨?_, ?_⟩
    · rintro ⟨tokens', heq⟩
      cases heq
      rfl
    · rintro rfl
      exact ⟨tokens, rfl⟩
  have htoken : t.Accepted token := (haccepted token).2 (Or.inr rfl)
  have hcurrent : lib.hashToken token.secret = row.refreshTokenHash := hdigest.trans hkept.symm
  -- the token was not accepted before: its digest is in the row
  have hfirst : ¬ s.Accepted token := fun hbefore =>
    (h.spent token hbefore).2 row hgood.found hcurrent.symm
  have hlater : s.Later lib t := by
    refine ⟨rfl, fun other hother => (haccepted other).2 (Or.inl hother), List.Subset.refl _, ?_⟩
    intro id y hy
    by_cases heq : id = session.id
    · rw [heq] at hy ⊢
      obtain rfl := Option.some_inj.1 (hrow.symm.trans hy)
      exact ⟨new, hself, rfl, Or.inr ⟨token, hsid, hcurrent, htoken⟩, Or.inl rfl⟩
    · exact ⟨y, (hother id heq).trans hy, rfl, Or.inl rfl, Or.inl rfl⟩
  refine h.next hhash hlater rfl ?_ (fun _ _ heq => nomatch heq) (fun _ _ heq => nomatch heq) ?_ ?_
    ?_ ?_
  · intro y hy
    rcases hsessions y hy with rfl | hy
    · obtain ⟨n, hlt, hsecret⟩ := hfresh.drawn
      exact ⟨n, hlt, by rw [hnew, hsecret]⟩
    · exact h.drawn y hy
  · intro q token' session' tokens' now' hq
    have hne : q ≠ r := by
      rintro rfl
      rw [ht, become_self] at hq
      cases hq
    rw [ht, become_of_ne _ _ hne] at hq
    obtain ⟨hsid', hfresh'⟩ := h.fresh q token' session' tokens' now' hq
    refine ⟨hsid', hfresh'.drawn, ?_, ?_, ?_⟩
    · intro y hy
      rcases hsessions y hy with rfl | hy
      · exact fun heq => hfresh'.requests r token session tokens now hne.symm hrotating (hhash heq)
      · exact hfresh'.rows y hy
    · intro q' token2 session2 tokens2 now2 hne' hq'
      have hne2 : q' ≠ r := by
        rintro rfl
        rw [ht, become_self] at hq'
        cases hq'
      rw [ht, become_of_ne _ _ hne2] at hq'
      exact hfresh'.requests q' token2 session2 tokens2 now2 hne' hq'
    · intro other hother
      rcases (haccepted other).1 hother with hother | rfl
      · exact hfresh'.accepted other hother
      · exact fun heq => hfresh'.rows row hmem (hcurrent.symm.trans (congrArg _ heq))
  · intro other hother'
    have hdrawn : ∃ n < s.db.drawn, other.secret = lib.secretAt n := by
      rcases (haccepted other).1 hother' with hbefore | rfl
      · exact (h.spent other hbefore).1
      · obtain ⟨n, hlt, hrowDigest⟩ := h.drawn row hmem
        exact ⟨n, hlt, hhash (hcurrent.trans hrowDigest)⟩
    refine ⟨hdrawn, fun y hy => ?_⟩
    have hnotNew : other.secret ≠ tokens.refreshToken.secret := by
      rcases (haccepted other).1 hother' with hbefore | rfl
      · exact hfresh.accepted other hbefore
      · exact fun heq => hfresh.rows row hmem (hcurrent.symm.trans (congrArg _ heq))
    by_cases heq : other.sessionId = session.id
    · rw [heq] at hy
      obtain rfl := Option.some_inj.1 (hself.symm.trans hy)
      exact fun heq' => hnotNew (hhash heq').symm
    · rw [hother _ heq] at hy
      rcases (haccepted other).1 hother' with hbefore | rfl
      · exact (h.spent other hbefore).2 y hy
      · exact absurd hsid heq
  · intro token' tokens' heq
    cases heq
    exact hfirst
  · intro token' tokens' heq
    cases heq
    have hactive : s.Active session := by
      rcases h.active r token session hreads with hchecked | hactive
      · rw [hrotating] at hchecked; cases hchecked
      · exact hactive
    refine ⟨new, ⟨hnewId ▸ hself, Or.inl rfl, ?_⟩, ?_⟩
    · rw [hnewId, ← hsid]
      exact hgood.unrevoked
    · exact (hlater.active hactive).congr huser

/-- **One step** of a run that keeps the digests. -/
theorem sound_refreshStep (h : s.Sound lib) (hhash : Function.Injective lib.hashToken)
    (hsecret : Function.Injective lib.secretAt) (settings : AuthSettings) {e : RefreshEvent}
    (hkept : DigestKept s e) : (refreshStep lib settings s e).Sound lib := by
  have hmove := refreshStep_move lib settings s e
  generalize refreshStep lib settings s e = t at hmove ⊢
  cases hmove with
  | stay => exact h
  | drop phase locked hreading hanswer hbefore =>
    have hnone : ∀ token session, phase.reading ≠ some (token, session) :=
      fun token session heq => by rw [hreading] at heq; cases heq
    refine h.next_of_sessions hhash rfl rfl rfl rfl hbefore hanswer le_rfl
      (fun token session heq => absurd heq (hnone token session))
      (fun token session heq => absurd heq (hnone token session)) ?_
    rintro token session tokens now rfl
    cases hreading
  | check token session now hidle hsession hrefreshable =>
    have hid := (AuthDatabase.session?_mem hsession).2
    refine h.next_of_sessions hhash rfl rfl rfl rfl (by rw [hidle]; rfl) rfl le_rfl ?_ ?_
      fun _ _ _ _ heq => nomatch heq
    · rintro _ _ ⟨⟩
      exact Or.inr ⟨hid.symm, hrefreshable.current, hsession, Or.inl hrefreshable.current.symm,
        Or.inl hrefreshable.unrevoked⟩
    · rintro _ _ ⟨⟩
      exact Or.inl rfl
  | pass token session user hchecked huser hactive =>
    refine h.next_of_sessions hhash rfl rfl rfl rfl (by rw [hchecked]; rfl) rfl le_rfl ?_ ?_
      fun _ _ _ _ heq => nomatch heq
    · rintro _ _ ⟨⟩
      exact Or.inl (by rw [hchecked]; rfl)
    · rintro _ _ ⟨⟩
      exact Or.inr ⟨user, huser, hactive⟩
  | rotate token session user tokens now locked hadmitted hnew =>
    exact sound_rotate_write h hhash hsecret hadmitted hnew locked
  | accept token session row tokens now locked hcommit hrotating hrow =>
    exact sound_accept h hhash hrotating hrow
      (hkept hcommit token session tokens now hrotating row hrow) locked
  | report session row now locked phase hrevoking hrow hreading hanswer =>
    exact sound_report h hhash (by rw [hrevoking]; rfl) hrow hreading hanswer locked

/-- Sound states are as asked. -/
theorem RefreshRun.Sound.acceptedOnce (h : s.Sound lib) (settings : AuthSettings) :
    s.AcceptedOnce lib settings := by
  refine ⟨h.once, fun r token tokens hr => ?_⟩
  obtain ⟨row, hgood, user, huser, hactive⟩ := h.good r token tokens hr
  rcases hgood.unrevoked with hunrevoked | hreported
  · rcases hgood.digest with hdigest | haccepted
    · refine Or.inl ⟨row, hgood.found, fun now hnow => ?_⟩
      rw [refresh_rotates hgood.found ⟨hunrevoked, hnow, hdigest.symm⟩ huser hactive]
      exact ⟨_, rfl⟩
    · exact Or.inr (Or.inl haccepted)
  · exact Or.inr (Or.inr hreported)

/-- A commit over another digest answers a token for the second time. -/
theorem digestKept_of_acceptedOnce (h : s.Sound lib) {e : RefreshEvent}
    (hnext : (refreshStep lib settings s e).AcceptedOnce lib settings) : DigestKept s e := by
  intro hcommit token session tokens now hrotating row hrow
  have hreads : (s.requests e.request).reading = some (token, session) := by rw [hrotating]; rfl
  obtain ⟨hsid, hdigest, row', hgood, -⟩ := h.reading _ token session hreads
  obtain rfl : row = row' := Option.some_inj.1 (hrow.symm.trans (hsid ▸ hgood.found))
  rcases hgood.digest with hcurrent | ⟨r', tokens', hr'⟩
  · exact hcurrent.trans hdigest
  have hne : r' ≠ e.request := by
    rintro rfl
    rw [hrotating] at hr'
    cases hr'
  have hstep : (refreshStep lib settings s e).requests =
      Function.update s.requests e.request (.returned token tokens) := by
    obtain ⟨r, action⟩ := e
    obtain rfl : action = .commit := hcommit
    rw [refreshStep]
    dsimp only at hrotating ⊢
    rw [hrotating]
    dsimp only
    rw [hrow]
    rfl
  refine absurd (hnext.once r' e.request token tokens' tokens ?_ ?_) hne
  · rw [hstep, Function.update_of_ne hne]
    exact hr'
  · rw [hstep, Function.update_self]

end Invariant

/-! ## Runs -/

/-- **A refresh token is accepted once.**  Over every interleaving of the steps of
any number of refresh requests: no token is accepted twice, and each pair that was
returned stays good for a first refresh unless a reuse was reported, exactly when
every rotation is committed over the digest it was checked against. -/
theorem refresh_token_once_iff {lib : AuthLibraries} (hhash : Function.Injective lib.hashToken)
    (hsecret : Function.Injective lib.secretAt) (settings : AuthSettings) {d : AuthDatabase}
    (hdrawn : d.SecretsDrawn lib) (events : List RefreshEvent) :
    (∀ before after, events = before ++ after →
      (before.foldl (refreshStep lib settings) { db := d }).AcceptedOnce lib settings) ↔
    Run (Guarded DigestKept (Steps (refreshStep lib settings))) { db := d } events
      (events.foldl (refreshStep lib settings) { db := d }) := by
  have hstart : ({ db := d } : RefreshRun).Sound lib := by
    have hidle : ∀ token, ¬ ({ db := d } : RefreshRun).Accepted token := by
      rintro token ⟨r, tokens, hr⟩
      cases hr
    refine ⟨hdrawn, ?_, ?_, ?_, ?_, ?_, ?_⟩
    · exact fun _ _ _ h => nomatch h
    · exact fun _ _ _ h => nomatch h
    · exact fun _ _ _ _ _ h => nomatch h
    · exact fun token h => absurd h (hidle token)
    · exact fun _ _ _ _ _ h => nomatch h
    · exact fun _ _ _ h => nomatch h
  exact guarded_run_invariant_iff hstart (fun s h => h.acceptedOnce settings)
    (fun s e h hkept => sound_refreshStep h hhash hsecret settings hkept)
    fun s e h hnext => digestKept_of_acceptedOnce h hnext

/-- A session, whose token is the first secret drawn. -/
def oneSession : AuthDatabase where
  users := [{ id := 0, email := "u@example.com", passwordHash := "$pw", isVerified := true }]
  sessions := [{
    id := 1, userId := 0, expiresAt := days 30, lastSeenAt := 0, refreshTokenHash :=
      "e3b0c44298fc1c149afbf4c8996fb92427ae41e4649b934ca495991b7852b855" }]
  nextUuid := 2
  drawn := 1

theorem refresh_token_once_iff_oneSession :
    (∀ before after, refreshSteps 0 (some ⟨1, ""⟩) 5 = before ++ after →
      (before.foldl (refreshStep sampleLibraries {}) { db := oneSession }).AcceptedOnce
        sampleLibraries {}) ↔
    Run (Guarded DigestKept (Steps (refreshStep sampleLibraries {}))) { db := oneSession }
      (refreshSteps 0 (some ⟨1, ""⟩) 5)
      ((refreshSteps 0 (some ⟨1, ""⟩) 5).foldl (refreshStep sampleLibraries {})
        { db := oneSession }) :=
  refresh_token_once_iff sampleDigest_injective secretAt_injective {}
    (fun session hsession => ⟨0, Nat.zero_lt_one, by
      obtain rfl := List.mem_singleton.1 hsession
      rfl⟩) _

/-- Two requests with one token: both read the row before either writes it. -/
def readTwice : List RefreshEvent := [
  ⟨0, .read (some ⟨1, ""⟩) 5⟩, ⟨1, .read (some ⟨1, ""⟩) 5⟩, ⟨0, .readUser⟩, ⟨1, .readUser⟩,
  ⟨0, .write 5⟩, ⟨0, .commit⟩, ⟨1, .write 6⟩, ⟨1, .commit⟩]

/-- **Both are answered**, and the pair of the first is dead, with no reuse
reported. -/
theorem refresh_token_accepted_twice :
    let s := readTwice.foldl (refreshStep sampleLibraries {}) { db := oneSession }
    (∃ first second, s.requests 0 = .returned ⟨1, ""⟩ first ∧
      s.requests 1 = .returned ⟨1, ""⟩ second ∧
      (refresh sampleLibraries {} 7 s.db (some first.refreshToken)).2 =
        .error invalidCredentials) ∧ s.reported = [] := by
  refine ⟨⟨⟨⟨0, 1, .retail, 0, 900 * 1000000⟩, ⟨1, "a"⟩, 900⟩,
    ⟨⟨0, 1, .retail, 0, 900 * 1000000⟩, ⟨1, "aa"⟩, 900⟩, ?_, ?_, ?_⟩, ?_⟩
  · decide +kernel
  · decide +kernel
  · decide +kernel
  · decide +kernel

end GnkAlgo
