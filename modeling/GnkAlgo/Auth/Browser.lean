import GnkAlgo.Auth.SessionRuns

/-!
# Calls of one browser

`api()` of `frontend/lib/api.ts`, any number of times at once and in any number
of tabs, against a server that handles each request in one step.  A tab has its
own session storage, with the access token; the local storage, with the refresh
token, is one for the browser.

* `browserStep` — a call starts, its request is handled, or its response arrives;
* `SingleFlight` — no call reads the stored refresh token while another refresh
  is on its way;
* `single_flight_safe` — then no token is ever presented that was rotated
  before, and as soon as a step is not of that kind, one can be.
-/

namespace GnkAlgo

open Transition

/-! ## Calls -/

/-- An `api()` call, by what it waits for. -/
inductive ApiCall
  /-- The request is on its way. -/
  | fetching (bearer : Option AccessToken)
  /-- Its response is, with status 401 or another one. -/
  | fetched (unauthorized : Bool)
  /-- The call to `/auth/refresh` is on its way. -/
  | refreshing (token : RefreshToken)
  /-- Its response is. -/
  | refreshed (answer : Option TokenPair)
  /-- The request is on its way a second time. -/
  | retrying (bearer : AccessToken)
  | finished
  deriving DecidableEq

/-- The call has read the refresh token and not yet stored what came of it. -/
def ApiCall.inFlight : ApiCall → Bool
  | .refreshing _ | .refreshed _ => true
  | _ => false

/-- The tables, the two storages, and the calls with the tab each was made in.
`rotated` lists the tokens the server has put others in the place of, and
`reused` tells whether one of them was presented afterwards. -/
structure Browser where
  db : AuthDatabase
  access : ℕ → Option AccessToken
  stored : Option RefreshToken
  calls : List (ℕ × ApiCall) := []
  rotated : List RefreshToken := []
  reused : Bool := false

inductive BrowserEvent
  | call (tab : ℕ)
  | serve (now : Time) (index : ℕ)
  | receive (index : ℕ)

/-- The server handles the request a call waits for. -/
def Browser.serve (lib : AuthLibraries) (settings : AuthSettings) (now : Time) (b : Browser) :
    ApiCall → Browser × ApiCall
  | .fetching bearer =>
    match getPrincipal lib now b.db [] { bearer := bearer } with
    | (d, .error _) => ({ b with db := d }, .fetched true)
    | (d, .ok _) => ({ b with db := d }, .fetched false)
  | .refreshing token =>
    let reused := b.reused || token ∈ b.rotated
    match refresh lib settings now b.db (some token) with
    | (d, .error _) => ({ b with db := d, reused := reused }, .refreshed none)
    | (d, .ok tokens) =>
      ({ b with db := d, rotated := token :: b.rotated, reused := reused }, .refreshed (some tokens))
  | .retrying bearer =>
    ({ b with db := (getPrincipal lib now b.db [] { bearer := bearer }).1 }, .finished)
  | call => (b, call)

/-- The response a call waits for arrives. -/
def Browser.receive (b : Browser) (tab : ℕ) : ApiCall → Browser × ApiCall
  | .fetched unauthorized =>
    match b.stored with
    | some token => if unauthorized then (b, .refreshing token) else (b, .finished)
    | none => (b, .finished)
  | .refreshed (some tokens) =>
    -- `saveTokens`, and the retry with what it stored
    ({ b with
        access := Function.update b.access tab (some tokens.accessToken)
        stored := some tokens.refreshToken }, .retrying tokens.accessToken)
  | .refreshed none =>
    -- `clearTokens`
    ({ b with access := Function.update b.access tab none, stored := none }, .finished)
  | call => (b, call)

def browserStep (lib : AuthLibraries) (settings : AuthSettings) (b : Browser) :
    BrowserEvent → Browser
  | .call tab => { b with calls := b.calls ++ [(tab, .fetching (b.access tab))] }
  | .serve now index =>
    match b.calls[index]? with
    | some (tab, call) =>
      let (b', call') := b.serve lib settings now call
      { b' with calls := b.calls.set index (tab, call') }
    | none => b
  | .receive index =>
    match b.calls[index]? with
    | some (tab, call) =>
      let (b', call') := b.receive tab call
      { b' with calls := b.calls.set index (tab, call') }
    | none => b

/-- A call reads the stored refresh token only while no other has it or what
came of it under way. -/
def SingleFlight (b : Browser) : BrowserEvent → Prop
  | .receive index => ∀ tab, b.calls[index]? = some (tab, .fetched true) → b.stored ≠ none →
      ∀ call ∈ b.calls, ¬ call.2.inFlight
  | _ => True

/-- No token was presented after the server had rotated it, the session is not
revoked, and the retry of every call is accepted while its token is not expired. -/
structure Browser.Safe (lib : AuthLibraries) (session : UserSession) (b : Browser) : Prop where
  reused : b.reused = false
  unrevoked : ¬ b.db.Revoked session.id
  retries : ∀ tab bearer, (tab, .retrying bearer) ∈ b.calls → ∀ now,
    decodeAccessToken now bearer = some bearer → now < session.expiresAt →
    ∃ principal, (getPrincipal lib now b.db [] { bearer := some bearer }).2 = .ok principal

/-- A browser that holds the current refresh token of an unrevoked session of an
active user, before any call. -/
structure Browser.Start (lib : AuthLibraries) (session : UserSession) (b : Browser) : Prop where
  ids : (b.db.sessions.map UserSession.id).Nodup
  row : b.db.session? session.id = some session
  unrevoked : session.revokedAt = none
  user : ∃ user, b.db.user? session.userId = some user ∧ user.isActive
  stored : ∃ n < b.db.drawn, b.stored = some ⟨session.id, lib.secretAt n⟩ ∧
    session.refreshTokenHash = lib.hashToken (lib.secretAt n)
  calls : b.calls = []
  rotated : b.rotated = []
  reused : b.reused = false

/-! ## One request at the server -/

section Server

variable {lib : AuthLibraries} {settings : AuthSettings} {now : Time} {d : AuthDatabase}
  {session : UserSession}

theorem AuthDatabase.session?_setSession_self {new : UserSession}
    (h : ∃ y ∈ d.sessions, y.id = new.id) : (d.setSession new).session? new.id = some new :=
  Rows.find?_replaceBy_self h

theorem AuthDatabase.session?_setSession_of_ne {new : UserSession} {id : Uuid}
    (hid : id ≠ new.id) : (d.setSession new).session? id = d.session? id :=
  Rows.find?_replaceBy_of_ne hid

/-- A request with an access token leaves the tables as they are, up to when a
session was last seen. -/
structure AuthDatabase.Touched (d d' : AuthDatabase) : Prop where
  users : d'.users = d.users
  drawn : d'.drawn = d.drawn
  ids : d'.sessions.map UserSession.id = d.sessions.map UserSession.id
  row : ∀ id session, d.session? id = some session →
    ∃ seen, d'.session? id = some { session with lastSeenAt := seen }

theorem AuthDatabase.Touched.refl (d : AuthDatabase) : d.Touched d :=
  ⟨rfl, rfl, rfl, fun _ session h => ⟨session.lastSeenAt, h⟩⟩

theorem touched_seen (hsession : d.session? session.id = some session) (now : Time) :
    d.Touched (d.setSession { session with lastSeenAt := now }) := by
  refine ⟨rfl, rfl, Rows.map_key_replaceBy, fun id other hother => ?_⟩
  by_cases hid : id = session.id
  · subst hid
    obtain rfl := Option.some_inj.1 (hother.symm.trans hsession)
    exact ⟨now, AuthDatabase.session?_setSession_self
      ⟨other, (AuthDatabase.session?_mem hother).1, rfl⟩⟩
  · have hne : id ≠ ({ session with lastSeenAt := now } : UserSession).id := hid
    exact ⟨other.lastSeenAt, (AuthDatabase.session?_setSession_of_ne hne).trans hother⟩

theorem touched_getPrincipal (lib : AuthLibraries) (now : Time) (d : AuthDatabase)
    (bearer : Option AccessToken) :
    d.Touched (getPrincipal lib now d [] { bearer := bearer }).1 := by
  unfold getPrincipal
  cases bearer with
  | none => exact .refl d
  | some token =>
    dsimp only
    unfold bearerPrincipal
    split
    · exact .refl d
    dsimp only
    split
    · rename_i session user hsession _
      split
      · exact .refl d
      · have hid := (AuthDatabase.session?_mem hsession).2
        exact touched_seen (hid ▸ hsession) now
    · exact .refl d

theorem refresh_rotates {token : RefreshToken} {user : User}
    (hsession : d.session? token.sessionId = some session)
    (hrefreshable : session.Refreshable lib now token.secret)
    (huser : d.user? session.userId = some user) (hactive : user.isActive) :
    refresh lib settings now d (some token) =
      ({ d.setSession { session with
          refreshTokenHash := lib.hashToken (lib.secretAt d.drawn), lastSeenAt := now } with
        drawn := d.drawn + 1 },
        .ok { accessToken := createAccessToken settings now user.id session.id user.role
              refreshToken := ⟨session.id, lib.secretAt d.drawn⟩
              expiresIn := settings.accessTokenMinutes * 60 }) := by
  have hgood : ¬ (session.revokedAt ≠ none ∨ session.expiresAt ≤ now ∨
      lib.hashToken token.secret ≠ session.refreshTokenHash) := by
    simp [hrefreshable.unrevoked, hrefreshable.unexpired, hrefreshable.current]
  unfold refresh
  simp only [hsession, if_neg hgood, huser, hactive, not_true_eq_false, if_false]

end Server

/-! ## What holds while refreshes do not overlap -/

section SetAlone

variable {α : Type*} {p : α → Bool} {l : List α} {i : ℕ} {x z : α}

/-- Where at most one element has a property, and that one is replaced, no other
element has it. -/
theorem mem_set_alone (h : l.countP p ≤ 1) (hi : l[i]? = some x) (hx : p x) :
    ∀ y ∈ l.set i z, y = z ∨ (y ∈ l ∧ ¬ p y) := by
  intro y hy
  obtain ⟨hlt, rfl⟩ := List.getElem?_eq_some_iff.1 hi
  rw [List.set_eq_take_append_cons_drop, if_pos hlt] at hy
  have hcount : (l.take i).countP p + ((l.drop (i + 1)).countP p + 1) ≤ 1 := by
    rw [← List.countP_cons_of_pos (a := l[i]) hx, ← List.countP_append,
      List.getElem_cons_drop hlt, List.take_append_drop]
    exact h
  have htake : (l.take i).countP p = 0 := by omega
  have hdrop : (l.drop (i + 1)).countP p = 0 := by omega
  rcases List.mem_append.1 hy with hy | hy
  · exact Or.inr ⟨List.mem_of_mem_take hy, List.countP_eq_zero.1 htake y hy⟩
  rcases List.mem_cons.1 hy with rfl | hy
  · exact Or.inl rfl
  · exact Or.inr ⟨List.mem_of_mem_drop hy, List.countP_eq_zero.1 hdrop y hy⟩

end SetAlone

/-- The access token is one of the session. -/
def AccessToken.Of (bearer : AccessToken) (session : UserSession) : Prop :=
  bearer.sub = session.userId ∧ bearer.sid = session.id

/-- What a call holds, where `token` is the current refresh token. -/
def Browser.Holds (session : UserSession) (b : Browser) (token : RefreshToken) : ApiCall → Prop
  | .refreshing t => t = token ∧ b.stored = some token
  | .refreshed (some tokens) => tokens.refreshToken = token ∧ tokens.accessToken.Of session ∧
      ∃ old ∈ b.rotated, b.stored = some old
  | .refreshed none => False
  | .retrying bearer => bearer.Of session
  | _ => True

/-- The tables have `token` as the current one of the session. -/
structure AuthDatabase.Current (lib : AuthLibraries) (session : UserSession) (d : AuthDatabase)
    (token : RefreshToken) : Prop where
  ids : (d.sessions.map UserSession.id).Nodup
  row : ∃ seen, d.session? session.id = some { session with
    refreshTokenHash := lib.hashToken token.secret, lastSeenAt := seen }
  user : ∃ user, d.user? session.userId = some user ∧ user.isActive
  sid : token.sessionId = session.id

theorem AuthDatabase.Current.touched {lib : AuthLibraries} {session : UserSession}
    {d d' : AuthDatabase} {token : RefreshToken} (h : d.Current lib session token)
    (htouched : d.Touched d') : d'.Current lib session token := by
  obtain ⟨seen, hrow⟩ := h.row
  obtain ⟨seen', hrow'⟩ := htouched.row _ _ hrow
  refine ⟨htouched.ids ▸ h.ids, ⟨seen', hrow'⟩, ?_, h.sid⟩
  obtain ⟨user, huser, hactive⟩ := h.user
  refine ⟨user, ?_, hactive⟩
  rw [AuthDatabase.user?, htouched.users]
  exact huser

/-- The browser has the current token, or the call that has it under way is the
only one. -/
structure Browser.Sound (lib : AuthLibraries) (session : UserSession) (b : Browser)
    (token : RefreshToken) : Prop where
  current : b.db.Current lib session token
  drawn : ∀ t ∈ token :: b.rotated, ∃ n < b.db.drawn, t.secret = lib.secretAt n
  fresh : token ∉ b.rotated
  reused : b.reused = false
  alone : b.calls.countP (·.2.inFlight) ≤ 1
  idle : b.calls.countP (·.2.inFlight) = 0 → b.stored = some token
  holds : ∀ call ∈ b.calls, b.Holds session token call.2

section Sound

variable {lib : AuthLibraries} {settings : AuthSettings} {session : UserSession} {b : Browser}
  {token : RefreshToken}

theorem Browser.Sound.safe (h : b.Sound lib session token) (hunrevoked : session.revokedAt = none) :
    b.Safe lib session := by
  obtain ⟨seen, hrow⟩ := h.current.row
  obtain ⟨user, huser, hactive⟩ := h.current.user
  refine ⟨h.reused, ?_, ?_⟩
  · rintro ⟨other, hother, hid, hrevoked⟩
    have hfind := hid ▸ AuthDatabase.session?_eq h.current.ids hother
    obtain rfl := Option.some_inj.1 (hfind.symm.trans hrow)
    exact hrevoked hunrevoked
  · intro tab bearer hcall now hdecode hunexpired
    obtain ⟨hsub, hsid⟩ : bearer.Of session := h.holds _ hcall
    rw [← hsid] at hrow
    exact getPrincipal_accepts hdecode hrow (hsub ▸ huser) hactive hsub.symm hunrevoked hunexpired

/-- A call that had nothing under way goes on without anything under way. -/
theorem Browser.Sound.quiet (h : b.Sound lib session token) {b' : Browser} {index : ℕ}
    {old new : ℕ × ApiCall} (hcalls : b'.calls = b.calls.set index new)
    (hold : b.calls[index]? = some old) (hquiet : ¬ old.2.inFlight) (hnew : ¬ new.2.inFlight)
    (hholds : b'.Holds session token new.2) (hdb : b.db.Touched b'.db)
    (hstored : b'.stored = b.stored) (hrotated : b'.rotated = b.rotated)
    (hreused : b'.reused = b.reused) :
    b'.Sound lib session token := by
  have hcount : b'.calls.countP (·.2.inFlight) = b.calls.countP (·.2.inFlight) := by
    obtain ⟨hlt, rfl⟩ := List.getElem?_eq_some_iff.1 hold
    rw [hcalls, List.countP_set hlt, if_neg hnew, if_neg hquiet]
    omega
  refine ⟨h.current.touched hdb, ?_, hrotated ▸ h.fresh, hreused.trans h.reused, ?_, ?_, ?_⟩
  · rw [hrotated, hdb.drawn]; exact h.drawn
  · rw [hcount]; exact h.alone
  · rw [hcount, hstored]; exact h.idle
  · intro call hcall
    rw [hcalls] at hcall
    rcases List.mem_or_eq_of_mem_set hcall with hcall | rfl
    · have hkept := h.holds call hcall
      unfold Browser.Holds at hkept ⊢
      rw [hstored, hrotated]
      exact hkept
    · exact hholds

/-- A call reads the stored token and sends it. -/
theorem Browser.Sound.send (h : b.Sound lib session token) {index tab : ℕ} {call : ApiCall}
    (hcall : b.calls[index]? = some (tab, call)) (hquiet : ∀ call ∈ b.calls, ¬ call.2.inFlight) :
    Browser.Sound lib session { b with calls := b.calls.set index (tab, .refreshing token) }
      token := by
  have hzero : b.calls.countP (·.2.inFlight) = 0 := List.countP_eq_zero.2 hquiet
  have hcount : (b.calls.set index (tab, ApiCall.refreshing token)).countP (·.2.inFlight) = 1 := by
    obtain ⟨hlt, heq⟩ := List.getElem?_eq_some_iff.1 hcall
    rw [List.countP_set hlt, hzero, if_neg (hquiet _ (List.getElem_mem hlt))]
    rfl
  refine ⟨h.current, h.drawn, h.fresh, h.reused, hcount.le, ?_, ?_⟩
  · intro hnone
    rw [hcount] at hnone
    cases hnone
  · intro other hother
    rcases List.mem_or_eq_of_mem_set hother with hother | rfl
    · exact h.holds other hother
    · exact ⟨rfl, h.idle hzero⟩

/-- The current token of an unrevoked session is rotated. -/
theorem AuthDatabase.Current.rotated {d : AuthDatabase} (h : d.Current lib session token)
    (settings : AuthSettings) (hunrevoked : session.revokedAt = none) {now : Time}
    (hunexpired : now < session.expiresAt) :
    ∃ d' tokens, refresh lib settings now d (some token) = (d', .ok tokens) ∧
      d'.Current lib session tokens.refreshToken ∧ tokens.accessToken.Of session ∧
      tokens.refreshToken.secret = lib.secretAt d.drawn ∧ d'.drawn = d.drawn + 1 := by
  obtain ⟨seen, hrow⟩ := h.row
  obtain ⟨user, huser, hactive⟩ := h.user
  obtain ⟨hmem, hid⟩ := AuthDatabase.session?_mem hrow
  have huserid : user.id = session.userId := by simpa using List.find?_some huser
  have htoken : d.session? token.sessionId = some { session with
      refreshTokenHash := lib.hashToken token.secret, lastSeenAt := seen } := by
    rw [h.sid]; exact hrow
  refine ⟨_, _, refresh_rotates htoken ⟨hunrevoked, hunexpired, rfl⟩ huser hactive,
    ⟨?_, ⟨now, ?_⟩, ⟨user, huser, hactive⟩, rfl⟩, ⟨huserid, rfl⟩, rfl, rfl⟩
  · change ((Rows.replaceBy UserSession.id _ d.sessions).map UserSession.id).Nodup
    rw [Rows.map_key_replaceBy]
    exact h.ids
  · exact Rows.find?_replaceBy_self (x := ({ session with
      refreshTokenHash := lib.hashToken (lib.secretAt d.drawn), lastSeenAt := now } : UserSession))
      ⟨_, hmem, hid⟩

/-- What the other calls hold does not depend on the call that had a token under
way. -/
theorem Browser.Holds.of_quiet {b' : Browser} {token' : RefreshToken} {call : ApiCall}
    (h : b.Holds session token call) (hquiet : ¬ call.inFlight) : b'.Holds session token' call := by
  cases call with
  | refreshing t => exact absurd rfl hquiet
  | refreshed answer => exact absurd rfl hquiet
  | retrying bearer => exact h
  | fetching | fetched | finished => trivial

/-- The server rotates the token of the one call that has it under way. -/
theorem Browser.Sound.rotate (h : b.Sound lib session token)
    (hfresh : Function.Injective lib.secretAt) {index tab : ℕ}
    (hcall : b.calls[index]? = some (tab, .refreshing token)) {d : AuthDatabase}
    {tokens : TokenPair} (hd : d.Current lib session tokens.refreshToken)
    (hof : tokens.accessToken.Of session)
    (hsecret : tokens.refreshToken.secret = lib.secretAt b.db.drawn)
    (hdrawn : d.drawn = b.db.drawn + 1) :
    Browser.Sound lib session { b with
      db := d
      rotated := token :: b.rotated
      calls := b.calls.set index (tab, .refreshed (some tokens)) } tokens.refreshToken := by
  have hstored : b.stored = some token := (h.holds _ (List.mem_of_getElem? hcall)).2
  have halone := mem_set_alone (z := (tab, ApiCall.refreshed (some tokens))) h.alone hcall rfl
  have hpos : 0 < b.calls.countP (·.2.inFlight) :=
    List.countP_pos_iff.2 ⟨_, List.mem_of_getElem? hcall, rfl⟩
  have hcount : (b.calls.set index (tab, ApiCall.refreshed (some tokens))).countP (·.2.inFlight) =
      b.calls.countP (·.2.inFlight) := by
    obtain ⟨hlt, heq⟩ := List.getElem?_eq_some_iff.1 hcall
    rw [List.countP_set hlt, heq]
    exact Nat.sub_add_cancel hpos
  refine ⟨hd, ?_, ?_, h.reused, hcount.le.trans h.alone, ?_, ?_⟩
  · intro t ht
    rw [hdrawn]
    rcases List.mem_cons.1 ht with rfl | ht
    · exact ⟨b.db.drawn, Nat.lt_succ_self _, hsecret⟩
    · obtain ⟨n, hn, hdraw⟩ := h.drawn t ht
      exact ⟨n, hn.trans (Nat.lt_succ_self _), hdraw⟩
  · intro hin
    obtain ⟨n, hn, hdraw⟩ := h.drawn _ hin
    have heq := hfresh (hsecret.symm.trans hdraw)
    omega
  · intro hnone
    rw [hcount] at hnone
    omega
  · intro call hin
    rcases halone call hin with rfl | ⟨hold, hquiet⟩
    · exact ⟨rfl, hof, token, List.mem_cons_self .., hstored⟩
    · exact (h.holds call hold).of_quiet hquiet

/-- The answer arrives, is stored, and the request is sent again. -/
theorem Browser.Sound.store (h : b.Sound lib session token) {index tab : ℕ} {tokens : TokenPair}
    (hcall : b.calls[index]? = some (tab, .refreshed (some tokens)))
    (access : ℕ → Option AccessToken) :
    Browser.Sound lib session { b with
      access := access
      stored := some tokens.refreshToken
      calls := b.calls.set index (tab, .retrying tokens.accessToken) } token := by
  obtain ⟨htoken, hof, -⟩ := h.holds _ (List.mem_of_getElem? hcall)
  have halone := mem_set_alone (z := (tab, ApiCall.retrying tokens.accessToken)) h.alone hcall rfl
  have hquiet : ∀ call ∈ b.calls.set index (tab, .retrying tokens.accessToken),
      ¬ call.2.inFlight := by
    intro call hin
    rcases halone call hin with rfl | ⟨-, hquiet⟩
    · simp [ApiCall.inFlight]
    · exact hquiet
  have hzero := List.countP_eq_zero.2 hquiet
  refine ⟨h.current, h.drawn, h.fresh, h.reused, hzero.le.trans (Nat.zero_le _), ?_, ?_⟩
  · intro _
    exact congrArg some htoken
  · intro call hin
    rcases halone call hin with rfl | ⟨hold, hquiet⟩
    · exact hof
    · exact (h.holds call hold).of_quiet hquiet

end Sound

/-! ## Steps -/

section Steps

variable {lib : AuthLibraries} {settings : AuthSettings} {session : UserSession} {b : Browser}
  {token : RefreshToken}

/-- A step that leaves a call as it is changes nothing. -/
theorem set_same {α : Type*} {l : List α} {i : ℕ} {x : α} (h : l[i]? = some x) : l.set i x = l := by
  obtain ⟨hlt, rfl⟩ := List.getElem?_eq_some_iff.1 h
  exact List.set_getElem_self hlt

theorem Browser.Sound.call (h : b.Sound lib session token) (tab : ℕ) :
    (browserStep lib settings b (.call tab)).Sound lib session token := by
  have hcount : (b.calls ++ [(tab, ApiCall.fetching (b.access tab))]).countP (·.2.inFlight) =
      b.calls.countP (·.2.inFlight) := by
    simp [List.countP_append, ApiCall.inFlight]
  refine ⟨h.current, h.drawn, h.fresh, h.reused, hcount.le.trans h.alone, ?_, ?_⟩
  · intro hzero
    exact h.idle (hcount.symm.trans hzero)
  · intro call hcall
    rcases List.mem_append.1 hcall with hcall | hcall
    · exact h.holds call hcall
    · rw [List.mem_singleton.1 hcall]
      trivial

theorem browserStep_serve {now : Time} {index tab : ℕ} {call : ApiCall}
    (hcall : b.calls[index]? = some (tab, call)) : browserStep lib settings b (.serve now index) =
      { (b.serve lib settings now call).1 with
        calls := b.calls.set index (tab, (b.serve lib settings now call).2) } := by
  simp [browserStep, hcall]

theorem browserStep_receive {index tab : ℕ} {call : ApiCall}
    (hcall : b.calls[index]? = some (tab, call)) : browserStep lib settings b (.receive index) =
      { (b.receive tab call).1 with
        calls := b.calls.set index (tab, (b.receive tab call).2) } := by
  simp [browserStep, hcall]

theorem Browser.serve_fetching (lib : AuthLibraries) (settings : AuthSettings) (now : Time)
    (b : Browser) (bearer : Option AccessToken) :
    ∃ d unauthorized, b.db.Touched d ∧ b.serve lib settings now (.fetching bearer) =
      ({ b with db := d }, .fetched unauthorized) := by
  have htouched := touched_getPrincipal lib now b.db bearer
  unfold Browser.serve
  dsimp only
  generalize getPrincipal lib now b.db [] { bearer := bearer } = r at htouched ⊢
  obtain ⟨d, e | principal⟩ := r
  · exact ⟨d, true, htouched, rfl⟩
  · exact ⟨d, false, htouched, rfl⟩

theorem Browser.serve_refreshing {now : Time} {t : RefreshToken} {d : AuthDatabase}
    {tokens : TokenPair} (h : refresh lib settings now b.db (some t) = (d, .ok tokens)) :
    b.serve lib settings now (.refreshing t) =
      ({ b with db := d, rotated := t :: b.rotated, reused := b.reused || t ∈ b.rotated },
        .refreshed (some tokens)) := by
  simp only [Browser.serve, h]

/-- A token that was rotated before is presented. -/
theorem Browser.serve_reused {now : Time} {t : RefreshToken} (h : t ∈ b.rotated) :
    (b.serve lib settings now (.refreshing t)).1.reused = true := by
  unfold Browser.serve
  dsimp only
  generalize refresh lib settings now b.db (some t) = r
  obtain ⟨d, e | tokens⟩ := r
  · simp [h]
  · simp [h]

/-- **The server handles a request.** -/
theorem Browser.Sound.serve (h : b.Sound lib session token)
    (hfresh : Function.Injective lib.secretAt) (hunrevoked : session.revokedAt = none) {now : Time}
    (hunexpired : now < session.expiresAt) (index : ℕ) :
    ∃ token', (browserStep lib settings b (.serve now index)).Sound lib session token' := by
  cases hcall : b.calls[index]? with
  | none =>
    refine ⟨token, ?_⟩
    simpa [browserStep, hcall] using h
  | some entry =>
    obtain ⟨tab, call⟩ := entry
    rw [browserStep_serve hcall]
    cases call with
    | fetching bearer =>
      obtain ⟨d, unauthorized, htouched, hserve⟩ :=
        b.serve_fetching lib settings now bearer
      have hfetched : Browser.Sound lib session { b with
          db := d, calls := b.calls.set index (tab, .fetched unauthorized) } token :=
        h.quiet rfl hcall (by simp [ApiCall.inFlight]) (by simp [ApiCall.inFlight]) trivial htouched
          rfl rfl rfl
      rw [hserve]
      exact ⟨token, hfetched⟩
    | refreshing t =>
      obtain ⟨rfl, -⟩ := h.holds _ (List.mem_of_getElem? hcall)
      obtain ⟨d, tokens, hrefresh, hd, hof, hsecret, hdrawn⟩ :=
        h.current.rotated settings hunrevoked hunexpired
      have hsame : (b.reused || decide (t ∈ b.rotated)) = b.reused := by
        rw [decide_eq_false h.fresh, Bool.or_false]
      rw [Browser.serve_refreshing hrefresh, hsame]
      exact ⟨tokens.refreshToken, h.rotate hfresh hcall hd hof hsecret hdrawn⟩
    | retrying bearer =>
      have hretried : Browser.Sound lib session { b with
          db := (getPrincipal lib now b.db [] { bearer := some bearer }).1
          calls := b.calls.set index (tab, .finished) } token :=
        h.quiet rfl hcall (by simp [ApiCall.inFlight]) (by simp [ApiCall.inFlight]) trivial
          (touched_getPrincipal lib now b.db (some bearer)) rfl rfl rfl
      exact ⟨token, hretried⟩
    | fetched | refreshed | finished =>
      refine ⟨token, ?_⟩
      unfold Browser.serve
      dsimp only
      rw [set_same hcall]
      exact h

/-- **A response arrives.** -/
theorem Browser.Sound.receive (h : b.Sound lib session token) {index : ℕ}
    (hok : SingleFlight b (.receive index)) :
    (browserStep lib settings b (.receive index)).Sound lib session token := by
  cases hcall : b.calls[index]? with
  | none => simpa [browserStep, hcall] using h
  | some entry =>
    obtain ⟨tab, call⟩ := entry
    rw [browserStep_receive hcall]
    cases call with
    | fetched unauthorized =>
      have hfinish : Browser.Sound lib session { b with
          calls := b.calls.set index (tab, .finished) } token :=
        h.quiet rfl hcall (by simp [ApiCall.inFlight]) (by simp [ApiCall.inFlight]) trivial (.refl _)
          rfl rfl rfl
      unfold Browser.receive
      cases hstored : b.stored with
      | none => exact hfinish
      | some t =>
        cases unauthorized with
        | false => exact hfinish
        | true =>
          have hquiet := hok tab hcall (by simp [hstored])
          have hzero : b.calls.countP (·.2.inFlight) = 0 := List.countP_eq_zero.2 hquiet
          obtain rfl := Option.some_inj.1 (hstored.symm.trans (h.idle hzero))
          exact h.send hcall hquiet
    | refreshed answer =>
      cases answer with
      | none => exact absurd (h.holds _ (List.mem_of_getElem? hcall)) id
      | some tokens => exact h.store hcall _
    | fetching | refreshing | retrying | finished =>
      unfold Browser.receive
      dsimp only
      rw [set_same hcall]
      exact h

/-- **A second refresh trips.**  Where a call has read the token while another
refresh is on its way, the server can be presented a token it has rotated. -/
theorem Browser.Sound.trips (h : b.Sound lib session token) (settings : AuthSettings)
    (hunrevoked : session.revokedAt = none) {e : BrowserEvent} (hbad : ¬ SingleFlight b e) :
    ∃ more : List BrowserEvent,
      (∀ now index, .serve now index ∈ more → now < session.expiresAt) ∧
      (more.foldl (browserStep lib settings) (browserStep lib settings b e)).reused = true := by
  cases e with
  | call tab => exact absurd trivial hbad
  | serve now index => exact absurd trivial hbad
  | receive index =>
    unfold SingleFlight at hbad
    push Not at hbad
    obtain ⟨tab, hcall, hstored, ⟨tab', call⟩, hmem, hflight⟩ := hbad
    obtain ⟨t, hstored⟩ := Option.ne_none_iff_exists'.1 hstored
    have hsent : browserStep lib settings b (.receive index) =
        { b with calls := b.calls.set index (tab, .refreshing t) } := by
      rw [browserStep_receive hcall]
      simp [Browser.receive, hstored]
    rw [hsent]
    obtain ⟨hlt, -⟩ := List.getElem?_eq_some_iff.1 hcall
    have hsecond : (b.calls.set index (tab, ApiCall.refreshing t))[index]? =
        some (tab, .refreshing t) := List.getElem?_set_self hlt
    obtain ⟨now, hnow⟩ : ∃ now, now < session.expiresAt := ⟨_, sub_one_lt _⟩
    cases call with
    | refreshing t' =>
      -- the server rotates the token for the other call first
      obtain ⟨rfl, hstored'⟩ := h.holds _ hmem
      obtain rfl := Option.some_inj.1 (hstored.symm.trans hstored')
      obtain ⟨d, tokens, hrefresh, -⟩ :=
        h.current.rotated settings hunrevoked hnow
      obtain ⟨other, hother⟩ := List.mem_iff_getElem?.1 hmem
      have hne : index ≠ other := by
        rintro rfl
        cases hcall.symm.trans hother
      have hfirst : (b.calls.set index (tab, ApiCall.refreshing t))[other]? =
          some (tab', .refreshing t) := by
        rw [List.getElem?_set_ne hne]
        exact hother
      refine ⟨[.serve now other, .serve now index], ?_, ?_⟩
      · intro now' index' hin
        simp only [List.mem_cons, BrowserEvent.serve.injEq, List.not_mem_nil, or_false] at hin
        rcases hin with ⟨rfl, -⟩ | ⟨rfl, -⟩
        · exact hnow
        · exact hnow
      · have hserved : browserStep lib settings
            { b with calls := b.calls.set index (tab, .refreshing t) } (.serve now other) =
            { b with
              db := d
              rotated := t :: b.rotated
              reused := b.reused || t ∈ b.rotated
              calls := (b.calls.set index (tab, .refreshing t)).set other
                (tab', .refreshed (some tokens)) } := by
          rw [browserStep_serve hfirst, Browser.serve_refreshing
            (b := { b with calls := b.calls.set index (tab, .refreshing t) }) hrefresh]
        rw [List.foldl_cons, List.foldl_cons, List.foldl_nil, hserved]
        have hleft : ((b.calls.set index (tab, ApiCall.refreshing t)).set other
            (tab', .refreshed (some tokens)))[index]? = some (tab, .refreshing t) := by
          rw [List.getElem?_set_ne hne.symm]
          exact hsecond
        rw [browserStep_serve hleft]
        exact Browser.serve_reused (List.mem_cons_self ..)
    | refreshed answer =>
      -- the server has rotated the stored token already
      cases answer with
      | none => exact absurd (h.holds _ hmem) id
      | some tokens =>
        obtain ⟨-, -, old, hold, hstored'⟩ := h.holds _ hmem
        obtain rfl := Option.some_inj.1 (hstored.symm.trans hstored')
        refine ⟨[.serve now index], ?_, ?_⟩
        · intro now' index' hin
          simp only [List.mem_singleton, BrowserEvent.serve.injEq] at hin
          exact hin.1 ▸ hnow
        · rw [List.foldl_cons, List.foldl_nil, browserStep_serve hsecond]
          exact Browser.serve_reused hold
    | fetching | fetched | retrying | finished => exact absurd hflight (by simp [ApiCall.inFlight])

end Steps

theorem Browser.Start.sound {lib : AuthLibraries} {session : UserSession} {b : Browser}
    (h : b.Start lib session) : ∃ token, b.Sound lib session token := by
  obtain ⟨n, hn, hstored, hhash⟩ := h.stored
  have hnone : b.calls.countP (·.2.inFlight) = 0 := by simp [h.calls]
  refine ⟨⟨session.id, lib.secretAt n⟩, ⟨h.ids, ⟨session.lastSeenAt, ?_⟩, h.user, rfl⟩, ?_, ?_,
    h.reused, hnone.le.trans (Nat.zero_le _), fun _ => hstored, ?_⟩
  · rw [← hhash]
    exact h.row
  · intro t ht
    rw [h.rotated, List.mem_singleton] at ht
    exact ⟨n, hn, congrArg RefreshToken.secret ht⟩
  · simp [h.rotated]
  · simp [h.calls]

/-- **When concurrent calls do not trip reuse detection.**  Where no call reads
the stored refresh token while another refresh is on its way, no token is
presented after it was rotated, the session stays unrevoked, and every retry is
accepted.  A step that is not of that kind can be followed by requests of which
one presents such a token. -/
theorem single_flight_safe {lib : AuthLibraries} (settings : AuthSettings) {session : UserSession}
    {b0 : Browser} (hfresh : Function.Injective lib.secretAt) (hstart : b0.Start lib session)
    {events : List BrowserEvent} {b : Browser}
    (hrun : Run (Guarded SingleFlight (Steps (browserStep lib settings))) b0 events b)
    (htimes : ∀ now index, .serve now index ∈ events → now < session.expiresAt) :
    b.Safe lib session ∧ ∀ e, ¬ SingleFlight b e → ∃ more : List BrowserEvent,
      (∀ now index, .serve now index ∈ more → now < session.expiresAt) ∧
        (more.foldl (browserStep lib settings) (browserStep lib settings b e)).reused = true := by
  have htimed := hrun.guarded_of_forall
    (p := fun e => ∀ now index, e = .serve now index → now < session.expiresAt)
    fun e he now index heq => htimes now index (heq ▸ he)
  obtain ⟨token, hsound⟩ : ∃ token, b.Sound lib session token := by
    refine htimed.invariant (P := fun b => ∃ token, b.Sound lib session token) hstart.sound ?_
    rintro b e _ ⟨token, hb⟩ ⟨htime, hok, rfl⟩
    cases e with
    | call tab => exact ⟨token, hb.call tab⟩
    | serve now index => exact hb.serve hfresh hstart.unrevoked (htime now index rfl) index
    | receive index => exact ⟨token, hb.receive hok⟩
  exact ⟨hsound.safe hstart.unrevoked, fun e hbad => hsound.trips settings hstart.unrevoked hbad⟩

/-! ### Two calls of the trading page -/

/-- A session that goes on for 30 days. -/
def longSession : UserSession where
  id := 1
  userId := 0
  refreshTokenHash := sampleDigest ""
  expiresAt := days 30
  lastSeenAt := 0

/-- A tab whose access token expired after 15 minutes. -/
def expiredTab : Browser where
  db := { sampleUsers with sessions := [longSession], nextUuid := 2, drawn := 1 }
  access _ := some (createAccessToken {} 0 0 1 .retail)
  stored := some ⟨1, ""⟩

theorem expiredTab_start : expiredTab.Start sampleLibraries longSession where
  ids := by decide
  row := rfl
  unrevoked := rfl
  user := ⟨_, rfl, rfl⟩
  stored := ⟨0, Nat.one_pos, rfl, rfl⟩
  calls := rfl
  rotated := rfl
  reused := rfl

instance (b : Browser) : (e : BrowserEvent) → Decidable (SingleFlight b e)
  | .call _ | .serve _ _ => isTrue trivial
  | .receive index =>
    decidable_of_iff (b.calls[index]?.map Prod.snd = some (.fetched true) → b.stored ≠ none →
      ∀ call ∈ b.calls, ¬ call.2.inFlight) <| by
        simp [SingleFlight, Option.map_eq_some_iff]

/-- Both calls are answered 401 before either refreshes, and the second reads the
stored refresh token once the first has saved what it got. -/
def callsInTurn : List BrowserEvent := [
  .call 0, .call 0, .serve (days 1) 0, .serve (days 1) 1,
  .receive 0, .serve (days 1) 0, .receive 0,
  .receive 1, .serve (days 1) 1, .receive 1,
  .serve (days 1) 0, .serve (days 1) 1]

theorem callsInTurn_guarded : Run (Guarded SingleFlight (Steps (browserStep sampleLibraries {})))
    expiredTab callsInTurn (callsInTurn.foldl (browserStep sampleLibraries {}) expiredTab) :=
  run_of_stepsMeet (by decide +kernel)

theorem callsInTurn_times (now : Time) (index : ℕ) (h : .serve now index ∈ callsInTurn) :
    now < longSession.expiresAt := by
  simp only [callsInTurn, List.mem_cons, reduceCtorEq, BrowserEvent.serve.injEq, false_or,
    List.not_mem_nil, or_false] at h
  rcases h with ⟨rfl, -⟩ | ⟨rfl, -⟩ | ⟨rfl, -⟩ | ⟨rfl, -⟩ | ⟨rfl, -⟩ | ⟨rfl, -⟩ <;> decide

theorem single_flight_safe_callsInTurn :
    (callsInTurn.foldl (browserStep sampleLibraries {}) expiredTab).Safe sampleLibraries
      longSession ∧
    (callsInTurn.foldl (browserStep sampleLibraries {}) expiredTab).rotated.length = 2 :=
  ⟨(single_flight_safe {} secretAt_injective expiredTab_start callsInTurn_guarded
    callsInTurn_times).1, by decide +kernel⟩

/-- Both calls are answered 401 before either reads the stored refresh token. -/
def twoCalls : List BrowserEvent := [
  .call 0, .call 0, .serve (days 1) 0, .serve (days 1) 1, .receive 0, .receive 1,
  .serve (days 1) 0, .serve (days 1) 1]

theorem twoCalls_revoked :
    (∀ now index, .serve now index ∈ twoCalls → now < longSession.expiresAt) ∧
      ¬ (twoCalls.foldl (browserStep sampleLibraries {}) expiredTab).Safe sampleLibraries
        longSession := by
  refine ⟨?_, fun h => absurd h.reused (by decide +kernel)⟩
  intro now index hin
  simp only [twoCalls, List.mem_cons, reduceCtorEq, BrowserEvent.serve.injEq, false_or,
    List.not_mem_nil, or_false] at hin
  rcases hin with ⟨rfl, -⟩ | ⟨rfl, -⟩ | ⟨rfl, -⟩ | ⟨rfl, -⟩ <;> decide

end GnkAlgo
