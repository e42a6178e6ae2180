import GnkAlgo.Auth.OneTime
import GnkAlgo.Auth.Owners

/-!
# Tickets and the credentials that issued them

`websocket_ticket` and `_consume_ticket` of `backend/app/routers/market.py`.  A
ticket is checked against the session or the API key that issued it, as
`get_principal` checks them, but for one thing: `get_principal` looks at the expiry
of a key, `_consume_ticket` only at its status, which stays ACTIVE until the key is
next shown.

* `ticketStep` — requests of all routers that bear on users, sessions, keys and
  tickets;
* `MarketWsTicket.IssuerAccepted` — `get_principal` accepts what issued the ticket;
* `ExpiredKeyTicket` — a ticket that is good but for the expiry of its key;
* `ticket_worth_iff` — in every reachable state and at every time, a ticket that is
  accepted is worth no more than its credential exactly when it is no such ticket.
-/

namespace GnkAlgo

open Transition

/-! ## Handlers -/

/-- `websocket_ticket`. -/
def websocketTicket (lib : AuthLibraries) (seconds : ℤ) (now : Time) (d : AuthDatabase)
    (tickets : List MarketWsTicket) (credentials : RequestCredentials) :
    (AuthDatabase × List MarketWsTicket) × Except HttpError String :=
  match getPrincipal lib now d ["market:read"] credentials with
  | (d, .error e) => ((d, tickets), .error e)
  | (d, .ok principal) =>
    let raw := lib.secretAt d.drawn
    (({ d with nextUuid := d.nextUuid + 1, drawn := d.drawn + 1 },
      tickets ++ [{
        id := d.nextUuid
        tokenHash := lib.hashToken raw
        userId := principal.user.id
        sessionId := principal.sessionId
        apiKeyId := principal.apiKeyId
        expiresAt := now + seconds * 1000000 }]), .ok raw)

/-- The query of `_consume_ticket`. -/
def ticket? (lib : AuthLibraries) (tickets : List MarketWsTicket) (raw : String) :
    Option MarketWsTicket :=
  tickets.find? (·.tokenHash = lib.hashToken raw)

/-- `_consume_ticket`. -/
def consumeTicket (lib : AuthLibraries) (now : Time) (d : AuthDatabase)
    (tickets : List MarketWsTicket) (raw : String) : List MarketWsTicket × Option User :=
  match ticket? lib tickets raw with
  | none => (tickets, none)
  | some t =>
    if t.usedAt ≠ none ∨ t.expiresAt ≤ now ∨ ¬ ticketOwner now d t then (tickets, none)
    else (Rows.replaceBy MarketWsTicket.id { t with usedAt := some now } tickets, d.user? t.userId)

/-! ## Requests -/

/-- The tables, the tickets and the clock. -/
structure TicketRun where
  db : AuthDatabase
  tickets : List MarketWsTicket := []
  now : Time := 0

inductive TicketRequest
  | auth (request : AuthRequest)
  /-- Also the passing of time, any other request, and changes of role or activation. -/
  | keys (request : ApiKeyRequest)
  | issue (credentials : RequestCredentials)
  | stream (ticket : String)

/-- `ON DELETE CASCADE`: the tickets of a key go with it. -/
def cascadeTickets (d : AuthDatabase) (tickets : List MarketWsTicket) : List MarketWsTicket :=
  tickets.filter fun t => t.apiKeyId.all fun id => (d.apiKey? id).isSome

def ticketStep (lib : AuthLibraries) (settings : AuthSettings) (seconds : ℤ) (s : TicketRun) :
    TicketRequest → TicketRun
  | .auth request => { s with db := (authStep lib settings ⟨s.db, []⟩ ⟨s.now, request⟩).db }
  | .keys request =>
    let r := apiKeyStep lib ⟨s.db, s.now⟩ request
    { db := r.db, tickets := cascadeTickets r.db s.tickets, now := r.now }
  | .issue credentials =>
    let r := websocketTicket lib seconds s.now s.db s.tickets credentials
    { s with db := r.1.1, tickets := r.1.2 }
  | .stream ticket => { s with tickets := (consumeTicket lib s.now s.db s.tickets ticket).1 }

/-! ## What is asked -/

/-- Credentials of the session or the key that issued a ticket: a token of the session
that is good at the time, or the key with its secret. -/
inductive MarketWsTicket.IssuerShows (lib : AuthLibraries) (t : Time) (d : AuthDatabase)
    (ticket : MarketWsTicket) : RequestCredentials → Prop
  | session (token : AccessToken) (hsession : ticket.sessionId = some token.sid)
    (huser : ticket.userId = token.sub) (hgood : decodeAccessToken t token = some token) :
    IssuerShows lib t d ticket { bearer := some token }
  | apiKey (key : ApiKey) (secret : String) (hsession : ticket.sessionId = none)
    (hid : ticket.apiKeyId = some key.id) (hkey : key ∈ d.apiKeys)
    (hsecret : lib.apiDigest secret = key.secretHash) :
    IssuerShows lib t d ticket { apiKey := .key key.publicId secret }

/-- `get_principal` with the scope `market:read` accepts them, and there are such. -/
structure MarketWsTicket.IssuerAccepted (lib : AuthLibraries) (t : Time) (d : AuthDatabase)
    (ticket : MarketWsTicket) : Prop where
  shown : ∃ credentials, ticket.IssuerShows lib t d credentials
  accepted : ∀ credentials, ticket.IssuerShows lib t d credentials →
    ∃ principal, (getPrincipal lib t d ["market:read"] credentials).2 = .ok principal

/-- Whatever ticket is accepted is worth no more than what issued it. -/
def TicketRun.Worth (lib : AuthLibraries) (t : Time) (s : TicketRun) (raw : String) : Prop :=
  ∀ ticket, ticket? lib s.tickets raw = some ticket →
    (consumeTicket lib t s.db s.tickets raw).2 ≠ none → ticket.IssuerAccepted lib t s.db

/-- A ticket that may be used, of an ACTIVE key with the scope whose time is over. -/
structure ExpiredKeyTicket (lib : AuthLibraries) (t : Time) (s : TicketRun) (raw : String)
    (ticket : MarketWsTicket) (key : ApiKey) : Prop where
  found : ticket? lib s.tickets raw = some ticket
  unused : ticket.usedAt = none
  current : t < ticket.expiresAt
  owner : (s.db.user? ticket.userId).any User.isActive
  session : ticket.sessionId = none
  issuer : ticket.apiKeyId = some key.id
  mem : key ∈ s.db.apiKeys
  active : key.status = .active
  scope : "market:read" ∈ key.scopes
  expired : key.expiresAt.any (· ≤ t)

/-! ## Owners of tickets -/

/-- A ticket of a session or of a key, and of their owner. -/
inductive MarketWsTicket.IssuedIn (d : AuthDatabase) (ticket : MarketWsTicket) : Prop
  | session (id : Uuid) (hsession : ticket.sessionId = some id) (hlt : id < d.nextUuid)
    (howner : ∀ s ∈ d.sessions, s.id = id → s.userId = ticket.userId)
  | apiKey (id : Uuid) (hsession : ticket.sessionId = none) (hkey : ticket.apiKeyId = some id)
    (hlt : id < d.nextUuid) (howner : ∀ key ∈ d.apiKeys, key.id = id → key.userId = ticket.userId)

/-- What the requests keep. -/
structure TicketRun.Sound (lib : AuthLibraries) (s : TicketRun) : Prop where
  sessionTable : s.db.SessionTable
  keyTable : s.db.KeyTable lib
  tickets : ∀ ticket ∈ s.tickets, ticket.IssuedIn s.db

section Sound

variable {lib : AuthLibraries} {settings : AuthSettings} {seconds : ℤ} {s : TicketRun}
  {d d' : AuthDatabase} {ticket : MarketWsTicket}

/-- No later row has the id of another owner's. -/
theorem MarketWsTicket.IssuedIn.grows (h : ticket.IssuedIn d) (hgrows : d.Grows lib d') :
    ticket.IssuedIn d' := by
  cases h with
  | session id hsession hlt howner =>
    refine .session id hsession (hlt.trans_le hgrows.nextUuid) fun s' hs' hid => ?_
    rcases hgrows.sessions s' hs' with ⟨s, hs, hsame, huser⟩ | hnew
    · rw [huser]
      exact howner s hs (hsame.symm.trans hid)
    · exact absurd hnew (not_le.2 (hid ▸ hlt))
  | apiKey id hsession hkey hlt howner =>
    refine .apiKey id hsession hkey (hlt.trans_le hgrows.nextUuid) fun k' hk' hid => ?_
    rcases hgrows.keys k' hk' with ⟨k, hk, hsame, huser⟩ | hnew
    · rw [huser]
      exact howner k hk (hsame.symm.trans hid)
    · exact absurd hnew (not_le.2 (hid ▸ hlt))

theorem TicketRun.Sound.grows (h : s.Sound lib) (hgrows : s.db.Grows lib d')
    {tickets : List MarketWsTicket} (hsub : tickets ⊆ s.tickets) (now : Time) :
    TicketRun.Sound lib ⟨d', tickets, now⟩ where
  sessionTable := hgrows.sessionTable h.sessionTable
  keyTable := hgrows.keyTable h.keyTable
  tickets ticket hticket := (h.tickets ticket (hsub hticket)).grows hgrows

/-- **A principal** comes with a session or a key of its user. -/
theorem issuedIn_of_principal {now : Time} {scopes : List String} {credentials : RequestCredentials}
    {principal : Principal} (hsessions : d.SessionTable) (hkeys : d.KeyTable lib)
    (h : (getPrincipal lib now d scopes credentials).2 = .ok principal)
    (huser : ticket.userId = principal.user.id) (hsession : ticket.sessionId = principal.sessionId)
    (hkey : ticket.apiKeyId = principal.apiKeyId) : ticket.IssuedIn d := by
  unfold getPrincipal at h
  split at h
  · cases h
  · unfold apiKeyPrincipal at h
    split at h
    · cases h
    rename_i key hfind
    have hmem : key ∈ d.apiKeys := List.mem_of_find?_eq_some hfind
    have hsame := key.sameKey_expireIfDue now
    dsimp only at h
    split at h
    · cases h
    split at h
    · cases h
    split at h
    · cases h
    rename_i user hfound
    split at h
    · cases h
    · cases h
      refine .apiKey key.id hsession (hkey.trans (congrArg some hsame.id)) (hkeys.fresh key hmem) ?_
      intro k hk hid
      rw [List.inj_on_of_nodup_map hkeys.ids hk hmem hid, huser, ← hsame.userId]
      exact (AuthDatabase.user?_id hfound).symm
  · split at h
    · cases h
    unfold bearerPrincipal at h
    split at h
    · cases h
    dsimp only at h
    split at h
    · rename_i payload _ session user hfound huserFound
      split at h
      · cases h
      · rename_i hguard
        cases h
        obtain ⟨hmem, hid⟩ := AuthDatabase.session?_mem hfound
        refine .session session.id hsession (hsessions.fresh session hmem) fun x hx hxid => ?_
        rw [List.inj_on_of_nodup_map hsessions.ids hx hmem hxid, huser,
          AuthDatabase.user?_id huserFound]
        exact not_not.1 (not_or.1 hguard).1
    · cases h

/-- A ticket that is issued is a ticket of a principal. -/
theorem sound_websocketTicket (h : s.Sound lib) (credentials : RequestCredentials) :
    TicketRun.Sound lib ⟨(websocketTicket lib seconds s.now s.db s.tickets credentials).1.1,
      (websocketTicket lib seconds s.now s.db s.tickets credentials).1.2, s.now⟩ := by
  have hgrows := grows_getPrincipal lib s.now s.db ["market:read"] credentials
  have hissued : ∀ principal : Principal,
      (getPrincipal lib s.now s.db ["market:read"] credentials).2 = .ok principal →
      ∀ ticket : MarketWsTicket, ticket.userId = principal.user.id →
        ticket.sessionId = principal.sessionId → ticket.apiKeyId = principal.apiKeyId →
        ticket.IssuedIn s.db := fun _ hok _ =>
    issuedIn_of_principal h.sessionTable h.keyTable hok
  unfold websocketTicket
  generalize getPrincipal lib s.now s.db ["market:read"] credentials = r at hgrows hissued ⊢
  obtain ⟨d', e | principal⟩ := r
  · exact h.grows hgrows (List.Subset.refl _) s.now
  · have hnext : d'.Grows lib { d' with nextUuid := d'.nextUuid + 1, drawn := d'.drawn + 1 } :=
      .of_rows rfl rfl (Nat.le_succ _)
    have hdone := hgrows.trans hnext
    have hold := h.grows hdone (List.Subset.refl _) s.now
    refine ⟨hold.sessionTable, hold.keyTable, fun ticket hticket => ?_⟩
    rcases List.mem_append.1 hticket with hmem | hnew
    · exact hold.tickets ticket hmem
    · rw [List.mem_singleton.1 hnew]
      exact (hissued principal rfl _ rfl rfl rfl).grows hdone

theorem MarketWsTicket.IssuedIn.used (h : ticket.IssuedIn d) (now : Time) :
    ({ ticket with usedAt := some now } : MarketWsTicket).IssuedIn d := by
  cases h with
  | session id hsession hlt howner => exact .session id hsession hlt howner
  | apiKey id hsession hkey hlt howner => exact .apiKey id hsession hkey hlt howner

theorem sound_ticketStep (h : s.Sound lib) (request : TicketRequest) :
    (ticketStep lib settings seconds s request).Sound lib := by
  cases request with
  | auth request =>
    exact h.grows (grows_authStep lib settings ⟨s.db, []⟩ ⟨s.now, request⟩) (List.Subset.refl _) _
  | keys request =>
    exact h.grows (grows_handle lib s.now s.db request) (fun _ => List.mem_of_mem_filter) _
  | issue credentials => exact sound_websocketTicket h credentials
  | stream raw =>
    refine ⟨h.sessionTable, h.keyTable, fun ticket hticket => ?_⟩
    unfold ticketStep consumeTicket at hticket
    dsimp only at hticket
    split at hticket
    · exact h.tickets ticket hticket
    rename_i found hfound
    split at hticket
    · exact h.tickets ticket hticket
    · rcases Rows.mem_replaceBy hticket with rfl | ⟨hmem, -⟩
      · exact (h.tickets found (List.mem_of_find?_eq_some hfound)).used s.now
      · exact h.tickets ticket hmem

end Sound

/-! ## Worth of a ticket -/

section Worth

variable {lib : AuthLibraries} {t : Time} {s : TicketRun} {raw : String} {ticket : MarketWsTicket}
  {key : ApiKey}

/-- What `_consume_ticket` asks. -/
theorem consumeTicket_accepts (hfound : ticket? lib s.tickets raw = some ticket) :
    (consumeTicket lib t s.db s.tickets raw).2 ≠ none ↔
      ticket.usedAt = none ∧ t < ticket.expiresAt ∧ ticketOwner t s.db ticket := by
  unfold consumeTicket
  rw [hfound]
  dsimp only
  split
  · rename_i hrefused
    refine ⟨fun h => absurd rfl h, ?_⟩
    rintro ⟨hunused, hcurrent, howner⟩
    rcases hrefused with hused | hlate | hnot
    · exact absurd hunused hused
    · exact absurd hcurrent (not_lt.2 hlate)
    · exact absurd howner hnot
  · rename_i hgood
    obtain ⟨hunused, hgood⟩ := not_or.1 hgood
    obtain ⟨hcurrent, howner⟩ := not_or.1 hgood
    refine ⟨fun _ => ⟨not_not.1 hunused, not_le.1 hcurrent, not_not.1 howner⟩, fun _ hnone => ?_⟩
    have hactive := not_not.1 howner
    dsimp only at hnone
    unfold ticketOwner at hactive
    rw [hnone] at hactive
    cases hactive

theorem ticketOwner_session {id : Uuid} (hsession : ticket.sessionId = some id) :
    ticketOwner t s.db ticket ↔ (s.db.user? ticket.userId).any User.isActive ∧
      (s.db.session? id).any fun session => session.revokedAt = none ∧ t < session.expiresAt := by
  unfold ticketOwner
  rw [hsession, Bool.and_eq_true]

theorem ticketOwner_apiKey {id : Uuid} (hsession : ticket.sessionId = none)
    (hkey : ticket.apiKeyId = some id) :
    ticketOwner t s.db ticket ↔ (s.db.user? ticket.userId).any User.isActive ∧
      (s.db.apiKey? id).any fun key => key.status = .active ∧ "market:read" ∈ key.scopes := by
  unfold ticketOwner
  rw [hsession, hkey, Bool.and_eq_true]
  rfl

/-- A session whose ticket is accepted is accepted. -/
theorem issuerAccepted_session {id : Uuid} (hsession : ticket.sessionId = some id)
    (howned : ∀ x ∈ s.db.sessions, x.id = id → x.userId = ticket.userId)
    (h : ticketOwner t s.db ticket) : ticket.IssuerAccepted lib t s.db := by
  obtain ⟨hactive, hgood⟩ := (ticketOwner_session hsession).1 h
  obtain ⟨user, huser, hactive⟩ := (Option.any_eq_true _ _).1 hactive
  obtain ⟨session, hfound, hgood⟩ := (Option.any_eq_true _ _).1 hgood
  obtain ⟨hunrevoked, hunexpired⟩ := of_decide_eq_true hgood
  obtain ⟨hmem, hid⟩ := AuthDatabase.session?_mem hfound
  have howner := howned session hmem hid
  refine ⟨⟨_, .session ⟨ticket.userId, id, .retail, t, t + 1⟩ hsession rfl (if_neg ?_)⟩, ?_⟩
  · exact not_or.2 ⟨not_le.2 (Int.lt_succ t), lt_irrefl t⟩
  · rintro credentials (⟨token, htoken, hsub, hdecode⟩ | ⟨key, secret, hnone, -, -, -⟩)
    · obtain rfl := Option.some.inj (hsession.symm.trans htoken)
      exact getPrincipal_accepts hdecode hfound (hsub ▸ huser) hactive (hsub ▸ howner) hunrevoked
        hunexpired
    · exact nomatch hsession.symm.trans hnone

/-- The answer to a key of the table that is shown with its secret. -/
theorem getPrincipal_key {secret : String} (hkeys : s.db.KeyTable lib) (hmem : key ∈ s.db.apiKeys)
    (hactive : key.status = .active) (hsecret : lib.apiDigest secret = key.secretHash)
    (hscope : "market:read" ∈ key.scopes)
    (huser : (s.db.user? key.userId).any User.isActive) :
    (∃ principal, (getPrincipal lib t s.db ["market:read"]
      { apiKey := .key key.publicId secret }).2 = .ok principal) ↔
        ¬ key.expiresAt.any (· ≤ t) := by
  obtain ⟨user, huser, hin⟩ := (Option.any_eq_true _ _).1 huser
  have hfind : s.db.apiKeys.find? (·.publicId = key.publicId) = some key :=
    Rows.find?_key hkeys.publicIds hmem
  unfold getPrincipal apiKeyPrincipal
  dsimp only
  rw [hfind]
  dsimp only
  by_cases hexpired : key.expiresAt.any (· ≤ t)
  · have hdue : key.expireIfDue t = { key with status := .expired } := if_pos ⟨hexpired, hactive⟩
    have hrefused : ApiKeyStatus.expired ≠ .active ∨ lib.apiDigest secret ≠ key.secretHash :=
      Or.inl (by decide)
    rw [hdue, if_pos hrefused]
    exact ⟨fun ⟨_, h⟩ => (nomatch h), fun h => absurd hexpired h⟩
  · have hdue : key.expireIfDue t = key := if_neg fun h => hexpired h.1
    have hvalid : ¬ (key.status ≠ .active ∨ lib.apiDigest secret ≠ key.secretHash) := by
      simp [hactive, hsecret]
    have hscopes : ¬ ∃ scope ∈ ["market:read"], scope ∉ key.scopes := by simp [hscope]
    have hfound : (s.db.setApiKey key).user? key.userId = some user := huser
    rw [hdue, if_neg hvalid, if_neg hscopes, hfound]
    dsimp only
    rw [if_neg (not_not.2 hin)]
    exact ⟨fun _ => hexpired, fun _ => ⟨_, rfl⟩⟩

/-- **A ticket of a key that is over is accepted**, and its key is not. -/
theorem ExpiredKeyTicket.divergence (h : ExpiredKeyTicket lib t s raw ticket key)
    (hs : s.Sound lib) : (consumeTicket lib t s.db s.tickets raw).2 ≠ none ∧
      ¬ ticket.IssuerAccepted lib t s.db := by
  have hkey : s.db.apiKey? key.id = some key := Rows.find?_key hs.keyTable.ids h.mem
  have howner : ticketOwner t s.db ticket := by
    rw [ticketOwner_apiKey h.session h.issuer, hkey]
    exact ⟨h.owner, decide_eq_true ⟨h.active, h.scope⟩⟩
  refine ⟨(consumeTicket_accepts h.found).2 ⟨h.unused, h.current, howner⟩, fun haccepted => ?_⟩
  obtain ⟨secret, hsecret⟩ := hs.keyTable.secrets key h.mem
  have hlet := haccepted.accepted _ (.apiKey key secret h.session h.issuer h.mem hsecret)
  have huser : key.userId = ticket.userId := by
    rcases hs.tickets ticket (List.mem_of_find?_eq_some h.found) with
      ⟨id, hsession, -, -⟩ | ⟨id, -, hissuer, -, howned⟩
    · exact nomatch h.session.symm.trans hsession
    · exact howned key h.mem (Option.some.inj (h.issuer.symm.trans hissuer))
  exact (getPrincipal_key hs.keyTable h.mem h.active hsecret h.scope (huser ▸ h.owner)).1 hlet
    h.expired

theorem issuerAccepted_of_accepts (hs : s.Sound lib)
    (hfound : ticket? lib s.tickets raw = some ticket)
    (haccepts : (consumeTicket lib t s.db s.tickets raw).2 ≠ none)
    (hnot : ¬ ∃ key, ExpiredKeyTicket lib t s raw ticket key) : ticket.IssuerAccepted lib t s.db := by
  obtain ⟨hunused, hcurrent, howner⟩ := (consumeTicket_accepts hfound).1 haccepts
  rcases hs.tickets ticket (List.mem_of_find?_eq_some hfound) with
    ⟨id, hsession, -, howned⟩ | ⟨id, hsession, hissuer, -, howned⟩
  · exact issuerAccepted_session hsession howned howner
  obtain ⟨hactive, hgood⟩ := (ticketOwner_apiKey hsession hissuer).1 howner
  obtain ⟨key, hkey, hgood⟩ := (Option.any_eq_true _ _).1 hgood
  obtain ⟨hstatus, hscope⟩ := of_decide_eq_true hgood
  have hmem : key ∈ s.db.apiKeys := List.mem_of_find?_eq_some hkey
  have hid : key.id = id := by simpa using List.find?_some hkey
  have huser := howned key hmem hid
  have hcurrentKey : ¬ key.expiresAt.any (· ≤ t) := fun hexpired =>
    hnot ⟨key, hfound, hunused, hcurrent, hactive, hsession, hid ▸ hissuer, hmem, hstatus, hscope,
      hexpired⟩
  obtain ⟨secret, hsecret⟩ := hs.keyTable.secrets key hmem
  refine ⟨⟨_, .apiKey key secret hsession (hid ▸ hissuer) hmem hsecret⟩, ?_⟩
  rintro credentials (⟨token, htoken, -, -⟩ | ⟨other, secret', -, hother, hmem', hsecret'⟩)
  · exact nomatch hsession.symm.trans htoken
  · have hsame : other.id = key.id :=
      (Option.some.inj (hissuer.symm.trans hother)).symm.trans hid.symm
    obtain rfl := List.inj_on_of_nodup_map hs.keyTable.ids hmem' hmem hsame
    exact (getPrincipal_key hs.keyTable hmem hstatus hsecret' hscope (huser ▸ hactive)).2
      hcurrentKey

end Worth

/-- **Tickets and their credentials.**  In every state that requests lead to, and at
every time, whatever ticket is accepted comes from a session or a key that
`get_principal` accepts, exactly when no ticket of a key whose time is over is shown. -/
theorem ticket_worth_iff {lib : AuthLibraries} {settings : AuthSettings} {seconds : ℤ}
    {s : TicketRun} (hsessions : s.db.sessions = []) (hkeys : s.db.apiKeys = [])
    (htickets : s.tickets = []) (requests : List TicketRequest) (t : Time) (raw : String) :
    (requests.foldl (ticketStep lib settings seconds) s).Worth lib t raw ↔
      ¬ ∃ ticket key, ExpiredKeyTicket lib t (requests.foldl (ticketStep lib settings seconds) s)
        raw ticket key := by
  have hstart : s.Sound lib := by
    refine ⟨⟨?_, ?_⟩, ⟨?_, ?_, ?_, ?_⟩, ?_⟩
    · rw [hsessions]; exact List.nodup_nil
    · rw [hsessions]; exact List.forall_mem_nil _
    · rw [hkeys]; exact List.nodup_nil
    · rw [hkeys]; exact List.nodup_nil
    · rw [hkeys]; exact List.forall_mem_nil _
    · rw [hkeys]; exact List.forall_mem_nil _
    · rw [htickets]; exact List.forall_mem_nil _
  have hrun := run_foldl (ticketStep lib settings seconds) s requests
  generalize requests.foldl (ticketStep lib settings seconds) s = t' at hrun ⊢
  have hsound : t'.Sound lib := hrun.invariant hstart fun _ request _ hs h =>
    h ▸ sound_ticketStep hs request
  constructor
  · rintro h ⟨ticket, key, hexpired⟩
    obtain ⟨haccepts, hnot⟩ := hexpired.divergence hsound
    exact hnot (h ticket hexpired.found haccepts)
  · intro h ticket hfound haccepts
    exact issuerAccepted_of_accepts hsound hfound haccepts fun ⟨key, hkey⟩ => h ⟨ticket, key, hkey⟩

/-- A user makes a key for ten seconds, and asks for a ticket with it at once. -/
def briefKeyRequests : List TicketRequest := [
  .auth (.login "u@example.com" "pw" none),
  .keys (.create { bearer := some ⟨0, 1, .retail, 0, minutes 15⟩ } ["market:read"]
    (some 10000000) ⟨"abc", "s"⟩),
  .issue { apiKey := .key "abc" "s" }]

def briefKeyRun : TicketRun :=
  briefKeyRequests.foldl (ticketStep sampleLibraries {} 30) { db := sampleUsers }

def briefKey : ApiKey where
  id := 2
  userId := 0
  publicId := "abc"
  secretHash := "%s"
  scopes := ["market:read"]
  expiresAt := some 10000000
  lastUsedAt := some 0

def briefKeyTicket : MarketWsTicket where
  id := 3
  tokenHash := sampleDigest "a"
  userId := 0
  apiKeyId := some 2
  expiresAt := 30000000

/-- After twenty seconds the key is refused, and its ticket accepted. -/
theorem ticket_outlives_key : ¬ ∀ (lib : AuthLibraries) (settings : AuthSettings) (seconds : ℤ)
    (s : TicketRun), s.db.sessions = [] → s.db.apiKeys = [] → s.tickets = [] →
    ∀ (requests : List TicketRequest) (t : Time) (raw : String),
      (requests.foldl (ticketStep lib settings seconds) s).Worth lib t raw := by
  intro h
  have hworth : briefKeyRun.Worth sampleLibraries 20000000 "a" :=
    h sampleLibraries {} 30 { db := sampleUsers } rfl rfl rfl briefKeyRequests _ _
  have hmem : briefKey ∈ briefKeyRun.db.apiKeys := by decide +kernel
  have haccepted := hworth briefKeyTicket (by decide +kernel) (by decide +kernel)
  obtain ⟨principal, hlet⟩ := haccepted.accepted _ (.apiKey briefKey "s" rfl rfl hmem rfl)
  have hrefused : (getPrincipal sampleLibraries 20000000 briefKeyRun.db ["market:read"]
      { apiKey := .key "abc" "s" }).2.toOption = none := by decide +kernel
  rw [show (getPrincipal sampleLibraries 20000000 briefKeyRun.db ["market:read"]
      { apiKey := .key "abc" "s" }).2 = .ok principal from hlet] at hrefused
  exact nomatch hrefused

/-- After five seconds both are accepted. -/
theorem ticket_worth_iff_briefKey : briefKeyRun.Worth sampleLibraries 5000000 "a" := by
  refine (ticket_worth_iff (s := { db := sampleUsers }) rfl rfl rfl briefKeyRequests _ _).2 ?_
  rintro ⟨ticket, key, h⟩
  have hkeys : ∀ key ∈ briefKeyRun.db.apiKeys, ¬ key.expiresAt.any (· ≤ 5000000) := by
    decide +kernel
  exact hkeys key h.mem h.expired

end GnkAlgo
